import Httpuv.Http.InputBuffers
import Httpuv.Http.ResponseFraming

/-! A compressed body over any source: one stream, put out in full, and the input buffers
handed back. -/
namespace Httpuv

open HeldSource

section Streaming

variable {Source : Type} [DataSource Source] [Zlib]

/-- The bytes of the buffers that have been returned. -/
def putOut (bufs : List OutputBuf) : Bytes := (bufs.map OutputBuf.written).flatten

/-- What calls of `getData` have done when they have returned these buffers. -/
structure Streamed (source : Source) (bufs : List OutputBuf) (after : HeldSource Source) : Prop where
  written : ∀ buf ∈ bufs, buf.len = buf.written.length
  answers : Answers source (after.log.filterMap BufferEvent.data) after.gz.pData
  deflated : ∃ consumed, DeflateRun after.gz.state consumed (putOut bufs) after.gz.zstrm ∧
    consumed ++ after.gz.nextIn = (after.log.filterMap BufferEvent.data).flatten
  finished : after.gz.state = .done → ∃ buffers,
    after.log.filterMap BufferEvent.data = buffers ++ [[]] ∧ (∀ data ∈ buffers, data ≠ []) ∧
      Deflated buffers.flatten (putOut bufs)
  empty : ∀ buf ∈ bufs, buf.len = 0 → after.gz.state = .done
  unread : ∀ number unread, .released number unread ∈ after.log → unread = []
  destroyed : after.destroy.log.filterMap BufferEvent.freed =
    after.log.filterMap BufferEvent.owned
  once : (after.log.filterMap BufferEvent.owned).Nodup

end Streaming

namespace InMemoryDataSource

/-- A body in memory is handed over piece by piece. -/
theorem exhausts (source : InMemoryDataSource) : Exhausts source := by
  induction hLeft : source.buffer.length - source.pos using Nat.strongRecOn generalizing source with
  | ind left ih =>
      refine .intro (fun size _ => ⟨_, _, rfl, ?_⟩) ?_
      · rw [List.length_take]
        omega
      · intro size buf after hSize hData hBuf
        obtain ⟨hTaken, rfl⟩ := Prod.mk.inj (Option.some.inj hData)
        refine ih _ ?_ _ rfl
        have hSome : 0 < buf.length := List.length_pos_iff.2 hBuf
        rw [← hTaken, List.length_take, List.length_drop] at hSome
        dsimp only
        omega

end InMemoryDataSource

namespace HeaderFirst

open HttpResponse HttpResponse.SampleStream

/-- What can be put out before anything is read. -/
def pending (stream : SampleStream) : Bytes :=
  stream.pending ++ if stream.started then [] else header

/-- A compressor that reads nothing while its header is pending. -/
def deflate (stream : SampleStream) (finish : Bool) (input : Bytes) (availOut : Nat) :
    DeflateResult SampleStream :=
  if finish = false ∧ availOut < (pending stream).length then
    { stream := { stream with
        started := true, pending := (pending stream).drop availOut
        written := stream.written + availOut }
      consumed := 0
      output := (pending stream).take availOut
      code := .ok }
  else stream.deflate finish input availOut

@[reducible] def zlib : Zlib where
  Stream := SampleStream
  deflateInit2 := SampleStream.zlib.deflateInit2
  deflate := deflate

theorem total_eq (stream : SampleStream) : total stream = stream.written + (pending stream).length := by
  have hHeader : header.length = 10 := rfl
  rw [total, pending, List.length_append]
  split_ifs
  · rw [List.length_nil, Nat.add_assoc]
  · rw [hHeader, Nat.add_assoc]

/-- The stream behind a call, and what its result says of it. -/
structure Told (stream : SampleStream) (input : Bytes) (availOut : Nat)
    (res : DeflateResult SampleStream) : Prop where
  consumed_le : res.consumed ≤ input.length
  output_le : res.output.length ≤ availOut
  totalIn : res.stream.input.length = stream.input.length + res.consumed
  totalOut : res.stream.written = stream.written + res.output.length

theorem told (stream : SampleStream) (finish : Bool) (input : Bytes) (availOut : Nat) :
    Told stream input availOut (deflate stream finish input availOut) := by
  unfold deflate
  split_ifs with hHeld
  · have hOutput : ((pending stream).take availOut).length = availOut := by
      rw [List.length_take]
      omega
    exact ⟨Nat.zero_le _, hOutput.le, rfl, congrArg (stream.written + ·) hOutput.symm⟩
  · exact ⟨le_rfl, List.length_take_le availOut _, List.length_append, rfl⟩

theorem progress (stream : SampleStream) {input : Bytes} {availOut : Nat}
    (hStreaming : stream.queued = false ∧ total stream ≤ 10) (hInput : input ≠ [])
    (hOut : 0 < availOut) :
    (deflate stream false input availOut).code = .ok ∧
      ((deflate stream false input availOut).stream.queued = false ∧
        total (deflate stream false input availOut).stream ≤ 10) ∧
      (0 < (deflate stream false input availOut).consumed ∨
        (deflate stream false input availOut).output ≠ []) := by
  unfold deflate
  split_ifs with hHeld
  · have hTotal := total_eq stream
    refine ⟨rfl, ⟨hStreaming.1, ?_⟩, Or.inr ?_⟩
    · have hRest : ∀ rest written, total { stream with
          started := true, pending := rest, written := written } = written + rest.length :=
        fun _ _ => rfl
      rw [hRest, List.length_drop]
      omega
    · apply List.ne_nil_of_length_pos
      rw [List.length_take]
      omega
  · exact @ZlibContract.progress SampleStream.zlib SampleStream.contract stream input availOut
      hStreaming hInput hOut

@[reducible] def contract : @ZlibContract zlib :=
  let _ : Zlib := zlib
  { streaming := fun stream : SampleStream => stream.queued = false ∧ total stream ≤ 10
    finishing := fun stream : SampleStream =>
      stream.queued = true ∧ total stream ≤ stream.input.length + 20
    totalIn := fun stream : SampleStream => stream.input.length
    totalOut := fun stream : SampleStream => stream.written
    deflateBound := fun n => n + 20
    deflateInit2 := ⟨_, rfl, rfl, le_rfl⟩
    consumed_le := fun stream finish input availOut => (told stream finish input availOut).consumed_le
    output_le := fun stream finish input availOut => (told stream finish input availOut).output_le
    totalIn_eq := fun stream finish input availOut => (told stream finish input availOut).totalIn
    totalOut_eq := fun stream finish input availOut => (told stream finish input availOut).totalOut
    totalOut_le := @ZlibContract.totalOut_le SampleStream.zlib SampleStream.contract
    progress := fun stream _ _ => progress stream
    finish := by
      intro (stream : SampleStream) availOut hStream hOut
      have hElse : deflate stream true [] availOut = stream.deflate true [] availOut :=
        if_neg (by simp)
      have hFinish := @ZlibContract.finish SampleStream.zlib SampleStream.contract stream availOut
        hStream hOut
      change (deflate stream true [] availOut).code = .streamEnd ∨
        (deflate stream true [] availOut).code = .ok ∧ _ ∧
          (deflate stream true [] availOut).output.length = availOut
      rw [hElse]
      exact hFinish }

end HeaderFirst

/-- **A compressed body is put out in full**, whatever sizes of 32 bits are asked for. The
stream ends, and what `ExtendedWrite` gets is all of it. -/
theorem compressed_in_full {Source : Type} [DataSource Source] [Zlib] (contract : ZlibContract)
    {source : Source} (hSource : Exhausts source) (hasBase : Source → Nat → Bool) :
    ∃ held, HeldSource.construct source = some held ∧ Ends hasBase held ∧
      (∀ sizes : List Nat, (∀ size ∈ sizes, 0 < size ∧ size < 2 ^ 32) →
        ∃ bufs after, held.requests hasBase sizes = some (bufs, after) ∧
          Streamed source bufs after) ∧
      ∃ outputs buffers last, Delivers held.gz outputs ∧ Answers source (buffers ++ [[]]) last ∧
        (∀ data ∈ buffers, data ≠ []) ∧ Deflated buffers.flatten outputs.flatten := by
  obtain ⟨held, hConstruct, -, hSound⟩ := Sound.construct contract hSource
  have hEnds : Ends hasBase held := hSound.ends
  refine ⟨held, hConstruct, hEnds, ?_, hSound.delivers hEnds⟩
  intro sizes hSizes
  obtain ⟨bufs, after, hCalls, hAfter, hWritten, -, hEmpty⟩ := hSound.requests hasBase hSizes
  obtain ⟨hFreed, hOnce, -⟩ := hAfter.destroy
  exact ⟨bufs, after, hCalls,
    { written := hWritten, answers := hAfter.answers, deflated := hAfter.deflated
      finished := fun hDone => hAfter.finished hDone, empty := hEmpty
      unread := fun number unread hMem => hAfter.unread _ hMem
      destroyed := hFreed, once := hOnce }⟩

/-- A body of two bytes. -/
def twoBytes : InMemoryDataSource where
  buffer := [0x68, 0x69]
  pos := 0

/-- The first byte alone, and then the rest. -/
theorem compressed_in_full_two_bytes :
    let _ : Zlib := HeaderFirst.zlib
    ∃ held bufs after, HeldSource.construct twoBytes = some held ∧
      held.requests (fun _ _ => false) [1, 65536, 65536] = some (bufs, after) ∧
      Streamed twoBytes bufs after := by
  intro zlib
  obtain ⟨held, hConstruct, -, hRuns, -⟩ :=
    compressed_in_full HeaderFirst.contract twoBytes.exhausts (fun _ _ => false)
  obtain ⟨bufs, after, hCalls, hStreamed⟩ := hRuns [1, 65536, 65536] (by decide)
  exact ⟨held, bufs, after, hConstruct, hCalls, hStreamed⟩

/-- The destructor hands back a buffer that has not been read, and a size of 33 bits
returns what has not been written. -/
theorem input_buffer_unread :
    let _ : Zlib := HeaderFirst.zlib
    Nonempty ZlibContract ∧ Exhausts twoBytes ∧ ∃ held, HeldSource.construct twoBytes = some held ∧
      (∃ bufs after, held.requests (fun _ _ => false) [1] = some (bufs, after) ∧
        .released 0 [0x68] ∈ after.destroy.log) ∧
      ∃ buf after, held.getData (fun _ _ => false) (2 ^ 32) = some (buf, after) ∧
        buf.written = [] ∧ buf.len = 2 ^ 32 := by
  intro zlib
  let fresh : HttpResponse.SampleStream :=
    { started := false, queued := false, input := [], pending := [], written := 0 }
  let held : HeldSource InMemoryDataSource :=
    { gz := { pData := twoBytes, zstrm := fresh, nextIn := [], state := .streaming }
      inputBuf := none, count := 0, log := [] }
  refine ⟨⟨HeaderFirst.contract⟩, twoBytes.exhausts, held, rfl, ?_, ?_⟩
  · let started : HttpResponse.SampleStream :=
      { started := true, queued := false, input := []
        pending := HttpResponse.SampleStream.header.drop 1, written := 1 }
    let after : HeldSource InMemoryDataSource :=
      { gz := { pData := { twoBytes with pos := 1 }, zstrm := started, nextIn := [0x68]
                state := .streaming }
        inputBuf := some 0, count := 1, log := [.received 0 [0x68] true] }
    have hFill : held.fill (fun _ _ => false) 1 [] (1 % 2 ^ 32) = some ([0x1f], 0, after) :=
      (fill_turn ⟨by decide, by decide⟩ rfl rfl []).trans (fill_stop (by decide) _)
    have hCall : held.getData (fun _ _ => false) 1 = some ({ written := [0x1f], len := 1 }, after) := by
      rw [HeldSource.getData, if_neg (by decide), hFill]
      rfl
    refine ⟨[{ written := [0x1f], len := 1 }], after, ?_, by decide⟩
    rw [HeldSource.requests, hCall]
    rfl
  · have hFill : held.fill (fun _ _ => false) (2 ^ 32) [] (2 ^ 32 % 2 ^ 32) = some ([], 0, held) :=
      fill_stop (by decide) _
    refine ⟨{ written := [], len := 2 ^ 32 }, held, ?_, rfl, rfl⟩
    rw [HeldSource.getData, if_neg (by decide), hFill]
    rfl

end Httpuv
