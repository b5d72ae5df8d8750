import Httpuv.Http.DataSource
import Mathlib.Tactic

/-! `GZipDataSource`: a body compressed while it is read. The compressor is
zlib, of which only its documented behaviour is assumed. -/
namespace Httpuv

/-- The result codes that are told apart. -/
inductive DeflateCode where
  | ok
  | streamEnd
  | error
  deriving DecidableEq, Repr

structure DeflateResult (Stream : Type) where
  stream : Stream
  consumed : Nat
  output : Bytes
  code : DeflateCode

/-- The two functions of zlib that are called, on the stream's own state. The
flag of `deflate` is `Z_FINISH`, and the buffers are passed by value. -/
class Zlib where
  Stream : Type
  deflateInit2 : Option Stream
  deflate : Stream → Bool → Bytes → Nat → DeflateResult Stream

/-- The documented behaviour of zlib that a caller relies on. A stream is
`streaming` until `Z_FINISH` is used. -/
structure ZlibContract [Zlib] where
  streaming : Zlib.Stream → Prop
  finishing : Zlib.Stream → Prop
  totalIn : Zlib.Stream → Nat
  totalOut : Zlib.Stream → Nat
  deflateBound : Nat → Nat
  deflateInit2 : ∃ stream, Zlib.deflateInit2 = some stream ∧ streaming stream
  consumed_le : ∀ stream finish input availOut,
    (Zlib.deflate stream finish input availOut).consumed ≤ input.length
  output_le : ∀ stream finish input availOut,
    (Zlib.deflate stream finish input availOut).output.length ≤ availOut
  totalIn_eq : ∀ stream finish input availOut,
    totalIn (Zlib.deflate stream finish input availOut).stream =
      totalIn stream + (Zlib.deflate stream finish input availOut).consumed
  totalOut_eq : ∀ stream finish input availOut,
    totalOut (Zlib.deflate stream finish input availOut).stream =
      totalOut stream + (Zlib.deflate stream finish input availOut).output.length
  totalOut_le : ∀ stream, streaming stream ∨ finishing stream →
    totalOut stream ≤ deflateBound (totalIn stream)
  progress : ∀ stream input availOut, streaming stream → input ≠ [] → 0 < availOut →
    (Zlib.deflate stream false input availOut).code = .ok ∧
      streaming (Zlib.deflate stream false input availOut).stream ∧
      (0 < (Zlib.deflate stream false input availOut).consumed ∨
        (Zlib.deflate stream false input availOut).output ≠ [])
  finish : ∀ stream availOut, streaming stream ∨ finishing stream → 0 < availOut →
    (Zlib.deflate stream true [] availOut).code = .streamEnd ∨
      (Zlib.deflate stream true [] availOut).code = .ok ∧
        finishing (Zlib.deflate stream true [] availOut).stream ∧
        (Zlib.deflate stream true [] availOut).output.length = availOut

inductive GDState where
  | streaming
  | finishing
  | done
  deriving DecidableEq, Repr

/-- `nextIn` is the unread part of the input buffer. -/
structure GZipDataSource (Source : Type) [Zlib] where
  pData : Source
  zstrm : Zlib.Stream
  nextIn : Bytes
  state : GDState

namespace GZipDataSource

variable {Source : Type} [Zlib]

/-- The constructor throws when zlib cannot be initialised. -/
def construct (pData : Source) : Option (GZipDataSource Source) := do
  let zstrm ← Zlib.deflateInit2
  return { pData, zstrm, nextIn := [], state := .streaming }

/-- It should never be called. -/
def size (_ : GZipDataSource Source) : Nat := 0

def deflateNext (gz : GZipDataSource Source) (availOut : Nat) :
    Option (GZipDataSource Source × Bytes) :=
  let res := Zlib.deflate gz.zstrm (gz.state = .finishing) gz.nextIn availOut
  let gz := { gz with zstrm := res.stream, nextIn := gz.nextIn.drop res.consumed }
  match res.code with
  | .streamEnd => some ({ gz with state := .done }, res.output)
  | .ok => some (gz, res.output)
  | .error => none

variable [DataSource Source]

/-- Ask the wrapped source for more input. `avail_in` is a 32-bit number. -/
def refill (gz : GZipDataSource Source) (bytesDesired : Nat) : Option (GZipDataSource Source) :=
  if gz.state = .streaming ∧ gz.nextIn = [] then do
    let (buf, pData) ← DataSource.getData gz.pData bytesDesired
    return { gz with
      pData
      nextIn := buf.take (buf.length % 2 ^ 32)
      state := if buf = [] then .finishing else .streaming }
  else some gz

/-- One turn of the loop of `getData`, which goes on or stops with the bytes
written. -/
def turn (bytesDesired : Nat) (loop : GZipDataSource Source × Bytes × Nat) :
    Option ((GZipDataSource Source × Bytes × Nat) ⊕ (Bytes × GZipDataSource Source)) :=
  let (gz, written, availOut) := loop
  if 0 < availOut ∧ gz.state ≠ .done then do
    let gz ← gz.refill bytesDesired
    let (gz, output) ← gz.deflateNext availOut
    return .inl (gz, written ++ output, availOut - output.length)
  else some (.inr (written, gz))

/-- The loop of `getData`. -/
def fill (bytesDesired : Nat) (gz : GZipDataSource Source) (written : Bytes) (availOut : Nat) :
    Option (Bytes × GZipDataSource Source) :=
  have : Nonempty (Bytes × GZipDataSource Source) := ⟨written, gz⟩
  repeatM (turn bytesDesired) (gz, written, availOut)

def getData (gz : GZipDataSource Source) (bytesDesired : Nat) :
    Option (Bytes × GZipDataSource Source) :=
  if gz.state = .done then some ([], gz) else fill bytesDesired gz [] bytesDesired

instance : DataSource (GZipDataSource Source) where
  size := size
  getData := getData

/-- A turn that goes on. -/
theorem fill_turn {bytesDesired availOut : Nat} {gz filled next : GZipDataSource Source}
    {output : Bytes} (hGo : 0 < availOut ∧ gz.state ≠ .done)
    (hRefill : gz.refill bytesDesired = some filled)
    (hDeflate : filled.deflateNext availOut = some (next, output)) (written : Bytes) :
    fill bytesDesired gz written availOut =
      fill bytesDesired next (written ++ output) (availOut - output.length) := by
  have hTurn : turn bytesDesired (gz, written, availOut) =
      some (.inl (next, written ++ output, availOut - output.length)) := by
    simp [turn, if_pos hGo, hRefill, hDeflate]
  have : Nonempty (Bytes × GZipDataSource Source) := ⟨written, gz⟩
  rw [fill, repeatM_eq_of_monadTail, repeatM.body, hTurn]
  rfl

/-- A full output buffer or a finished stream. -/
theorem fill_stop {bytesDesired availOut : Nat} {gz : GZipDataSource Source}
    (hStop : ¬ (0 < availOut ∧ gz.state ≠ .done)) (written : Bytes) :
    fill bytesDesired gz written availOut = some (written, gz) := by
  have : Nonempty (Bytes × GZipDataSource Source) := ⟨written, gz⟩
  rw [fill, repeatM_eq_of_monadTail, repeatM.body, turn, if_neg hStop]
  rfl

/-- The loop with what is left of the wrapped source. -/
def Ready (contract : ZlibContract) (gz : GZipDataSource Source) (buffers : List Bytes) : Prop :=
  match gz.state with
  | .streaming => contract.streaming gz.zstrm ∧ Delivers gz.pData buffers ∧
      ∀ buffer ∈ buffers, buffer.length < 2 ^ 32
  | .finishing => (contract.streaming gz.zstrm ∨ contract.finishing gz.zstrm) ∧
      gz.nextIn = [] ∧ buffers = []
  | .done => True

/-- Bytes of the wrapped source that zlib has not consumed. -/
def left (gz : GZipDataSource Source) (buffers : List Bytes) : Nat :=
  gz.nextIn.length + buffers.flatten.length

variable {contract : ZlibContract} {gz : GZipDataSource Source} {buffers : List Bytes}

/-- Asking for more input hands a buffer over, or finds the end of the source. -/
theorem refill_ready (h : Ready contract gz buffers) (hNotDone : gz.state ≠ .done) :
    ∃ after remaining, gz.refill bytesDesired = some after ∧
      Ready contract after remaining ∧ left after remaining = left gz buffers ∧
      after.state ≠ .done ∧ after.zstrm = gz.zstrm ∧
      (after.state = .streaming → after.nextIn ≠ []) := by
  by_cases hEmpty : gz.state = .streaming ∧ gz.nextIn = []
  · obtain ⟨hState, hInput⟩ := hEmpty
    simp only [Ready, hState] at h
    obtain ⟨hStreaming, hDelivers, hFits⟩ := h
    cases buffers with
    | nil =>
        obtain ⟨pData, hData⟩ := hDelivers
        refine ⟨{ gz with pData, nextIn := [], state := .finishing }, [], ?_, ?_, ?_, by simp, rfl,
          by simp⟩
        · simp [refill, hState, hInput, hData]
        · exact ⟨Or.inl hStreaming, rfl, rfl⟩
        · simp [left, hInput]
    | cons buffer buffers =>
        obtain ⟨hBuffer, pData, hData, hRest⟩ := hDelivers
        have hLength : buffer.take (buffer.length % 2 ^ 32) = buffer := by
          rw [Nat.mod_eq_of_lt (hFits buffer (by simp)), List.take_length]
        refine ⟨{ gz with pData, nextIn := buffer, state := .streaming }, buffers, ?_, ?_, ?_,
          by simp, rfl, fun _ => hBuffer⟩
        · simp only [refill, hState, hInput, and_self, if_true, hData, Option.bind_eq_bind,
            Option.bind_some, hLength, if_neg hBuffer]
          rfl
        · exact ⟨hStreaming, hRest, fun other hMem => hFits other (List.mem_cons_of_mem _ hMem)⟩
        · simp [left, hInput]
  · refine ⟨gz, buffers, by rw [refill, if_neg hEmpty], h, rfl, hNotDone, rfl, ?_⟩
    intro hState hInput
    exact hEmpty ⟨hState, hInput⟩

/-- One call of zlib ends the stream, fills the output, or makes progress. -/
theorem deflateNext_ready (h : Ready contract gz buffers) (hNotDone : gz.state ≠ .done)
    (hInput : gz.state = .streaming → gz.nextIn ≠ []) {availOut : Nat} (hOut : 0 < availOut) :
    ∃ after output, gz.deflateNext availOut = some (after, output) ∧
      Ready contract after buffers ∧ output.length ≤ availOut ∧
      contract.totalOut after.zstrm = contract.totalOut gz.zstrm + output.length ∧
      contract.totalIn after.zstrm + left after buffers =
        contract.totalIn gz.zstrm + left gz buffers ∧
      (after.state = .done ∨ output.length = availOut ∨
        left after buffers + (availOut - output.length) < left gz buffers + availOut) := by
  have hConsumed := contract.consumed_le gz.zstrm (gz.state = .finishing) gz.nextIn availOut
  have hOutput := contract.output_le gz.zstrm (gz.state = .finishing) gz.nextIn availOut
  have hTotalIn := contract.totalIn_eq gz.zstrm (gz.state = .finishing) gz.nextIn availOut
  have hTotalOut := contract.totalOut_eq gz.zstrm (gz.state = .finishing) gz.nextIn availOut
  cases hState : gz.state with
  | done => exact absurd hState hNotDone
  | streaming =>
      simp only [Ready, hState] at h
      obtain ⟨hStreaming, hDelivers, hFits⟩ := h
      obtain ⟨hCode, hNext, hProgress⟩ :=
        contract.progress gz.zstrm gz.nextIn availOut hStreaming (hInput hState) hOut
      simp only [hState, reduceCtorEq, decide_false] at hConsumed hOutput hTotalIn hTotalOut
      generalize hRes : Zlib.deflate gz.zstrm false gz.nextIn availOut = res at *
      refine ⟨{ gz with zstrm := res.stream, nextIn := gz.nextIn.drop res.consumed },
        res.output, ?_, ?_, hOutput, hTotalOut, ?_, ?_⟩
      · simp [deflateNext, hState, hRes, hCode]
      · simp only [Ready, hState]
        exact ⟨hNext, hDelivers, hFits⟩
      · simp only [left, List.length_drop, hTotalIn]
        omega
      · right
        right
        have hPositive : 0 < res.consumed ∨ 0 < res.output.length := by
          rcases hProgress with hProgress | hProgress
          · exact Or.inl hProgress
          · exact Or.inr (List.length_pos_iff.2 hProgress)
        simp only [left, List.length_drop]
        omega
  | finishing =>
      simp only [Ready, hState] at h
      obtain ⟨hStream, hNone, rfl⟩ := h
      have hFinish := contract.finish gz.zstrm availOut hStream hOut
      simp only [hState, decide_true] at hConsumed hOutput hTotalIn hTotalOut
      rw [← hNone] at hFinish
      generalize hRes : Zlib.deflate gz.zstrm true gz.nextIn availOut = res at *
      have hZero : res.consumed = 0 := by
        rw [hNone] at hConsumed
        simpa using hConsumed
      rcases hFinish with hCode | ⟨hCode, hNext, hFull⟩
      · refine ⟨{ gz with
            zstrm := res.stream, nextIn := gz.nextIn.drop res.consumed, state := .done },
          res.output, ?_, trivial, hOutput, hTotalOut, ?_, Or.inl rfl⟩
        · simp [deflateNext, hState, hRes, hCode]
        · simp [left, hTotalIn, hZero]
      · refine ⟨{ gz with zstrm := res.stream, nextIn := gz.nextIn.drop res.consumed },
          res.output, ?_, ?_, hOutput, hTotalOut, ?_, Or.inr (Or.inl hFull)⟩
        · simp [deflateNext, hState, hRes, hCode]
        · simp only [Ready, hState]
          exact ⟨Or.inr hNext, by simp [hNone], trivial⟩
        · simp [left, hTotalIn, hZero]

/-- The loop ends: with a full output buffer, or with the stream. -/
theorem fill_ready (h : Ready contract gz buffers) (availOut : Nat) :
    ∃ output after remaining,
      (∀ written, fill bytesDesired gz written availOut = some (written ++ output, after)) ∧
      Ready contract after remaining ∧
      (after.state = .done ∨ output.length = availOut) ∧
      contract.totalOut after.zstrm = contract.totalOut gz.zstrm + output.length ∧
      contract.totalIn after.zstrm + left after remaining =
        contract.totalIn gz.zstrm + left gz buffers := by
  induction hMeasure : left gz buffers + availOut using Nat.strongRecOn
    generalizing gz buffers availOut with
  | ind measure ih =>
      by_cases hGo : 0 < availOut ∧ gz.state ≠ .done
      · obtain ⟨hOut, hNotDone⟩ := hGo
        obtain ⟨filled, middle, hRefill, hFilled, hLeft, hFilledState, hStream, hInput⟩ :=
          refill_ready h hNotDone
        obtain ⟨next, output, hDeflate, hNext, hOutput, hTotalOut, hTotalIn, hProgress⟩ :=
          deflateNext_ready hFilled hFilledState hInput hOut
        -- a full buffer and a finished stream leave one more test of the loop condition
        have hRest : ∃ rest after remaining,
            (∀ written, fill bytesDesired next written (availOut - output.length) =
              some (written ++ rest, after)) ∧
            Ready contract after remaining ∧
            (after.state = .done ∨ rest.length = availOut - output.length) ∧
            contract.totalOut after.zstrm = contract.totalOut next.zstrm + rest.length ∧
            contract.totalIn after.zstrm + left after remaining =
              contract.totalIn next.zstrm + left next middle := by
          rcases hProgress with hDone | hFull | hLess
          · refine ⟨[], next, middle, ?_, hNext, Or.inl hDone, by simp, rfl⟩
            intro written
            rw [fill_stop (by simp [hDone]), List.append_nil]
          · refine ⟨[], next, middle, ?_, hNext, Or.inr (by simp; omega), by simp, rfl⟩
            intro written
            rw [fill_stop (by omega), List.append_nil]
          · exact ih _ (by omega) hNext _ rfl
        obtain ⟨rest, after, remaining, hFill, hAfter, hEnd, hRestOut, hRestIn⟩ := hRest
        refine ⟨output ++ rest, after, remaining, ?_, hAfter, ?_, ?_, ?_⟩
        · intro written
          rw [fill_turn ⟨hOut, hNotDone⟩ hRefill hDeflate, hFill, List.append_assoc]
        · rcases hEnd with hEnd | hEnd
          · exact Or.inl hEnd
          · right
            rw [List.length_append]
            omega
        · rw [hRestOut, hTotalOut, hStream, List.length_append]
          omega
        · rw [hRestIn, hTotalIn, hStream, hLeft]
      · refine ⟨[], gz, buffers, ?_, h, ?_, by simp, rfl⟩
        · intro written
          rw [fill_stop hGo, List.append_nil]
        by_cases hDone : gz.state = .done
        · exact Or.inl hDone
        · right
          simp only [List.length_nil]
          by_contra hOut
          exact hGo ⟨by omega, hDone⟩

/-- Before its end the stream has not put out more than its bound. -/
theorem totalOut_le (h : Ready contract gz buffers) (hNotDone : gz.state ≠ .done) :
    contract.totalOut gz.zstrm ≤ contract.deflateBound (contract.totalIn gz.zstrm) := by
  apply contract.totalOut_le
  cases hState : gz.state with
  | done => exact absurd hState hNotDone
  | streaming =>
      simp only [Ready, hState] at h
      exact Or.inl h.1
  | finishing =>
      simp only [Ready, hState] at h
      exact h.1

/-- The stream is delivered in finitely many buffers. Each one but the last is
full, and zlib bounds their sum. -/
theorem delivers_ready (total : Nat) (h : Ready contract gz buffers)
    (hTotal : gz.state ≠ .done → contract.totalIn gz.zstrm + left gz buffers = total) :
    ∃ outputs, Delivers gz outputs := by
  induction hMeasure : (Finset.range (total + 1)).sup contract.deflateBound + 1 -
      contract.totalOut gz.zstrm using Nat.strongRecOn generalizing gz buffers with
  | ind measure ih =>
      by_cases hDone : gz.state = .done
      · refine ⟨[], gz, ?_⟩
        change gz.getData bytesDesired = some ([], gz)
        rw [getData, if_pos hDone]
      · obtain ⟨output, after, remaining, hFill, hAfter, hEnd, hTotalOut, hTotalIn⟩ :=
          fill_ready h bytesDesired
        have hData : DataSource.getData gz bytesDesired = some (output, after) := by
          change gz.getData bytesDesired = some (output, after)
          rw [getData, if_neg hDone, hFill, List.nil_append]
        by_cases hOutput : output = []
        · exact ⟨[], after, by rw [hData, hOutput]⟩
        · have hRest : ∃ outputs, Delivers after outputs := by
            by_cases hAfterDone : after.state = .done
            · refine ⟨[], after, ?_⟩
              change after.getData bytesDesired = some ([], after)
              rw [getData, if_pos hAfterDone]
            · have hBound := totalOut_le hAfter hAfterDone
              have hIn : contract.totalIn after.zstrm + left after remaining = total := by
                rw [hTotalIn]
                exact hTotal hDone
              have hSup := Finset.le_sup (f := contract.deflateBound)
                (Finset.mem_range.2 (show contract.totalIn after.zstrm < total + 1 by omega))
              have hFull : output.length = bytesDesired := hEnd.resolve_left hAfterDone
              have hPositive : 0 < bytesDesired := by decide
              exact ih _ (by omega) hAfter (fun _ => hIn) rfl
          obtain ⟨outputs, hOutputs⟩ := hRest
          exact ⟨output :: outputs, hOutput, after, hData, hOutputs⟩

/-- A compressed body over a source that delivers its data. -/
theorem delivers_construct (contract : ZlibContract) {source : Source}
    (hDelivers : Delivers source buffers)
    (hFits : ∀ buffer ∈ buffers, buffer.length < 2 ^ 32) :
    ∃ gz outputs, construct source = some gz ∧ Delivers gz outputs := by
  obtain ⟨zstrm, hInit, hStreaming⟩ := contract.deflateInit2
  have hReady : Ready contract { pData := source, zstrm, nextIn := [], state := .streaming }
      buffers := ⟨hStreaming, hDelivers, hFits⟩
  obtain ⟨outputs, hOutputs⟩ := delivers_ready _ hReady fun _ => rfl
  exact ⟨_, outputs, by simp [construct, hInit], hOutputs⟩

end GZipDataSource

end Httpuv
