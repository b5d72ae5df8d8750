import Httpuv.Http.GZipDataSource

/-! The buffers of `GZipDataSource`: the input buffers it holds and hands back, and the
output buffers it allocates. -/
namespace Httpuv

/-- One stream from its beginning on, with what it has consumed and put out. It is asked to
finish when all of the input has been consumed, and nothing follows its end. -/
inductive DeflateRun [Zlib] : GDState → Bytes → Bytes → Zlib.Stream → Prop where
  | start {stream : Zlib.Stream} (hInit : Zlib.deflateInit2 = some stream) :
      DeflateRun .streaming [] [] stream
  | more {input output : Bytes} {stream : Zlib.Stream}
      (prior : DeflateRun .streaming input output stream) (nextIn : Bytes) (availOut : Nat)
      (hCode : (Zlib.deflate stream false nextIn availOut).code = .ok) :
      DeflateRun .streaming
        (input ++ nextIn.take (Zlib.deflate stream false nextIn availOut).consumed)
        (output ++ (Zlib.deflate stream false nextIn availOut).output)
        (Zlib.deflate stream false nextIn availOut).stream
  | finish {input output : Bytes} {stream : Zlib.Stream}
      (prior : DeflateRun .streaming input output stream) :
      DeflateRun .finishing input output stream
  | flush {input output : Bytes} {stream : Zlib.Stream}
      (prior : DeflateRun .finishing input output stream) (availOut : Nat)
      (hCode : (Zlib.deflate stream true [] availOut).code = .ok) :
      DeflateRun .finishing input (output ++ (Zlib.deflate stream true [] availOut).output)
        (Zlib.deflate stream true [] availOut).stream
  | last {input output : Bytes} {stream : Zlib.Stream}
      (prior : DeflateRun .finishing input output stream) (availOut : Nat)
      (hCode : (Zlib.deflate stream true [] availOut).code = .streamEnd) :
      DeflateRun .done input (output ++ (Zlib.deflate stream true [] availOut).output)
        (Zlib.deflate stream true [] availOut).stream

/-- What one stream makes of an input. -/
def Deflated [Zlib] (input output : Bytes) : Prop := ∃ stream, DeflateRun .done input output stream

/-- What happens to the input buffers, which are numbered as they come. Nothing has to be
handed back of a buffer without a base. -/
inductive BufferEvent where
  | received (number : Nat) (data : Bytes) (hasBase : Bool)
  | released (number : Nat) (unread : Bytes)
  deriving DecidableEq, Repr

namespace BufferEvent

def data : BufferEvent → Option Bytes
  | .received _ data _ => some data
  | .released _ _ => none

def owned : BufferEvent → Option Nat
  | .received number _ hasBase => if hasBase then some number else none
  | .released _ _ => none

def freed : BufferEvent → Option Nat
  | .received _ _ _ => none
  | .released number _ => some number

def unread : BufferEvent → Bytes
  | .received _ _ _ => []
  | .released _ unread => unread

end BufferEvent

/-- The object with its `_inputBuf`, which is none if the base is null, the number of
buffers it has received, and what has happened to them. -/
structure HeldSource (Source : Type) [Zlib] where
  gz : GZipDataSource Source
  inputBuf : Option Nat
  count : Nat
  log : List BufferEvent

/-- A block that has been allocated: the bytes that have been written to it, and the
length it is returned with. -/
structure OutputBuf where
  written : Bytes
  len : Nat
  deriving DecidableEq, Repr

namespace HeldSource

variable {Source : Type} [Zlib]

def construct (pData : Source) : Option (HeldSource Source) := do
  let gz ← GZipDataSource.construct pData
  return { gz, inputBuf := none, count := 0, log := [] }

/-- `force` frees the buffer even if zlib might still be using it. -/
def freeInputBuffer (held : HeldSource Source) (force : Bool) : HeldSource Source :=
  match held.inputBuf with
  | some number =>
      if force ∨ held.gz.nextIn = [] then
        { held with
          gz := { held.gz with nextIn := [] }
          inputBuf := none
          log := held.log ++ [.released number held.gz.nextIn] }
      else held
  | none => held

/-- The destructor. -/
def destroy (held : HeldSource Source) : HeldSource Source := held.freeInputBuffer true

variable [DataSource Source]

/-- Ask the wrapped source for more input. A buffer with bytes has a base, an empty one
has one or not. -/
def refill (hasBase : Source → Nat → Bool) (held : HeldSource Source) (bytesDesired : Nat) :
    Option (HeldSource Source) :=
  if held.gz.state = .streaming ∧ held.gz.nextIn = [] then do
    let held := held.freeInputBuffer false
    let (buf, pData) ← DataSource.getData held.gz.pData bytesDesired
    let based := buf != [] || hasBase held.gz.pData bytesDesired
    return {
      gz := { held.gz with
        pData
        nextIn := buf.take (buf.length % 2 ^ 32)
        state := if buf = [] then .finishing else .streaming }
      inputBuf := if based then some held.count else none
      count := held.count + 1
      log := held.log ++ [.received held.count buf based] }
  else some held

/-- One turn of the loop of `getData`, as for the data alone. -/
def turn (hasBase : Source → Nat → Bool) (bytesDesired : Nat)
    (loop : HeldSource Source × Bytes × Nat) :
    Option ((HeldSource Source × Bytes × Nat) ⊕ (Bytes × Nat × HeldSource Source)) :=
  let (held, written, availOut) := loop
  if 0 < availOut ∧ held.gz.state ≠ .done then do
    let held ← held.refill hasBase bytesDesired
    let (gz, output) ← held.gz.deflateNext availOut
    return .inl ({ held with gz }, written ++ output, availOut - output.length)
  else some (.inr (written, availOut, held))

def fill (hasBase : Source → Nat → Bool) (bytesDesired : Nat) (held : HeldSource Source)
    (written : Bytes) (availOut : Nat) : Option (Bytes × Nat × HeldSource Source) :=
  have : Nonempty (Bytes × Nat × HeldSource Source) := ⟨written, availOut, held⟩
  repeatM (turn hasBase bytesDesired) (held, written, availOut)

/-- `avail_out` is a 32-bit number, the size that is asked for is not. -/
def getData (hasBase : Source → Nat → Bool) (held : HeldSource Source) (bytesDesired : Nat) :
    Option (OutputBuf × HeldSource Source) :=
  if held.gz.state = .done then some ({ written := [], len := 0 }, held)
  else do
    let (written, availOut, held) ← held.fill hasBase bytesDesired [] (bytesDesired % 2 ^ 32)
    return ({ written, len := bytesDesired - availOut }, held.freeInputBuffer false)

/-- One call after the other. -/
def requests (hasBase : Source → Nat → Bool) (held : HeldSource Source) :
    List Nat → Option (List OutputBuf × HeldSource Source)
  | [] => some ([], held)
  | bytesDesired :: sizes => do
      let (buf, held) ← held.getData hasBase bytesDesired
      let (bufs, held) ← requests hasBase held sizes
      return (buf :: bufs, held)

end HeldSource

/-- However it is asked, the source answers with no more than it was asked for, and after
finitely many buffers with an empty one. -/
inductive Exhausts {Source : Type} [DataSource Source] : Source → Prop where
  | intro {source : Source}
      (answers : ∀ size, 0 < size → ∃ buf after, DataSource.getData source size = some (buf, after) ∧
        buf.length ≤ size)
      (later : ∀ size buf after, 0 < size → DataSource.getData source size = some (buf, after) →
        buf ≠ [] → Exhausts after) :
      Exhausts source

/-- The source has answered with these buffers. -/
inductive Answers {Source : Type} [DataSource Source] (source : Source) :
    List Bytes → Source → Prop where
  | none : Answers source [] source
  | more {bufs : List Bytes} {middle after : Source} {size : Nat} {buf : Bytes}
      (prior : Answers source bufs middle) (hSize : 0 < size)
      (hData : DataSource.getData middle size = some (buf, after)) :
      Answers source (bufs ++ [buf]) after

/-- The source after a buffer with bytes. -/
def Later {Source : Type} [DataSource Source] (after source : Source) : Prop :=
  ∃ size buf, 0 < size ∧ DataSource.getData source size = some (buf, after) ∧ buf ≠ []

theorem Exhausts.acc {Source : Type} [DataSource Source] {source : Source} (h : Exhausts source) :
    Acc Later source := by
  induction h with
  | intro answers later ih =>
      refine Acc.intro _ ?_
      rintro after ⟨size, buf, hSize, hData, hBuf⟩
      exact ih size buf after hSize hData hBuf

namespace HeldSource

/-- The stream can be used in its stage. -/
def Live [Zlib] (contract : ZlibContract) : GDState → Zlib.Stream → Prop
  | .streaming, stream => contract.streaming stream
  | .finishing, stream => contract.streaming stream ∨ contract.finishing stream
  | .done, _ => True

variable {Source : Type} [Zlib] [DataSource Source]

/-- What holds of the object when it has put these bytes out. -/
structure Sound (contract : ZlibContract) (source : Source) (held : HeldSource Source)
    (output : Bytes) : Prop where
  live : Live contract held.gz.state held.gz.zstrm
  deflated : ∃ consumed, DeflateRun held.gz.state consumed output held.gz.zstrm ∧
    consumed ++ held.gz.nextIn = (held.log.filterMap BufferEvent.data).flatten
  drained : held.gz.state ≠ .streaming → held.gz.nextIn = []
  answers : Answers source (held.log.filterMap BufferEvent.data) held.gz.pData
  exhausts : held.gz.state = .streaming → Exhausts held.gz.pData
  received : held.gz.state = .streaming → ∀ data ∈ held.log.filterMap BufferEvent.data, data ≠ []
  exhausted : held.gz.state ≠ .streaming → ∃ buffers,
    held.log.filterMap BufferEvent.data = buffers ++ [[]] ∧ ∀ data ∈ buffers, data ≠ []
  owned : held.log.filterMap BufferEvent.owned =
    held.log.filterMap BufferEvent.freed ++ held.inputBuf.toList
  numbered : ∀ number ∈ held.log.filterMap BufferEvent.owned, number < held.count
  nodup : (held.log.filterMap BufferEvent.owned).Nodup
  held_unread : held.inputBuf = none → held.gz.nextIn = []
  unread : ∀ event ∈ held.log, event.unread = []

section Buffers

variable {contract : ZlibContract} {source : Source} {held : HeldSource Source} {output : Bytes}

omit [DataSource Source] in
/-- A buffer is handed back when it has been read. -/
theorem freeInputBuffer_cases (held : HeldSource Source) :
    held.freeInputBuffer false = held ∧ (held.inputBuf = none ∨ held.gz.nextIn ≠ []) ∨
      ∃ number, held.inputBuf = some number ∧ held.gz.nextIn = [] ∧
        held.freeInputBuffer false =
          { held with inputBuf := none, log := held.log ++ [.released number []] } := by
  obtain ⟨⟨pData, zstrm, nextIn, state⟩, inputBuf, count, log⟩ := held
  cases inputBuf with
  | none => exact Or.inl ⟨rfl, Or.inl rfl⟩
  | some number =>
      by_cases hRead : nextIn = []
      · subst hRead
        exact Or.inr ⟨number, rfl, rfl, by simp [freeInputBuffer]⟩
      · exact Or.inl ⟨by simp [freeInputBuffer, hRead], Or.inr hRead⟩

omit [DataSource Source] in
theorem freeInputBuffer_gz (held : HeldSource Source) : (held.freeInputBuffer false).gz = held.gz := by
  rcases freeInputBuffer_cases held with ⟨hKept, -⟩ | ⟨number, -, -, hFreed⟩
  · rw [hKept]
  · rw [hFreed]

omit [DataSource Source] in
theorem freeInputBuffer_none (hRead : held.gz.nextIn = []) :
    (held.freeInputBuffer false).inputBuf = none := by
  rcases freeInputBuffer_cases held with ⟨hKept, hNone | hUnread⟩ | ⟨number, -, -, hFreed⟩
  · rw [hKept, hNone]
  · exact absurd hRead hUnread
  · rw [hFreed]

theorem Sound.freeInputBuffer (h : Sound contract source held output) :
    Sound contract source (held.freeInputBuffer false) output := by
  rcases freeInputBuffer_cases held with ⟨hKept, -⟩ | ⟨number, hHeld, hRead, hFreed⟩
  · rwa [hKept]
  · have hData : (held.log ++ [BufferEvent.released number []]).filterMap BufferEvent.data =
        held.log.filterMap BufferEvent.data := by simp [BufferEvent.data]
    have hOwned : (held.log ++ [BufferEvent.released number []]).filterMap BufferEvent.owned =
        held.log.filterMap BufferEvent.owned := by simp [BufferEvent.owned]
    rw [hFreed]
    refine
      { live := h.live, deflated := hData ▸ h.deflated, drained := h.drained
        answers := hData ▸ h.answers, exhausts := h.exhausts, received := hData ▸ h.received
        exhausted := hData ▸ h.exhausted, owned := ?_, numbered := hOwned ▸ h.numbered
        nodup := hOwned ▸ h.nodup, held_unread := fun _ => hRead, unread := ?_ }
    · rw [hOwned, h.owned, hHeld]
      simp [BufferEvent.freed]
    · intro event hMem
      rcases List.mem_append.1 hMem with hOld | hNew
      · exact h.unread event hOld
      · rw [List.mem_singleton.1 hNew]
        rfl

/-- How the data goes on: to the end of the stream, to the end of the source, to a later
buffer, or within one buffer. -/
inductive Moves (contract : ZlibContract) (gz after : GZipDataSource Source) : Prop where
  | done (hAfter : after.state = .done)
  | finishing (hState : gz.state = .streaming) (hAfter : after.state = .finishing)
  | later (hState : gz.state = .streaming) (hAfter : after.state = .streaming)
      (hLater : Relation.TransGen Later after.pData gz.pData)
  | same (hState : after.state = gz.state) (hData : after.pData = gz.pData)
      (hTotal : contract.totalIn after.zstrm + after.nextIn.length =
        contract.totalIn gz.zstrm + gz.nextIn.length)

theorem Moves.trans {gz middle after : GZipDataSource Source} (h : Moves contract gz middle)
    (hNext : Moves contract middle after) : Moves contract gz after := by
  cases hNext with
  | done hAfter => exact .done hAfter
  | finishing hMiddle hAfter =>
      cases h with
      | done hDone => cases hDone.symm.trans hMiddle
      | finishing _ hFinishing => cases hFinishing.symm.trans hMiddle
      | later hState _ _ => exact .finishing hState hAfter
      | same hState _ _ => exact .finishing (hState.symm.trans hMiddle) hAfter
  | later hMiddle hAfter hLater =>
      cases h with
      | done hDone => cases hDone.symm.trans hMiddle
      | finishing _ hFinishing => cases hFinishing.symm.trans hMiddle
      | later hState _ hEarlier => exact .later hState hAfter (hLater.trans hEarlier)
      | same hState hData _ => exact .later (hState.symm.trans hMiddle) hAfter (hData ▸ hLater)
  | same hAfter hData hTotal =>
      cases h with
      | done hDone => exact .done (hAfter.trans hDone)
      | finishing hState hFinishing => exact .finishing hState (hAfter.trans hFinishing)
      | later hState hMiddle hEarlier =>
          exact .later hState (hAfter.trans hMiddle) (hData.symm ▸ hEarlier)
      | same hState hEarlier hBefore =>
          exact .same (hAfter.trans hState) (hData.trans hEarlier) (hTotal.trans hBefore)

/-- The object behind a buffer that it has received. -/
def receive (held : HeldSource Source) (buf : Bytes) (pData : Source) (based : Bool) :
    HeldSource Source where
  gz := { held.gz with pData, nextIn := buf, state := if buf = [] then .finishing else .streaming }
  inputBuf := if based then some held.count else none
  count := held.count + 1
  log := held.log ++ [.received held.count buf based]

theorem Sound.receive (h : Sound contract source held output) (hState : held.gz.state = .streaming)
    (hRead : held.gz.nextIn = []) (hNone : held.inputBuf = none) {size : Nat} {buf : Bytes}
    {pData : Source} {based : Bool} (hSize : 0 < size)
    (hData : DataSource.getData held.gz.pData size = some (buf, pData))
    (hBased : buf ≠ [] → based = true) :
    Sound contract source (held.receive buf pData based) output := by
  obtain ⟨consumed, hRun, hConsumed⟩ := h.deflated
  have hLive := h.live
  have hOwned := h.owned
  have hExhausts := h.exhausts hState
  rw [hState] at hRun hLive
  rw [hNone, Option.toList_none, List.append_nil] at hOwned
  rw [hRead, List.append_nil] at hConsumed
  have hLogData : (held.receive buf pData based).log.filterMap BufferEvent.data =
      held.log.filterMap BufferEvent.data ++ [buf] := by
    simp [HeldSource.receive, BufferEvent.data]
  have hLogOwned : (held.receive buf pData based).log.filterMap BufferEvent.owned =
      held.log.filterMap BufferEvent.owned ++ (if based then some held.count else none).toList := by
    cases based <;> simp [HeldSource.receive, BufferEvent.owned]
  have hLogFreed : (held.receive buf pData based).log.filterMap BufferEvent.freed =
      held.log.filterMap BufferEvent.freed := by
    simp [HeldSource.receive, BufferEvent.freed]
  have hNumber : ∀ number ∈ (if based then some held.count else none).toList,
      number = held.count := by
    cases based <;> simp
  have hSome : (held.receive buf pData based).gz.state = .streaming → buf ≠ [] := by
    rintro hStreaming rfl
    exact absurd hStreaming (by simp [HeldSource.receive])
  exact
    { live := by
        dsimp only [HeldSource.receive]
        split_ifs
        · exact Or.inl hLive
        · exact hLive
      deflated := by
        refine ⟨consumed, ?_, ?_⟩
        · dsimp only [HeldSource.receive]
          split_ifs
          · exact hRun.finish
          · exact hRun
        · rw [hLogData, List.flatten_append, ← hConsumed, List.flatten_singleton]
          rfl
      drained := by
        intro hLeft
        by_contra hBuf
        exact hLeft (if_neg hBuf)
      answers := hLogData ▸ h.answers.more hSize hData
      exhausts := by
        intro hStreaming
        cases hExhausts with
        | intro _ later => exact later size buf pData hSize hData (hSome hStreaming)
      received := by
        intro hStreaming
        rw [hLogData]
        intro data hMem
        rcases List.mem_append.1 hMem with hOld | hNew
        · exact h.received hState data hOld
        · exact List.mem_singleton.1 hNew ▸ hSome hStreaming
      exhausted := by
        intro hLeft
        have hBuf : buf = [] := by
          by_contra hBuf
          exact hLeft (if_neg hBuf)
        exact ⟨_, by rw [hLogData, hBuf], h.received hState⟩
      owned := by
        rw [hLogOwned, hLogFreed, hOwned]
        rfl
      numbered := by
        rw [hLogOwned]
        intro number hMem
        rcases List.mem_append.1 hMem with hOld | hNew
        · exact Nat.lt_succ_of_lt (h.numbered number hOld)
        · rw [hNumber number hNew]
          exact Nat.lt_succ_self _
      nodup := by
        rw [hLogOwned]
        refine List.Nodup.append h.nodup (by cases based <;> simp) ?_
        intro number hOld hNew
        exact absurd (hNumber number hNew) (Nat.ne_of_lt (h.numbered number hOld))
      held_unread := by
        intro hFree
        by_contra hBuf
        have hNew : (held.receive buf pData based).inputBuf = some held.count :=
          if_pos (hBased hBuf)
        rw [hFree] at hNew
        cases hNew
      unread := by
        intro event hMem
        rcases List.mem_append.1 hMem with hOld | hNew
        · exact h.unread event hOld
        · rw [List.mem_singleton.1 hNew]
          rfl }

/-- Asking for more input, with the object and with its data alone. -/
theorem Sound.refill (h : Sound contract source held output) (hNotDone : held.gz.state ≠ .done)
    {size : Nat} (hSize : 0 < size) (hFits : size < 2 ^ 32) (hasBase : Source → Nat → Bool) :
    ∃ after, held.refill hasBase size = some after ∧ held.gz.refill size = some after.gz ∧
      Sound contract source after output ∧ after.gz.zstrm = held.gz.zstrm ∧
      Moves contract held.gz after.gz ∧
      (after.gz.state = .finishing ∨ after.gz.state = .streaming ∧ after.gz.nextIn ≠ [] ∧
        (after = held ∨ Later after.gz.pData held.gz.pData)) := by
  by_cases hEmpty : held.gz.state = .streaming ∧ held.gz.nextIn = []
  · obtain ⟨hState, hRead⟩ := hEmpty
    have hFreed := h.freeInputBuffer
    have hGz := freeInputBuffer_gz held
    have hExhausts := h.exhausts hState
    cases hExhausts with
    | intro answers later =>
        obtain ⟨buf, pData, hData, hShort⟩ := answers size hSize
        have hTake : buf.take (buf.length % 2 ^ 32) = buf := by
          rw [Nat.mod_eq_of_lt (by omega), List.take_length]
        refine ⟨(held.freeInputBuffer false).receive buf pData
          (buf != [] || hasBase held.gz.pData size), ?_, ?_, ?_, ?_, ?_, ?_⟩
        · simp only [HeldSource.refill, hState, hRead, and_self, if_true, hGz, hData,
            Option.bind_eq_bind, Option.bind_some, hTake]
          rw [HeldSource.receive, hGz]
          rfl
        · simp only [GZipDataSource.refill, hState, hRead, and_self, if_true, hData,
            Option.bind_eq_bind, Option.bind_some, hTake]
          rw [HeldSource.receive, hGz]
          rfl
        · exact hFreed.receive (hGz ▸ hState) (hGz ▸ hRead) (freeInputBuffer_none hRead) hSize
            (hGz ▸ hData) (by simp +contextual)
        · rw [HeldSource.receive, hGz]
        · by_cases hBuf : buf = []
          · exact Moves.finishing hState (if_pos hBuf)
          · exact Moves.later hState (if_neg hBuf)
              (Relation.TransGen.single ⟨size, buf, hSize, hData, hBuf⟩)
        · by_cases hBuf : buf = []
          · exact Or.inl (if_pos hBuf)
          · exact Or.inr ⟨if_neg hBuf, hBuf, Or.inr ⟨size, buf, hSize, hData, hBuf⟩⟩
  · refine ⟨held, if_neg hEmpty, if_neg hEmpty, h, rfl, Moves.same rfl rfl rfl, ?_⟩
    cases hState : held.gz.state with
    | done => exact absurd hState hNotDone
    | finishing => exact Or.inl rfl
    | streaming =>
        exact Or.inr ⟨rfl, fun hRead => hEmpty ⟨hState, hRead⟩, Or.inl rfl⟩

/-- The data behind a call of zlib. -/
def afterDeflate (gz : GZipDataSource Source) (res : DeflateResult Zlib.Stream) (state : GDState) :
    GZipDataSource Source :=
  { gz with zstrm := res.stream, nextIn := gz.nextIn.drop res.consumed, state }

theorem Sound.advance (h : Sound contract source held output)
    {res : DeflateResult Zlib.Stream} {state : GDState} {longer : Bytes}
    (hRun : ∃ consumed, DeflateRun state consumed longer res.stream ∧
      consumed ++ held.gz.nextIn.drop res.consumed =
        (held.log.filterMap BufferEvent.data).flatten)
    (hLive : Live contract state res.stream)
    (hState : state = .streaming ↔ held.gz.state = .streaming) :
    Sound contract source { held with gz := afterDeflate held.gz res state } longer where
  live := hLive
  deflated := hRun
  drained := by
    intro hLeft
    have hNone := h.drained fun hSame => hLeft (hState.2 hSame)
    simp [afterDeflate, hNone]
  answers := h.answers
  exhausts := fun hSame => h.exhausts (hState.1 hSame)
  received := fun hSame => h.received (hState.1 hSame)
  exhausted := fun hLeft => h.exhausted fun hSame => hLeft (hState.2 hSame)
  owned := h.owned
  numbered := h.numbered
  nodup := h.nodup
  held_unread := by
    intro hFree
    simp [afterDeflate, h.held_unread hFree]
  unread := h.unread

/-- One call of zlib ends the stream, fills the output, or makes progress. -/
theorem Sound.deflateNext (h : Sound contract source held output)
    (hStage : held.gz.state = .finishing ∨ held.gz.state = .streaming ∧ held.gz.nextIn ≠ [])
    {availOut : Nat} (hOut : 0 < availOut) :
    ∃ gz written, held.gz.deflateNext availOut = some (gz, written) ∧
      Sound contract source { held with gz } (output ++ written) ∧ written.length ≤ availOut ∧
      contract.totalOut gz.zstrm = contract.totalOut held.gz.zstrm + written.length ∧
      contract.totalIn gz.zstrm + gz.nextIn.length =
        contract.totalIn held.gz.zstrm + held.gz.nextIn.length ∧
      gz.pData = held.gz.pData ∧
      (gz.state = .done ∨ gz.state = held.gz.state ∧ (written.length = availOut ∨
        gz.state = .streaming ∧
          gz.nextIn.length + (availOut - written.length) < held.gz.nextIn.length + availOut)) := by
  obtain ⟨consumed, hRun, hConsumed⟩ := h.deflated
  have hLive := h.live
  rcases hStage with hState | ⟨hState, hRead⟩
  · rw [hState] at hRun hLive
    have hNone := h.drained (by simp [hState])
    have hOutputLe := contract.output_le held.gz.zstrm true [] availOut
    have hTotalIn := contract.totalIn_eq held.gz.zstrm true [] availOut
    have hTotalOut := contract.totalOut_eq held.gz.zstrm true [] availOut
    have hNothing := contract.consumed_le held.gz.zstrm true [] availOut
    have hEmpty : ∀ count : Nat, held.gz.nextIn.drop count = [] := by simp [hNone]
    rw [List.length_nil, Nat.le_zero] at hNothing
    rcases contract.finish held.gz.zstrm availOut hLive hOut with hCode | ⟨hCode, hNext, hFull⟩
    · have hLast := hRun.last availOut hCode
      generalize hRes : Zlib.deflate held.gz.zstrm true [] availOut = res at *
      refine ⟨afterDeflate held.gz res .done, res.output, ?_,
        h.advance ⟨consumed, hLast, by rw [hEmpty, ← hNone, hConsumed]⟩ trivial
          (by simp [hState]), hOutputLe, hTotalOut, ?_, rfl, Or.inl rfl⟩
      · simp [GZipDataSource.deflateNext, hState, hNone, hRes, hCode, afterDeflate]
      · simp [afterDeflate, hTotalIn, hNothing, hNone]
    · have hFlush := hRun.flush availOut hCode
      generalize hRes : Zlib.deflate held.gz.zstrm true [] availOut = res at *
      refine ⟨afterDeflate held.gz res .finishing, res.output, ?_,
        h.advance ⟨consumed, hFlush, by rw [hEmpty, ← hNone, hConsumed]⟩ (Or.inr hNext)
          (by simp [hState]), hOutputLe, hTotalOut, ?_, rfl, Or.inr ⟨hState.symm, Or.inl hFull⟩⟩
      · simp [GZipDataSource.deflateNext, hState, hNone, hRes, hCode, afterDeflate]
      · simp [afterDeflate, hTotalIn, hNothing, hNone]
  · rw [hState] at hRun hLive
    obtain ⟨hCode, hNext, hProgress⟩ :=
      contract.progress held.gz.zstrm held.gz.nextIn availOut hLive hRead hOut
    have hConsumedLe := contract.consumed_le held.gz.zstrm false held.gz.nextIn availOut
    have hOutputLe := contract.output_le held.gz.zstrm false held.gz.nextIn availOut
    have hTotalIn := contract.totalIn_eq held.gz.zstrm false held.gz.nextIn availOut
    have hTotalOut := contract.totalOut_eq held.gz.zstrm false held.gz.nextIn availOut
    have hMore := hRun.more held.gz.nextIn availOut hCode
    generalize hRes : Zlib.deflate held.gz.zstrm false held.gz.nextIn availOut = res at *
    have hInOrder : consumed ++ held.gz.nextIn.take res.consumed ++
        held.gz.nextIn.drop res.consumed = (held.log.filterMap BufferEvent.data).flatten := by
      rw [List.append_assoc, List.take_append_drop, hConsumed]
    have hPositive : 0 < res.consumed ∨ 0 < res.output.length := by
      rcases hProgress with hProgress | hProgress
      · exact Or.inl hProgress
      · exact Or.inr (List.length_pos_iff.2 hProgress)
    refine ⟨afterDeflate held.gz res .streaming, res.output, ?_,
      h.advance ⟨_, hMore, hInOrder⟩ hNext (by simp [hState]), hOutputLe, hTotalOut, ?_, rfl,
      Or.inr ⟨hState.symm, Or.inr ⟨rfl, ?_⟩⟩⟩
    · simp [GZipDataSource.deflateNext, hState, hRes, hCode, afterDeflate]
    · simp only [afterDeflate, List.length_drop, hTotalIn]
      omega
    · simp only [afterDeflate, List.length_drop]
      omega

variable {hasBase : Source → Nat → Bool} {size availOut : Nat}

/-- A turn that goes on. -/
theorem fill_turn {filled : HeldSource Source} {gz : GZipDataSource Source} {written : Bytes}
    (hGo : 0 < availOut ∧ held.gz.state ≠ .done) (hRefill : held.refill hasBase size = some filled)
    (hDeflate : filled.gz.deflateNext availOut = some (gz, written)) (before : Bytes) :
    held.fill hasBase size before availOut =
      HeldSource.fill hasBase size { filled with gz } (before ++ written)
        (availOut - written.length) := by
  have hTurn : turn hasBase size (held, before, availOut) =
      some (.inl ({ filled with gz }, before ++ written, availOut - written.length)) := by
    simp [turn, if_pos hGo, hRefill, hDeflate]
  have : Nonempty (Bytes × Nat × HeldSource Source) := ⟨before, availOut, held⟩
  rw [fill, repeatM_eq_of_monadTail, repeatM.body, hTurn]
  rfl

/-- A full output buffer or a finished stream. -/
theorem fill_stop (hStop : ¬ (0 < availOut ∧ held.gz.state ≠ .done)) (before : Bytes) :
    held.fill hasBase size before availOut = some (before, availOut, held) := by
  have : Nonempty (Bytes × Nat × HeldSource Source) := ⟨before, availOut, held⟩
  rw [fill, repeatM_eq_of_monadTail, repeatM.body, turn, if_neg hStop]
  rfl

/-- The loop has written these bytes when it ends: all that there was room for, or the
rest of the stream. -/
structure Filled (contract : ZlibContract) (source : Source) (hasBase : Source → Nat → Bool)
    (size : Nat) (held : HeldSource Source) (output : Bytes) (availOut : Nat) (written : Bytes)
    (after : HeldSource Source) : Prop where
  fill : ∀ before, held.fill hasBase size before availOut =
    some (before ++ written, availOut - written.length, after)
  data : ∀ before, held.gz.fill size before availOut = some (before ++ written, after.gz)
  sound : Sound contract source after (output ++ written)
  length_le : written.length ≤ availOut
  full : after.gz.state = .done ∨ written.length = availOut
  totalOut : contract.totalOut after.gz.zstrm = contract.totalOut held.gz.zstrm + written.length
  moves : Moves contract held.gz after.gz

theorem Sound.stopped (h : Sound contract source held output)
    (hStop : ¬ (0 < availOut ∧ held.gz.state ≠ .done)) :
    Filled contract source hasBase size held output availOut [] held where
  fill before := by rw [fill_stop hStop, List.append_nil]; rfl
  data before := by rw [GZipDataSource.fill_stop hStop, List.append_nil]
  sound := by rwa [List.append_nil]
  length_le := Nat.zero_le _
  full := by
    by_cases hDone : held.gz.state = .done
    · exact Or.inl hDone
    · right
      by_contra hRoom
      exact hStop ⟨by simp at hRoom; omega, hDone⟩
  totalOut := rfl
  moves := .same rfl rfl rfl

/-- A turn and what the loop does behind it. -/
theorem Filled.turn {filled after : HeldSource Source} {gz : GZipDataSource Source}
    {first rest : Bytes} (hGo : 0 < availOut ∧ held.gz.state ≠ .done)
    (hRefill : held.refill hasBase size = some filled)
    (hRefillData : held.gz.refill size = some filled.gz)
    (hDeflate : filled.gz.deflateNext availOut = some (gz, first))
    (hLength : first.length ≤ availOut)
    (hTotalOut : contract.totalOut gz.zstrm = contract.totalOut held.gz.zstrm + first.length)
    (hMoves : Moves contract held.gz gz)
    (hRest : Filled contract source hasBase size { filled with gz } (output ++ first)
      (availOut - first.length) rest after) :
    Filled contract source hasBase size held output availOut (first ++ rest) after where
  fill before := by
    rw [fill_turn hGo hRefill hDeflate, hRest.fill, List.append_assoc, List.length_append,
      Nat.sub_sub]
  data before := by
    rw [GZipDataSource.fill_turn hGo hRefillData hDeflate, hRest.data, List.append_assoc]
  sound := by
    rw [← List.append_assoc]
    exact hRest.sound
  length_le := by
    have := hRest.length_le
    rw [List.length_append]
    omega
  full := by
    rcases hRest.full with hDone | hFull
    · exact Or.inl hDone
    · right
      rw [List.length_append]
      omega
  totalOut := by rw [hRest.totalOut, hTotalOut, List.length_append, Nat.add_assoc]
  moves := hMoves.trans hRest.moves

/-- At the end of the source one turn ends the stream or fills the output. -/
theorem Sound.fill_finishing (h : Sound contract source held output)
    (hState : held.gz.state = .finishing) (hasBase : Source → Nat → Bool) (size availOut : Nat) :
    ∃ written after, Filled contract source hasBase size held output availOut written after := by
  by_cases hGo : 0 < availOut ∧ held.gz.state ≠ .done
  · have hKept : ¬ (held.gz.state = .streaming ∧ held.gz.nextIn = []) := by simp [hState]
    obtain ⟨gz, first, hDeflate, hSound, hLength, hTotalOut, hTotalIn, hSame, hEnd⟩ :=
      h.deflateNext (Or.inl hState) hGo.1
    have hStop : ¬ (0 < availOut - first.length ∧ gz.state ≠ .done) := by
      rcases hEnd with hDone | ⟨hStage, hFull | ⟨hStreaming, -⟩⟩
      · simp [hDone]
      · omega
      · rw [hStage, hState] at hStreaming
        cases hStreaming
    have hMoves : Moves contract held.gz gz := by
      rcases hEnd with hDone | ⟨hStage, -⟩
      · exact .done hDone
      · exact .same hStage hSame hTotalIn
    exact ⟨_, _, Filled.turn hGo (if_neg hKept) (if_neg hKept) hDeflate hLength hTotalOut hMoves
      (hSound.stopped hStop)⟩
  · exact ⟨[], held, h.stopped hGo⟩

/-- The loop ends: the source comes to its end, and within one buffer either the input
or the room for output gets less. -/
theorem Sound.fill_streaming {pData : Source} (hAcc : Acc Later pData)
    (h : Sound contract source held output) (hData : held.gz.pData = pData) (hSize : 0 < size)
    (hFits : size < 2 ^ 32) (hasBase : Source → Nat → Bool) (availOut : Nat) :
    ∃ written after, Filled contract source hasBase size held output availOut written after := by
  induction hAcc generalizing held output availOut with
  | intro pData _ ihSource =>
      induction hMeasure : held.gz.nextIn.length + availOut using Nat.strongRecOn
        generalizing held output availOut with
      | ind measure ih =>
          by_cases hGo : 0 < availOut ∧ held.gz.state ≠ .done
          · obtain ⟨filled, hRefill, hRefillData, hFilled, hStream, hMoved, hStage⟩ :=
              h.refill hGo.2 hSize hFits hasBase
            have hReady : filled.gz.state = .finishing ∨
                filled.gz.state = .streaming ∧ filled.gz.nextIn ≠ [] := by
              rcases hStage with hFinishing | ⟨hStreaming, hRead, -⟩
              · exact Or.inl hFinishing
              · exact Or.inr ⟨hStreaming, hRead⟩
            obtain ⟨gz, first, hDeflate, hSound, hLength, hTotalOut, hTotalIn, hSame, hEnd⟩ :=
              hFilled.deflateNext hReady hGo.1
            have hNext : ∃ rest after, Filled contract source hasBase size { filled with gz }
                (output ++ first) (availOut - first.length) rest after := by
              rcases hEnd with hDone | ⟨hState, hFull | ⟨hStreaming, hLess⟩⟩
              · exact ⟨[], _, hSound.stopped (by simp [hDone])⟩
              · exact ⟨[], _, hSound.stopped (by omega)⟩
              · rcases hStage with hFinishing | ⟨-, -, rfl | hLater⟩
                · rw [hState, hFinishing] at hStreaming
                  cases hStreaming
                · exact ih _ (by dsimp only; omega) hSound (hSame.trans hData) _ rfl
                · exact ihSource _ (hData ▸ hLater) hSound hSame _
            obtain ⟨rest, after, hRest⟩ := hNext
            have hStep : Moves contract filled.gz gz := by
              rcases hEnd with hDone | ⟨hState, -⟩
              · exact .done hDone
              · exact .same hState hSame hTotalIn
            exact ⟨_, after, Filled.turn hGo hRefill hRefillData hDeflate hLength
              (hStream ▸ hTotalOut) (hMoved.trans hStep) hRest⟩
          · exact ⟨[], held, h.stopped hGo⟩

/-- One call: no exception, nothing in the buffer that has not been written, and the same
bytes as of the data alone. -/
theorem Sound.getData (h : Sound contract source held output) (hSize : 0 < size)
    (hFits : size < 2 ^ 32) (hasBase : Source → Nat → Bool) :
    ∃ buf after, held.getData hasBase size = some (buf, after) ∧
      held.gz.getData size = some (buf.written, after.gz) ∧
      Sound contract source after (output ++ buf.written) ∧ buf.len = buf.written.length ∧
      (after.gz.state = .done ∨ buf.written.length = size) ∧
      contract.totalOut after.gz.zstrm =
        contract.totalOut held.gz.zstrm + buf.written.length ∧
      Moves contract held.gz after.gz := by
  by_cases hDone : held.gz.state = .done
  · refine ⟨{ written := [], len := 0 }, held, if_pos hDone, if_pos hDone, ?_, rfl, Or.inl hDone,
      rfl, .same rfl rfl rfl⟩
    rwa [List.append_nil]
  · have hFilled : ∃ written after,
        Filled contract source hasBase size held output size written after := by
      cases hState : held.gz.state with
      | done => exact absurd hState hDone
      | finishing => exact h.fill_finishing hState hasBase size size
      | streaming => exact h.fill_streaming (h.exhausts hState).acc rfl hSize hFits hasBase size
    obtain ⟨written, after, hFilled⟩ := hFilled
    have hLength := hFilled.length_le
    have hGz := freeInputBuffer_gz after
    refine ⟨{ written, len := size - (size - written.length) }, after.freeInputBuffer false, ?_, ?_,
      hFilled.sound.freeInputBuffer, ?_, ?_, ?_, ?_⟩
    · rw [HeldSource.getData, if_neg hDone, Nat.mod_eq_of_lt hFits, hFilled.fill]
      rfl
    · rw [GZipDataSource.getData, if_neg hDone, hFilled.data, hGz]
      rfl
    · dsimp only
      omega
    · rw [hGz]
      exact hFilled.full
    · rw [hGz]
      exact hFilled.totalOut
    · rw [hGz]
      exact hFilled.moves

theorem Moves.done_of_done {gz after : GZipDataSource Source} (h : Moves contract gz after)
    (hDone : gz.state = .done) : after.state = .done := by
  cases h with
  | done hAfter => exact hAfter
  | finishing hState _ => cases hDone.symm.trans hState
  | later hState _ _ => cases hDone.symm.trans hState
  | same hState _ _ => exact hState.trans hDone

/-- A run of calls. -/
theorem Sound.requests (h : Sound contract source held output) (hasBase : Source → Nat → Bool)
    {sizes : List Nat} (hSizes : ∀ size ∈ sizes, 0 < size ∧ size < 2 ^ 32) :
    ∃ bufs after, held.requests hasBase sizes = some (bufs, after) ∧
      Sound contract source after (output ++ (bufs.map OutputBuf.written).flatten) ∧
      (∀ buf ∈ bufs, buf.len = buf.written.length) ∧
      (held.gz.state = .done → after.gz.state = .done) ∧
      ∀ buf ∈ bufs, buf.len = 0 → after.gz.state = .done := by
  induction sizes generalizing held output with
  | nil =>
      refine ⟨[], held, rfl, ?_, List.forall_mem_nil _, id, List.forall_mem_nil _⟩
      rwa [List.map_nil, List.flatten_nil, List.append_nil]
  | cons size sizes ih =>
      obtain ⟨⟨hSize, hFits⟩, hRest⟩ := List.forall_mem_cons.1 hSizes
      obtain ⟨buf, middle, hCall, -, hSound, hLength, hFull, -, hMoves⟩ :=
        h.getData hSize hFits hasBase
      obtain ⟨bufs, after, hCalls, hAfter, hLengths, hDone, hEmpty⟩ := ih hSound hRest
      refine ⟨buf :: bufs, after, ?_, ?_, List.forall_mem_cons.2 ⟨hLength, hLengths⟩,
        fun hState => hDone (hMoves.done_of_done hState), List.forall_mem_cons.2 ⟨?_, hEmpty⟩⟩
      · simp [HeldSource.requests, hCall, hCalls]
      · rwa [List.map_cons, List.flatten_cons, ← List.append_assoc]
      · intro hNone
        exact hDone (hFull.resolve_right (by omega))

/-- However it is called, the stream ends after finitely many calls. -/
inductive Ends (hasBase : Source → Nat → Bool) : HeldSource Source → Prop where
  | done {held : HeldSource Source} (hDone : held.gz.state = .done) : Ends hasBase held
  | call {held : HeldSource Source}
      (returns : ∀ size, 0 < size → size < 2 ^ 32 → ∃ buf after,
        held.getData hasBase size = some (buf, after))
      (later : ∀ size buf after, 0 < size → size < 2 ^ 32 →
        held.getData hasBase size = some (buf, after) → Ends hasBase after) :
      Ends hasBase held

/-- What zlib may put out for the input that it has. -/
def bound (contract : ZlibContract) (gz : GZipDataSource Source) : Nat :=
  (Finset.range (contract.totalIn gz.zstrm + gz.nextIn.length + 1)).sup contract.deflateBound

theorem Sound.totalOut_le (h : Sound contract source held output)
    (hNotDone : held.gz.state ≠ .done) :
    contract.totalOut held.gz.zstrm ≤ bound contract held.gz := by
  have hLive := h.live
  have hUsable : contract.streaming held.gz.zstrm ∨ contract.finishing held.gz.zstrm := by
    cases hState : held.gz.state with
    | done => exact absurd hState hNotDone
    | streaming =>
        rw [hState] at hLive
        exact Or.inl hLive
    | finishing => rwa [hState] at hLive
  exact Nat.le_trans (contract.totalOut_le _ hUsable)
    (Finset.le_sup (Finset.mem_range.2 (by omega)))

/-- Within one buffer of the source, and at its end, there are finitely many calls. -/
theorem Sound.ends_within (h : Sound contract source held output) {pData : Source}
    {state : GDState} (hData : held.gz.pData = pData) (hState : held.gz.state = state)
    (hOthers : ∀ after longer, Sound contract source after longer → state = .streaming →
      (after.gz.state = .finishing ∨
        after.gz.state = .streaming ∧ Relation.TransGen Later after.gz.pData pData) →
      Ends hasBase after) : Ends hasBase held := by
  induction hMeasure : bound contract held.gz + 1 - contract.totalOut held.gz.zstrm using
    Nat.strongRecOn generalizing held output with
  | ind measure ih =>
      refine .call ?_ ?_
      · intro size hSize hFits
        obtain ⟨buf, after, hCall, -⟩ := h.getData hSize hFits hasBase
        exact ⟨buf, after, hCall⟩
      · intro size buf after hSize hFits hCall
        obtain ⟨buf', after', hCall', -, hSound, -, hFull, hTotalOut, hMoves⟩ :=
          h.getData hSize hFits hasBase
        obtain ⟨rfl, rfl⟩ := Prod.mk.inj (Option.some.inj (hCall.symm.trans hCall'))
        cases hMoves with
        | done hAfter => exact .done hAfter
        | finishing hStreaming hAfter =>
            exact hOthers _ _ hSound (hState.symm.trans hStreaming) (Or.inl hAfter)
        | later hStreaming hAfter hLater =>
            exact hOthers _ _ hSound (hState.symm.trans hStreaming) (Or.inr ⟨hAfter, hData ▸ hLater⟩)
        | same hAfter hSame hTotal =>
            by_cases hDone : after.gz.state = .done
            · exact .done hDone
            · have hBound : bound contract after.gz = bound contract held.gz := by
                rw [bound, hTotal, bound]
              have hLess := hSound.totalOut_le hDone
              have hWritten := hFull.resolve_left hDone
              exact ih _ (by omega) hSound (hSame.trans hData) (hAfter.trans hState) rfl

theorem Sound.ends_finishing (h : Sound contract source held output)
    (hState : held.gz.state = .finishing) : Ends hasBase held :=
  h.ends_within rfl hState fun _ _ _ hStreaming _ => absurd hStreaming (by decide)

theorem Sound.ends_streaming {pData : Source} (hAcc : Acc (Relation.TransGen Later) pData)
    (h : Sound contract source held output) (hData : held.gz.pData = pData)
    (hState : held.gz.state = .streaming) : Ends hasBase held := by
  induction hAcc generalizing held output with
  | intro pData _ ih =>
      refine h.ends_within hData hState ?_
      rintro after longer hAfter - (hFinishing | ⟨hStreaming, hLater⟩)
      · exact hAfter.ends_finishing hFinishing
      · exact ih _ hLater hAfter rfl hStreaming

theorem Sound.ends (h : Sound contract source held output) : Ends hasBase held := by
  cases hState : held.gz.state with
  | done => exact .done hState
  | finishing => exact h.ends_finishing hState
  | streaming => exact h.ends_streaming (h.exhausts hState).acc.transGen rfl hState

theorem Sound.construct (contract : ZlibContract) {source : Source} (hSource : Exhausts source) :
    ∃ held, HeldSource.construct source = some held ∧ held.gz.state = .streaming ∧
      Sound contract source held [] := by
  obtain ⟨stream, hInit, hStreaming⟩ := contract.deflateInit2
  refine ⟨{ gz := { pData := source, zstrm := stream, nextIn := [], state := .streaming }
            inputBuf := none, count := 0, log := [] }, ?_, rfl, ?_⟩
  · simp [HeldSource.construct, GZipDataSource.construct, hInit]
  · exact
      { live := hStreaming, deflated := ⟨[], .start hInit, rfl⟩, drained := fun _ => rfl
        answers := .none, exhausts := fun _ => hSource, received := fun _ => List.forall_mem_nil _
        exhausted := fun hLeft => absurd rfl hLeft, owned := rfl, numbered := List.forall_mem_nil _
        nodup := List.nodup_nil, held_unread := fun _ => rfl, unread := List.forall_mem_nil _ }

/-- What has been put out at the end is the compressed data of the whole source. -/
theorem Sound.finished (h : Sound contract source held output) (hDone : held.gz.state = .done) :
    ∃ buffers, held.log.filterMap BufferEvent.data = buffers ++ [[]] ∧
      (∀ data ∈ buffers, data ≠ []) ∧ Deflated buffers.flatten output := by
  have hLeft : held.gz.state ≠ .streaming := by simp [hDone]
  obtain ⟨buffers, hReceived, hBuffers⟩ := h.exhausted hLeft
  obtain ⟨consumed, hRun, hConsumed⟩ := h.deflated
  rw [h.drained hLeft, List.append_nil, hReceived, List.flatten_append, List.flatten_singleton,
    List.append_nil] at hConsumed
  rw [hDone, hConsumed] at hRun
  exact ⟨buffers, hReceived, hBuffers, _, hRun⟩

/-- The destructor hands back what is still held. -/
theorem Sound.destroy (h : Sound contract source held output) :
    held.destroy.log.filterMap BufferEvent.freed = held.log.filterMap BufferEvent.owned ∧
      (held.log.filterMap BufferEvent.owned).Nodup ∧ held.destroy.inputBuf = none := by
  refine ⟨?_, h.nodup, ?_⟩
  · rw [h.owned]
    cases hHeld : held.inputBuf with
    | none => simp [HeldSource.destroy, HeldSource.freeInputBuffer, hHeld]
    | some number =>
        simp [HeldSource.destroy, HeldSource.freeInputBuffer, hHeld, BufferEvent.freed]
  · cases hHeld : held.inputBuf with
    | none => simp [HeldSource.destroy, HeldSource.freeInputBuffer, hHeld]
    | some number => simp [HeldSource.destroy, HeldSource.freeInputBuffer, hHeld]

/-- Asked for the size of `ExtendedWrite`, the data ends with an empty buffer behind the
compressed data of the whole source. -/
theorem Sound.delivers (hEnds : Ends hasBase held) (h : Sound contract source held output) :
    ∃ outputs buffers last, Delivers held.gz outputs ∧ Answers source (buffers ++ [[]]) last ∧
      (∀ data ∈ buffers, data ≠ []) ∧ Deflated buffers.flatten (output ++ outputs.flatten) := by
  induction hEnds generalizing output with
  | @done held hDone =>
      obtain ⟨buffers, hReceived, hBuffers, hDeflated⟩ := h.finished hDone
      refine ⟨[], buffers, held.gz.pData, ⟨held.gz, if_pos hDone⟩, hReceived ▸ h.answers, hBuffers,
        ?_⟩
      rwa [List.flatten_nil, List.append_nil]
  | @call held returns later ih =>
      have hSize : 0 < bytesDesired := by decide
      have hFits : bytesDesired < 2 ^ 32 := by decide
      obtain ⟨buf, after, hCall, hData, hSound, -, hFull, -, -⟩ := h.getData hSize hFits hasBase
      by_cases hWritten : buf.written = []
      · have hDone : after.gz.state = .done := by
          refine hFull.resolve_right fun hLength => ?_
          rw [hWritten] at hLength
          exact absurd hLength.symm (Nat.ne_of_gt hSize)
        obtain ⟨buffers, hReceived, hBuffers, hDeflated⟩ := hSound.finished hDone
        refine ⟨[], buffers, after.gz.pData, ⟨after.gz, ?_⟩, hReceived ▸ hSound.answers, hBuffers, ?_⟩
        · rw [← hWritten]
          exact hData
        · rwa [hWritten] at hDeflated
      · obtain ⟨outputs, buffers, last, hOutputs, hAnswers, hBuffers, hDeflated⟩ :=
          ih _ _ _ hSize hFits hCall hSound
        refine ⟨buf.written :: outputs, buffers, last, ⟨hWritten, after.gz, hData, hOutputs⟩, hAnswers,
          hBuffers, ?_⟩
        rwa [List.flatten_cons, ← List.append_assoc]

end Buffers

end HeldSource

end Httpuv
