import Httpuv.Http.ResponseFraming
import Httpuv.Http.Writes
import Httpuv.Parser.Contract

/-! What becomes of a connection when the body of a response breaks off. -/
namespace Httpuv

open Semantics

/-- The length that a header block announces. -/
def announcedLength (responseHeader : Bytes) : Option Nat := do
  let (_, rest) ← Framing.readLine responseHeader
  let (fields, _) ← Framing.readFields responseHeader.length rest
  let value ← Framing.fieldValue fields Framing.contentLength
  Framing.Numeral.parse 10 value

/-- The bytes of a body that have been handed over, behind the header block. -/
def bodyWritten {File : Type} (serial : Nat) (log : List (Observation File)) : Nat :=
  ((log.filterMap (fun entry => match entry with
    | .uvWrite (some other) bytes => if other = serial then some bytes.length else none
    | _ => none)).tail).sum

namespace Connection

variable {File : Type} [HttpParser] [Zlib]

section Silent

variable {conn middle after : Connection File}

/-- A connection that is being closed stays so, and nothing more is sent. -/
def Silent (conn after : Connection File) : Prop :=
  conn.isClosing = true → after.isClosing = true ∧
    ∃ entries, after.log = conn.log ++ entries ∧ ∀ entry ∈ entries, ¬ entry.IsWrite

namespace Silent

theorem trans (h : Silent conn middle) (h' : Silent middle after) : Silent conn after := by
  intro hClosing
  obtain ⟨hMiddle, entries, hLog, hEntries⟩ := h hClosing
  obtain ⟨hAfter, entries', hLog', hEntries'⟩ := h' hMiddle
  refine ⟨hAfter, entries ++ entries', by rw [hLog', hLog, List.append_assoc], ?_⟩
  intro entry hMem
  rcases List.mem_append.1 hMem with hMem | hMem
  · exact hEntries entry hMem
  · exact hEntries' entry hMem

/-- Entries that are no bytes. -/
theorem extend (entries : List (Observation File)) (hLog : after.log = conn.log ++ entries)
    (hEntries : ∀ entry ∈ entries, ¬ entry.IsWrite) (hClosing : after.isClosing = conn.isClosing) :
    Silent conn after :=
  fun hBefore => ⟨hClosing.trans hBefore, entries, hLog, hEntries⟩

theorem same (hLog : after.log = conn.log) (hClosing : after.isClosing = conn.isClosing) :
    Silent conn after :=
  extend [] (by rw [hLog, List.append_nil]) (by simp) hClosing

theorem refl (conn : Connection File) : Silent conn conn := same rfl rfl

variable [DataSource File]

theorem quiet (h : Quiet conn after) : Silent conn after := by
  intro hClosing
  obtain ⟨entries, hLog, -, hRefused⟩ := h.log
  exact ⟨h.isClosing hClosing, entries, hLog, hRefused hClosing⟩

/-- No write is taken on a handle that is being closed. -/
theorem wrote {request : Nat} {kind : ResponseKind} {response : HttpResponse (Body File)}
    {entries : List (Observation File)} (h : Wrote conn after request kind response entries) :
    Silent conn after := by
  intro hClosing
  rcases h.entries with ⟨-, hEntries⟩ | ⟨hOpen, -⟩
  · obtain ⟨writes, rfl⟩ := h.same
    exact ⟨hClosing, _, rfl, by simp [hEntries, Observation.IsWrite]⟩
  · rw [hOpen] at hClosing
    cases hClosing

theorem finishes {request : Nat} {response : HttpResponse (Body File)} {closing : Bool}
    (h : Finishes conn request response closing after) : Silent conn after := by
  obtain ⟨entries, hWrote⟩ := Connection.wrote h
  have hStopped : Silent conn (conn.stopIf closing) := same rfl rfl
  exact hStopped.trans (wrote hWrote)

theorem onEvent (conn : Connection File) (static : Option (HttpResponse (Body File)))
    (event : ParserEvent) : Silent conn (conn.onEvent static event) := by
  cases event with
  | onMessageBegin =>
      have hBegun : Silent conn conn.begun :=
        extend [.onMessageBegin (conn.current + 1) conn.handlingRequest] rfl
          (by simp [Observation.IsWrite]) rfl
      exact hBegun.trans (quiet (quiet_newRequest conn))
  | onHeadersComplete upgrade =>
      simp only [Connection.onEvent, onHeadersComplete]
      split
      case h_1 response hSome =>
          refine extend [.onHeadersComplete conn.current upgrade,
            .answeredInHeaders conn.current response] ?_ (by simp [Observation.IsWrite]) rfl
          simp [push, observe]
      case h_2 hNone =>
          exact extend [.onHeadersComplete conn.current upgrade] rfl
            (by simp [Observation.IsWrite]) rfl
  | onMessageComplete =>
      simp only [Connection.onEvent, onMessageComplete]
      split_ifs
      · exact refl conn
      · exact same rfl rfl
  | onUrl data => exact same rfl rfl
  | onHeaderField data => exact same rfl rfl
  | onHeaderValue data => exact same rfl rfl
  | onBody data => exact same rfl rfl

theorem feed (conn : Connection File) (static : Option (HttpResponse (Body File)))
    (buffer : Bytes) : Silent conn (conn.feed static buffer) := by
  have hEvents : ∀ (events : List ParserEvent) (conn : Connection File),
      Silent conn (events.foldl (Connection.onEvent static) conn) := by
    intro events
    induction events with
    | nil => exact refl
    | cons event events ih => exact fun conn => (onEvent conn static event).trans (ih _)
  have hStart : Silent conn
      ({ conn with parser := (HttpParser.execute conn.parser buffer).parser }.observe
        (.execute (buffer.take (HttpParser.execute conn.parser buffer).parsed))) :=
    extend _ rfl (by simp [Observation.IsWrite]) rfl
  exact hStart.trans (hEvents _ _)

variable [Host] [Digests]

theorem upgraded {now : Tm} {pData : Bytes} (h : Upgraded conn now pData after) :
    Silent conn after := by
  cases h with
  | gone hGone => exact refl conn
  | refused hRefused hQuiet hClosed =>
      have hRefusal : Silent conn (conn.observe (.accept conn.current false)) :=
        extend _ rfl (by simp [Observation.IsWrite]) rfl
      exact hRefusal.trans (quiet hQuiet)
  | @accepted parser answered handshake hOpen hAccepted hHandshake hAnswered =>
      obtain ⟨entries, hWrote⟩ := Connection.wrote hAnswered
      have hAccept : Silent conn (conn.accept parser handshake) := by
        refine extend [.accept conn.current true, .handshake handshake.pData] ?_
          (by simp [Observation.IsWrite]) rfl
        exact List.append_assoc conn.log [_] [_]
      have hSwitch : Silent answered (answered.switchProtocol handshake) := same rfl rfl
      exact (hAccept.trans (wrote hWrote)).trans hSwitch

theorem parsed {static : Option (HttpResponse (Body File))} {now : Tm} {buffer : Bytes}
    (h : Parsed conn static now buffer after) : Silent conn after := by
  have hFed := feed conn static buffer
  cases h with
  | waiting hWaiting => exact hFed.trans (same rfl rfl)
  | upgrade hWaiting hUpgrade hAfter => exact hFed.trans (upgraded hAfter)
  | quiet hWaiting hUpgrade hQuiet hRest => exact hFed.trans (quiet hQuiet)

omit [Host] [Digests] in
theorem headersCompleted {now : Tm} {request : Nat} {response : Option (HttpResponse (Body File))}
    (h : conn.headersCompleted now request response = some middle) : Silent conn middle := by
  cases response with
  | some answer =>
      obtain ⟨closing, answered, hFinishes, rfl⟩ := headersCompleted_some h
      have hParser : Silent answered
          { answered with parser := HttpParser.headersCompleted answered.parser 3 } := same rfl rfl
      exact (finishes hFinishes).trans hParser
  | none =>
      obtain ⟨continued, rfl | hContinued, rfl⟩ := headersCompleted_none h
      · exact same rfl rfl
      · have hParser : Silent continued
            { continued with parser := HttpParser.headersCompleted continued.parser 0 } :=
          same rfl rfl
        exact (wrote (Connection.wrote hContinued).choose_spec).trans hParser

/-- One step. -/
theorem step (h : Step conn after) : Silent conn after := by
  cases h with
  | quiet hQuiet => exact quiet hQuiet
  | read static now data hReading hIgnore hProtocol hParsed =>
      have hRead : Silent conn (conn.observe (.read data)) :=
        extend _ rfl (by simp [Observation.IsWrite]) rfl
      exact hRead.trans (parsed hParsed)
  | @onHeadersCompleteComplete middle _ request response rest static now hQueue hMiddle hParsed =>
      have hPopped : Silent conn { conn with backgroundQueue := rest } := same rfl rfl
      have hTaken : Silent middle { middle with requestBuffer := [] } := same rfl rfl
      exact (hPopped.trans (headersCompleted hMiddle)).trans (hTaken.trans (parsed hParsed))
  | @onBodyError _ request response rest hQueue hAfter =>
      have hPaused : Silent conn
          { conn with backgroundQueue := rest, parser := HttpParser.pause conn.parser } :=
        same rfl rfl
      exact hPaused.trans (finishes (onBodyError_finishes hAfter))
  | @onMessageCompleteComplete _ request response rest hQueue hAfter =>
      have hPopped : Silent conn { conn with backgroundQueue := rest } := same rfl rfl
      rcases onMessageCompleteComplete_cases hAfter with ⟨rfl, -⟩ | ⟨-, answer, -, hFinishes⟩
      · exact hPopped
      · exact hPopped.trans (finishes hFinishes)
  | decided hQueue response =>
      refine extend _ rfl ?_ rfl
      cases response <;> simp [Observation.IsWrite]
  | undecided hQueue => exact extend _ rfl (by simp [Observation.IsWrite]) rfl
  | bodySkipped hQueue hScheduled => exact same rfl rfl
  | bodyTaken hQueue hScheduled => exact extend _ rfl (by simp [Observation.IsWrite]) rfl
  | bodyFailed hQueue hScheduled now => exact extend _ rfl (by simp [Observation.IsWrite]) rfl
  | callSkipped hQueue hScheduled => exact same rfl rfl
  | called hQueue hScheduled response => exact extend _ rfl (by simp [Observation.IsWrite]) rfl
  | promised hQueue hScheduled => exact extend _ rfl (by simp [Observation.IsWrite]) rfl
  | settled hPromise response => exact same rfl rfl
  | rejected hPromise => exact same rfl rfl

theorem run {start finish : Connection File} {actions : List (ConnectionAction File)}
    {outputs : List Unit} (h : system.Run start actions finish outputs) : Silent start finish := by
  apply h.invariant (I := fun conn _ => Silent start conn)
  · exact refl start
  · intro conn outputs action after emitted hBefore hNext
    obtain ⟨result, hResult, hSame⟩ := Option.map_eq_some_iff.1 hNext
    obtain rfl : result = after := congrArg Prod.fst hSame
    exact hBefore.trans (step (Connection.step hResult))

end Silent

end Silent

variable [DataSource File]

/-- The stream whose `next` is called when a write has been called back. -/
def nextStream (conn : Connection File) : ConnectionAction File →
    Option (Nat × HttpResponse (SentBody File) × ExtendedWrite (SentBody File))
  | .written status queueEmpty =>
      match conn.writes with
      | .header serial response :: _ =>
          if status ≠ 0 then none
          else response.pBody.map (fun body =>
            (serial, response, ExtendedWrite.construct body response.chunked))
      | .body serial response write :: _ =>
          if queueEmpty then
            some (serial, response, { write with activeWrites := write.activeWrites - 1 })
          else none
      | _ => none
  | _ => none

/-- The response whose body fails in a step: its source throws an exception, or
ends before the announced length. -/
def failedBody (conn : Connection File) (action : ConnectionAction File) :
    Option (HttpResponse (SentBody File)) := do
  let (serial, response, write) ← conn.nextStream action
  if write.errored || write.completed then none
  else
    match DataSource.getData write.pDataSource bytesDesired with
    | none => some response
    | some (buf, _) =>
        let short := match announcedLength response.responseHeader with
          | some length => decide (bodyWritten serial conn.log < length)
          | none => false
        if buf == [] && !write.chunked && short then some response else none

section Failure

variable {conn after : Connection File} {action : ConnectionAction File}
  {serial : Nat} {response : HttpResponse (SentBody File)} {write : ExtendedWrite (SentBody File)}

/-- The step is a call of `next` for this stream, which has no write under way. -/
theorem next_nextStream [Host] [Digests] (hWriting : conn.Writing)
    (hStream : conn.nextStream action = some (serial, response, write))
    (h : conn.next action = some after) : write.activeWrites = 0 ∧
      ∃ rest, after = nextWrite { conn with writes := rest } serial response write := by
  cases action with
  | written status queueEmpty =>
      simp only [next, onWritten] at h
      simp only [nextStream] at hStream
      cases hWrites : conn.writes with
      | nil =>
          rw [hWrites] at hStream
          cases hStream
      | cons older rest =>
          rw [hWrites] at h hStream
          cases older with
          | frame => cases hStream
          | header number answer =>
              simp only [Option.ite_none_left_eq_some, Option.map_eq_some_iff, Prod.mk.injEq] at hStream
              obtain ⟨hStatus, body, hBody, rfl, rfl, rfl⟩ := hStream
              simp only [if_neg hStatus, hBody, Option.some.injEq] at h
              exact ⟨rfl, rest, h.symm⟩
          | body number answer stream =>
              simp only [Option.ite_none_right_eq_some, Option.some.injEq, Prod.mk.injEq] at hStream
              obtain ⟨hEmpty, rfl, rfl, rfl⟩ := hStream
              have hBacked := hWriting.backed (.body number answer stream) (by simp [hWrites])
                number rfl
              have hAlone : stream.activeWrites = 1 := hBacked.alone
              simp only [if_pos hEmpty, Option.some.injEq] at h
              exact ⟨by simp [hAlone], rest, h.symm⟩
  | _ => cases hStream

/-- A stream that breaks off is disposed of, and its response with it. -/
theorem nextWrite_failed (hIdle : write.activeWrites = 0)
    (hOpen : (write.errored || write.completed) = false)
    (hData : DataSource.getData write.pDataSource bytesDesired = none ∨
      write.chunked = false ∧ ∃ source,
        DataSource.getData write.pDataSource bytesDesired = some ([], source)) :
    conn.nextWrite serial response write = conn.destroy response := by
  rw [nextWrite, ExtendedWrite.next, if_neg (by simp [hOpen])]
  rcases hData with hData | ⟨hPlain, source, hData⟩
  · simp [hData, hIdle]
  · simp [hData, hPlain, hIdle, ExtendedWrite.pre, ExtendedWrite.post, ExtendedWrite.dispose]

theorem failedBody_cases (h : conn.failedBody action = some response) :
    ∃ serial write, conn.nextStream action = some (serial, response, write) ∧
      (write.errored || write.completed) = false ∧
      (DataSource.getData write.pDataSource bytesDesired = none ∨
        write.chunked = false ∧ ∃ source,
          DataSource.getData write.pDataSource bytesDesired = some ([], source)) := by
  simp only [failedBody, Option.bind_eq_bind, Option.bind_eq_some_iff, Prod.exists] at h
  obtain ⟨serial, answer, write, hStream, h⟩ := h
  split_ifs at h with hOver
  cases hData : DataSource.getData write.pDataSource bytesDesired with
  | none =>
      rw [hData] at h
      obtain rfl := Option.some.inj h
      exact ⟨serial, write, hStream, by simpa using hOver, Or.inl hData⟩
  | some result =>
      obtain ⟨buf, source⟩ := result
      rw [hData] at h
      simp only [Option.ite_none_right_eq_some, Option.some.injEq, Bool.and_eq_true, beq_iff_eq,
        Bool.not_eq_true'] at h
      obtain ⟨⟨⟨rfl, hPlain⟩, -⟩, rfl⟩ := h
      exact ⟨serial, write, hStream, by simpa using hOver, Or.inr ⟨hPlain, source, hData⟩⟩

variable [Host] [Digests]

/-- When the body of a response fails, the connection is closed if and only if it
was to be closed after the response anyway. -/
theorem closed_after_failure_iff {start : Connection File} {actions : List (ConnectionAction File)}
    {outputs : List Unit} (hInitial : Initial start)
    (run : system.Run start actions conn outputs)
    (hFails : conn.failedBody action = some response) (hStep : conn.next action = some after) :
    (after.isClosing = true ∧ ∀ finish later outputs, system.Run after later finish outputs →
      ∃ entries, finish.log = after.log ++ entries ∧ ∀ entry ∈ entries, ¬ entry.IsWrite) ↔
    conn.isClosing = true ∨ response.closeAfterWritten = true := by
  have hWriting : conn.Writing := by
    apply run.invariant (I := fun conn _ => conn.Writing) hInitial.writing
    intro conn outputs action after emitted hBefore hNext
    obtain ⟨result, hResult, hSame⟩ := Option.map_eq_some_iff.1 hNext
    obtain rfl : result = after := congrArg Prod.fst hSame
    exact hBefore.step (step hResult)
  obtain ⟨serial, write, hStream, hOpen, hData⟩ := failedBody_cases hFails
  obtain ⟨hIdle, rest, rfl⟩ := next_nextStream hWriting hStream hStep
  rw [nextWrite_failed hIdle hOpen hData]
  have hClosed : (destroy { conn with writes := rest } response).isClosing = true ↔
      conn.isClosing = true ∨ response.closeAfterWritten = true := by
    unfold destroy
    split_ifs with hClose
    · simp [close_isClosing, hClose]
    · simp [hClose]
  rw [hClosed]
  constructor
  · exact fun hAfter => hAfter.1
  · intro hAfter
    refine ⟨hAfter, fun finish later outputs hLater => ?_⟩
    exact (Silent.run hLater (hClosed.2 hAfter)).2

end Failure

omit [HttpParser] [Zlib] [DataSource File]

/-- A file that has become shorter since it was opened. -/
structure TruncatedFile where
  length : Nat
  contents : Bytes
  deriving DecidableEq, Repr

instance : DataSource TruncatedFile where
  size := TruncatedFile.length
  getData file desired := some (file.contents.take desired,
    { file with contents := file.contents.drop desired })

/-- A request without a body. Of its two minor versions only the second one keeps the
connection alive by itself. -/
def sampleHead (minor : Nat) : Bytes :=
  ascii "GET / HTTP/1." ++ [Framing.Numeral.digitByte minor] ++ ascii "\r\n\r\n"

/-- The application answers with two of five bytes, and the last write is called back. -/
def sampleFailure (minor : Nat) : List (ConnectionAction TruncatedFile) :=
  [.read (sampleHead minor) none .epoch, .runMain (.returned none) [] .epoch,
    .runMain (.returned none) [] .epoch, .runBackground none .epoch [],
    .runMain (.returned (some (.response 200 [] (some (.inr ⟨5, ascii "hi"⟩))))) [] .epoch,
    .runBackground none .epoch [], .written 0 true]

/-- With HTTP/1.0 the connection is not kept alive, so that it is closed behind the failure
as it would have been behind the whole body. -/
theorem closed_after_failure_unkept :
    let _ : HttpParser := httpParser
    let _ : Zlib := HttpResponse.SampleStream.zlib
    let _ : Host := littleEndianHost
    let _ : Digests := sampleDigests
    ∃ conn after : Connection TruncatedFile,
      system.Run (fresh WSHixie76Parser.textInfo WSHixie76Parser.textInfo) (sampleFailure 0) conn [] ∧
      (conn.failedBody (.written 0 true)).isSome ∧ conn.next (.written 0 true) = some after ∧
      after.isClosing = true ∧ ∀ finish later outputs, system.Run after later finish outputs →
        ∃ entries, finish.log = after.log ++ entries ∧ ∀ entry ∈ entries, ¬ entry.IsWrite := by
  intro parser zlib host digests
  obtain ⟨conn, hRun, hFacts⟩ : ∃ conn,
      (sampleFailure 0).foldlM next (fresh WSHixie76Parser.textInfo WSHixie76Parser.textInfo) =
        some conn ∧
      ((conn.failedBody (.written 0 true)).map (·.closeAfterWritten),
        (conn.next (.written 0 true)).isSome) = (some true, true) :=
    Option.map_eq_some_iff.1 (by decide +kernel)
  obtain ⟨hFailed, hNext⟩ := Prod.mk.inj hFacts
  obtain ⟨response, hFails, hClose⟩ := Option.map_eq_some_iff.1 hFailed
  obtain ⟨after, hStep⟩ := Option.isSome_iff_exists.1 hNext
  have hRun := run_of_foldlM hRun
  exact ⟨conn, after, hRun, by rw [hFails]; rfl, hStep,
    (closed_after_failure_iff ⟨_, _, rfl⟩ hRun hFails hStep).2 (Or.inr hClose)⟩

/-- The next request, which is answered with one byte. -/
def sampleNext : List (ConnectionAction TruncatedFile) :=
  [.read (sampleHead 1) none .epoch, .runMain (.returned none) [] .epoch,
    .runMain (.returned none) [] .epoch, .runBackground none .epoch [],
    .runMain (.returned (some (.response 200 [] (some (.inl ⟨ascii "x", 0⟩))))) [] .epoch,
    .runBackground none .epoch []]

def pieceSerial : Observation File → Option Nat
  | .uvWrite serial _ => serial
  | _ => none

/-- Kept alive, the connection stays open, and the next response follows the two bytes. -/
theorem open_after_failure :
    let _ : HttpParser := httpParser
    let _ : Zlib := HttpResponse.SampleStream.zlib
    let _ : Host := littleEndianHost
    let _ : Digests := sampleDigests
    ∃ conn after finish : Connection TruncatedFile,
      system.Run (fresh WSHixie76Parser.textInfo WSHixie76Parser.textInfo) (sampleFailure 1) conn [] ∧
      (conn.failedBody (.written 0 true)).isSome ∧ conn.next (.written 0 true) = some after ∧
      after.isClosing = false ∧ system.Run after sampleNext finish [] ∧
      ¬ HasPiece 1 after.log ∧ HasPiece 1 finish.log := by
  intro parser zlib host digests
  have hPiece : ∀ log : List (Observation TruncatedFile),
      HasPiece 1 log ↔ 1 ∈ log.filterMap pieceSerial := by
    intro log
    rw [List.mem_filterMap]
    constructor
    · rintro ⟨bytes, hMem⟩
      exact ⟨_, hMem, rfl⟩
    · rintro ⟨entry, hMem, hEntry⟩
      cases entry with
      | uvWrite serial bytes =>
          obtain rfl : serial = some 1 := hEntry
          exact ⟨bytes, hMem⟩
      | _ => cases hEntry
  obtain ⟨conn, hRun, hFacts⟩ : ∃ conn,
      (sampleFailure 1).foldlM next (fresh WSHixie76Parser.textInfo WSHixie76Parser.textInfo) =
        some conn ∧
      ((conn.failedBody (.written 0 true)).isSome,
        (conn.next (.written 0 true)).bind (fun after =>
          (sampleNext.foldlM next after).map (fun finish =>
            (after.isClosing, after.log.filterMap pieceSerial, finish.log.filterMap pieceSerial)))) =
        (true, some (false, [0, 0], [0, 0, 1])) :=
    Option.map_eq_some_iff.1 (by decide +kernel)
  obtain ⟨hFails, hLater⟩ := Prod.mk.inj hFacts
  obtain ⟨after, hStep, hLater⟩ := Option.bind_eq_some_iff.1 hLater
  obtain ⟨finish, hFinish, hFacts⟩ := Option.map_eq_some_iff.1 hLater
  simp only [Prod.mk.injEq] at hFacts
  obtain ⟨hOpen, hBefore, hAfter⟩ := hFacts
  refine ⟨conn, after, finish, run_of_foldlM hRun, hFails, hStep, hOpen, run_of_foldlM hFinish,
    ?_, ?_⟩
  · rw [hPiece, hBefore]
    decide
  · rw [hPiece, hAfter]
    decide

end Connection

end Httpuv
