import Httpuv.Http.Decisions
import Httpuv.Http.ResponseFraming
import Httpuv.Parser.Contract

/-! The bytes of the socket go through the parser in their order, also while the
main thread decides about a request. -/
namespace Httpuv

open Semantics

namespace Connection

variable {File : Type} [HttpParser] [Zlib]

/-- The connection is closed, switched or told to ignore what comes. -/
def Released (conn : Connection File) : Prop :=
  conn.isClosing = true ∨ conn.protocol = .webSockets ∨ conn.ignoreNewData = true

/-- What has been read is what the parser has consumed, followed by the buffer. -/
def KeepsBytes (conn : Connection File) : Prop :=
  received conn.log = consumed conn.log ++ conn.requestBuffer

/-- The buffer is only used while the parser waits. -/
def Buffered (phase : ParserPhase) (conn : Connection File) : Prop :=
  conn.Released ∨ conn.KeepsBytes ∧ (phase ≠ .waiting → conn.requestBuffer = [])

variable {phase : ParserPhase} {conn after : Connection File}

/-- Steps that leave the bytes alone. -/
theorem Buffered.congr (h : Buffered phase conn) (hReleased : conn.Released → after.Released)
    (hBuffer : after.requestBuffer = conn.requestBuffer)
    (hReceived : received after.log = received conn.log)
    (hConsumed : consumed after.log = consumed conn.log) : Buffered phase after := by
  rcases h with hBefore | ⟨hKeeps, hEmpty⟩
  · exact Or.inl (hReleased hBefore)
  · right
    rw [KeepsBytes, hReceived, hConsumed, hBuffer]
    exact ⟨hKeeps, hEmpty⟩

/-- Entries that are not about bytes. -/
theorem Buffered.extend {entries : List (Observation File)} (h : Buffered phase conn)
    (hReleased : conn.Released → after.Released)
    (hBuffer : after.requestBuffer = conn.requestBuffer) (hLog : after.log = conn.log ++ entries)
    (hReceived : received entries = []) (hConsumed : consumed entries = []) :
    Buffered phase after := by
  apply h.congr hReleased hBuffer
  · rw [hLog, received_append, hReceived, List.append_nil]
  · rw [hLog, consumed_append, hConsumed, List.append_nil]

variable [DataSource File]

theorem Released.quiet (h : conn.Released) (hQuiet : Quiet conn after) : after.Released := by
  rcases h with hClosing | hProtocol | hIgnore
  · exact Or.inl (hQuiet.isClosing hClosing)
  · exact Or.inr (Or.inl (hQuiet.protocol.trans hProtocol))
  · exact Or.inr (Or.inr (hQuiet.ignoreNewData.trans hIgnore))

theorem Buffered.quiet (h : Buffered phase conn) (hSound : Sound phase conn)
    (hQuiet : Quiet conn after) : Buffered phase after := by
  have hReleased : conn.Released → after.Released := fun hBefore => hBefore.quiet hQuiet
  rcases hQuiet.bytes with hUses | hIgnore | ⟨hBuffer, hReceived, hConsumed⟩
  · exact Or.inl (hReleased (Or.inr (Or.inl (hSound.switched hUses).1)))
  · exact Or.inl (hReleased (Or.inr (Or.inr hIgnore)))
  · exact h.congr hReleased hBuffer hReceived hConsumed

theorem Buffered.wrote {request : Nat} {kind : ResponseKind} {response : HttpResponse (Body File)}
    {entries : List (Observation File)} (h : Buffered phase conn)
    (hWrote : Wrote conn after request kind response entries) : Buffered phase after := by
  have hEntries : received entries = [] ∧ consumed entries = [] := by
    rcases hWrote.entries with ⟨-, rfl⟩ | ⟨-, written, -, rfl⟩
    · simp [received, consumed]
    · cases written.drained <;> simp [pieces, received, consumed]
  obtain ⟨writes, rfl⟩ := hWrote.same
  exact h.extend (fun hReleased => hReleased) rfl rfl hEntries.1 hEntries.2

theorem Buffered.finishes {request : Nat} {response : HttpResponse (Body File)} {closing : Bool}
    (h : Buffered phase conn) (hFinishes : Finishes conn request response closing after) :
    Buffered phase after := by
  obtain ⟨entries, hWrote⟩ := Connection.wrote hFinishes
  have hReleased : conn.Released → (conn.stopIf closing).Released := by
    rintro (hClosing | hProtocol | hIgnore)
    · exact Or.inl hClosing
    · exact Or.inr (Or.inl hProtocol)
    · exact Or.inr (Or.inr (by simp [stopIf, hIgnore]))
  have hStopped : Buffered phase (conn.stopIf closing) := h.congr hReleased rfl rfl rfl
  exact hStopped.wrote hWrote

section Feed

variable {all rest : Bytes}

/-- What has been read and what has been consumed before the parser goes on. -/
def Feeds (all done : Bytes) (phase : ParserPhase) (conn : Connection File) : Prop :=
  Feeding phase conn ∧ (conn.Released ∨
    received conn.log = all ∧ consumed conn.log = done ∧ conn.requestBuffer = [])

omit [DataSource File] in
theorem Feeds.congr {done : Bytes} {next : ParserPhase} (h : Feeds all done phase conn)
    (hFeeding : Feeding next after) (hReleased : conn.Released → after.Released)
    (hBuffer : after.requestBuffer = conn.requestBuffer)
    (hReceived : received after.log = received conn.log)
    (hConsumed : consumed after.log = consumed conn.log) : Feeds all done next after := by
  refine ⟨hFeeding, ?_⟩
  rw [hBuffer, hReceived, hConsumed]
  exact h.2.imp hReleased id

theorem Feeds.onEvent {done : Bytes} {next : ParserPhase} {event : ParserEvent}
    (h : Feeds all done phase conn) (static : Option (HttpResponse (Body File)))
    (hNext : phase.next event = some next) : Feeds all done next (conn.onEvent static event) := by
  have hFeeding := h.1.onEvent static hNext
  cases event with
  | onMessageBegin =>
      have hQuiet := quiet_newRequest conn
      have hReleased : conn.Released → conn.newRequest.Released := by
        intro hBefore
        have hBegun : conn.begun.Released := hBefore
        exact hBegun.quiet hQuiet
      have hReceived : received conn.begun.log = received conn.log := by
        simp [begun, Connection.observe, received]
      have hConsumed : consumed conn.begun.log = consumed conn.log := by
        simp [begun, Connection.observe, consumed]
      rcases hQuiet.bytes with hUses | hIgnore | ⟨hBuffer, hAll, hDone⟩
      · have hNone := h.1.2
        exact absurd (UsesWebSocket.of_append hUses (by simp) (by simp)) hNone
      · exact ⟨hFeeding, Or.inl (hReleased (Or.inr (Or.inr hIgnore)))⟩
      · exact h.congr hFeeding hReleased hBuffer (hAll.trans hReceived) (hDone.trans hConsumed)
  | onHeadersComplete upgrade =>
      refine h.congr hFeeding ?_ ?_ ?_ ?_
      all_goals simp only [Connection.onEvent, Connection.onHeadersComplete]
      all_goals split
      all_goals simp [Connection.push, Connection.invokeLater, Connection.observe, received,
        consumed, Released]
  | onMessageComplete =>
      refine h.congr hFeeding ?_ ?_ ?_ ?_
      all_goals simp only [Connection.onEvent, Connection.onMessageComplete]
      all_goals split_ifs
      all_goals simp [Connection.invokeLater, Released]
  | onBody data => exact h.congr hFeeding (fun hReleased => hReleased) rfl rfl rfl
  | onUrl data => exact h.congr hFeeding (fun hReleased => hReleased) rfl rfl rfl
  | onHeaderField data => exact h.congr hFeeding (fun hReleased => hReleased) rfl rfl rfl
  | onHeaderValue data => exact h.congr hFeeding (fun hReleased => hReleased) rfl rfl rfl

theorem Feeds.feed (contract : HttpParserContract) {done : Bytes}
    (h : Feeds all done (contract.phase conn.parser) conn)
    (static : Option (HttpResponse (Body File))) (buffer : Bytes) :
    Feeds all (done ++ buffer.take (HttpParser.execute conn.parser buffer).parsed)
      (contract.phase (conn.feed static buffer).parser) (conn.feed static buffer) := by
  apply feed_invariant contract buffer
  · refine ⟨(h.1.withParser _).observe _ (by simp) (by simp), ?_⟩
    rcases h.2 with hReleased | ⟨hAll, hDone, hEmpty⟩
    · exact Or.inl hReleased
    · right
      refine ⟨?_, ?_, hEmpty⟩
      · simpa [Connection.observe, received_append, received] using hAll
      · simp only [Connection.observe, consumed_append, hDone]
        simp [consumed]
  · rintro conn ⟨⟨hSound, hUses⟩, hBytes⟩
    exact ⟨⟨hSound.withPhase (hSound.deciding.resolve_right (by simp)) _, hUses⟩, hBytes⟩
  · intro phase event after conn hNext hFeeds
    exact hFeeds.onEvent static hNext

variable [Host] [Digests]

/-- The whole of what the parser is given is consumed, or kept for later. -/
theorem Feeds.parsed (contract : HttpParserContract) {done : Bytes}
    {static : Option (HttpResponse (Body File))} {now : Tm} {buffer : Bytes}
    (h : Feeds (done ++ buffer) done (contract.phase conn.parser) conn)
    (hParsed : Parsed conn static now buffer after) :
    Buffered (contract.phase after.parser) after := by
  have hFed := h.feed contract static buffer
  have hTake := List.take_append_drop (HttpParser.execute conn.parser buffer).parsed buffer
  cases hParsed with
  | waiting hWaiting =>
      have hPhase := (contract.waiting_iff _).1 hWaiting
      rcases hFed.2 with hReleased | ⟨hAll, hDone, hEmpty⟩
      · exact Or.inl hReleased
      · refine Or.inr ⟨?_, fun hNot => absurd hPhase hNot⟩
        simp only [KeepsBytes, hAll, hDone, hEmpty, List.nil_append, List.append_assoc, hTake]
  | upgrade hWaiting hUpgrade hAfter =>
      left
      cases hAfter with
      | gone hGone => exact Or.inl (hFed.1.1.websocket hGone)
      | refused hRefused hQuiet hClosed =>
          rcases hClosed with hProtocol | hClosing
          · exact Or.inr (Or.inl (hQuiet.protocol.trans hProtocol))
          · exact Or.inl hClosing
      | accepted hOpen hAccepted hHandshake hAnswered => exact Or.inr (Or.inl rfl)
  | quiet hWaiting hUpgrade hQuiet hRest =>
      rcases hFed.2 with hReleased | ⟨hAll, hDone, hEmpty⟩
      · exact Or.inl (hReleased.quiet hQuiet)
      · rcases hRest with hRest | hIgnore | hClosing
        · rw [List.take_of_length_le hRest] at hDone
          have hKeeps : Buffered (contract.phase (conn.feed static buffer).parser)
              (conn.feed static buffer) := by
            refine Or.inr ⟨?_, fun _ => hEmpty⟩
            rw [KeepsBytes, hAll, hDone, hEmpty, List.append_nil]
          rw [hQuiet.parser]
          exact hKeeps.quiet hFed.1.1 hQuiet
        · exact Or.inl (Or.inr (Or.inr (hQuiet.ignoreNewData.trans hIgnore)))
        · exact Or.inl (Or.inl hClosing)

end Feed

variable [Host] [Digests]

/-- The bytes kept for a decision are given to the parser with it. -/
theorem Buffered.headersCompleted (contract : HttpParserContract) {middle : Connection File}
    {static : Option (HttpResponse (Body File))} {now : Tm} {request : Nat}
    {response : Option (HttpResponse (Body File))}
    (h : Buffered phase conn) (hFeeding : ∀ other, Feeding other conn)
    (hMiddle : conn.headersCompleted now request response = some middle)
    (hParsed : Parsed { middle with requestBuffer := [] } static now middle.requestBuffer after) :
    Buffered (contract.phase after.parser) after := by
  have hMiddleBuffered : Buffered phase middle := by
    cases response with
    | some answer =>
        obtain ⟨closing, answered, hFinishes, rfl⟩ := headersCompleted_some hMiddle
        have hAnswered := h.finishes hFinishes
        exact hAnswered.extend (fun hReleased => hReleased) rfl (List.append_nil _).symm rfl rfl
    | none =>
        obtain ⟨continued, rfl | hContinued, rfl⟩ := headersCompleted_none hMiddle
        · exact h.extend (fun hReleased => hReleased) rfl (List.append_nil _).symm rfl rfl
        · obtain ⟨entries, hWrote⟩ := Connection.wrote hContinued
          exact (h.wrote hWrote).extend (fun hReleased => hReleased) rfl
            (List.append_nil _).symm rfl rfl
  have hFeeds : Feeds (consumed middle.log ++ middle.requestBuffer) (consumed middle.log)
      (contract.phase middle.parser) { middle with requestBuffer := [] } := by
    refine ⟨(hFeeding _).headersCompleted hMiddle, ?_⟩
    rcases hMiddleBuffered with hReleased | ⟨hKeeps, -⟩
    · exact Or.inl hReleased
    · exact Or.inr ⟨hKeeps, rfl, rfl⟩
  exact hFeeds.parsed contract hParsed

/-- What is read while the parser waits is kept. -/
theorem Buffered.waiting (contract : HttpParserContract)
    {static : Option (HttpResponse (Body File))} {now : Tm} {data : Bytes}
    (h : Buffered (contract.phase conn.parser) conn)
    (hWaiting : contract.phase conn.parser = .waiting)
    (hParsed : Parsed (conn.observe (.read data)) static now data after) :
    Buffered (contract.phase after.parser) after := by
  have hSilent := contract.silent (Or.inl hWaiting) data
  have hStill : contract.phase (HttpParser.execute conn.parser data).parser = .waiting := by
    rcases hSilent.2 with hSame | ⟨hRefused, -⟩
    · exact hSame.trans hWaiting
    · rw [hWaiting] at hRefused
      cases hRefused
  have hIdle : (HttpParser.execute conn.parser data).parsed = 0 := contract.idle _ _ hWaiting
  have hRead : contract.phase (conn.observe (.read data)).parser = .waiting := hWaiting
  have hFed := @feed_silent _ _ _ _ static contract (Or.inl hRead) data
  have hBusy : HttpParser.waitingForHeadersCompleted
      ((conn.observe (.read data)).feed static data).parser = true := by
    rw [parser_feed]
    exact (contract.waiting_iff _).2 hStill
  cases hParsed with
  | waiting hParser =>
      rw [hFed]
      rcases h with hReleased | ⟨hKeeps, -⟩
      · exact Or.inl hReleased
      · refine Or.inr ⟨?_, fun hNot => absurd hStill hNot⟩
        rw [KeepsBytes] at hKeeps ⊢
        simp only [Connection.observe, received_append, consumed_append, hKeeps]
        simp [received, consumed, hIdle]
  | upgrade hParser hUpgrade hAfter =>
      rw [hBusy] at hParser
      cases hParser
  | quiet hParser hUpgrade hQuiet hRest =>
      rw [hBusy] at hParser
      cases hParser

/-- One step. -/
theorem Buffered.step (contract : HttpParserContract)
    (h : Buffered (contract.phase conn.parser) conn)
    (hSound : Sound (contract.phase conn.parser) conn) (hStep : Step conn after) :
    Buffered (contract.phase after.parser) after := by
  cases hStep with
  | quiet hQuiet =>
      rw [hQuiet.parser]
      exact h.quiet hSound hQuiet
  | read static now data hReading hIgnore hProtocol hParsed =>
      by_cases hWaiting : contract.phase conn.parser = .waiting
      · exact h.waiting contract hWaiting hParsed
      have hHttp : ¬ conn.UsesWebSocket := hSound.http hProtocol
      have hFeeding : Feeding (contract.phase conn.parser) (conn.observe (.read data)) :=
        Feeding.observe ⟨hSound, hHttp⟩ _ (by simp) (by simp)
      have hFeeds : Feeds (consumed conn.log ++ data) (consumed conn.log)
          (contract.phase conn.parser) (conn.observe (.read data)) := by
        refine ⟨hFeeding, ?_⟩
        rcases h with hReleased | ⟨hKeeps, hEmpty⟩
        · exact Or.inl hReleased
        · rw [KeepsBytes, hEmpty hWaiting, List.append_nil] at hKeeps
          refine Or.inr ⟨?_, ?_, hEmpty hWaiting⟩
          · simp only [Connection.observe, received_append, hKeeps]
            simp [received]
          · simp [Connection.observe, consumed]
      exact hFeeds.parsed contract hParsed
  | @onHeadersCompleteComplete _ _ request response rest static now hQueue hMiddle hParsed =>
      obtain ⟨hWaiting, -, hPopped⟩ := hSound.front hQueue
      have hRest : Buffered (contract.phase conn.parser) { conn with backgroundQueue := rest } :=
        h.extend (fun hReleased => hReleased) rfl (List.append_nil _).symm rfl rfl
      exact hRest.headersCompleted contract hPopped hMiddle hParsed
  | @onBodyError _ request response rest hQueue hAfter =>
      have hFinishes := onBodyError_finishes hAfter
      rw [hFinishes.parser, contract.pause]
      have hPaused : Buffered (contract.phase conn.parser)
          { conn with backgroundQueue := rest, parser := HttpParser.pause conn.parser } :=
        h.extend (fun hReleased => hReleased) rfl (List.append_nil _).symm rfl rfl
      exact hPaused.finishes hFinishes
  | @onMessageCompleteComplete _ request response rest hQueue hAfter =>
      have hPopped : Buffered (contract.phase conn.parser) { conn with backgroundQueue := rest } :=
        h.extend (fun hReleased => hReleased) rfl (List.append_nil _).symm rfl rfl
      rcases onMessageCompleteComplete_cases hAfter with ⟨rfl, -⟩ | ⟨-, answer, -, hFinishes⟩
      · exact hPopped
      · rw [hFinishes.parser]
        exact hPopped.finishes hFinishes
  | decided hQueue response =>
      refine h.extend (fun hReleased => hReleased) rfl rfl ?_ ?_
      · cases response <;> rfl
      · cases response <;> rfl
  | undecided hQueue => exact h.extend (fun hReleased => hReleased) rfl rfl rfl rfl
  | bodySkipped hQueue hScheduled =>
      exact h.extend (fun hReleased => hReleased) rfl (List.append_nil _).symm rfl rfl
  | bodyTaken hQueue hScheduled => exact h.extend (fun hReleased => hReleased) rfl rfl rfl rfl
  | bodyFailed hQueue hScheduled now =>
      exact h.extend (fun hReleased => hReleased) rfl rfl rfl rfl
  | callSkipped hQueue hScheduled =>
      exact h.extend (fun hReleased => hReleased) rfl (List.append_nil _).symm rfl rfl
  | called hQueue hScheduled response =>
      exact h.extend (fun hReleased => hReleased) rfl rfl rfl rfl
  | promised hQueue hScheduled => exact h.extend (fun hReleased => hReleased) rfl rfl rfl rfl
  | settled hPromise response =>
      exact h.extend (fun hReleased => hReleased) rfl (List.append_nil _).symm rfl rfl
  | rejected hPromise =>
      exact h.extend (fun hReleased => hReleased) rfl (List.append_nil _).symm rfl rfl

/-- No byte is lost, duplicated or reordered while the main thread decides. -/
theorem received_eq (contract : HttpParserContract) {start finish : Connection File}
    {actions : List (ConnectionAction File)} {outputs : List Unit}
    (hInitial : Initial start) (run : system.Run start actions finish outputs)
    (hOpen : finish.isClosing = false) (hProtocol : finish.protocol = .http)
    (hIgnore : finish.ignoreNewData = false) :
    received finish.log = consumed finish.log ++ finish.requestBuffer := by
  have hStart : Buffered (contract.phase start.parser) start := by
    obtain ⟨incompleteContentHeader, header, rfl⟩ := hInitial
    exact Or.inr ⟨rfl, fun _ => rfl⟩
  obtain ⟨-, hBuffered⟩ := run_invariant contract
    (I := fun conn => Buffered (contract.phase conn.parser) conn) run hInitial hStart
    (fun _ _ hSound hStep h => h.step contract hSound hStep)
  rcases hBuffered with (hClosing | hSwitched | hIgnored) | ⟨hKeeps, -⟩
  · rw [hOpen] at hClosing
    cases hClosing
  · rw [hProtocol] at hSwitched
    cases hSwitched
  · rw [hIgnore] at hIgnored
    cases hIgnored
  · exact hKeeps

omit [HttpParser] [Zlib] [DataSource File] [Host] [Digests] in
/-- A body that arrives while the application looks at the headers. -/
theorem received_eq_early_body :
    let head := ascii "POST / HTTP/1.1\r\nContent-Length: 2\r\n\r\n"
    let _ : HttpParser := httpParser
    let _ : Zlib := HttpResponse.SampleStream.zlib
    let _ : Host := littleEndianHost
    let _ : Digests := sampleDigests
    ∃ finish : Connection InMemoryDataSource,
      system.Run (fresh WSHixie76Parser.textInfo WSHixie76Parser.textInfo)
        [.read head none .epoch, .read (ascii "hi") none .epoch] finish [] ∧
      received finish.log = consumed finish.log ++ finish.requestBuffer ∧
      finish.requestBuffer = ascii "\nhi" := by
  intro head parser zlib host digests
  obtain ⟨finish, hRun, hFacts⟩ : ∃ finish : Connection InMemoryDataSource,
      [ConnectionAction.read head none .epoch, .read (ascii "hi") none .epoch].foldlM next
        (fresh WSHixie76Parser.textInfo WSHixie76Parser.textInfo) = some finish ∧
      (finish.isClosing, finish.protocol, finish.ignoreNewData, finish.requestBuffer) =
        (false, .http, false, ascii "\nhi") :=
    Option.map_eq_some_iff.1 (by decide +kernel)
  simp only [Prod.mk.injEq] at hFacts
  obtain ⟨hOpen, hProtocol, hIgnore, hBuffer⟩ := hFacts
  have run := run_of_foldlM hRun
  refine ⟨finish, run, ?_, hBuffer⟩
  exact received_eq httpParserContract ⟨_, _, rfl⟩ run hOpen hProtocol hIgnore

end Connection

end Httpuv
