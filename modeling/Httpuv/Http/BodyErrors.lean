import Httpuv.Http.Interleaving
import Httpuv.Parser.Contract

/-! What becomes of a connection when the application fails in the body of a request:
the response to the error is the last one, and it closes the connection. -/
namespace Httpuv

open Semantics

/-- A request begins when the response to the one before it has been written: libuv has
taken its last byte, which is what the client can have seen of it. -/
def Paced {File : Type} (log : List (Observation File)) : Prop :=
  AtEach (fun before entry => ∀ request flag, entry = .onMessageBegin (request + 1) flag →
    request = 0 ∨ ∃ serial response, .writeResponse request serial .final response ∈ before ∧
      .handedOver serial ∈ before) log

section Log

variable {File : Type} {log : List (Observation File)}

theorem Paced.sequential (h : Paced log) : Sequential log := by
  intro before entry hBefore request flag hEntry
  refine (h before entry hBefore request flag hEntry).imp id ?_
  rintro ⟨serial, response, hFinal, -⟩
  exact ⟨serial, response, hFinal⟩

/-- A connection with one request. -/
theorem paced_of_single (h : ∀ request flag, .onMessageBegin (request + 1) flag ∈ log →
    request = 0) : Paced log := by
  rintro before entry hBefore request flag rfl
  exact Or.inl (h request flag (hBefore.subset (by simp)))

theorem mem_history_error {request : Nat} :
    .onBodyData true ∈ history request log ↔ .onBodyData request true ∈ log := by
  rw [history, List.mem_filterMap]
  constructor
  · rintro ⟨entry, hMem, hEvent⟩
    cases entry with
    | onBodyData owner failed =>
        simp only [Observation.requestEvent, Option.ite_none_right_eq_some, Option.some.injEq,
          RequestEvent.onBodyData.injEq] at hEvent
        obtain ⟨rfl, rfl⟩ := hEvent
        exact hMem
    | writeResponse owner number kind answer =>
        cases kind <;> simp [Observation.requestEvent] at hEvent
    | _ => simp [Observation.requestEvent] at hEvent
  · intro hMem
    exact ⟨_, hMem, if_pos rfl⟩

theorem Course.final_unique {events : List (RequestEvent File)} (h : Course events)
    {serial other : Nat} {response answer : HttpResponse (Body File)}
    (hFirst : .final serial response ∈ events) (hSecond : .final other answer ∈ events) :
    serial = other := by
  by_contra hDistinct
  have hPair : [RequestEvent.final serial response, .final other answer].Subperm events := by
    refine List.subperm_of_subset ?_ (by simp [hFirst, hSecond])
    simp [hDistinct]
  have hTwo : 2 ≤ events.countP RequestEvent.isResponse := hPair.countP_le RequestEvent.isResponse
  have hOne := h.one_response
  omega

end Log

namespace Connection

variable {File : Type} [HttpParser] [Zlib] {phase : ParserPhase} {conn after : Connection File}

/-! Responses under way. -/

/-- The only response that can be under way on an open connection is the one to the
current request, unless that is an upgrade. -/
def Owned (conn : Connection File) : Prop :=
  conn.isUpgrade = false → conn.isClosing = false → ∀ serial, Unfinished serial conn.log →
    ∃ response, .writeResponse conn.current serial .final response ∈ conn.log

theorem Owned.extend {entries : List (Observation File)} (h : conn.Owned)
    (hCurrent : after.current = conn.current)
    (hUpgrade : after.isUpgrade = false → conn.isUpgrade = false)
    (hClosing : after.isClosing = false → conn.isClosing = false)
    (hLog : after.log = conn.log ++ entries) (hPlain : ∀ entry ∈ entries, entry.IsPlain) :
    after.Owned := by
  intro hNone hOpen serial hSerial
  rw [hLog, unfinished_append (fun entry hMem => (hPlain entry hMem).isApart)] at hSerial
  obtain ⟨response, hMem⟩ := h (hUpgrade hNone) (hClosing hOpen) serial hSerial
  rw [hCurrent, hLog]
  exact ⟨response, List.mem_append_left _ hMem⟩

/-- The same connection, as far as its responses are concerned: the request, what is to be
written, and what has been handed over. -/
theorem Owned.congr (h : conn.Owned) (hCurrent : after.current = conn.current)
    (hUpgrade : after.isUpgrade = conn.isUpgrade) (hClosing : after.isClosing = conn.isClosing)
    (hLog : after.log = conn.log) : after.Owned :=
  h.extend hCurrent (hUpgrade ▸ id) (hClosing ▸ id) (hLog.trans (List.append_nil _).symm) (by simp)

theorem Owned.of_upgrade (h : conn.isUpgrade = true) : conn.Owned := by
  intro hNone
  rw [h] at hNone
  cases hNone

/-- A request begins when the response to the one before it is over, so that none is
under way. -/
theorem Owned.onMessageBegin [DataSource File] (h : conn.Owned) (hParsing : Parsing .between conn)
    (hPaced : Paced conn.begun.log) : conn.newRequest.Owned := by
  have hBefore := (AtEach.concat_iff.1 hPaced).2 conn.current conn.handlingRequest rfl
  obtain ⟨entries, hLog, hPlain⟩ := (Plain.newRequest conn).log
  have hUpgrade : conn.newRequest.isUpgrade = conn.isUpgrade :=
    (quiet_newRequest conn).isUpgrade
  have hClosing : conn.newRequest.isClosing = false → conn.isClosing = false := by
    intro hOpen
    cases hBegun : conn.isClosing with
    | false => rfl
    | true => rw [(quiet_newRequest conn).isClosing hBegun] at hOpen; cases hOpen
  intro hNone hOpen serial hSerial
  rw [hUpgrade] at hNone
  rw [hLog, unfinished_append (fun entry hMem => (hPlain entry hMem).isApart)] at hSerial
  obtain ⟨response, hMem⟩ := h hNone (hClosing hOpen) serial hSerial
  have hFinal := mem_history_final.2 hMem
  obtain ⟨hCurrent, hCourse⟩ :
      0 < conn.current ∧ Course (history conn.current conn.log) := by
    rcases hParsing.1 with hStanding | hCut
    · cases hStanding with
      | unused hCurrent hExchange =>
          simp only [exchange, Exchange.mk.injEq] at hExchange
          simp [hExchange.2.2.2.2.2.2.2] at hFinal
      | stage hCurrent hStage => exact ⟨hCurrent, hStage.course⟩
    · simp [hCut.history] at hFinal
  obtain ⟨other, answer, hAnswered, hOver⟩ := hBefore.resolve_left (by omega)
  obtain rfl := hCourse.final_unique hFinal (mem_history_final.2 hAnswered)
  exact absurd hOver hSerial.2

theorem Owned.onEvent {event : ParserEvent} (h : conn.Owned)
    (static : Option (HttpResponse (Body File))) (hBegin : event ≠ .onMessageBegin) :
    (conn.onEvent static event).Owned := by
  obtain ⟨entries, hLog, hPlain⟩ := (Plain.onEvent conn static event).log
  have hSame : (conn.onEvent static event).current = conn.current ∧
      (conn.onEvent static event).isClosing = conn.isClosing ∧
      ((conn.onEvent static event).isUpgrade = false → conn.isUpgrade = false) := by
    cases event with
    | onMessageBegin => exact absurd rfl hBegin
    | onHeadersComplete upgrade =>
        have hFlag : (conn.isUpgrade || upgrade) = false → conn.isUpgrade = false :=
          fun hNone => (Bool.or_eq_false_iff.1 hNone).1
        simp only [Connection.onEvent, Connection.onHeadersComplete]
        split <;> exact ⟨rfl, rfl, hFlag⟩
    | onMessageComplete =>
        simp only [Connection.onEvent, Connection.onMessageComplete]
        split_ifs <;> exact ⟨rfl, rfl, id⟩
    | _ => exact ⟨rfl, rfl, id⟩
  exact h.extend hSame.1 hSame.2.2 (fun hOpen => hSame.2.1 ▸ hOpen) hLog hPlain

variable [DataSource File]

theorem Owned.quiet (h : conn.Owned) (hWriting : conn.Writing) (hQuiet : Quiet conn after) :
    after.Owned := by
  intro hNone hOpen serial hSerial
  have hBefore : conn.isClosing = false := by
    cases hClosing : conn.isClosing with
    | false => rfl
    | true => rw [hQuiet.isClosing hClosing] at hOpen; cases hOpen
  obtain ⟨response, hMem⟩ := h (hQuiet.isUpgrade ▸ hNone) hBefore serial
    (hQuiet.unfinished hWriting serial hSerial)
  rw [hQuiet.current]
  exact ⟨response, hQuiet.log_grows.subset hMem⟩

theorem Owned.feed (contract : HttpParserContract) (h : conn.Owned)
    (hParsing : Parsing (contract.phase conn.parser) conn)
    (static : Option (HttpResponse (Body File))) (buffer : Bytes)
    (hPaced : Paced (conn.feed static buffer).log) : (conn.feed static buffer).Owned := by
  suffices hFed : Paced (conn.feed static buffer).log →
      Parsing (contract.phase (conn.feed static buffer).parser) (conn.feed static buffer) ∧
      (conn.feed static buffer).Owned from (hFed hPaced).2
  apply feed_invariant contract (I := fun phase conn => Paced conn.log → Parsing phase conn ∧ conn.Owned)
  · intro _
    have hParser := hParsing.congr (HttpParser.execute conn.parser buffer).parser conn.head
    exact ⟨hParser.observe _ (fun request => rfl), h.extend rfl id id rfl (by simp [Observation.IsPlain])⟩
  · exact fun conn hRefused hPaced => ⟨(hRefused hPaced).1.dropped, (hRefused hPaced).2⟩
  · intro phase event next conn hNext hBefore hPaced
    obtain ⟨hParsing, hOwned⟩ := hBefore (hPaced.of_prefix (onEvent_log conn static event))
    refine ⟨hParsing.onEvent static hNext hPaced.sequential, ?_⟩
    by_cases hBegin : event = .onMessageBegin
    · subst hBegin
      obtain rfl : phase = .between := by
        cases phase <;> simp_all [ParserPhase.next]
      exact hOwned.onMessageBegin hParsing (hPaced.of_prefix (quiet_newRequest conn).log_grows)
    · exact hOwned.onEvent static hBegin

/-- A response to the current request, or one that is over at once, such as the one that
asks a client to continue. -/
theorem Owned.wrote {kind : ResponseKind} {response : HttpResponse (Body File)}
    {entries : List (Observation File)} (h : conn.Owned)
    (hWrote : Wrote conn after conn.current kind response entries)
    (hKind : kind = .final ∨ ∀ written : HttpResponse (SentBody File),
      response.writeResponse conn.head.headers = some written → written.drained = true) :
    after.Owned := by
  obtain ⟨hCurrent, -, -, -, -, -, hUpgrade, -, hClosing⟩ := hWrote.same_fields
  intro hNone hOpen serial hSerial
  rw [hUpgrade] at hNone
  rw [hClosing] at hOpen
  rcases hWrote.entries with ⟨hClosed, -⟩ | ⟨-, written, hWritten, rfl⟩
  · rw [hOpen] at hClosed
    cases hClosed
  · rw [hWrote.log, List.append_cons] at hSerial
    rw [hCurrent, hWrote.log]
    rcases unfinished_pieces hSerial with ⟨rfl, hUndrained⟩ | hOld
    · rcases hKind with rfl | hDrained
      · exact ⟨response, by simp⟩
      · rw [hDrained written hWritten] at hUndrained
        cases hUndrained
    · rw [unfinished_apart (by trivial)] at hOld
      obtain ⟨answer, hMem⟩ := h hNone hOpen serial hOld
      exact ⟨answer, List.mem_append_left _ hMem⟩

theorem Owned.finishes {response : HttpResponse (Body File)} {closing : Bool} (h : conn.Owned)
    (hFinishes : Finishes conn conn.current response closing after) : after.Owned := by
  obtain ⟨entries, hWrote⟩ := Connection.wrote hFinishes
  have hStopped : (conn.stopIf closing).Owned := h.congr rfl rfl rfl rfl
  exact hStopped.wrote hWrote (Or.inl rfl)

theorem Owned.headersCompleted {middle : Connection File} {now : Tm}
    {response : Option (HttpResponse (Body File))} (h : conn.Owned)
    (hMiddle : conn.headersCompleted now conn.current response = some middle) : middle.Owned := by
  cases response with
  | some answer =>
      obtain ⟨closing, answered, hFinishes, rfl⟩ := headersCompleted_some hMiddle
      exact (h.finishes hFinishes).congr rfl rfl rfl rfl
  | none =>
      obtain ⟨continued, rfl | hContinued, rfl⟩ := headersCompleted_none hMiddle
      · exact h.congr rfl rfl rfl rfl
      · obtain ⟨entries, hWrote⟩ := Connection.wrote hContinued
        exact (h.wrote hWrote (Or.inr (fun _ => continue_drained))).congr rfl rfl rfl rfl

variable [Host] [Digests]

theorem Upgraded.isUpgrade {now : Tm} {pData : Bytes} (h : Upgraded conn now pData after) :
    after.isUpgrade = conn.isUpgrade := by
  cases h with
  | gone hGone => rfl
  | refused hRefused hQuiet hClosed => exact hQuiet.isUpgrade
  | accepted hOpen hAccepted hHandshake hAnswered =>
      obtain ⟨entries, hWrote⟩ := Connection.wrote hAnswered
      exact hWrote.same_fields.2.2.2.2.2.2.1

theorem Owned.parsed {static : Option (HttpResponse (Body File))} {now : Tm} {buffer : Bytes}
    (h : (conn.feed static buffer).Owned) (hWriting : conn.Writing)
    (hParsed : Parsed conn static now buffer after) : after.Owned := by
  have hFedWriting := (Plain.feed conn static buffer).writing hWriting
  cases hParsed with
  | waiting hWaiting => exact h.congr rfl rfl rfl rfl
  | upgrade hWaiting hUpgrade hAfter => exact .of_upgrade (hAfter.isUpgrade.trans hUpgrade)
  | quiet hWaiting hUpgrade hQuiet => exact h.quiet hFedWriting hQuiet

/-! What keeps the connection from staying open. -/

omit [DataSource File] [Host] [Digests] in
theorem websocket_close (conn : Connection File) : conn.close.websocket = conn.websocket := by
  unfold close
  split_ifs <;> rfl

omit [Host] [Digests] in
/-- The callbacks of the parser leave the WebSocket alone, and a flag once set stays set,
so that a request that is an upgrade does not become a plain one again. -/
theorem onEvent_upgrade (conn : Connection File) (static : Option (HttpResponse (Body File)))
    (event : ParserEvent) : (conn.onEvent static event).websocket = conn.websocket ∧
      ((conn.onEvent static event).isUpgrade = false → conn.isUpgrade = false) := by
  cases event with
  | onMessageBegin =>
      refine ⟨?_, fun hNone => (quiet_newRequest conn).isUpgrade.symm.trans hNone⟩
      simp only [Connection.onEvent, newRequest_eq]
      split_ifs
      · exact websocket_close _
      · rfl
  | onHeadersComplete upgrade =>
      have hFlag : (conn.isUpgrade || upgrade) = false → conn.isUpgrade = false :=
        fun hNone => (Bool.or_eq_false_iff.1 hNone).1
      simp only [Connection.onEvent, Connection.onHeadersComplete]
      split <;> exact ⟨rfl, hFlag⟩
  | onMessageComplete =>
      simp only [Connection.onEvent, Connection.onMessageComplete]
      split_ifs <;> exact ⟨rfl, id⟩
  | _ => exact ⟨rfl, id⟩

omit [Host] [Digests] in
theorem feed_upgrade (conn : Connection File) (static : Option (HttpResponse (Body File)))
    (buffer : Bytes) : (conn.feed static buffer).websocket = conn.websocket ∧
      ((conn.feed static buffer).isUpgrade = false → conn.isUpgrade = false) := by
  have hEvents : ∀ (events : List ParserEvent) (conn : Connection File),
      (events.foldl (Connection.onEvent static) conn).websocket = conn.websocket ∧
        ((events.foldl (Connection.onEvent static) conn).isUpgrade = false →
          conn.isUpgrade = false) := by
    intro events
    induction events with
    | nil => exact fun conn => ⟨rfl, id⟩
    | cons event events ih =>
        intro conn
        obtain ⟨hWebSocket, hUpgrade⟩ := onEvent_upgrade conn static event
        obtain ⟨hRest, hRestUpgrade⟩ := ih (conn.onEvent static event)
        exact ⟨hRest.trans hWebSocket, fun hNone => hUpgrade (hRestUpgrade hNone)⟩
  exact hEvents _ ({ conn with parser := (HttpParser.execute conn.parser buffer).parser }.observe
    (.execute (buffer.take (HttpParser.execute conn.parser buffer).parsed)))

/-- Without an upgrade there is no parser of a WebSocket, and so no frame that could get
behind a response. -/
def Parserless (conn : Connection File) : Prop :=
  conn.isUpgrade = false → conn.websocket.pParser = none

theorem Parserless.parsed {static : Option (HttpResponse (Body File))} {now : Tm} {buffer : Bytes}
    (h : conn.Parserless) (hParsed : Parsed conn static now buffer after) : after.Parserless := by
  obtain ⟨hWebSocket, hUpgrade⟩ := feed_upgrade conn static buffer
  have hFed : (conn.feed static buffer).Parserless := by
    intro hNone
    rw [hWebSocket]
    exact h (hUpgrade hNone)
  cases hParsed with
  | waiting hWaiting => exact hFed
  | upgrade hWaiting hUpgraded hAfter =>
      intro hNone
      rw [hAfter.isUpgrade, hUpgraded] at hNone
      cases hNone
  | quiet hWaiting hUpgraded hQuiet hRest hEnding => exact fun _ => hEnding.pParser (hFed hUpgraded)

omit [Host] [Digests] in
theorem Parserless.wrote {request : Nat} {kind : ResponseKind} {response : HttpResponse (Body File)}
    {entries : List (Observation File)} (h : conn.Parserless)
    (hWrote : Wrote conn after request kind response entries) : after.Parserless := by
  obtain ⟨writes, rfl⟩ := hWrote.same
  exact h

omit [Host] [Digests] in
theorem Parserless.headersCompleted {middle : Connection File} {now : Tm} {request : Nat}
    {response : Option (HttpResponse (Body File))} (h : conn.Parserless)
    (hMiddle : conn.headersCompleted now request response = some middle) : middle.Parserless := by
  cases response with
  | some answer =>
      obtain ⟨closing, answered, hFinishes, rfl⟩ := headersCompleted_some hMiddle
      have hStopped : (conn.stopIf closing).Parserless := h
      have hAnswered := hStopped.wrote (Connection.wrote hFinishes).choose_spec
      exact hAnswered
  | none =>
      obtain ⟨continued, rfl | hContinued, rfl⟩ := headersCompleted_none hMiddle
      · exact h
      · have hAnswered := h.wrote (Connection.wrote hContinued).choose_spec
        exact hAnswered

/-- What is kept between two steps. The response to an error in a body ends the connection,
whether it has been closed already or a write is still to be called back. -/
structure Closes (conn : Connection File) : Prop where
  owned : conn.Owned
  parserless : conn.Parserless
  ending : conn.isUpgrade = false → .onBodyData conn.current true ∈ conn.log →
    ∀ serial response, .writeResponse conn.current serial .final response ∈ conn.log →
      conn.Ending serial

section Staged

omit [DataSource File] [Host] [Digests]

variable {request : Nat}

theorem Staged.stage_of_failed (h : Staged phase conn) (hUpgrade : conn.isUpgrade = false)
    (hFailed : .onBodyData conn.current true ∈ conn.log) :
    Stage conn.current (conn.exchange phase) := by
  have hError := mem_history_error.2 hFailed
  rcases h.1 with hStanding | hAbandoned
  · cases hStanding with
    | unused hCurrent hExchange =>
        simp only [exchange, Exchange.mk.injEq] at hExchange
        simp [hExchange.2.2.2.2.2.2.2] at hError
    | stage hCurrent hStage => exact hStage
  · rw [hAbandoned.isUpgrade] at hUpgrade
    cases hUpgrade

/-- A request without an upgrade whose body has failed is the current one, and stays so:
the client waits for the response, and behind it nothing is read any more. -/
theorem Staged.of_failed (h : Staged phase conn)
    (hPlain : .onHeadersComplete request true ∉ conn.log)
    (hFailed : .onBodyData request true ∈ conn.log) :
    request = conn.current ∧ conn.isUpgrade = false := by
  have hError := mem_history_error.2 hFailed
  rcases Nat.lt_trichotomy request conn.current with hPast | rfl | hFuture
  · exact absurd hError (h.2.past request hPast).2
  · refine ⟨rfl, ?_⟩
    cases hFlag : conn.isUpgrade with
    | false => rfl
    | true => exact absurd (h.2.flagged hFlag) hPlain
  · simp [h.2.future request hFuture] at hError

/-- After the response to the error nothing is read any more: `_on_body_error` sets
`_ignoreNewData` before it writes. -/
theorem Staged.ignores {serial : Nat} {response : HttpResponse (Body File)} (h : Staged phase conn)
    (hUpgrade : conn.isUpgrade = false) (hFailed : .onBodyData conn.current true ∈ conn.log)
    (hFinal : .writeResponse conn.current serial .final response ∈ conn.log) :
    conn.ignoreNewData = true := by
  have hAnswer := mem_history_final.2 hFinal
  obtain ⟨taken, hTaken, ⟨now, hHistory, -⟩ | ⟨hIgnore, -⟩⟩ :=
    (h.stage_of_failed hUpgrade hFailed).of_failed (mem_history_error.2 hFailed)
  · rw [show history conn.current conn.log = _ from hHistory] at hAnswer
    rcases List.mem_append.1 hAnswer with hMem | hMem
    · cases hTaken _ hMem
    · cases List.mem_singleton.1 hMem
  · exact hIgnore

end Staged

omit [Host] [Digests] in
theorem Closes.of_upgrade (h : conn.isUpgrade = true) : conn.Closes := by
  have hNot : conn.isUpgrade = false → False := by simp [h]
  exact ⟨.of_upgrade h, fun hNone => (hNot hNone).elim, fun hNone => (hNot hNone).elim⟩

omit [Host] [Digests] in
/-- Entries about no response and no error do not matter, on a connection that is otherwise
the same. -/
theorem Closes.extend {entries : List (Observation File)} (h : conn.Closes)
    (hCurrent : after.current = conn.current) (hUpgrade : after.isUpgrade = conn.isUpgrade)
    (hClosing : after.isClosing = conn.isClosing) (hWrites : after.writes = conn.writes)
    (hWebSocket : after.websocket = conn.websocket) (hLog : after.log = conn.log ++ entries)
    (hPlain : ∀ entry ∈ entries, entry.IsPlain)
    (hNoError : ∀ request, .onBodyData request true ∉ entries) : after.Closes := by
  have hKeeps : KeepsEnding conn after :=
    .same (by rw [hWebSocket]) hWrites (fun hBefore => hClosing.trans hBefore)
  refine ⟨h.owned.extend hCurrent (hUpgrade ▸ id) (hClosing ▸ id) hLog hPlain, ?_, ?_⟩
  · rw [Parserless, hUpgrade, hWebSocket]
    exact h.parserless
  · intro hNone hFailed serial response hFinal
    rw [hUpgrade] at hNone
    rw [hCurrent, hLog] at hFailed hFinal
    refine hKeeps.ending (h.parserless hNone) serial (h.ending hNone ?_ serial response ?_)
    · exact (List.mem_append.1 hFailed).resolve_right (hNoError _)
    · exact (List.mem_append.1 hFinal).resolve_right (fun hMem => hPlain _ hMem)

omit [Host] [Digests] in
theorem Closes.quiet (h : conn.Closes) (hWriting : conn.Writing) (hQuiet : Quiet conn after)
    (hEnding : KeepsEnding conn after) : after.Closes := by
  obtain ⟨entries, hLog, hEntries, -⟩ := hQuiet.log
  refine ⟨h.owned.quiet hWriting hQuiet, ?_, ?_⟩
  · intro hNone
    exact hEnding.pParser (h.parserless (hQuiet.isUpgrade ▸ hNone))
  · intro hNone hFailed serial response hFinal
    rw [hQuiet.isUpgrade] at hNone
    rw [hQuiet.current, hLog] at hFailed hFinal
    refine hEnding.ending (h.parserless hNone) serial (h.ending hNone ?_ serial response ?_)
    · exact (List.mem_append.1 hFailed).resolve_right (fun hMem => hEntries _ hMem)
    · exact (List.mem_append.1 hFinal).resolve_right (fun hMem => hEntries _ hMem)

/-- Whoever still gives bytes to the parser has answered no error, so that there is nothing
to keep. -/
theorem Closes.parsed (contract : HttpParserContract) {static : Option (HttpResponse (Body File))}
    {now : Tm} {buffer : Bytes} (hOwned : conn.Owned) (hParserless : conn.Parserless)
    (hWriting : conn.Writing) (hParsing : Parsing (contract.phase conn.parser) conn)
    (hParsed : Parsed conn static now buffer after)
    (hStaged : Staged (contract.phase after.parser) after) (hPaced : Paced after.log) :
    after.Closes := by
  have hBefore : Paced (conn.feed static buffer).log := hPaced.of_prefix hParsed.log_after_feed
  have hFed := hParsing.feed contract static buffer hBefore.sequential
  refine ⟨(hOwned.feed contract hParsing static buffer hBefore).parsed hWriting hParsed,
    hParserless.parsed hParsed, ?_⟩
  intro hNone hFailed serial response hFinal
  have hIgnore := hStaged.ignores hNone hFailed hFinal
  cases hParsed with
  | waiting hWaiting =>
      exact absurd (hFed.2.1.symm.trans hIgnore) (by simp)
  | upgrade hWaiting hUpgrade hAfter =>
      rw [hAfter.isUpgrade, hUpgrade] at hNone
      cases hNone
  | quiet hWaiting hUpgrade hQuiet =>
      rw [hQuiet.ignoreNewData, hFed.2.1] at hIgnore
      cases hIgnore

section Steps

omit [Host] [Digests] in
theorem writeResponse_writes {request : Nat} {kind : ResponseKind}
    {response : HttpResponse (Body File)}
    (h : conn.writeResponse request kind response = some after) :
    after.isClosing = true ∨ ∃ written : HttpResponse (SentBody File),
      response.writeResponse conn.head.headers = some written ∧
      after.writes = conn.writes ++ [.header conn.serial written] := by
  simp only [writeResponse, Option.bind_eq_bind, Option.bind_eq_some_iff, Option.pure_def] at h
  obtain ⟨written, hWritten, h⟩ := h
  split_ifs at h with hClosing
  · obtain rfl := Option.some.inj h
    exact Or.inl hClosing
  · obtain rfl := Option.some.inj h
    exact Or.inr ⟨written, hWritten, rfl⟩

omit [Host] [Digests] in
/-- A response that closes the connection is written when no other is under way. From then
on it is the last one, unless libuv has refused it for a handle that is being closed. -/
theorem Ending.of_finishes {request : Nat} {response : HttpResponse (Body File)}
    (hFinishes : Finishes conn request response true after) (hWriting : conn.Writing)
    (hNone : conn.isClosing = false → ∀ serial, ¬Unfinished serial conn.log) :
    after.Ending conn.serial := by
  rcases writeResponse_writes hFinishes with hClosing | ⟨written, hWritten, hWrites⟩
  · exact Or.inl hClosing
  · cases hClosing : conn.isClosing with
    | true => exact Or.inl (hFinishes.same_fields.2.2.2.2.2.2.2.2.trans hClosing)
    | false =>
        refine Or.inr ⟨conn.writes, _, hWrites, rfl, ?_, ?_⟩
        · exact writeResponse_closeAfterWritten hWritten
        · intro other hMem
          cases hSerial : other.serial with
          | none =>
              cases other with
              | frame => rfl
              | _ => cases hSerial
          | some serial =>
              have hBacked := hWriting.backed other hMem serial hSerial
              by_contra hUndrained
              refine hNone hClosing serial ⟨hBacked.begun, fun hOver => hUndrained ?_⟩
              exact hBacked.finished hOver

omit [Host] [Digests] in
/-- The error comes before any response: a request that has one is not asked about its body
again. -/
theorem Closes.bodyFailed {request : Nat} {data : Bytes} {rest : List MainTask} (h : conn.Closes)
    (hStaged : Staged phase conn) (hQueue : conn.mainQueue = .onBodyData request data :: rest)
    (hScheduled : conn.responseScheduled = false) (now : Tm) :
    ({ conn with mainQueue := rest, responseScheduled := true }.observe
      (.onBodyData request true) |>.push
        (.onBodyError request (AppAnswer.errorResponse now))).Closes := by
  rcases hStaged.main hQueue rfl with ⟨-, hStage⟩ | ⟨hAbandoned, -⟩
  · rw [hScheduled] at hStage
    have hTaken := hStage.onBodyData_taken
    refine ⟨h.owned.extend rfl id id rfl (by simp [Observation.IsPlain]), h.parserless, ?_⟩
    intro _ _ serial response hFinal
    have hBefore : .writeResponse conn.current serial .final response ∈ conn.log := by
      simpa [observe, push] using hFinal
    cases hTaken _ (mem_history_final.2 hBefore)
  · exact .of_upgrade hAbandoned.isUpgrade

omit [Host] [Digests] in
/-- The response to an error in a body, with `closeAfterWritten` set. It is written on a
connection with no write left of an earlier response. -/
theorem Closes.onBodyError {request : Nat} {response : HttpResponse (Body File)}
    {rest : List (BackgroundTask File)} (h : conn.Closes) (hWriting : conn.Writing)
    (hStaged : Staged phase conn)
    (hQueue : conn.backgroundQueue = .onBodyError request response :: rest)
    (hAfter : Connection.onBodyError { conn with backgroundQueue := rest } request response =
      some after) : after.Closes := by
  have hFinishes := onBodyError_finishes hAfter
  have hUpgrade : after.isUpgrade = conn.isUpgrade := hFinishes.same_fields.2.2.2.2.2.2.1
  let paused : Connection File :=
    { conn with backgroundQueue := rest, parser := HttpParser.pause conn.parser }
  rcases hStaged.background hQueue rfl with ⟨-, hStage⟩ | ⟨hAbandoned, -⟩
  · obtain ⟨rfl, hPlain, hAnswered⟩ := hStage.onBodyError conn.serial
    have hBefore := hAnswered.course.none_before
    have hNone : conn.isClosing = false → ∀ serial, ¬Unfinished serial conn.log := by
      intro hOpen serial hSerial
      obtain ⟨answer, hMem⟩ := h.owned hPlain hOpen serial hSerial
      exact hBefore serial answer (mem_history_final.2 hMem)
    have hPaused : paused.Owned := h.owned.congr rfl rfl rfl rfl
    have hPausedWriting : paused.Writing := hWriting.congr rfl rfl rfl
    obtain ⟨entries, hWrote⟩ := Connection.wrote hFinishes
    have hStopped : (paused.stopIf true).Parserless := h.parserless
    have hLog : history paused.current after.log = history paused.current paused.log ++
        [.final paused.serial response.requestClose] := Finishes.history_log hFinishes
    have hEnding : after.Ending paused.serial := .of_finishes hFinishes hPausedWriting hNone
    refine ⟨hPaused.finishes hFinishes, hStopped.wrote hWrote, ?_⟩
    intro _ _ serial answer hFinal
    have hSerial : serial = paused.serial := by
      have hMem := mem_history_final.2 hFinal
      rw [hFinishes.same_fields.1, hLog] at hMem
      rcases List.mem_append.1 hMem with hMem | hMem
      · exact absurd hMem (hBefore serial answer)
      · cases List.mem_singleton.1 hMem
        rfl
    rw [hSerial]
    exact hEnding
  · exact .of_upgrade (hUpgrade.trans hAbandoned.isUpgrade)

omit [Host] [Digests] in
theorem Closes.onMessageCompleteComplete {request : Nat}
    {response : Option (HttpResponse (Body File))} {rest : List (BackgroundTask File)}
    (h : conn.Closes) (hStaged : Staged phase conn)
    (hQueue : conn.backgroundQueue = .onMessageCompleteComplete request response :: rest)
    (hAfter : Connection.onMessageCompleteComplete { conn with backgroundQueue := rest } request
      response = some after) : after.Closes := by
  have hPopped : ({ conn with backgroundQueue := rest } : Connection File).Closes :=
    h.extend rfl rfl rfl rfl rfl (List.append_nil _).symm (by simp) (by simp)
  rcases onMessageCompleteComplete_cases hAfter with ⟨rfl, -⟩ | ⟨-, answer, rfl, hFinishes⟩
  · exact hPopped
  · rcases hStaged.background hQueue rfl with ⟨-, hStage⟩ | ⟨-, now, hTask⟩
    · obtain rfl := hStage.onMessageCompleteComplete.1
      have hUnfailed := hStage.onMessageCompleteComplete_unfailed
      let popped : Connection File := { conn with backgroundQueue := rest }
      let closing := !HttpParser.shouldKeepAlive conn.parser
      obtain ⟨entries, hWrote⟩ := Connection.wrote hFinishes
      have hStopped : (popped.stopIf closing).Parserless := h.parserless
      have hLog : history popped.current after.log = history popped.current popped.log ++
          [.final popped.serial (if closing then answer.requestClose else answer)] :=
        Finishes.history_log hFinishes
      refine ⟨hPopped.owned.finishes hFinishes, hStopped.wrote hWrote, ?_⟩
      intro _ hFailed
      have hMem := mem_history_error.2 hFailed
      rw [hFinishes.same_fields.1, hLog] at hMem
      rcases List.mem_append.1 hMem with hMem | hMem
      · exact absurd hMem hUnfailed
      · cases List.mem_singleton.1 hMem
    · cases hTask

/-- The decision about the headers. A refused parser reads nothing more of the request, and
none that has failed in its body is decided on. -/
theorem Closes.headersCompleted (contract : HttpParserContract) {middle : Connection File}
    {request : Nat} {response : Option (HttpResponse (Body File))}
    {rest : List (BackgroundTask File)} {static : Option (HttpResponse (Body File))} {now : Tm}
    (h : conn.Closes) (hWriting : conn.Writing) (hStaged : Staged (contract.phase conn.parser) conn)
    (hSound : Sound (contract.phase conn.parser) conn)
    (hQueue : conn.backgroundQueue = .onHeadersCompleteComplete request response :: rest)
    (hMiddle : { conn with backgroundQueue := rest }.headersCompleted now request response =
      some middle)
    (hParsed : Parsed { middle with requestBuffer := [] } static now middle.requestBuffer after)
    (hAfter : Staged (contract.phase after.parser) after) (hPaced : Paced after.log) :
    after.Closes := by
  obtain ⟨hWaiting, rfl, -⟩ := hSound.front hQueue
  have hPopped : ({ conn with backgroundQueue := rest } : Connection File).Owned :=
    h.owned.congr rfl rfl rfl rfl
  have hPoppedWriting : ({ conn with backgroundQueue := rest } : Connection File).Writing :=
    hWriting.congr rfl rfl rfl
  have hPoppedParserless : ({ conn with backgroundQueue := rest } : Connection File).Parserless :=
    h.parserless
  have hOwned : ({ middle with requestBuffer := [] } : Connection File).Owned :=
    (hPopped.headersCompleted hMiddle).congr rfl rfl rfl rfl
  have hMiddleParserless := hPoppedParserless.headersCompleted hMiddle
  have hParserless : ({ middle with requestBuffer := [] } : Connection File).Parserless :=
    hMiddleParserless
  have hMiddleWriting := hPoppedWriting.headersCompleted hMiddle
  cases response with
  | none =>
      obtain ⟨hPhase, hParsing⟩ := hStaged.proceeds contract hWaiting hQueue hMiddle
      rw [← hPhase] at hParsing
      exact .parsed contract hOwned hParserless hMiddleWriting hParsing hParsed hAfter hPaced
  | some answer =>
      have hRefused : contract.phase middle.parser = .refused := by
        rw [parser_headersCompleted hMiddle]
        exact contract.refuse _ hWaiting
      have hSilent := @feed_silent _ _ _ { middle with requestBuffer := [] } static contract
        (Or.inr hRefused) middle.requestBuffer
      have hFed : (({ middle with requestBuffer := [] } : Connection File).feed static
          middle.requestBuffer).Owned := by
        rw [hSilent]
        exact hOwned.extend rfl id id rfl (by simp [Observation.IsPlain])
      refine ⟨hFed.parsed hMiddleWriting hParsed, hParserless.parsed hParsed, ?_⟩
      intro hNone hFailed
      have hUnfailed := (hStaged.refuse contract hSound hQueue hMiddle hParsed).2 hNone
      exact absurd (mem_history_error.2 hFailed) hUnfailed

/-- One step. Most of them are about no error at all; those that call libuv back are the ones
in which the response may come to its end. -/
theorem Closes.step (contract : HttpParserContract) (h : conn.Closes) (hWriting : conn.Writing)
    (hStaged : Staged (contract.phase conn.parser) conn)
    (hSound : Sound (contract.phase conn.parser) conn) (hStep : Step conn after)
    (hAfter : Staged (contract.phase after.parser) after) (hPaced : Paced after.log) :
    after.Closes := by
  cases hStep with
  | quiet hQuiet hEnding => exact h.quiet hWriting hQuiet (hEnding hWriting)
  | read static now data hReading hIgnore hProtocol hParsed =>
      have hRead : (conn.observe (.read data)).Owned :=
        h.owned.extend rfl id id rfl (by simp [Observation.IsPlain])
      have hReadWriting : (conn.observe (.read data)).Writing :=
        hWriting.extend rfl rfl rfl (by simp [Observation.IsPlain])
      have hParsing := hStaged.reads hSound hReading hIgnore hProtocol data
      exact .parsed contract hRead h.parserless hReadWriting hParsing hParsed hAfter hPaced
  | onHeadersCompleteComplete static now hQueue hMiddle hParsed =>
      exact h.headersCompleted contract hWriting hStaged hSound hQueue hMiddle hParsed hAfter hPaced
  | onBodyError hQueue hError => exact h.onBodyError hWriting hStaged hQueue hError
  | onMessageCompleteComplete hQueue hAnswered =>
      exact h.onMessageCompleteComplete hStaged hQueue hAnswered
  | decided hQueue response =>
      refine h.extend rfl rfl rfl rfl rfl rfl ?_ ?_
      · cases response <;> simp [Observation.IsPlain]
      · cases response <;> simp
  | undecided hQueue =>
      exact h.extend rfl rfl rfl rfl rfl rfl (by simp [Observation.IsPlain]) (by simp)
  | bodySkipped hQueue hScheduled =>
      exact h.extend rfl rfl rfl rfl rfl (List.append_nil _).symm (by simp) (by simp)
  | bodyTaken hQueue hScheduled =>
      exact h.extend rfl rfl rfl rfl rfl rfl (by simp [Observation.IsPlain]) (by simp)
  | bodyFailed hQueue hScheduled now => exact h.bodyFailed hStaged hQueue hScheduled now
  | callSkipped hQueue hScheduled =>
      exact h.extend rfl rfl rfl rfl rfl (List.append_nil _).symm (by simp) (by simp)
  | called hQueue hScheduled response =>
      exact h.extend rfl rfl rfl rfl rfl rfl (by simp [Observation.IsPlain]) (by simp)
  | promised hQueue hScheduled =>
      exact h.extend rfl rfl rfl rfl rfl rfl (by simp [Observation.IsPlain]) (by simp)
  | settled hPromise response =>
      exact h.extend rfl rfl rfl rfl rfl (List.append_nil _).symm (by simp) (by simp)
  | rejected hPromise =>
      exact h.extend rfl rfl rfl rfl rfl (List.append_nil _).symm (by simp) (by simp)

omit [Host] [Digests] in
theorem Initial.closes (h : Initial conn) : conn.Closes := by
  obtain ⟨incompleteContentHeader, header, rfl⟩ := h
  refine ⟨?_, fun _ => rfl, ?_⟩
  · rintro - - serial ⟨⟨bytes, hMem⟩, -⟩
    cases hMem
  · intro _ hFailed
    cases hFailed

/-- What a run keeps, by one induction for both invariants: where the requests stand, and
what has become of the response to an error. -/
theorem closes_of_run (contract : HttpParserContract) {start finish : Connection File}
    {actions : List (ConnectionAction File)} {outputs : List Unit}
    (hInitial : Initial start) (run : system.Run start actions finish outputs)
    (hPaced : Paced finish.log) :
    finish.Writing ∧ Staged (contract.phase finish.parser) finish ∧ finish.Closes := by
  have hRun := run_invariant contract (I := fun conn => conn.Writing ∧
    (Paced conn.log → Staged (contract.phase conn.parser) conn ∧ conn.Closes)) run hInitial
    ⟨hInitial.writing, fun _ => ⟨hInitial.staged contract, hInitial.closes⟩⟩ ?_
  · exact ⟨hRun.2.1, hRun.2.2 hPaced⟩
  · rintro conn after hSound hStep ⟨hWriting, hBefore⟩
    refine ⟨hWriting.step hStep, fun hPaced => ?_⟩
    obtain ⟨hStaged, hCloses⟩ := hBefore (hPaced.of_prefix hStep.log_grows)
    have hAfter := hStaged.step contract hSound hStep hPaced.sequential
    exact ⟨hAfter, hCloses.step contract hWriting hStaged hSound hStep hAfter hPaced⟩

/-- One response to each request, and nothing of the application behind a refusal or an
error. The response to an error closes the connection when its last write is called back. -/
theorem one_final_response (contract : HttpParserContract) {start finish : Connection File}
    {actions : List (ConnectionAction File)} {outputs : List Unit}
    (hInitial : Initial start) (run : system.Run start actions finish outputs)
    (hPaced : Paced finish.log) {request : Nat}
    (hPlain : .onHeadersComplete request true ∉ finish.log) :
    (history request finish.log).countP RequestEvent.isResponse ≤ 1 ∧
    (∀ response, .answeredInHeaders request response ∈ finish.log →
      (∀ failed, .onBodyData request failed ∉ finish.log) ∧ .call request ∉ finish.log) ∧
    (.onBodyData request true ∈ finish.log → ∃ taken, Taken taken ∧
      ((∃ now, history request finish.log = taken ++ [.onBodyData true] ∧
          .onBodyError request (AppAnswer.errorResponse now) ∈ finish.backgroundQueue) ∨
        finish.ignoreNewData = true ∧ ∃ serial now, history request finish.log = taken ++
            [.onBodyData true, .final serial (AppAnswer.errorResponse now).requestClose] ∧
          (finish.isClosing = true ∨ ∃ write ∈ finish.writes,
            write.serial = some serial ∧ write.closeAfterWritten = true))) := by
  have hEvent : ∀ {entry : Observation File} {event : RequestEvent File}, entry ∈ finish.log →
      entry.requestEvent request = some event → event ∈ history request finish.log :=
    fun hMem hSame => List.mem_filterMap.2 ⟨_, hMem, hSame⟩
  obtain ⟨-, hStaged, hCloses⟩ := closes_of_run contract hInitial run hPaced
  have hCourse := hStaged.course hPlain
  refine ⟨hCourse.one_response, ?_, ?_⟩
  · intro response hAnswered
    obtain ⟨hBody, hCall⟩ := hCourse.of_answered (hEvent hAnswered (if_pos rfl))
    constructor
    · exact fun failed hMem => hBody failed (hEvent hMem (if_pos rfl))
    · exact fun hMem => hCall (hEvent hMem (if_pos rfl))
  · intro hFailed
    obtain ⟨rfl, hUpgrade⟩ := hStaged.of_failed hPlain hFailed
    obtain ⟨taken, hTaken, ⟨now, hHistory, hTask⟩ | ⟨hIgnore, serial, now, hHistory⟩⟩ :=
      (hStaged.stage_of_failed hUpgrade hFailed).of_failed (mem_history_error.2 hFailed)
    · exact ⟨taken, hTaken, Or.inl ⟨now, hHistory, (List.mem_filter.1 hTask).1⟩⟩
    · refine ⟨taken, hTaken, Or.inr ⟨hIgnore, serial, now, hHistory, ?_⟩⟩
      have hFinal : .final serial (AppAnswer.errorResponse now).requestClose ∈
          history finish.current finish.log := by
        rw [show history finish.current finish.log = _ from hHistory]
        simp
      refine (hCloses.ending hUpgrade hFailed serial _ (mem_history_final.1 hFinal)).imp id ?_
      rintro ⟨before, write, hWrites, hSerial, hClose, -⟩
      exact ⟨write, by simp [hWrites], hSerial, hClose⟩

omit [HttpParser] [Zlib] [DataSource File] [Host] [Digests]

/-- A request with two bytes of a body. `onBodyData` fails, and the response to that is
written. -/
def sampleBodyError : List (ConnectionAction InMemoryDataSource) :=
  [.read (ascii "POST / HTTP/1.1\r\nContent-Length: 2\r\n\r\n") none .epoch,
    .runMain (.returned none) [] .epoch, .runMain (.returned none) [] .epoch,
    .runBackground none .epoch [], .read (ascii "hi") none .epoch, .runMain .failed [] .epoch,
    .runMain .failed [] .epoch, .runBackground none .epoch [], .written 0 true, .written 0 true,
    .runBackground none .epoch []]

/-- An error in `onBodyData`. -/
theorem one_final_response_body_error :
    let _ : HttpParser := httpParser
    let _ : Zlib := HttpResponse.SampleStream.zlib
    let _ : Host := littleEndianHost
    let _ : Digests := sampleDigests
    ∃ finish : Connection InMemoryDataSource,
      system.Run (fresh WSHixie76Parser.textInfo WSHixie76Parser.textInfo) sampleBodyError
        finish [] ∧
      (history 1 finish.log).countP RequestEvent.isResponse ≤ 1 ∧ finish.isClosing = true ∧
      ∃ taken serial now, Taken taken ∧ history 1 finish.log = taken ++
        [.onBodyData true, .final serial (AppAnswer.errorResponse now).requestClose] := by
  intro parser zlib host digests
  let fact : Observation InMemoryDataSource → Option (Nat × Nat) := fun entry => match entry with
    | .onMessageBegin request _ => some (request, 0)
    | .onHeadersComplete request upgrade => some (request, if upgrade then 1 else 2)
    | .onBodyData request failed => some (request, if failed then 3 else 4)
    | _ => none
  obtain ⟨finish, hRun, hFacts⟩ : ∃ finish,
      sampleBodyError.foldlM next (fresh WSHixie76Parser.textInfo WSHixie76Parser.textInfo) =
        some finish ∧
      (finish.log.filterMap fact, finish.writes.isEmpty, finish.backgroundQueue.isEmpty) =
        ([(1, 0), (1, 2), (1, 3)], true, true) :=
    Option.map_eq_some_iff.1 (by decide +kernel)
  simp only [Prod.mk.injEq, List.isEmpty_iff] at hFacts
  obtain ⟨hFacts, hWrites, hQueue⟩ := hFacts
  have hMem : ∀ entry pair, entry ∈ finish.log → fact entry = some pair →
      pair ∈ [(1, 0), (1, 2), (1, 3)] := by
    intro entry pair hEntry hFact
    rw [← hFacts]
    exact List.mem_filterMap.2 ⟨entry, hEntry, hFact⟩
  have hBegins : ∀ request flag, .onMessageBegin (request + 1) flag ∈ finish.log →
      request = 0 := by
    intro request flag hEntry
    simpa using hMem _ _ hEntry rfl
  have hPlain : .onHeadersComplete 1 true ∉ finish.log := by
    intro hEntry
    simpa using hMem _ _ hEntry rfl
  have hFailed : .onBodyData 1 true ∈ finish.log := by
    have hPair : (1, 3) ∈ finish.log.filterMap fact := by simp [hFacts]
    obtain ⟨entry, hEntry, hFact⟩ := List.mem_filterMap.1 hPair
    cases entry with
    | onBodyData request failed =>
        cases failed with
        | true =>
            cases hFact
            exact hEntry
        | false => cases hFact
    | onHeadersComplete request upgrade => cases upgrade <;> cases hFact
    | _ => cases hFact
  obtain ⟨hOne, -, hError⟩ := one_final_response httpParserContract ⟨_, _, rfl⟩
    (run_of_foldlM hRun) (paced_of_single hBegins) hPlain
  obtain ⟨taken, hTaken, ⟨now, -, hTask⟩ | ⟨-, serial, now, hHistory, hClosing⟩⟩ := hError hFailed
  · simp [hQueue] at hTask
  · exact ⟨finish, run_of_foldlM hRun, hOne, by simpa [hWrites] using hClosing,
      taken, serial, now, hTaken, hHistory⟩

end Steps

end Connection

end Httpuv
