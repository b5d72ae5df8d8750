import Httpuv.Http.OneAtATime

/-! The bytes of one response are not interrupted by those of another, as long as
no request is let in before the response to the one before it is over. -/
namespace Httpuv

open Semantics

section Log

variable {File : Type} {serial : Nat} {log entries : List (Observation File)}

/-- No request is let in and no upgrade accepted while bytes of a response are
missing. -/
def ResponsesAwaited (log : List (Observation File)) : Prop :=
  AtEach (fun before entry => (∃ request, entry = .onMessageBegin request false ∨
    entry = .accept request true) → ∀ serial, ¬Unfinished serial before) log

theorem unfinished_append (hApart : ∀ entry ∈ entries, entry.IsApart) :
    Unfinished serial (log ++ entries) ↔ Unfinished serial log := by
  induction entries using List.reverseRecOn with
  | nil => rw [List.append_nil]
  | append_singleton entries entry ih =>
      rw [← List.append_assoc, unfinished_apart (hApart entry (by simp))]
      exact ih (fun other hMem => hApart other (List.mem_append_left _ hMem))

theorem uninterrupted_append (hApart : ∀ entry ∈ entries, entry.IsApart)
    (h : Uninterrupted log) : Uninterrupted (log ++ entries) := by
  apply h.append
  intro entry hMem before serial bytes hEntry
  have hOther := hApart entry hMem
  rw [hEntry] at hOther
  exact hOther.elim

/-- A request that gets a final response has none before. -/
theorem Course.none_before {events : List (RequestEvent File)} {serial : Nat}
    {response : HttpResponse (Body File)} (h : Course (events ++ [.final serial response])) :
    ∀ other answer, .final other answer ∉ events := by
  intro other answer hMem
  have hOne := h.one_response
  have hFirst : 0 < events.countP RequestEvent.isResponse :=
    List.countP_pos_iff.2 ⟨_, hMem, rfl⟩
  rw [List.countP_append] at hOne
  have hLast : [RequestEvent.final serial response].countP RequestEvent.isResponse = 1 := rfl
  omega

end Log

namespace Connection

variable {File : Type} [HttpParser] [Zlib] {phase next : ParserPhase} {conn after : Connection File}

/-- What is kept while the parser runs. The only response of an open connection that
is not over is the final one to the current request. -/
structure Undivided (conn : Connection File) : Prop where
  uninterrupted : Uninterrupted conn.log
  owned : conn.isClosing = false → ∀ serial, Unfinished serial conn.log →
    ∃ response, .writeResponse conn.current serial .final response ∈ conn.log
  alone : conn.isClosing = false → ∀ serial other, Unfinished serial conn.log →
    Unfinished other conn.log → serial = other

/-- Nothing of a response is missing. -/
theorem Undivided.of_none (h : Uninterrupted conn.log)
    (hNone : conn.isClosing = false → ∀ serial, ¬Unfinished serial conn.log) :
    conn.Undivided where
  uninterrupted := h
  owned := fun hOpen serial hSerial => absurd hSerial (hNone hOpen serial)
  alone := fun hOpen serial _ hSerial _ => absurd hSerial (hNone hOpen serial)

theorem Undivided.extend {entries : List (Observation File)} (h : conn.Undivided)
    (hCurrent : after.current = conn.current)
    (hClosing : conn.isClosing = true → after.isClosing = true)
    (hLog : after.log = conn.log ++ entries) (hPlain : ∀ entry ∈ entries, entry.IsPlain) :
    after.Undivided := by
  have hApart : ∀ entry ∈ entries, entry.IsApart := fun entry hMem => (hPlain entry hMem).isApart
  have hOpen : after.isClosing = false → conn.isClosing = false := by
    intro hAfter
    cases hBefore : conn.isClosing with
    | false => rfl
    | true => rw [hClosing hBefore] at hAfter; cases hAfter
  refine ⟨?_, ?_, ?_⟩
  · rw [hLog]
    exact uninterrupted_append hApart h.uninterrupted
  · intro hAfter serial hSerial
    rw [hLog, unfinished_append hApart] at hSerial
    obtain ⟨response, hMem⟩ := h.owned (hOpen hAfter) serial hSerial
    rw [hCurrent, hLog]
    exact ⟨response, List.mem_append_left _ hMem⟩
  · intro hAfter serial other hSerial hOther
    rw [hLog, unfinished_append hApart] at hSerial hOther
    exact h.alone (hOpen hAfter) serial other hSerial hOther

/-- The same connection, as far as its responses are concerned. -/
theorem Undivided.congr (h : conn.Undivided) (hCurrent : after.current = conn.current)
    (hClosing : after.isClosing = conn.isClosing) (hLog : after.log = conn.log) :
    after.Undivided := by
  apply h.extend hCurrent (fun hBefore => hClosing.trans hBefore)
    (hLog.trans (List.append_nil _).symm)
  simp

variable [DataSource File]

omit [DataSource File] in
theorem Undivided.flowing (h : conn.Undivided) : conn.Flowing := ⟨h.uninterrupted, h.alone⟩

theorem Undivided.quiet (h : conn.Undivided) (hWriting : conn.Writing) (hQuiet : Quiet conn after) :
    after.Undivided := by
  have hFlowing := hQuiet.flowing hWriting h.flowing
  refine ⟨hFlowing.uninterrupted, ?_, hFlowing.alone⟩
  intro hOpen serial hSerial
  have hBefore : conn.isClosing = false := by
    cases hClosing : conn.isClosing with
    | false => rfl
    | true => rw [hQuiet.isClosing hClosing] at hOpen; cases hOpen
  obtain ⟨response, hMem⟩ := h.owned hBefore serial (hQuiet.unfinished hWriting serial hSerial)
  rw [hQuiet.current]
  exact ⟨response, hQuiet.log_grows.subset hMem⟩

/-! The parser. -/

omit [DataSource File] in
/-- A request is let in when no response is under way, or closes the connection. -/
theorem Undivided.onMessageBegin (h : conn.Undivided) (hAwaited : ResponsesAwaited conn.begun.log) :
    conn.newRequest.Undivided := by
  obtain ⟨entries, hLog, hPlain⟩ := (Plain.newRequest conn).log
  have hApart : ∀ entry ∈ entries, entry.IsApart := fun entry hMem => (hPlain entry hMem).isApart
  apply Undivided.of_none
  · rw [hLog]
    exact uninterrupted_append hApart h.uninterrupted
  · intro hOpen serial hSerial
    rw [hLog, unfinished_append hApart] at hSerial
    cases hHandling : conn.handlingRequest with
    | true => rw [newRequest_isClosing hHandling] at hOpen; cases hOpen
    | false =>
        have hLast := (AtEach.concat_iff.1 hAwaited).2
        exact hLast ⟨conn.current + 1, .inl (by rw [hHandling])⟩ serial hSerial

omit [DataSource File] in
theorem Undivided.onEvent {event : ParserEvent} (h : conn.Undivided)
    (static : Option (HttpResponse (Body File))) (hBegin : event ≠ .onMessageBegin) :
    (conn.onEvent static event).Undivided := by
  obtain ⟨entries, hLog, hPlain⟩ := (Plain.onEvent conn static event).log
  have hSame : (conn.onEvent static event).current = conn.current ∧
      (conn.onEvent static event).isClosing = conn.isClosing := by
    cases event with
    | onMessageBegin => exact absurd rfl hBegin
    | onHeadersComplete upgrade =>
        simp only [Connection.onEvent, Connection.onHeadersComplete]
        split <;> exact ⟨rfl, rfl⟩
    | onMessageComplete =>
        simp only [Connection.onEvent, Connection.onMessageComplete]
        split_ifs <;> exact ⟨rfl, rfl⟩
    | _ => exact ⟨rfl, rfl⟩
  exact h.extend hSame.1 (fun hClosing => hSame.2.trans hClosing) hLog hPlain

theorem Undivided.feed (contract : HttpParserContract) (h : conn.Undivided)
    (static : Option (HttpResponse (Body File))) (buffer : Bytes)
    (hAwaited : ResponsesAwaited (conn.feed static buffer).log) :
    (conn.feed static buffer).Undivided := by
  suffices hFed : ResponsesAwaited (conn.feed static buffer).log →
      (conn.feed static buffer).Undivided from hFed hAwaited
  apply feed_invariant contract (I := fun _ conn => ResponsesAwaited conn.log → conn.Undivided)
  · intro _
    exact h.extend rfl id rfl (by simp [Observation.IsPlain])
  · exact fun conn hBefore => hBefore
  · intro phase event next conn hNext hBefore hAwaited
    have hUndivided := hBefore (hAwaited.of_prefix (onEvent_log conn static event))
    by_cases hBegin : event = .onMessageBegin
    · subst hBegin
      exact hUndivided.onMessageBegin (hAwaited.of_prefix (quiet_newRequest conn).log_grows)
    · exact hUndivided.onEvent static hBegin

/-! Responses. -/

section Wrote

variable {request : Nat} {kind : ResponseKind} {response : HttpResponse (Body File)}
  {entries : List (Observation File)}

/-- A response that begins when no other is under way. -/
theorem Wrote.undivided (hWrote : Wrote conn after request kind response entries)
    (hOwner : conn.isClosing = false → request = conn.current)
    (hUninterrupted : Uninterrupted conn.log) (hWriting : conn.Writing)
    (hNone : conn.isClosing = false → ∀ serial, ¬Unfinished serial conn.log)
    (hKind : kind = .final ∨ ∀ written : HttpResponse (SentBody File),
      response.writeResponse conn.head.headers = some written → written.drained = true) :
    after.Undivided ∧ (kind ≠ .final → after.isClosing = false →
      ∀ serial, ¬Unfinished serial after.log) := by
  have hSame : after.isClosing = conn.isClosing := hWrote.same_fields.2.2.2.2.2.2.2.2
  have hCalled : Uninterrupted
      (conn.log ++ [.writeResponse request conn.serial kind response]) :=
    uninterrupted_apart (by trivial) hUninterrupted
  rcases hWrote.entries with ⟨hClosing, rfl⟩ | ⟨hOpen, written, hWritten, rfl⟩
  · have hClosed : ¬after.isClosing = false := by simp [hSame, hClosing]
    refine ⟨Undivided.of_none ?_ (fun hOpen => absurd hOpen hClosed),
      fun _ hOpen => absurd hOpen hClosed⟩
    rw [hWrote.log, List.append_cons]
    exact uninterrupted_apart (by trivial) hCalled
  · obtain rfl := hOwner hOpen
    have hFresh : .handedOver conn.serial ∉
        conn.log ++ [.writeResponse conn.current conn.serial kind response] := by
      rw [handedOver_apart (by trivial)]
      intro hOver
      exact absurd (hWriting.numbered conn.serial (.inr (.inl hOver))) (lt_irrefl _)
    have hAlone : ∀ other, Unfinished other
        (conn.log ++ [.writeResponse conn.current conn.serial kind response]) →
        other = conn.serial := by
      intro other hOther
      rw [unfinished_apart (by trivial)] at hOther
      exact absurd hOther (hNone hOpen other)
    have hUnfinished : ∀ other, Unfinished other after.log →
        other = conn.serial ∧ written.drained = false := by
      intro other hOther
      rw [hWrote.log, List.append_cons] at hOther
      cases unfinished_pieces hOther with
      | inl hNew => exact hNew
      | inr hOld =>
          rw [unfinished_apart (by trivial)] at hOld
          exact absurd hOld (hNone hOpen other)
    have hAfter : Uninterrupted after.log := by
      rw [hWrote.log, List.append_cons]
      exact hCalled.pieces hFresh hAlone
    cases hKind with
    | inl hFinal =>
        subst hFinal
        refine ⟨⟨hAfter, ?_, ?_⟩, fun hOther => absurd rfl hOther⟩
        · intro _ serial hSerial
          obtain ⟨rfl, -⟩ := hUnfinished serial hSerial
          rw [hWrote.log, hWrote.same_fields.1]
          exact ⟨response, by simp⟩
        · intro _ serial other hSerial hOther
          exact (hUnfinished serial hSerial).1.trans (hUnfinished other hOther).1.symm
    | inr hDrained =>
        have hOver : ∀ serial, ¬Unfinished serial after.log := by
          intro serial hSerial
          have hUndrained := (hUnfinished serial hSerial).2
          rw [hDrained written hWritten] at hUndrained
          cases hUndrained
        exact ⟨Undivided.of_none hAfter (fun _ => hOver), fun _ _ => hOver⟩

end Wrote

omit [HttpParser] in
/-- `100 Continue` has no body. -/
theorem continue_drained {requestHeaders : RequestHeaders} {now : Tm}
    {written : HttpResponse (SentBody File)}
    (h : (HttpResponse.construct 100 (ascii "Continue") none now :
      HttpResponse (Body File)).writeResponse requestHeaders = some written) :
    written.drained = true := by
  let response : HttpResponse (Body File) :=
    HttpResponse.construct 100 (ascii "Continue") none now
  have hEncoded (gzip : Bool) :
      response.encodeBody gzip = some { response with pBody := none } := by
    cases gzip <;> rfl
  change response.writeResponse requestHeaders = some written at h
  rw [HttpResponse.writeResponse, hEncoded] at h
  obtain rfl := Option.some.inj h
  rfl

omit [HttpParser] [DataSource File] [Zlib] in
theorem switchingProtocols_gzip (handshake : WebSocketProto.Handshake)
    (requestHeaders : RequestHeaders) (now : Tm) :
    (switchingProtocols handshake now : HttpResponse (Body File)).gzip requestHeaders = false := by
  unfold HttpResponse.gzip
  split_ifs with hEncoding hStatus
  · rfl
  · rfl
  · exact absurd (Or.inl rfl) hStatus

omit [HttpParser] in
/-- The response to a handshake is sent with its header, or it is empty. -/
theorem switchingProtocols_drained {handshake : WebSocketProto.Handshake}
    {requestHeaders : RequestHeaders} {now : Tm} {written : HttpResponse (SentBody File)}
    (hLength : handshake.response.length < 256)
    (h : (switchingProtocols handshake now : HttpResponse (Body File)).writeResponse
      requestHeaders = some written) : written.drained = true := by
  let response : HttpResponse (Body File) := switchingProtocols handshake now
  have hGzip : response.gzip requestHeaders = false :=
    switchingProtocols_gzip handshake requestHeaders now
  have hEncoded : response.encodeBody false =
      some { response with pBody := some (.inl (AppAnswer.memory handshake.response)) } := rfl
  have hSize : DataSource.size (.inl (AppAnswer.memory handshake.response) : SentBody File) =
      handshake.response.length := rfl
  change response.writeResponse requestHeaders = some written at h
  rw [HttpResponse.writeResponse, hGzip, hEncoded] at h
  simp only [Option.bind_eq_bind, Option.bind_some, hSize] at h
  by_cases hEmpty : handshake.response = []
  · rw [if_neg (by simp [hEmpty])] at h
    obtain rfl := Option.some.inj h
    have hData : ∃ source, DataSource.getData
        (.inl (AppAnswer.memory handshake.response) : SentBody File) bytesDesired =
          some ([], source) := by
      rw [hEmpty]
      exact ⟨_, rfl⟩
    obtain ⟨source, hData⟩ := hData
    have hChunked : response.chunked = false := rfl
    simp [HttpResponse.drained, ExtendedWrite.drained, ExtendedWrite.construct, hData, hChunked]
  · rw [if_pos ⟨rfl, List.length_pos_iff.2 hEmpty, hLength⟩] at h
    have hRead : DataSource.getData (.inl (AppAnswer.memory handshake.response) : SentBody File)
        handshake.response.length = some (handshake.response,
          .inl (.inl { buffer := handshake.response, pos := handshake.response.length })) := by
      simp [DataSource.getData, InMemoryDataSource.getData, AppAnswer.memory]
    have hAll : DataSource.size
        (.inl (.inl { buffer := handshake.response, pos := handshake.response.length }) :
          SentBody File) = handshake.response.length := rfl
    rw [hRead] at h
    simp only [Option.bind_some, Option.pure_def, hAll, if_true] at h
    obtain rfl := Option.some.inj h
    rfl

/-- What is kept between two steps. While an upgrade that has been decided on may still
be answered with an error, no response is under way. -/
structure Orderly (phase : ParserPhase) (conn : Connection File) : Prop where
  undivided : conn.Undivided
  upgraded : conn.isClosing = false → conn.isUpgrade = true → phase ≠ .waiting →
    conn.responseScheduled = false ∨ conn.backgroundTasks ≠ [] →
      ∀ serial, ¬Unfinished serial conn.log

omit [DataSource File] in
theorem Orderly.of_isClosing (h : conn.Undivided) (hClosing : conn.isClosing = true) :
    Orderly phase conn := by
  refine ⟨h, ?_⟩
  intro hOpen
  rw [hClosing] at hOpen
  cases hOpen

omit [DataSource File] in
theorem Orderly.of_isUpgrade (h : conn.Undivided) (hUpgrade : conn.isUpgrade = false) :
    Orderly phase conn := by
  refine ⟨h, ?_⟩
  intro _ hOther
  rw [hUpgrade] at hOther
  cases hOther

theorem Orderly.quiet (h : Orderly phase conn) (hWriting : conn.Writing)
    (hQuiet : Quiet conn after) : Orderly phase after := by
  refine ⟨h.undivided.quiet hWriting hQuiet, ?_⟩
  rw [hQuiet.isUpgrade, hQuiet.responseScheduled, hQuiet.backgroundTasks]
  intro hOpen hUpgrade hPhase hLeft serial hSerial
  have hBefore : conn.isClosing = false := by
    cases hClosing : conn.isClosing with
    | false => rfl
    | true => rw [hQuiet.isClosing hClosing] at hOpen; cases hOpen
  exact h.upgraded hBefore hUpgrade hPhase hLeft serial (hQuiet.unfinished hWriting serial hSerial)

variable [Host] [Digests]

omit [HttpParser] [Zlib] [DataSource File] in
theorem handshake_response_length (hMd5 : ∀ data, (Digests.md5 data).length = 16)
    (parser : WSParser) (url : Bytes) (requestHeaders : RequestHeaders) (pData : Bytes) :
    (WebSocketConnection.handshake parser url requestHeaders pData).response.length < 256 := by
  cases parser with
  | hyBi parser => exact Nat.zero_lt_succ _
  | hixie76 parser =>
      rw [WebSocketConnection.handshake, WebSocketProto.hyBi03Handshake, hMd5]
      decide

/-- An upgrade is accepted when no response is under way. -/
theorem Undivided.upgraded {now : Tm} {pData : Bytes} (h : conn.Undivided)
    (hMd5 : ∀ data, (Digests.md5 data).length = 16) (hWriting : conn.Writing)
    (hFeeding : Feeding phase conn) (hUpgraded : Upgraded conn now pData after)
    (hAwaited : ResponsesAwaited after.log) : Orderly next after := by
  cases hUpgraded with
  | gone hGone => exact Orderly.of_isClosing h (hFeeding.1.websocket hGone)
  | refused hRefused hQuiet hClosed =>
      have hObserved : (conn.observe (.accept conn.current false)).Undivided :=
        h.extend rfl id rfl (by simp [Observation.IsPlain])
      have hStill : (conn.observe (.accept conn.current false)).Writing :=
        hWriting.extend rfl rfl rfl (by simp [Observation.IsPlain])
      cases hClosed with
      | inl hSwitched => exact absurd (.inl hSwitched) hFeeding.2
      | inr hClosing => exact Orderly.of_isClosing (hObserved.quiet hStill hQuiet) hClosing
  | @accepted parser answered handshake hOpen hAccepted hHandshake hAnswered =>
      obtain ⟨entries, hWrote⟩ := Connection.wrote hAnswered
      have hAccept := Plain.accept conn parser handshake
      obtain ⟨accepts, hLog, hPlain⟩ := hAccept.log
      have hApart : ∀ entry ∈ accepts, entry.IsApart :=
        fun entry hMem => (hPlain entry hMem).isApart
      have hNone : ∀ serial, ¬Unfinished serial conn.log := by
        have hFirst : conn.log ++ [.accept conn.current true] <+:
            (answered.switchProtocol handshake).log := by
          have hBoth : conn.log ++ [.accept conn.current true] <+:
              (conn.accept parser handshake).log := List.prefix_append _ _
          exact hBoth.trans hWrote.log_grows
        exact (AtEach.concat_iff.1 (hAwaited.of_prefix hFirst)).2 ⟨conn.current, .inr rfl⟩
      have hBetween : ∀ serial, ¬Unfinished serial (conn.accept parser handshake).log := by
        intro serial
        rw [hLog, unfinished_append hApart]
        exact hNone serial
      have hBefore : Uninterrupted (conn.accept parser handshake).log := by
        rw [hLog]
        exact uninterrupted_append hApart h.uninterrupted
      have hLength : handshake.response.length < 256 := by
        rw [hHandshake]
        exact handshake_response_length hMd5 _ _ _ _
      obtain ⟨hUndivided, hOver⟩ := Wrote.undivided hWrote (fun _ => rfl) hBefore
        (hAccept.writing hWriting) (fun _ => hBetween)
        (.inr (fun written => switchingProtocols_drained hLength))
      have hSwitched : (answered.switchProtocol handshake).Undivided :=
        hUndivided.congr rfl rfl rfl
      exact ⟨hSwitched, fun hOpen _ _ _ => hOver (by simp) hOpen⟩

/-- The parser is given bytes. -/
theorem Undivided.parsed (contract : HttpParserContract)
    {static : Option (HttpResponse (Body File))} {now : Tm} {buffer : Bytes}
    (h : conn.Undivided) (hMd5 : ∀ data, (Digests.md5 data).length = 16)
    (hWriting : conn.Writing) (hFeeding : Feeding (contract.phase conn.parser) conn)
    (hParsed : Parsed conn static now buffer after) (hAwaited : ResponsesAwaited after.log) :
    Orderly (contract.phase after.parser) after := by
  have hFed := h.feed contract static buffer (hAwaited.of_prefix hParsed.log_after_feed)
  have hFedWriting := (Plain.feed conn static buffer).writing hWriting
  cases hParsed with
  | waiting hWaiting =>
      refine ⟨hFed.congr rfl rfl rfl, ?_⟩
      intro _ _ hPhase
      exact absurd ((contract.waiting_iff _).1 hWaiting) hPhase
  | upgrade hWaiting hUpgrade hAfter =>
      exact hFed.upgraded hMd5 hFedWriting (hFeeding.feed contract static buffer) hAfter hAwaited
  | quiet hWaiting hUpgrade hQuiet hRest =>
      exact Orderly.of_isUpgrade (hFed.quiet hFedWriting hQuiet) (hQuiet.isUpgrade.trans hUpgrade)

section Final

omit [Host] [Digests]

/-- A final response when no other is under way. -/
theorem Undivided.finishes {request : Nat} {response : HttpResponse (Body File)} {closing : Bool}
    (h : conn.Undivided) (hWriting : conn.Writing)
    (hOwner : conn.isClosing = false → request = conn.current)
    (hNone : conn.isClosing = false → ∀ serial, ¬Unfinished serial conn.log)
    (hFinishes : Finishes conn request response closing after) : after.Undivided := by
  obtain ⟨entries, hWrote⟩ := Connection.wrote hFinishes
  have hStopped : (conn.stopIf closing).Writing := hWriting.congr rfl rfl rfl
  exact (Wrote.undivided hWrote hOwner h.uninterrupted hStopped hNone (.inl rfl)).1

omit [DataSource File] in
/-- A request without a final response has no response under way. -/
theorem Undivided.none_of_history (h : conn.Undivided) (hOpen : conn.isClosing = false)
    (hHistory : ∀ serial response, .final serial response ∉ history conn.current conn.log) :
    ∀ serial, ¬Unfinished serial conn.log := by
  intro serial hSerial
  obtain ⟨response, hMem⟩ := h.owned hOpen serial hSerial
  exact hHistory serial response (mem_history_final.2 hMem)

theorem Undivided.headersCompleted {middle : Connection File} {now : Tm}
    {response : Option (HttpResponse (Body File))} (h : conn.Undivided) (hWriting : conn.Writing)
    (hNone : conn.isClosing = false → ∀ serial, ¬Unfinished serial conn.log)
    (hMiddle : conn.headersCompleted now conn.current response = some middle) :
    ({ middle with requestBuffer := [] } : Connection File).Undivided := by
  cases response with
  | some answer =>
      obtain ⟨closing, answered, hFinishes, rfl⟩ := headersCompleted_some hMiddle
      exact (h.finishes hWriting (fun _ => rfl) hNone hFinishes).congr rfl rfl rfl
  | none =>
      obtain ⟨continued, hContinued, rfl⟩ := headersCompleted_none hMiddle
      cases hContinued with
      | inl hSame =>
          subst hSame
          exact h.congr rfl rfl rfl
      | inr hWritten =>
          obtain ⟨entries, hWrote⟩ := Connection.wrote hWritten
          have hUndivided := (Wrote.undivided hWrote (fun _ => rfl) h.uninterrupted hWriting hNone
            (.inr (fun written => continue_drained))).1
          exact hUndivided.congr rfl rfl rfl

omit [DataSource File] in
/-- Behind its headers an upgrade has nothing on the main queue but body data. -/
theorem Staged.not_upgrade {task : MainTask} {rest : List MainTask} {request : Nat}
    (h : Staged phase conn) (hQueue : conn.mainQueue = task :: rest)
    (hTask : task.ofRequest = some request) (hOther : ∀ owner data, task ≠ .onBodyData owner data)
    (hUpgrade : conn.isUpgrade = true) : phase = .waiting := by
  cases h.main hQueue hTask with
  | inl hStage =>
      obtain ⟨-, hStage⟩ := hStage
      rw [hUpgrade] at hStage
      exact hStage.upgrade_waiting
  | inr hAbandoned =>
      obtain ⟨-, data, hData⟩ := hAbandoned
      exact absurd hData (hOther _ _)

omit [DataSource File] in
/-- Nor has it promises. -/
theorem Staged.not_upgrade_of_promise {index request : Nat} (h : Staged phase conn)
    (hPromise : conn.promises[index]? = some request) (hUpgrade : conn.isUpgrade = true) :
    phase = .waiting := by
  have hSome : conn.promises ≠ [] := by
    intro hNone
    simp [hNone] at hPromise
  cases h.1 with
  | inl hStanding =>
      cases hStanding with
      | unused hCurrent hExchange => simp [exchange, hUpgrade] at hExchange
      | stage hCurrent hStage =>
          rw [exchange, hUpgrade] at hStage
          exact hStage.upgrade_waiting
  | inr hAbandoned => exact absurd hAbandoned.promises hSome

omit [DataSource File] in
/-- A step that writes nothing, past the decision about the headers. -/
theorem Orderly.extend {entries : List (Observation File)} (h : Orderly phase conn)
    (hCurrent : after.current = conn.current) (hClosing : after.isClosing = conn.isClosing)
    (hLog : after.log = conn.log ++ entries) (hPlain : ∀ entry ∈ entries, entry.IsPlain)
    (hUpgrade : after.isUpgrade = conn.isUpgrade)
    (hLeft : conn.isClosing = false → conn.isUpgrade = true → phase ≠ .waiting →
      after.responseScheduled = false ∨ after.backgroundTasks ≠ [] →
        conn.responseScheduled = false ∨ conn.backgroundTasks ≠ []) : Orderly phase after := by
  have hApart : ∀ entry ∈ entries, entry.IsApart := fun entry hMem => (hPlain entry hMem).isApart
  refine ⟨h.undivided.extend hCurrent hClosing.trans hLog hPlain, ?_⟩
  rw [hClosing, hUpgrade]
  intro hOpen hUpgraded hPhase hAfter serial
  rw [hLog, unfinished_append hApart]
  exact h.upgraded hOpen hUpgraded hPhase (hLeft hOpen hUpgraded hPhase hAfter) serial

/-- The response to a request whose body has failed. -/
theorem Orderly.onBodyError {request : Nat} {response : HttpResponse (Body File)}
    {rest : List (BackgroundTask File)} (h : Orderly phase conn) (hWriting : conn.Writing)
    (hStaged : conn.isClosing = false → Staged phase conn)
    (hQueue : conn.backgroundQueue = .onBodyError request response :: rest)
    (hAfter : Connection.onBodyError { conn with backgroundQueue := rest } request response =
      some after) : Orderly phase after := by
  have hFinishes := onBodyError_finishes hAfter
  obtain ⟨-, -, hBackground, -, hScheduled, -, hUpgrade, -, hClosing⟩ := hFinishes.same_fields
  have hTasks := backgroundTasks_cons rfl hQueue
  have hOwner : conn.isClosing = false → request = conn.current := by
    intro hOpen
    cases (hStaged hOpen).background hQueue rfl with
    | inl hStage => exact (hStage.2.onBodyError 0).1
    | inr hAbandoned =>
        obtain ⟨-, now, hTask⟩ := hAbandoned
        cases hTask
        rfl
  have hNone : conn.isClosing = false → ∀ serial, ¬Unfinished serial conn.log := by
    intro hOpen
    cases (hStaged hOpen).background hQueue rfl with
    | inl hStage =>
        exact h.undivided.none_of_history hOpen
          (hStage.2.onBodyError 0).2.2.course.none_before
    | inr hAbandoned =>
        exact h.upgraded hOpen hAbandoned.1.isUpgrade hAbandoned.1.phase.2
          (.inr (by simp [hTasks]))
  have hPopped : ({ conn with backgroundQueue := rest, parser := HttpParser.pause conn.parser } :
      Connection File).Undivided := h.undivided.congr rfl rfl rfl
  have hPoppedWriting : ({ conn with
      backgroundQueue := rest
      parser := HttpParser.pause conn.parser } : Connection File).Writing :=
    hWriting.congr rfl rfl rfl
  refine ⟨hPopped.finishes hPoppedWriting hOwner hNone hFinishes, ?_⟩
  intro hOpen hUpgraded hPhase hLeft
  rw [hClosing] at hOpen
  rw [hUpgrade] at hUpgraded
  rw [hScheduled, hBackground] at hLeft
  exfalso
  cases (hStaged hOpen).1 with
  | inl hStanding =>
      cases hStanding with
      | unused hCurrent hExchange =>
          have hFlag : conn.isUpgrade = false := congrArg Exchange.isUpgrade hExchange
          simp [hFlag] at hUpgraded
      | stage hCurrent hStage =>
          rw [exchange, show conn.isUpgrade = true from hUpgraded] at hStage
          exact hPhase hStage.upgrade_waiting
  | inr hAbandoned =>
      cases hAbandoned.background with
      | inl hEmpty =>
          rw [hEmpty] at hTasks
          cases hTasks
      | inr hLast =>
          obtain ⟨hSet, now, hOne⟩ := hLast
          rw [hOne, List.cons.injEq] at hTasks
          cases hLeft with
          | inl hUnset => exact absurd (hSet.symm.trans hUnset) (by simp)
          | inr hSome => exact hSome hTasks.2.symm

theorem Orderly.onMessageCompleteComplete {request : Nat}
    {response : Option (HttpResponse (Body File))} {rest : List (BackgroundTask File)}
    (h : Orderly phase conn) (hWriting : conn.Writing)
    (hStaged : conn.isClosing = false → Staged phase conn)
    (hQueue : conn.backgroundQueue = .onMessageCompleteComplete request response :: rest)
    (hAfter : Connection.onMessageCompleteComplete { conn with backgroundQueue := rest } request
      response = some after) : Orderly phase after := by
  have hTasks := backgroundTasks_cons rfl hQueue
  have hPopped : Orderly phase { conn with backgroundQueue := rest } :=
    h.extend rfl rfl (List.append_nil _).symm (by simp) rfl (fun _ _ _ _ => .inr (by simp [hTasks]))
  cases onMessageCompleteComplete_cases hAfter with
  | inl hNothing =>
      obtain ⟨rfl, -⟩ := hNothing
      exact hPopped
  | inr hAnswered =>
      obtain ⟨hOpen, answer, rfl, hFinishes⟩ := hAnswered
      have hOpen : conn.isClosing = false := hOpen
      have hStage := (hStaged hOpen).background hQueue rfl
      cases hStage with
      | inr hAbandoned =>
          obtain ⟨-, now, hTask⟩ := hAbandoned
          cases hTask
      | inl hStage =>
          obtain ⟨rfl, -, hSome⟩ := hStage.2.onMessageCompleteComplete
          have hCourse := (hSome conn.ignoreNewData 0 answer rfl).course
          have hNone := h.undivided.none_of_history hOpen hCourse.none_before
          have hPoppedWriting : ({ conn with backgroundQueue := rest } : Connection File).Writing :=
            hWriting.congr rfl rfl rfl
          refine ⟨hPopped.undivided.finishes hPoppedWriting (fun _ => rfl) (fun _ => hNone)
            hFinishes, ?_⟩
          intro _ hUpgraded hPhase
          have hFlag : conn.isUpgrade = true :=
            hFinishes.same_fields.2.2.2.2.2.2.1.symm.trans hUpgraded
          have hUpgrading := hStage.2
          rw [hFlag] at hUpgrading
          exact absurd hUpgrading.upgrade_waiting hPhase

end Final

/-- One step. -/
theorem Orderly.step (contract : HttpParserContract)
    (hMd5 : ∀ data, (Digests.md5 data).length = 16)
    (h : Orderly (contract.phase conn.parser) conn) (hWriting : conn.Writing)
    (hStaged : conn.isClosing = false → Staged (contract.phase conn.parser) conn)
    (hSound : Sound (contract.phase conn.parser) conn) (hStep : Step conn after)
    (hAwaited : ResponsesAwaited after.log) : Orderly (contract.phase after.parser) after := by
  cases hStep with
  | quiet hQuiet =>
      rw [hQuiet.parser]
      exact h.quiet hWriting hQuiet
  | read static now data hReading hIgnore hProtocol hParsed =>
      have hHttp : ¬ conn.UsesWebSocket := hSound.http hProtocol
      have hFeeding : Feeding (contract.phase conn.parser) (conn.observe (.read data)) :=
        Feeding.observe ⟨hSound, hHttp⟩ _ (by simp) (by simp)
      have hRead : (conn.observe (.read data)).Undivided :=
        h.undivided.extend rfl id rfl (by simp [Observation.IsPlain])
      have hReadWriting : (conn.observe (.read data)).Writing :=
        hWriting.extend rfl rfl rfl (by simp [Observation.IsPlain])
      exact hRead.parsed contract hMd5 hReadWriting hFeeding hParsed hAwaited
  | @onHeadersCompleteComplete middle _ request response rest static now hQueue hMiddle hParsed =>
      obtain ⟨hWaiting, rfl, hPopped⟩ := hSound.front hQueue
      have hFeeding := (hPopped (contract.phase middle.parser)).headersCompleted hMiddle
      have hNone : conn.isClosing = false → ∀ serial, ¬Unfinished serial conn.log := by
        intro hOpen
        apply h.undivided.none_of_history hOpen
        cases (hStaged hOpen).background hQueue rfl with
        | inl hStage =>
            obtain ⟨-, -, -, -, -, -, -, hHistory⟩ := hStage.2.headersCompleted
            rw [hHistory]
            cases response <;> simp
        | inr hAbandoned =>
            obtain ⟨-, now, hTask⟩ := hAbandoned
            cases hTask
      have hPoppedWriting : ({ conn with backgroundQueue := rest } : Connection File).Writing :=
        hWriting.congr rfl rfl rfl
      have hPoppedUndivided : ({ conn with backgroundQueue := rest } : Connection File).Undivided :=
        h.undivided.congr rfl rfl rfl
      have hReady := hPoppedUndivided.headersCompleted hPoppedWriting hNone hMiddle
      exact hReady.parsed contract hMd5 (hPoppedWriting.headersCompleted hMiddle) hFeeding hParsed
        hAwaited
  | @onBodyError _ request response rest hQueue hAfter =>
      rw [(onBodyError_finishes hAfter).parser, contract.pause]
      exact h.onBodyError hWriting hStaged hQueue hAfter
  | @onMessageCompleteComplete _ request response rest hQueue hAfter =>
      have hParser : after.parser = conn.parser := by
        cases onMessageCompleteComplete_cases hAfter with
        | inl hNothing => rw [hNothing.1]
        | inr hAnswered =>
            obtain ⟨-, answer, -, hFinishes⟩ := hAnswered
            exact hFinishes.parser
      rw [hParser]
      exact h.onMessageCompleteComplete hWriting hStaged hQueue hAfter
  | @decided request rest hQueue response =>
      have hDeciding : conn.decisions ≠ [] := by simp [decisions_eq, hQueue, MainTask.decision]
      have hPhase := (hSound.deciding.resolve_left hDeciding).1
      refine h.extend rfl rfl rfl ?_ rfl (fun _ _ hOther => absurd hPhase hOther)
      cases response <;> simp [Observation.IsPlain]
  | undecided hQueue =>
      exact h.extend rfl rfl rfl (by simp [Observation.IsPlain]) rfl (fun _ _ _ => id)
  | bodySkipped hQueue hScheduled =>
      exact h.extend rfl rfl (List.append_nil _).symm (by simp) rfl (fun _ _ _ => id)
  | bodyTaken hQueue hScheduled =>
      exact h.extend rfl rfl rfl (by simp [Observation.IsPlain]) rfl (fun _ _ _ => id)
  | bodyFailed hQueue hScheduled now =>
      exact h.extend rfl rfl rfl (by simp [Observation.IsPlain]) rfl
        (fun _ _ _ _ => .inl hScheduled)
  | callSkipped hQueue hScheduled =>
      exact h.extend rfl rfl (List.append_nil _).symm (by simp) rfl
        (fun hOpen hUpgrade hPhase =>
          absurd ((hStaged hOpen).not_upgrade hQueue rfl (by simp) hUpgrade) hPhase)
  | called hQueue hScheduled response =>
      exact h.extend rfl rfl rfl (by simp [Observation.IsPlain]) rfl
        (fun _ _ _ _ => .inl hScheduled)
  | promised hQueue hScheduled =>
      exact h.extend rfl rfl rfl (by simp [Observation.IsPlain]) rfl (fun _ _ _ => id)
  | settled hPromise response =>
      exact h.extend rfl rfl (List.append_nil _).symm (by simp) rfl
        (fun hOpen hUpgrade hPhase =>
          absurd ((hStaged hOpen).not_upgrade_of_promise hPromise hUpgrade) hPhase)
  | rejected hPromise =>
      exact h.extend rfl rfl (List.append_nil _).symm (by simp) rfl (fun _ _ _ => id)

omit [DataSource File] [Host] [Digests] in
theorem Initial.orderly (h : Initial conn) : Orderly phase conn := by
  obtain ⟨incompleteContentHeader, header, rfl⟩ := h
  apply Orderly.of_isUpgrade
  · apply Undivided.of_none
    · exact AtEach.nil
    · simp [fresh, Unfinished, HasPiece]
  · rfl

/-- In a run in which no request is let in too early, the bytes of a response are not
interrupted. -/
theorem responses_uninterrupted (contract : HttpParserContract)
    (hMd5 : ∀ data, (Digests.md5 data).length = 16) {start finish : Connection File}
    {actions : List (ConnectionAction File)} {outputs : List Unit}
    (hInitial : Initial start) (run : system.Run start actions finish outputs)
    (hContinue : ContinueAwaited finish.log) (hResponses : ResponsesAwaited finish.log) :
    Uninterrupted finish.log := by
  have hRun := run_invariant contract (I := fun conn => conn.Writing ∧
    (Sequential conn.log → Staged (contract.phase conn.parser) conn) ∧
    (ContinueAwaited conn.log → Kept (contract.phase conn.parser) conn) ∧
    (ContinueAwaited conn.log → ResponsesAwaited conn.log →
      Orderly (contract.phase conn.parser) conn)) run hInitial
    ⟨hInitial.writing, fun _ => hInitial.staged contract, fun _ => hInitial.kept contract,
      fun _ _ => hInitial.orderly⟩ ?_
  · obtain ⟨-, -, -, -, hOrderly⟩ := hRun
    exact (hOrderly hContinue hResponses).undivided.uninterrupted
  · intro conn after hSound hStep hBefore
    obtain ⟨hWriting, hStaged, hKept, hOrderly⟩ := hBefore
    refine ⟨hWriting.step hStep, ?_, ?_, ?_⟩
    · intro hSequential
      have hStagedBefore := hStaged (hSequential.of_prefix hStep.log_grows)
      exact hStagedBefore.step contract hSound hStep hSequential
    · intro hAwaited
      have hKeptBefore := hKept (hAwaited.of_prefix hStep.log_grows)
      exact hKeptBefore.step contract hStaged hSound hStep hAwaited
    · intro hContinue hAwaited
      have hKeptBefore := hKept (hContinue.of_prefix hStep.log_grows)
      have hOrderlyBefore := hOrderly (hContinue.of_prefix hStep.log_grows)
        (hAwaited.of_prefix hStep.log_grows)
      have hStagedBefore : conn.isClosing = false → Staged (contract.phase conn.parser) conn :=
        fun hOpen => hStaged (hKeptBefore.guarded hOpen).sequential
      exact hOrderlyBefore.step contract hMd5 hWriting hStagedBefore hSound hStep hAwaited

/-- The kind of an entry, and the number of its request or its response. -/
def landmark : Observation File → Option (Nat × Nat)
  | .onMessageBegin request _ => some (0, request)
  | .uvWrite (some serial) _ => some (1, serial)
  | .handedOver serial => some (2, serial)
  | .writeResponse _ serial .interim _ => some (3, serial)
  | .accept request _ => some (4, request)
  | _ => none

omit [HttpParser] [Zlib] [DataSource File] [Host] [Digests] in
/-- A response in two writes. -/
theorem responses_uninterrupted_static :
    let head := ascii "GET / HTTP/1.1\r\n\r\n"
    let _ : HttpParser := httpParser
    let _ : Zlib := HttpResponse.SampleStream.zlib
    let _ : Host := littleEndianHost
    let _ : Digests := sampleDigests
    let static : Option (HttpResponse (Body InMemoryDataSource)) :=
      some (HttpResponse.listToResponse 200 [] (some (AppAnswer.memory (ascii "a"))) .epoch)
    ∃ finish : Connection InMemoryDataSource,
      system.Run (fresh WSHixie76Parser.textInfo WSHixie76Parser.textInfo)
        [.read head static .epoch, .runBackground none .epoch [], .written 0 true] finish [] ∧
      .handedOver 0 ∈ finish.log ∧ Uninterrupted finish.log := by
  intro head parser zlib host digests static
  obtain ⟨finish, hRun, hFacts⟩ : ∃ finish,
      [ConnectionAction.read head static .epoch, .runBackground none .epoch [],
        .written 0 true].foldlM next (fresh WSHixie76Parser.textInfo WSHixie76Parser.textInfo) =
          some finish ∧
      finish.log.filterMap landmark = [(0, 1), (1, 0), (1, 0), (2, 0)] :=
    Option.map_eq_some_iff.1 (by decide +kernel)
  have hOver : .handedOver 0 ∈ finish.log := by
    have hPair : (2, 0) ∈ finish.log.filterMap landmark := by simp [hFacts]
    obtain ⟨entry, hEntry, hFact⟩ := List.mem_filterMap.1 hPair
    cases entry with
    | uvWrite serial bytes => cases serial <;> simp [landmark] at hFact
    | writeResponse request serial kind response => cases kind <;> simp [landmark] at hFact
    | _ => simp_all [landmark]
  have hContinue : ContinueAwaited finish.log := by
    intro before entry hPrefix request handling hEntry hContinued
    obtain ⟨serial, response, hMem, -⟩ := hContinued
    have hFact : (3, serial) ∈ finish.log.filterMap landmark :=
      List.mem_filterMap.2 ⟨_, hPrefix.subset (List.mem_append_left _ hMem), rfl⟩
    simp [hFacts] at hFact
  have hResponses : ResponsesAwaited finish.log := by
    intro before entry hPrefix hBegins serial hUnfinished
    obtain ⟨bytes, hMem⟩ := hUnfinished.1
    have hPiece : (1, serial) ∈ before.filterMap landmark := List.mem_filterMap.2 ⟨_, hMem, rfl⟩
    obtain ⟨request, code, hCode, hFact⟩ : ∃ request code, (code = 0 ∨ code = 4) ∧
        landmark entry = some (code, request) := by
      obtain ⟨request, hBegins⟩ := hBegins
      cases hBegins with
      | inl hBegin => exact ⟨request, 0, .inl rfl, hBegin ▸ rfl⟩
      | inr hAccept => exact ⟨request, 4, .inr rfl, hAccept ▸ rfl⟩
    have hBefore := hPrefix.filterMap landmark
    rw [hFacts, List.filterMap_append, List.filterMap_cons_some hFact, List.filterMap_nil] at hBefore
    cases hFirst : before.filterMap landmark with
    | nil => simp [hFirst] at hPiece
    | cons first others =>
        rw [hFirst, List.cons_append, List.cons_prefix_cons] at hBefore
        have hLast : (code, request) ∈ [(1, 0), (1, 0), (2, 0)] := hBefore.2.subset (by simp)
        cases hCode with
        | inl hZero => simp [hZero] at hLast
        | inr hFour => simp [hFour] at hLast
  exact ⟨finish, run_of_foldlM hRun, hOver, responses_uninterrupted httpParserContract
    (fun _ => rfl) ⟨_, _, rfl⟩ (run_of_foldlM hRun) hContinue hResponses⟩

/-- The serial number of a written piece, or of a response handed over. -/
def ending : Observation File → Option (Nat × Bool)
  | .uvWrite (some serial) _ => some (serial, false)
  | .handedOver serial => some (serial, true)
  | _ => none

omit [HttpParser] [Zlib] [DataSource File] [Host] [Digests] in
/-- The second request is let in when the header of the first response has been written,
and is answered before its body. -/
theorem responses_interrupted :
    let head := ascii "GET / HTTP/1.1\r\n\r\n"
    let _ : HttpParser := httpParser
    let _ : Zlib := HttpResponse.SampleStream.zlib
    let _ : Host := littleEndianHost
    let _ : Digests := sampleDigests
    let static : Option (HttpResponse (Body InMemoryDataSource)) :=
      some (HttpResponse.listToResponse 200 [] (some (AppAnswer.memory (ascii "a"))) .epoch)
    ∃ finish : Connection InMemoryDataSource,
      system.Run (fresh WSHixie76Parser.textInfo WSHixie76Parser.textInfo)
        [.read head static .epoch, .runBackground none .epoch [], .read head static .epoch,
          .runBackground none .epoch []] finish [] ∧ ¬Uninterrupted finish.log := by
  intro head parser zlib host digests static
  obtain ⟨finish, hRun, hFacts⟩ : ∃ finish,
      [ConnectionAction.read head static .epoch, .runBackground none .epoch [],
        .read head static .epoch, .runBackground none .epoch []].foldlM next
          (fresh WSHixie76Parser.textInfo WSHixie76Parser.textInfo) = some finish ∧
      finish.log.filterMap ending = [(0, false), (1, false)] :=
    Option.map_eq_some_iff.1 (by decide +kernel)
  refine ⟨finish, run_of_foldlM hRun, ?_⟩
  intro hUninterrupted
  have hPiece : ∀ (log : List (Observation InMemoryDataSource)) (serial : Nat),
      (serial, false) ∈ log.filterMap ending → HasPiece serial log := by
    intro log serial hPair
    obtain ⟨entry, hEntry, hFact⟩ := List.mem_filterMap.1 hPair
    cases entry with
    | uvWrite owner bytes =>
        cases owner with
        | none => simp [ending] at hFact
        | some owner =>
            obtain ⟨rfl, -⟩ := Prod.mk.inj (Option.some.inj hFact)
            exact ⟨bytes, hEntry⟩
    | _ => simp [ending] at hFact
  obtain ⟨bytes, hSecond⟩ := hPiece finish.log 1 (by simp [hFacts])
  obtain ⟨before, hPrefix, hAlone⟩ := AtEach.of_mem hUninterrupted hSecond
  have hFirst : Unfinished 0 before := by
    constructor
    · apply hPiece
      have hBefore := hPrefix.filterMap ending
      rw [hFacts, List.filterMap_append] at hBefore
      cases hPairs : before.filterMap ending with
      | nil => simp [hPairs, ending] at hBefore
      | cons pair pairs =>
          rw [hPairs, List.cons_append, List.cons_prefix_cons] at hBefore
          exact hBefore.1 ▸ List.mem_cons_self
    · intro hOver
      have hPair : (0, true) ∈ finish.log.filterMap ending :=
        List.mem_filterMap.2 ⟨_, hPrefix.subset (List.mem_append_left _ hOver), rfl⟩
      simp [hFacts] at hPair
  have hSame := (hAlone 1 bytes rfl).2 0 hFirst
  cases hSame

end Connection

end Httpuv
