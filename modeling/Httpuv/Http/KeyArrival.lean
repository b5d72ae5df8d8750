import Httpuv.Http.Interleaving
import Httpuv.Http.ReadHeads
import Httpuv.Http.SwitchedRuns

/-! An upgrade request with two keys, whose last eight bytes come before or behind the
decision about its headers. -/
namespace Httpuv

open Semantics

namespace Observation

variable {File : Type}

def switchingSerial : Observation File → Option Nat
  | .writeResponse _ serial .switching _ => some serial
  | _ => none

def writtenSerial : Observation File → Option Nat
  | .uvWrite serial _ => serial
  | _ => none

end Observation

section Schedules

variable {File : Type}

/-- libuv has taken a response that switches protocols. The serial number of the response
is that of a call of `uv_write` with its header. -/
def Switched (log : List (Observation File)) : Prop :=
  ∃ serial ∈ log.filterMap Observation.switchingSerial,
    serial ∈ log.filterMap Observation.writtenSerial

instance (log : List (Observation File)) : Decidable (Switched log) :=
  inferInstanceAs (Decidable (∃ serial ∈ log.filterMap Observation.switchingSerial,
    serial ∈ log.filterMap Observation.writtenSerial))

theorem Switched.of_prefix {log more : List (Observation File)} (h : Switched log)
    (hGrows : log <+: more) : Switched more := by
  obtain ⟨serial, hSwitching, hWritten⟩ := h
  obtain ⟨entries, rfl⟩ := hGrows
  refine ⟨serial, ?_, ?_⟩
  · rw [List.filterMap_append]
    exact List.mem_append_left _ hSwitching
  · rw [List.filterMap_append]
    exact List.mem_append_left _ hWritten

/-- The application lets the request pass: `onHeaders` returns `NULL`, or there is no such
function. -/
def AppOutcome.proceeds : AppOutcome File → Bool
  | .returned none => true
  | _ => false

end Schedules

namespace Connection

variable {File : Type} [HttpParser] [Zlib]

/-- The client sends nothing else, the application lets the request pass, and neither the
client nor the operator of the server ends the connection. -/
def Undisturbed (conn : Connection File) (bytes : Bytes) : ConnectionAction File → Prop
  | .read data _ _ => received conn.log ++ data <+: bytes
  | .readError | .stop => False
  | .runMain outcome _ _ =>
      (conn.mainQueue.head?.bind MainTask.decision).isSome = true → outcome.proceeds = true
  | _ => True

/-- The decision about the headers comes back when all bytes have been read, or for a
request that has a key of the later protocol as well. -/
def KeyArrived (conn : Connection File) (request : UpgradeRequest) (bytes : Bytes) :
    ConnectionAction File → Prop
  | .runBackground _ _ _ =>
      (conn.backgroundQueue.head?.bind BackgroundTask.decision).isSome = true →
        (request.field (ascii "sec-websocket-key")).isSome = true ∨ received conn.log = bytes
  | _ => True

instance (bytes : Bytes) (conn : Connection File) :
    ∀ action, Decidable (conn.Undisturbed bytes action)
  | .read data _ _ => inferInstanceAs (Decidable (received conn.log ++ data <+: bytes))
  | .readError => .isFalse id
  | .stop => .isFalse id
  | .runMain outcome _ _ => inferInstanceAs (Decidable
      ((conn.mainQueue.head?.bind MainTask.decision).isSome = true → outcome.proceeds = true))
  | .written _ _ => .isTrue trivial
  | .onClosed => .isTrue trivial
  | .pingTimer => .isTrue trivial
  | .runBackground _ _ _ => .isTrue trivial
  | .settle _ _ _ => .isTrue trivial
  | .wsCall _ => .isTrue trivial

instance (conn : Connection File) (request : UpgradeRequest) (bytes : Bytes) :
    ∀ action, Decidable (conn.KeyArrived request bytes action)
  | .runBackground _ _ _ => inferInstanceAs (Decidable
      ((conn.backgroundQueue.head?.bind BackgroundTask.decision).isSome = true →
        (request.field (ascii "sec-websocket-key")).isSome = true ∨ received conn.log = bytes))
  | .read _ _ _ => .isTrue trivial
  | .readError => .isTrue trivial
  | .stop => .isTrue trivial
  | .written _ _ => .isTrue trivial
  | .onClosed => .isTrue trivial
  | .pingTimer => .isTrue trivial
  | .runMain _ _ _ => .isTrue trivial
  | .settle _ _ _ => .isTrue trivial
  | .wsCall _ => .isTrue trivial

/-- A step of a schedule in which the key comes before the decision. Behind the response
nothing is asked any more. -/
def InSchedule (request : UpgradeRequest) (bytes : Bytes) (conn : Connection File)
    (action : ConnectionAction File) : Prop :=
  Switched conn.log ∨ conn.Undisturbed bytes action ∧ conn.KeyArrived request bytes action

instance (request : UpgradeRequest) (bytes : Bytes) (conn : Connection File)
    (action : ConnectionAction File) : Decidable (conn.InSchedule request bytes action) :=
  inferInstanceAs (Decidable (_ ∨ _ ∧ _))

/-- An HTTP connection on which nothing goes out and nothing ends. It is present, open and
read from, and the application holds nothing that could act on it. -/
structure Calm (conn : Connection File) : Prop where
  protocol : conn.protocol = .http
  connState : conn.websocket.connState = .wsOpen
  pParser : conn.websocket.pParser = none
  present : conn.pWebSocketConnection = true
  ignoreNewData : conn.ignoreNewData = false
  isClosing : conn.isClosing = false
  reading : conn.reading = true
  promises : conn.promises = []
  writes : conn.writes = []
  wsHandle : conn.wsHandle = false

/-- The head of a request is being collected. The only tasks are those that make the
environment of a request, which nothing waits for. -/
structure Gathers (phase : ParserPhase) (all : Bytes) (conn : Connection File) : Prop
    extends Calm conn where
  early : phase = .between ∨ phase = .head
  received : received conn.log = all
  isUpgrade : conn.isUpgrade = false
  handling : phase = .between → conn.handlingRequest = false
  requestBuffer : conn.requestBuffer = []
  main : ∀ task ∈ conn.mainQueue, task = .initializeEnv
  background : conn.backgroundQueue = []

section Gathering

variable {conn : Connection File} {phase : ParserPhase} {all : Bytes}

omit [HttpParser] [Zlib] in
/-- What is read by the parser has been received. The entry for the execution repeats bytes
of the read and is not counted. -/
theorem received_fed (log : List (Observation File)) (data consumed : Bytes) :
    received (log ++ [.read data] ++ [.execute consumed]) = received log ++ data := by
  rw [received_append, received_append]
  simp [received]

omit [HttpParser] [Zlib] in
theorem received_concat {entry : Observation File} (hEntry : ∀ data, entry ≠ .read data)
    (log : List (Observation File)) : received (log ++ [entry]) = received log := by
  rw [received_append]
  cases entry with
  | read data => exact absurd rfl (hEntry data)
  | _ => exact List.append_nil _

theorem head_close (conn : Connection File) : conn.close.head = conn.head := by
  unfold close
  split_ifs <;> rfl

theorem head_onEvent (conn : Connection File) (static : Option (HttpResponse (Body File)))
    (event : ParserEvent) : (conn.onEvent static event).head = conn.head.onEvent event := by
  cases event with
  | onMessageBegin =>
      rw [onEvent, newRequest_eq]
      split_ifs
      · exact head_close conn.begun
      · rfl
  | onHeadersComplete upgrade =>
      simp only [onEvent, onHeadersComplete]
      split <;> rfl
  | onMessageComplete =>
      simp only [onEvent, onMessageComplete]
      split_ifs <;> rfl
  | _ => rfl

theorem head_foldl_onEvent (static : Option (HttpResponse (Body File)))
    (events : List ParserEvent) (conn : Connection File) :
    (events.foldl (onEvent static) conn).head = events.foldl RequestHead.onEvent conn.head := by
  induction events generalizing conn with
  | nil => rfl
  | cons event events ih => rw [List.foldl_cons, ih, head_onEvent, List.foldl_cons]

/-- A callback before the end of the head leaves the connection in this state, with another
task for the environment if a request begins. -/
theorem Gathers.onEvent {event : ParserEvent} {next : ParserPhase} (h : Gathers phase all conn)
    (static : Option (HttpResponse (Body File))) (hNext : phase.next event = some next)
    (hStill : next ≠ .waiting) : Gathers next all (conn.onEvent static event) := by
  rcases h.early with rfl | rfl
  · cases event with
    | onMessageBegin =>
        obtain rfl := Option.some.inj hNext
        have hBegun : conn.newRequest = conn.begun.invokeLater .initializeEnv := by
          rw [newRequest_eq, if_neg (by simp [h.handling rfl])]
        rw [Connection.onEvent, hBegun]
        exact { h with
          early := Or.inr rfl
          received := (received_concat (by simp) conn.log).trans h.received
          handling := fun hBetween => absurd hBetween (by simp)
          main := by
            intro task hMem
            rcases List.mem_append.1 hMem with hOld | hNew
            · exact h.main task hOld
            · exact List.mem_singleton.1 hNew }
    | _ => cases hNext
  · cases event with
    | onUrl data =>
        obtain rfl := Option.some.inj hNext
        exact { h with }
    | onHeaderField data =>
        obtain rfl := Option.some.inj hNext
        exact { h with }
    | onHeaderValue data =>
        obtain rfl := Option.some.inj hNext
        exact { h with }
    | onHeadersComplete upgrade => exact absurd (Option.some.inj hNext).symm hStill
    | _ => cases hNext

theorem Gathers.events {events : List ParserEvent} {finish : ParserPhase}
    (h : Gathers phase all conn) (static : Option (HttpResponse (Body File)))
    (hFollows : ParserPhase.Follows phase events finish) (hFinish : finish ≠ .waiting) :
    Gathers finish all (events.foldl (Connection.onEvent static) conn) := by
  induction events generalizing phase conn with
  | nil =>
      obtain rfl : phase = finish := hFollows
      exact h
  | cons event events ih =>
      obtain ⟨next, hNext, hRest⟩ := hFollows
      have hStill : next ≠ .waiting := by
        rintro rfl
        -- a parser that waits has nothing more to report
        cases events with
        | nil => exact hFinish (Eq.symm hRest)
        | cons event events =>
            obtain ⟨other, hOther, -⟩ := hRest
            cases hOther
      exact ih (h.onEvent static hNext hStill) hRest

/-- More bytes are given to the parser, and have been received by that, whether or not the
parser consumes all of them. -/
theorem Gathers.given (h : Gathers phase all conn) (data : Bytes) (parser : HttpParser.Parser)
    (consumed : Bytes) : Gathers phase (all ++ data)
      ({ conn.observe (.read data) with parser }.observe (.execute consumed)) :=
  { h with received := (received_fed conn.log data consumed).trans (by rw [h.received]) }

end Gathering

section Reading

variable {start conn : Connection File} {request : UpgradeRequest} {pieces : List Bytes}
  {key data : Bytes}

/-- The head of the request has come in part. The parser and the fields that have been
collected are those that the same pieces give without a connection. -/
structure Arriving (contract : HttpParserContract) (request : UpgradeRequest)
    (start : Connection File) (pieces : List Bytes) (conn : Connection File) : Prop
    extends Gathers (contract.phase conn.parser) (Httpuv.received start.log ++ pieces.flatten)
      conn where
  between : contract.phase start.parser = .between
  parser : conn.parser = (replay start.parser pieces).1
  filled : [] ∉ pieces
  arrived : pieces.flatten <+: request.head
  collected : ∃ head, conn.head = (replay start.parser pieces).2.foldl RequestHead.onEvent head

/-- The head has come and the decision about it is under way. The line feed and what follows
are kept. The decision is on the main thread, behind tasks that do not concern it, or
it has come back without a response. -/
structure HeadArrived (request : UpgradeRequest) (start : Connection File)
    (pieces : List Bytes) (rest : Bytes) (conn : Connection File) : Prop extends Calm conn where
  parser : conn.parser = (replay start.parser pieces).1
  filled : [] ∉ pieces
  bytes : pieces.flatten = request.bytes rest
  received : received conn.log = Httpuv.received start.log ++ request.bytes rest
  waiting : HttpParser.waitingForHeadersCompleted conn.parser = true
  isUpgrade : conn.isUpgrade = true
  requestBuffer : conn.requestBuffer = 10 :: rest
  known : request.Known conn.head.headers
  queued : (∃ tasks, conn.mainQueue = tasks ++ [.onHeaders conn.current] ∧
      (∀ task ∈ tasks, task = .initializeEnv) ∧ conn.backgroundQueue = []) ∨
    (∀ task ∈ conn.mainQueue, task = .initializeEnv) ∧
      conn.backgroundQueue = [.onHeadersCompleteComplete conn.current none]

/-- No request is under way. A fresh connection is idle, and so is one that has answered all
its requests and has been read from up to the end of the last one. -/
def Idle (contract : HttpParserContract) (conn : Connection File) : Prop :=
  contract.phase conn.parser = .between ∧ Gathers .between (Httpuv.received conn.log) conn

theorem Initial.idle (contract : HttpParserContract) (h : Initial conn) : Idle contract conn := by
  obtain ⟨incompleteContentHeader, header, rfl⟩ := h
  exact ⟨contract.init, {
    protocol := rfl
    connState := rfl
    pParser := rfl
    present := rfl
    ignoreNewData := rfl
    isClosing := rfl
    reading := rfl
    promises := rfl
    writes := rfl
    wsHandle := rfl
    early := Or.inl rfl
    received := rfl
    isUpgrade := rfl
    handling := fun _ => rfl
    requestBuffer := rfl
    main := List.forall_mem_nil _
    background := rfl }⟩

theorem Arriving.of_idle {contract : HttpParserContract} (h : Idle contract start) :
    Arriving contract request start [] start := by
  obtain ⟨hBetween, hGathers⟩ := h
  have hStart : Gathers (contract.phase start.parser)
      (Httpuv.received start.log ++ ([] : List Bytes).flatten) start := by
    rw [hBetween, List.flatten_nil, List.append_nil]
    exact hGathers
  exact { hStart with
    between := hBetween
    parser := rfl
    filled := List.not_mem_nil
    arrived := List.nil_prefix
    collected := ⟨_, rfl⟩ }

omit [HttpParser] [Zlib] in
/-- What has come is a part of the head, or the head and a part of the key. The line feed
between them belongs to the second case. -/
theorem prefix_bytes {bytes : Bytes} (h : bytes <+: request.bytes key) :
    bytes <+: request.head ∨ ∃ rest, bytes = request.bytes rest ∧ rest <+: key := by
  rcases List.prefix_or_prefix_of_prefix h (List.prefix_append _ _) with hHead | ⟨more, rfl⟩
  · exact Or.inl hHead
  · rw [UpgradeRequest.bytes, List.prefix_append_right_inj, List.prefix_cons_iff] at h
    rcases h with rfl | ⟨rest, rfl, hRest⟩
    · simp
    · exact Or.inr ⟨rest, rfl, hRest⟩

/-- The callbacks of the parser for one more piece of the head follow the phase that the
pieces before it have led to, and do not end the head. -/
theorem Arriving.callbacks {contract : HttpParserContract}
    (h : Arriving contract request start pieces conn) (static : Option (HttpResponse (Body File)))
    (data : Bytes) :
    let fed := (conn.observe (.read data)).feed static data
    fed.parser = (replay start.parser (pieces ++ [data])).1 ∧
      ∃ head, fed.head =
        (replay start.parser (pieces ++ [data])).2.foldl RequestHead.onEvent head := by
  intro fed
  obtain ⟨head, hHead⟩ := h.collected
  refine ⟨?_, head, ?_⟩
  · refine (parser_feed _ _).trans ?_
    rw [replay_concat, ← h.parser]
    rfl
  · refine (head_foldl_onEvent static _ _).trans ?_
    rw [replay_concat, List.foldl_append, ← hHead, ← h.parser]
    rfl

variable [DataSource File] [Host] [Digests] {static : Option (HttpResponse (Body File))} {now : Tm}
  {buffer : Bytes}

theorem onRead_http (hIgnore : conn.ignoreNewData = false) (hProtocol : conn.protocol = .http) :
    conn.onRead static now data = (conn.observe (.read data)).parseHttpData static now data := by
  simp [onRead, observe, hIgnore, hProtocol]

theorem parseHttpData_waiting
    (hWaiting : HttpParser.waitingForHeadersCompleted (conn.feed static buffer).parser = true) :
    conn.parseHttpData static now buffer = some { conn.feed static buffer with
      requestBuffer := (conn.feed static buffer).requestBuffer ++
        buffer.drop (HttpParser.execute conn.parser buffer).parsed } :=
  if_pos hWaiting

theorem parseHttpData_upgrade
    (hWaiting : HttpParser.waitingForHeadersCompleted (conn.feed static buffer).parser = false)
    (hUpgrade : (conn.feed static buffer).isUpgrade = true) :
    conn.parseHttpData static now buffer = (conn.feed static buffer).upgrade now
      (buffer.drop (HttpParser.execute conn.parser buffer).parsed) := by
  simp only [parseHttpData, hWaiting, hUpgrade, if_true, Bool.false_eq_true, if_false]

theorem parseHttpData_consumed
    (hWaiting : HttpParser.waitingForHeadersCompleted (conn.feed static buffer).parser = false)
    (hUpgrade : (conn.feed static buffer).isUpgrade = false)
    (hParsed : (HttpParser.execute conn.parser buffer).parsed = buffer.length) :
    conn.parseHttpData static now buffer = some (conn.feed static buffer) := by
  simp only [parseHttpData, hWaiting, hUpgrade, hParsed, lt_irrefl, Bool.false_eq_true, if_false]

/-- One more piece of the head. It is consumed, and nothing of it is kept but the parser and
the fields. -/
theorem Arriving.more {contract : HttpParserContract} (hReported : request.Reported key start.parser)
    (h : Arriving contract request start pieces conn) (hData : data ≠ [])
    (hMore : (pieces ++ [data]).flatten <+: request.head)
    (static : Option (HttpResponse (Body File))) (now : Tm) :
    ∃ after, conn.onRead static now data = some after ∧
      Arriving contract request start (pieces ++ [data]) after := by
  have hFilled : [] ∉ pieces ++ [data] := by simp [h.filled, Ne.symm hData]
  obtain ⟨hParsed, hWaiting⟩ := hReported.arriving pieces data hFilled hMore
  obtain ⟨hParser, hCollected⟩ := h.callbacks static data
  generalize hFed : (conn.observe (.read data)).feed static data = fed at hParser hCollected
  have hPhase : contract.phase fed.parser ≠ .waiting := by
    intro hPhase
    rw [hParser] at hPhase
    rw [(contract.waiting_iff _).2 hPhase] at hWaiting
    cases hWaiting
  have hFollows := contract.replay_next h.between pieces data
  rw [← h.parser, ← hParser] at hFollows
  have hGathers : Gathers (contract.phase fed.parser)
      (Httpuv.received start.log ++ pieces.flatten ++ data) fed := by
    rw [← hFed] at hFollows hPhase ⊢
    exact (h.toGathers.given data _ _).events static hFollows hPhase
  refine ⟨fed, ?_, { hGathers with
    between := h.between
    received := by
      rw [hGathers.received, List.flatten_concat, List.append_assoc]
    parser := hParser
    filled := hFilled
    arrived := hMore
    collected := hCollected }⟩
  rw [onRead_http h.ignoreNewData h.protocol, parseHttpData_consumed, hFed]
  · rw [hFed, hParser, hWaiting]
  · rw [hFed, hGathers.isUpgrade]
  · rw [← h.parser] at hParsed
    exact hParsed

omit [DataSource File] [Host] [Digests] in
/-- The last callback of the head, with the decision left to the main thread: a static path
that would answer is passed over for the `Upgrade` header. -/
theorem onHeadersComplete_upgrade (hHas : conn.head.headers.has (ascii "Upgrade") = true) :
    conn.onEvent static (.onHeadersComplete true) =
      ({ conn with isUpgrade := true }.observe (.onHeadersComplete conn.current true)).invokeLater
        (.onHeaders conn.current) := by
  simp [onEvent, onHeadersComplete, observe, hHas]

omit [DataSource File] [Host] [Digests] in
/-- The last piece of the head ends in the callback for its end, behind the rest of the
fields. -/
theorem Arriving.lastEvents {contract : HttpParserContract} {rest : Bytes}
    (hReported : request.Reported key start.parser)
    (h : Arriving contract request start pieces conn) (hData : data ≠ [])
    (hLast : (pieces ++ [data]).flatten = request.bytes rest) (hRest : rest <+: key) :
    ∃ front, (HttpParser.execute conn.parser data).events = front ++ [.onHeadersComplete true] ∧
      ParserPhase.Follows (contract.phase conn.parser) front .head := by
  have hFilled : [] ∉ pieces ++ [data] := by simp [h.filled, Ne.symm hData]
  obtain ⟨-, hWaiting, targets, lines, hEvents, -⟩ :=
    hReported.complete pieces data rest hFilled h.arrived hLast hRest
  have hFollows := contract.replay_next h.between pieces data
  rw [(contract.waiting_iff _).1 hWaiting, ← h.parser] at hFollows
  rw [replay_concat, ← h.parser] at hEvents
  rcases List.eq_nil_or_concat (HttpParser.execute conn.parser data).events with
    hNone | ⟨front, event, hSome⟩
  · rw [hNone] at hFollows
    have hSame : contract.phase conn.parser = .waiting := hFollows
    rcases h.early with hEarly | hEarly <;> rw [hEarly] at hSame <;> cases hSame
  · rw [hSome, List.concat_eq_append, ← List.append_assoc, headEvents, ← List.cons_append]
      at hEvents
    have hEvent := (List.append_inj' hEvents rfl).2
    rw [List.concat_eq_append, hEvent] at hSome
    rw [hSome] at hFollows
    obtain ⟨middle, hFront, next, hNext, -⟩ := hFollows.split
    obtain rfl : middle = .head := by
      cases middle with
      | head => rfl
      | _ => cases hNext
    exact ⟨front, hSome, hFront⟩

omit [DataSource File] [Host] [Digests] in
/-- The parser stops in front of the line feed, so that this byte and what follows it are
the ones that `_parse_http_data` keeps. -/
theorem Arriving.unparsed {contract : HttpParserContract} {rest : Bytes}
    (hReported : request.Reported key start.parser)
    (h : Arriving contract request start pieces conn) (hData : data ≠ [])
    (hLast : (pieces ++ [data]).flatten = request.bytes rest) (hRest : rest <+: key) :
    data.drop (HttpParser.execute conn.parser data).parsed = 10 :: rest := by
  have hFilled : [] ∉ pieces ++ [data] := by simp [h.filled, Ne.symm hData]
  obtain ⟨hParsed, -⟩ := hReported.complete pieces data rest hFilled h.arrived hLast hRest
  obtain ⟨tail, hTail⟩ := h.arrived
  rw [List.flatten_concat, UpgradeRequest.bytes, ← hTail, List.append_assoc] at hLast
  rw [h.parser, hParsed, ← hTail, List.append_cancel_left hLast, List.length_append,
    Nat.add_sub_cancel_left, List.drop_left]

/-- The piece of the head with its line feed. Behind it the fields are known, and the
decision is asked for. -/
theorem Arriving.last {contract : HttpParserContract} {rest : Bytes}
    (hReported : request.Reported key start.parser) (hValid : request.Valid)
    (h : Arriving contract request start pieces conn) (hData : data ≠ [])
    (hLast : (pieces ++ [data]).flatten = request.bytes rest) (hRest : rest <+: key)
    (static : Option (HttpResponse (Body File))) (now : Tm) :
    ∃ after, conn.onRead static now data = some after ∧
      HeadArrived request start (pieces ++ [data]) rest after := by
  have hFilled : [] ∉ pieces ++ [data] := by simp [h.filled, Ne.symm hData]
  obtain ⟨-, hWaiting, targets, lines, hEvents, hLines⟩ :=
    hReported.complete pieces data rest hFilled h.arrived hLast hRest
  obtain ⟨hParser, head, hHead⟩ := h.callbacks static data
  have hKnown : request.Known ((conn.observe (.read data)).feed static data).head.headers := by
    rw [hHead, hEvents]
    exact UpgradeRequest.known_of_events head targets hLines
  have hUnparsed := h.unparsed hReported hData hLast hRest
  -- the head is collected, and then its end is reported
  obtain ⟨front, hFront, hFollows⟩ := h.lastEvents hReported hData hLast hRest
  let given : Connection File := { conn.observe (.read data) with
    parser := (HttpParser.execute conn.parser data).parser }.observe
      (.execute (data.take (HttpParser.execute conn.parser data).parsed))
  let gathered := front.foldl (onEvent static) given
  have hGathers : Gathers .head (Httpuv.received start.log ++ pieces.flatten ++ data) gathered :=
    (h.toGathers.given data _ _).events static hFollows (by simp)
  have hFed : (conn.observe (.read data)).feed static data =
      gathered.onEvent static (.onHeadersComplete true) := by
    change (HttpParser.execute conn.parser data).events.foldl (onEvent static) given = _
    rw [hFront, List.foldl_append]
    rfl
  have hHeaders : request.Known gathered.head.headers := by
    rw [hFed, head_onEvent] at hKnown
    exact hKnown
  rw [onHeadersComplete_upgrade (UpgradeRequest.has_upgrade hValid hHeaders)] at hFed
  refine ⟨_, (onRead_http h.ignoreNewData h.protocol).trans (parseHttpData_waiting ?_), ?_⟩
  · rw [hParser]
    exact hWaiting
  · rw [hFed] at hParser ⊢
    exact { hGathers with
      parser := hParser
      filled := hFilled
      bytes := hLast
      received := by
        rw [← hLast, List.flatten_concat, ← List.append_assoc, ← hGathers.received]
        exact received_concat (by simp) gathered.log
      waiting := by
        rw [hParser]
        exact hWaiting
      isUpgrade := rfl
      requestBuffer := by
        change gathered.requestBuffer ++ data.drop _ = _
        rw [hGathers.requestBuffer, List.nil_append]
        exact hUnparsed
      known := hHeaders
      queued := Or.inl ⟨gathered.mainQueue, rfl, hGathers.main, hGathers.background⟩ }

/-- What comes while the decision is under way is kept behind the line feed, in the order
in which it comes. -/
theorem HeadArrived.more (contract : HttpParserContract) {rest : Bytes}
    (h : HeadArrived request start pieces rest conn) (hData : data ≠ [])
    (static : Option (HttpResponse (Body File))) (now : Tm) :
    ∃ after, conn.onRead static now data = some after ∧
      HeadArrived request start (pieces ++ [data]) (rest ++ data) after := by
  have hPhase := (contract.waiting_iff _).1 h.waiting
  have hParsed := contract.idle conn.parser data hPhase
  have hFed : (conn.observe (.read data)).feed static data =
      { conn.observe (.read data) with parser := (replay start.parser (pieces ++ [data])).1 }.observe
        (.execute []) := by
    rw [replay_concat, ← h.parser]
    have hWaits : contract.phase (conn.observe (.read data)).parser = .waiting := hPhase
    refine (feed_silent contract (Or.inl hWaits) data).trans ?_
    change Connection.observe _ (.execute (data.take (HttpParser.execute conn.parser data).parsed)) = _
    rw [hParsed]
    rfl
  have hWaiting : HttpParser.waitingForHeadersCompleted (replay start.parser (pieces ++ [data])).1 = true := by
    rw [contract.waiting_iff, replay_concat, ← h.parser]
    rcases (contract.silent (Or.inl hPhase) data).2 with hSame | ⟨hRefused, -⟩
    · exact hSame.trans hPhase
    · rw [hPhase] at hRefused
      cases hRefused
  have hBytes : request.bytes rest ++ data = request.bytes (rest ++ data) := by
    simp [UpgradeRequest.bytes]
  refine ⟨_, (onRead_http h.ignoreNewData h.protocol).trans (parseHttpData_waiting ?_), ?_⟩
  · rw [hFed]
    exact hWaiting
  · rw [hFed]
    exact { h with
      parser := rfl
      filled := by simp [h.filled, Ne.symm hData]
      bytes := by rw [List.flatten_concat, h.bytes, hBytes]
      received := by
        rw [← hBytes, ← List.append_assoc, ← h.received]
        exact received_fed conn.log data []
      waiting := hWaiting
      requestBuffer := by
        change conn.requestBuffer ++ data.drop (HttpParser.execute conn.parser data).parsed = _
        rw [hParsed, h.requestBuffer]
        rfl }

end Reading

section Callbacks

variable {start conn after : Connection File} {request : UpgradeRequest} {pieces : List Bytes}
  {rest : Bytes} {outcome : AppOutcome File} {calls : List WSCall} {now : Tm}

theorem runMain_some (hQueue : conn.mainQueue ≠ []) (outcome : AppOutcome File)
    (calls : List WSCall) (now : Tm) : ∃ after, conn.runMain outcome calls now = some after := by
  obtain ⟨task, rest, hSome⟩ := List.exists_cons_of_ne_nil hQueue
  rw [runMain, hSome]
  cases task <;> exact ⟨_, rfl⟩

theorem Arriving.runMain {contract : HttpParserContract} (h : Arriving contract request start pieces conn)
    (hAfter : conn.runMain outcome calls now = some after) :
    Arriving contract request start pieces after := by
  obtain ⟨task, tasks, hQueue, rfl⟩ := runMain_cases hAfter
  have hTasks := h.main
  rw [hQueue, List.forall_mem_cons] at hTasks
  obtain ⟨rfl, hTasks⟩ := hTasks
  exact { h with main := hTasks }

/-- A callback on the main thread. The application does not answer the request itself, so
the decision comes back without a response. -/
theorem HeadArrived.runMain (h : HeadArrived request start pieces rest conn)
    (hProceeds : ∀ number tasks, conn.mainQueue = .onHeaders number :: tasks →
      outcome.proceeds = true)
    (hAfter : conn.runMain outcome calls now = some after) :
    HeadArrived request start pieces rest after ∧ after.mainQueue = conn.mainQueue.tail := by
  obtain ⟨task, tasks, hQueue, rfl⟩ := runMain_cases hAfter
  rcases h.queued with ⟨before, hMain, hInit, hBackground⟩ | ⟨hInit, hBackground⟩
  · cases before with
    | nil =>
        rw [hQueue, List.nil_append, List.cons.injEq] at hMain
        obtain ⟨rfl, rfl⟩ := hMain
        have hOutcome : outcome = .returned none := by
          have hTrue := hProceeds _ _ hQueue
          unfold AppOutcome.proceeds at hTrue
          split at hTrue
          · rfl
          · cases hTrue
        subst hOutcome
        refine ⟨{ h with
          received := (received_concat (by simp) conn.log).trans h.received
          queued := Or.inr ⟨List.forall_mem_nil _, by
            simp [performed, onHeaders, scheduleHeadersCompleteComplete, push, observe,
              hBackground]⟩ }, ?_⟩
        rw [hQueue]
        rfl
    | cons first before =>
        rw [hQueue, List.cons_append, List.cons.injEq] at hMain
        obtain ⟨rfl, rfl⟩ := hMain
        obtain ⟨rfl, hBefore⟩ := List.forall_mem_cons.1 hInit
        refine ⟨{ h with queued := Or.inl ⟨before, rfl, hBefore, hBackground⟩ }, ?_⟩
        rw [hQueue]
        rfl
  · rw [hQueue, List.forall_mem_cons] at hInit
    obtain ⟨rfl, hInit⟩ := hInit
    refine ⟨{ h with queued := Or.inr ⟨hInit, hBackground⟩ }, ?_⟩
    rw [hQueue]
    rfl

variable [DataSource File]

omit [HttpParser] in
/-- An interim response has no body that could fail. Expect: 100-continue is answered before
the parser goes on. -/
theorem continue_written (requestHeaders : RequestHeaders) (now : Tm) :
    ∃ written, (HttpResponse.construct 100 (ascii "Continue") none now :
      HttpResponse (Body File)).writeResponse requestHeaders = some written := by
  let response : HttpResponse (Body File) := HttpResponse.construct 100 (ascii "Continue") none now
  have hEncoded (gzip : Bool) : response.encodeBody gzip = some { response with pBody := none } := by
    cases gzip <;> rfl
  change ∃ written, response.writeResponse requestHeaders = some written
  rw [HttpResponse.writeResponse, hEncoded]
  exact ⟨_, rfl⟩

omit [HttpParser] in
/-- The bytes of a handshake are in memory, so that writing the response does not fail. -/
theorem switchingProtocols_written (handshake : WebSocketProto.Handshake)
    (requestHeaders : RequestHeaders) (now : Tm) :
    ∃ written, (switchingProtocols handshake now : HttpResponse (Body File)).writeResponse
      requestHeaders = some written := by
  let response : HttpResponse (Body File) := switchingProtocols handshake now
  have hGzip : response.gzip requestHeaders = false :=
    switchingProtocols_gzip handshake requestHeaders now
  have hEncoded : response.encodeBody false =
      some { response with pBody := some (.inl (AppAnswer.memory handshake.response)) } := rfl
  change ∃ written, response.writeResponse requestHeaders = some written
  rw [HttpResponse.writeResponse, hGzip, hEncoded]
  simp only [Option.bind_eq_bind, Option.bind_some, Bool.false_eq_true, if_false]
  split_ifs
  · exact ⟨_, rfl⟩
  · exact ⟨_, rfl⟩

theorem writeResponse_some {request : Nat} {kind : ResponseKind}
    {response : HttpResponse (Body File)}
    (hWritten : ∃ written, response.writeResponse conn.head.headers = some written) :
    ∃ after, conn.writeResponse request kind response = some after := by
  obtain ⟨written, hWritten⟩ := hWritten
  rw [writeResponse, hWritten]
  simp only [Option.bind_eq_bind, Option.bind_some]
  split_ifs
  · exact ⟨_, rfl⟩
  · exact ⟨_, rfl⟩

variable [Host] [Digests]

/-- An accepted upgrade is answered. The connection is open, so that libuv takes the header
of the response at once. -/
theorem upgrade_switches {pData : Bytes} {parser : WSParser}
    (hPresent : conn.pWebSocketConnection = true) (hOpen : conn.isClosing = false)
    (hAccepted : conn.websocket.acceptedParser conn.head.headers pData = some parser) (now : Tm) :
    ∃ after, conn.upgrade now pData = some after ∧ Switched after.log := by
  let handshake := WebSocketConnection.handshake parser conn.head.url conn.head.headers pData
  obtain ⟨answered, hAnswered⟩ : ∃ answered, (conn.accept parser handshake).writeResponse
      conn.current .switching (switchingProtocols handshake now) = some answered :=
    writeResponse_some (switchingProtocols_written handshake conn.head.headers now)
  refine ⟨answered.switchProtocol handshake, ?_, ?_⟩
  · simp only [upgrade, hPresent, Bool.not_true, Bool.false_eq_true, if_false, hAccepted]
    change ((conn.accept parser handshake).writeResponse conn.current .switching
      (switchingProtocols handshake now)).bind _ = _
    rw [hAnswered]
    rfl
  · obtain ⟨entries, hWrote⟩ := wrote hAnswered
    have hEntries := hWrote.entries
    obtain ⟨writes, rfl⟩ := hWrote.same
    rcases hEntries with ⟨hClosing, -⟩ | ⟨-, written, -, rfl⟩
    · rw [show (conn.accept parser handshake).isClosing = conn.isClosing from rfl, hOpen] at hClosing
      cases hClosing
    · refine ⟨conn.serial, ?_, ?_⟩
      · simp [switchProtocol, invokeLater, accept, observe, Observation.switchingSerial]
      · simp [switchProtocol, invokeLater, accept, observe, pieces, Observation.writtenSerial]

omit [Host] [Digests] in
/-- The application had nothing to say, and the parser may go on. Nothing has been written
but a response that asks the client to continue. -/
theorem headersCompleted_goesOn (request : Nat) (now : Tm) :
    ∃ serial log writes handlingRequest, conn.headersCompleted now request none =
      some { conn with
        parser := HttpParser.headersCompleted conn.parser 0
        serial
        log
        writes
        handlingRequest } := by
  unfold headersCompleted
  by_cases hExpect : conn.hasHeader (ascii "Expect") (ascii "100-continue") = true
  · obtain ⟨continued, hContinued⟩ : ∃ continued, conn.writeResponse request .interim
        (HttpResponse.construct 100 (ascii "Continue") none now) = some continued :=
      writeResponse_some (continue_written conn.head.headers now)
    obtain ⟨entries, hWrote⟩ := wrote hContinued
    obtain ⟨writes, rfl⟩ := hWrote.same
    simp only [hExpect, if_true, hContinued]
    exact ⟨_, _, _, _, rfl⟩
  · simp only [hExpect]
    exact ⟨conn.serial, conn.log, conn.writes, conn.handlingRequest, rfl⟩

omit [DataSource File] [Host] [Digests] in
/-- The end of a message is nothing to an upgrade: `_on_message_complete` returns without a
call into R. -/
theorem feed_messageComplete {static : Option (HttpResponse (Body File))} {buffer : Bytes}
    (hEvents : (HttpParser.execute conn.parser buffer).events = [.onMessageComplete])
    (hUpgrade : conn.isUpgrade = true) :
    conn.feed static buffer =
      { conn with parser := (HttpParser.execute conn.parser buffer).parser }.observe
        (.execute (buffer.take (HttpParser.execute conn.parser buffer).parsed)) := by
  rw [feed, hEvents]
  exact if_pos hUpgrade

omit [DataSource File] [Host] [Digests] in
theorem HeadArrived.front {task : BackgroundTask File} {tasks : List (BackgroundTask File)}
    (h : HeadArrived request start pieces rest conn) (hQueue : conn.backgroundQueue = task :: tasks) :
    task = .onHeadersCompleteComplete conn.current none := by
  rcases h.queued with ⟨-, -, -, hBackground⟩ | ⟨-, hBackground⟩
  · rw [hBackground] at hQueue
    cases hQueue
  · rw [hBackground, List.cons.injEq] at hQueue
    exact hQueue.1.symm

/-- The line feed ends the message, and what follows it is handed to `accept`: all the bytes
behind the head that have come so far. -/
theorem parseHttpData_lineFeed {parser : WSParser}
    (hParsed : (HttpParser.execute conn.parser (10 :: rest)).parsed = 1)
    (hEvents : (HttpParser.execute conn.parser (10 :: rest)).events = [.onMessageComplete])
    (hGoesOn : HttpParser.waitingForHeadersCompleted
      (HttpParser.execute conn.parser (10 :: rest)).parser = false)
    (hUpgrade : conn.isUpgrade = true) (hPresent : conn.pWebSocketConnection = true)
    (hOpen : conn.isClosing = false)
    (hAccepted : conn.websocket.acceptedParser conn.head.headers rest = some parser)
    (static : Option (HttpResponse (Body File))) (now : Tm) :
    ∃ after, conn.parseHttpData static now (10 :: rest) = some after ∧ Switched after.log := by
  let fed : Connection File :=
    { conn with parser := (HttpParser.execute conn.parser (10 :: rest)).parser }.observe
      (.execute ((10 :: rest).take (HttpParser.execute conn.parser (10 :: rest)).parsed))
  have hFed : conn.feed static (10 :: rest) = fed := feed_messageComplete hEvents hUpgrade
  have hFedPresent : fed.pWebSocketConnection = true := hPresent
  have hFedOpen : fed.isClosing = false := hOpen
  obtain ⟨after, hAfter, hSwitched⟩ := upgrade_switches hFedPresent hFedOpen hAccepted now
  refine ⟨after, ?_, hSwitched⟩
  rw [parseHttpData_upgrade]
  · rw [hFed, hParsed]
    exact hAfter
  · rw [hFed]
    exact hGoesOn
  · rw [hFed]
    exact hUpgrade

/-- The decision comes back when enough has been read, and the request is accepted by one of
the two protocols. -/
theorem HeadArrived.decides {task : BackgroundTask File} {tasks : List (BackgroundTask File)}
    (hReported : request.Reported key start.parser) (hValid : request.Valid)
    (h : HeadArrived request start pieces rest conn) (hQueue : conn.backgroundQueue = task :: tasks)
    (hRest : rest <+: key)
    (hEnough : (request.field (ascii "sec-websocket-key")).isSome = true ∨ rest.length = 8)
    (static : Option (HttpResponse (Body File))) (now : Tm) (freed : Bytes) :
    ∃ after, conn.runBackground static now freed = some after ∧ Switched after.log := by
  obtain ⟨parser, hAccepted⟩ : ∃ parser,
      conn.websocket.acceptedParser conn.head.headers rest = some parser :=
    UpgradeRequest.accepted hValid h.known hEnough h.connState
  obtain rfl := h.front hQueue
  obtain ⟨serial, log, writes, handlingRequest, hCompleted⟩ :
      ∃ serial log writes handlingRequest,
        { conn with backgroundQueue := tasks }.headersCompleted now conn.current none =
          some { conn with
            backgroundQueue := tasks
            parser := HttpParser.headersCompleted conn.parser 0
            serial
            log
            writes
            handlingRequest } :=
    headersCompleted_goesOn conn.current now
  obtain ⟨hParsed, hEvents, hGoesOn⟩ := hReported.goesOn pieces rest h.filled h.bytes hRest
  rw [← h.parser] at hParsed hEvents hGoesOn
  let middle : Connection File := { conn with
    backgroundQueue := tasks
    parser := HttpParser.headersCompleted conn.parser 0
    serial
    log
    writes
    handlingRequest
    requestBuffer := [] }
  have hUpgrade : middle.isUpgrade = true := h.isUpgrade
  have hPresent : middle.pWebSocketConnection = true := h.present
  have hOpen : middle.isClosing = false := h.isClosing
  obtain ⟨after, hAfter, hSwitched⟩ : ∃ after,
      middle.parseHttpData static now (10 :: rest) = some after ∧ Switched after.log :=
    parseHttpData_lineFeed hParsed hEvents hGoesOn hUpgrade hPresent hOpen hAccepted static now
  refine ⟨after, ?_, hSwitched⟩
  have hRun : conn.runBackground static now freed =
      ({ conn with backgroundQueue := tasks }.headersCompleted now conn.current none).bind
        fun completed => completed.parseHttpDataFromBuffer static now := by
    rw [runBackground, hQueue]
    rfl
  have hBuffer : ({ conn with
      backgroundQueue := tasks
      parser := HttpParser.headersCompleted conn.parser 0
      serial
      log
      writes
      handlingRequest } : Connection File).parseHttpDataFromBuffer static now =
        middle.parseHttpData static now conn.requestBuffer := rfl
  rw [hRun, hCompleted, Option.bind_some, hBuffer, h.requestBuffer, hAfter]

/-- So many callbacks on the main thread, and the decision. The main thread runs those for
the environment first. -/
def callbacks (static : Option (HttpResponse (Body File))) (now : Tm) (count : Nat) :
    List (ConnectionAction File) :=
  List.replicate count (.runMain (.returned none) [] now) ++ [.runBackground static now []]

/-- The callbacks that are queued end in the response. Which ones there are depends on where
the decision is: on the main thread, or on its way back. -/
theorem HeadArrived.arrives (hReported : request.Reported key start.parser) (hValid : request.Valid)
    (h : HeadArrived request start pieces key conn) (hLength : key.length = 8)
    (static : Option (HttpResponse (Body File))) (now : Tm) :
    ∃ after, (callbacks static now conn.mainQueue.length).foldlM next conn = some after ∧
      Switched after.log := by
  generalize hQueue : conn.mainQueue = queue
  induction queue generalizing conn with
  | nil =>
      obtain ⟨task, tasks, hBackground⟩ : ∃ task tasks, conn.backgroundQueue = task :: tasks := by
        rcases h.queued with ⟨before, hMain, -, -⟩ | ⟨-, hBackground⟩
        · rw [hQueue] at hMain
          simp at hMain
        · exact ⟨_, _, hBackground⟩
      obtain ⟨after, hAfter, hSwitched⟩ :=
        h.decides hReported hValid hBackground (List.prefix_refl key) (Or.inr hLength) static now []
      exact ⟨after, by simpa [callbacks, next] using hAfter, hSwitched⟩
  | cons task tasks ih =>
      have hSome : conn.mainQueue ≠ [] := by simp [hQueue]
      obtain ⟨middle, hMiddle⟩ := runMain_some hSome (.returned none) [] now
      obtain ⟨hArrived, hTasks⟩ := h.runMain (fun _ _ _ => rfl) hMiddle
      rw [hQueue, List.tail_cons] at hTasks
      obtain ⟨after, hAfter, hSwitched⟩ := ih hArrived hTasks
      refine ⟨after, ?_, hSwitched⟩
      rw [callbacks, List.length_cons, List.replicate_succ, List.cons_append, List.foldlM_cons]
      change (conn.runMain (.returned none) [] now).bind _ = _
      rw [hMiddle]
      exact hAfter

end Callbacks

section Runs

variable [DataSource File] [Host] [Digests] {start conn after : Connection File}
  {action : ConnectionAction File} {request : UpgradeRequest} {key : Bytes}

/-- What can be done with such a connection: there is nothing to be called back, to be timed
or to be settled, so that reads and queued tasks are left. -/
theorem Calm.next_cases (h : Calm conn) (hNext : conn.next action = some after) :
    (∃ data static now, action = .read data static now ∧ data ≠ [] ∧
        conn.onRead static now data = some after) ∨
      action = .readError ∨ action = .stop ∨
      (∃ outcome calls now, action = .runMain outcome calls now ∧
        conn.runMain outcome calls now = some after) ∨
      (∃ static now freed, action = .runBackground static now freed ∧
        conn.runBackground static now freed = some after) ∨
      after = conn := by
  cases action with
  | read data static now =>
      simp only [next, Option.ite_none_right_eq_some, Bool.and_eq_true, bne_iff_ne] at hNext
      exact Or.inl ⟨data, static, now, rfl, hNext.1.2, hNext.2⟩
  | readError => exact Or.inr (Or.inl rfl)
  | stop => exact Or.inr (Or.inr (Or.inl rfl))
  | runMain outcome calls now =>
      exact Or.inr (Or.inr (Or.inr (Or.inl ⟨outcome, calls, now, rfl, hNext⟩)))
  | runBackground static now freed =>
      exact Or.inr (Or.inr (Or.inr (Or.inr (Or.inl ⟨static, now, freed, rfl, hNext⟩))))
  | written status queueEmpty => simp [next, onWritten, h.writes] at hNext
  | onClosed => simp [next, onClosed, h.isClosing] at hNext
  | pingTimer => simp [next, WebSocketConnection.sendPing, h.pParser] at hNext
  | settle index outcome now => simp [next, settle, h.promises] at hNext
  | wsCall call =>
      refine Or.inr (Or.inr (Or.inr (Or.inr (Or.inr ?_))))
      rw [← Option.some.inj hNext]
      cases call <;> simp [wsCall, h.wsHandle]

/-- The request has come in part, and it has not been decided on. The head has come or it has
not, which are the two states that a step leads between. -/
def Upgrading (contract : HttpParserContract) (request : UpgradeRequest) (start : Connection File)
    (key : Bytes) (conn : Connection File) : Prop :=
  (∃ pieces, Arriving contract request start pieces conn) ∨
    ∃ pieces rest, rest <+: key ∧ HeadArrived request start pieces rest conn

omit [DataSource File] [Host] [Digests] in
theorem Upgrading.calm {contract : HttpParserContract}
    (h : Upgrading contract request start key conn) : Calm conn := by
  rcases h with ⟨pieces, hArriving⟩ | ⟨pieces, rest, -, hArrived⟩
  · exact hArriving.toCalm
  · exact hArrived.toCalm

/-- Bytes of the request. They may end in the head, behind it, or bring its end. -/
theorem Upgrading.read {contract : HttpParserContract} {data : Bytes}
    (hReported : request.Reported key start.parser) (hValid : request.Valid)
    (h : Upgrading contract request start key conn) (hData : data ≠ [])
    (hBytes : received conn.log ++ data <+: received start.log ++ request.bytes key)
    (static : Option (HttpResponse (Body File))) (now : Tm) :
    ∃ after, conn.onRead static now data = some after ∧
      Upgrading contract request start key after := by
  rcases h with ⟨pieces, hArriving⟩ | ⟨pieces, rest, hRest, hArrived⟩
  · have hPieces : pieces.flatten ++ data = (pieces ++ [data]).flatten := by
      rw [List.flatten_concat]
    rw [hArriving.received, List.append_assoc, hPieces, List.prefix_append_right_inj] at hBytes
    rcases prefix_bytes hBytes with hMore | ⟨rest, hLast, hRest⟩
    · obtain ⟨after, hAfter, hNext⟩ := hArriving.more hReported hData hMore static now
      exact ⟨after, hAfter, Or.inl ⟨_, hNext⟩⟩
    · obtain ⟨after, hAfter, hNext⟩ := hArriving.last hReported hValid hData hLast hRest static now
      exact ⟨after, hAfter, Or.inr ⟨_, rest, hRest, hNext⟩⟩
  · obtain ⟨after, hAfter, hNext⟩ := hArrived.more contract hData static now
    rw [hArrived.received, List.append_assoc, List.prefix_append_right_inj, UpgradeRequest.bytes,
      UpgradeRequest.bytes, List.append_assoc, List.prefix_append_right_inj, List.cons_append,
      List.prefix_cons_inj] at hBytes
    exact ⟨after, hAfter, Or.inr ⟨_, _, hBytes, hNext⟩⟩

omit [DataSource File] [Host] [Digests] in
/-- All bytes have come, so the ones behind the line feed are the whole key. -/
theorem HeadArrived.rest_eq {pieces : List Bytes} {rest : Bytes}
    (h : HeadArrived request start pieces rest conn)
    (hAll : Httpuv.received conn.log = Httpuv.received start.log ++ request.bytes key) :
    rest = key := by
  rw [h.received, List.append_cancel_left_eq, UpgradeRequest.bytes, UpgradeRequest.bytes,
    List.append_cancel_left_eq] at hAll
  exact (List.cons.inj hAll).2

/-- One step, which may be the one that brings the response. Otherwise the request is still
coming in or waits for its decision. -/
theorem Upgrading.step {contract : HttpParserContract}
    (hReported : request.Reported key start.parser) (hValid : request.Valid) (hKey : key.length = 8)
    (h : Upgrading contract request start key conn)
    (hUndisturbed : conn.Undisturbed (received start.log ++ request.bytes key) action)
    (hArrived : conn.KeyArrived request (received start.log ++ request.bytes key) action)
    (hNext : conn.next action = some after) :
    Switched after.log ∨ Upgrading contract request start key after := by
  rcases h.calm.next_cases hNext with ⟨data, static, now, rfl, hData, hRead⟩ | rfl | rfl |
    ⟨outcome, calls, now, rfl, hMain⟩ | ⟨static, now, freed, rfl, hBackground⟩ | rfl
  · obtain ⟨other, hOther, hUpgrading⟩ := h.read hReported hValid hData hUndisturbed static now
    rw [hOther] at hRead
    obtain rfl := Option.some.inj hRead
    exact Or.inr hUpgrading
  · exact hUndisturbed.elim
  · exact hUndisturbed.elim
  · right
    rcases h with ⟨pieces, hArriving⟩ | ⟨pieces, rest, hRest, hHead⟩
    · exact Or.inl ⟨pieces, hArriving.runMain hMain⟩
    · have hProceeds : ∀ number tasks, conn.mainQueue = .onHeaders number :: tasks →
          outcome.proceeds = true := by
        intro number tasks hQueue
        exact hUndisturbed (by rw [hQueue]; rfl)
      exact Or.inr ⟨pieces, rest, hRest, (hHead.runMain hProceeds hMain).1⟩
  · left
    obtain ⟨task, tasks, hQueue, -⟩ := runBackground_cases hBackground
    rcases h with ⟨pieces, hArriving⟩ | ⟨pieces, rest, hRest, hHead⟩
    · simp [hArriving.background] at hQueue
    · have hEnough : (request.field (ascii "sec-websocket-key")).isSome = true ∨
          rest.length = 8 := by
        obtain rfl := hHead.front hQueue
        refine (hArrived (by rw [hQueue]; rfl)).imp id fun hAll => ?_
        rw [hHead.rest_eq hAll, hKey]
      obtain ⟨other, hOther, hSwitched⟩ := hHead.decides hReported hValid hQueue hRest hEnough
        static now freed
      rw [hOther] at hBackground
      obtain rfl := Option.some.inj hBackground
      exact hSwitched
  · exact Or.inr h

/-- The connection is open, and when all bytes have come the callbacks that are queued end in
the response. -/
structure Awaits (bytes : Bytes) (conn : Connection File) : Prop where
  isClosing : conn.isClosing = false
  reading : conn.reading = true
  arrives : received conn.log = bytes → ∀ static now, ∃ after,
    (callbacks static now conn.mainQueue.length).foldlM next conn = some after ∧
      Switched after.log

theorem Upgrading.awaits {contract : HttpParserContract}
    (hReported : request.Reported key start.parser) (hValid : request.Valid) (hKey : key.length = 8)
    (h : Upgrading contract request start key conn) :
    Awaits (received start.log ++ request.bytes key) conn where
  isClosing := h.calm.isClosing
  reading := h.calm.reading
  arrives := by
    intro hAll static now
    rcases h with ⟨pieces, hArriving⟩ | ⟨pieces, rest, -, hHead⟩
    · have hLength := hArriving.arrived.length_le
      rw [List.append_cancel_left (hArriving.received.symm.trans hAll), UpgradeRequest.bytes,
        List.length_append, List.length_cons] at hLength
      omega
    · obtain rfl := hHead.rest_eq hAll
      exact hHead.arrives hReported hValid hKey static now

/-- In a run whose steps all belong to the schedule, the response has gone out or is still
to come. Every step keeps the part of the request that has come. The parser is any one
that reports the request so. -/
theorem switched_or_awaits (contract : HttpParserContract) {finish : Connection File}
    (hIdle : Idle contract start) (hReported : request.Reported key start.parser)
    (hValid : request.Valid) (hKey : key.length = 8) {actions : List (ConnectionAction File)}
    {outputs : List Unit}
    (run : (system.guarded (InSchedule request (received start.log ++ request.bytes key))).Run
      start actions finish outputs) :
    Switched finish.log ∨ Awaits (received start.log ++ request.bytes key) finish := by
  suffices hInvariant : Switched finish.log ∨ Upgrading contract request start key finish from
    hInvariant.imp id (Upgrading.awaits hReported hValid hKey)
  apply run.invariant
    (I := fun conn _ => Switched conn.log ∨ Upgrading contract request start key conn)
  · exact Or.inr (Or.inl ⟨[], Arriving.of_idle hIdle⟩)
  · rintro conn outputs action after emitted hBefore ⟨hGuard, hNext⟩
    obtain ⟨result, hResult, hSame⟩ := Option.map_eq_some_iff.1 hNext
    obtain rfl : result = after := congrArg Prod.fst hSame
    have hGrows := (Connection.step hResult).log_grows
    rcases hBefore with hSwitched | hUpgrading
    · exact Or.inl (hSwitched.of_prefix hGrows)
    · rcases hGuard with hSwitched | ⟨hUndisturbed, hArrived⟩
      · exact Or.inl (hSwitched.of_prefix hGrows)
      · exact hUpgrading.step hReported hValid hKey hUndisturbed hArrived hResult

end Runs

end Connection

/-! ## Requests that `http_parser` reads -/

namespace Connection

local instance : HttpParser := httpParser

section Embedded

variable {File : Type} [Zlib] [DataSource File] [Host] [Digests]

/-- **An upgrade request with two keys is accepted** in every schedule in which the decision
about its headers comes back behind its last byte, when `http_parser` takes none of the key
for its own. -/
theorem switched_in_every_schedule {start finish : Connection File} {request : UpgradeRequest}
    {key : Bytes} (hIdle : Idle httpParserContract start) (hRead : request.Read key start.parser.1)
    (hValid : request.Valid) (hKey : key.length = 8) {actions : List (ConnectionAction File)}
    {outputs : List Unit}
    (run : (system.guarded (InSchedule request (received start.log ++ request.bytes key))).Run
      start actions finish outputs) :
    Switched finish.log ∨ Awaits (received start.log ++ request.bytes key) finish :=
  switched_or_awaits httpParserContract hIdle (UpgradeRequest.reported_of_read hIdle.1 hRead) hValid
    hKey run

end Embedded

/-! ## A request with its key in a read of its own -/

/-- A request with these fields, without the line feed that ends its head. The line feed is
the byte that the parser waits at. -/
def keyRequest (fields : List (Bytes × Bytes)) : UpgradeRequest where
  head := RequestParser.upgradeHead [] fields
  fields := fields

def sampleKeyFields : List (Bytes × Bytes) := [
  (ascii "Upgrade", ascii "WebSocket"), (ascii "Connection", ascii "Upgrade"),
  (ascii "Host", ascii "localhost"),
  (ascii "Sec-WebSocket-Key1", ascii "4 @1  46546xW%0l 1 5"),
  (ascii "Sec-WebSocket-Key2", ascii "12998 5 Y3 1  .P00")]

def sampleKeyRequest : UpgradeRequest := keyRequest sampleKeyFields

def sampleKey : Bytes := ascii "^n:ds[4U"

/-- The request without its `Connection` header, which `canHandle` does not ask for, and a key
that begins like another request. -/
def unconnectedRequest : UpgradeRequest := keyRequest (sampleKeyFields.eraseIdx 1)

def methodKey : Bytes := ascii "GETabcde"

theorem keyRequest_valid {request : UpgradeRequest}
    (hUpgrade : request.field (ascii "upgrade") = some (ascii "WebSocket"))
    (hHost : (request.field (ascii "host")).isSome = true)
    (hFirst : request.field (ascii "sec-websocket-key1") = some (ascii "4 @1  46546xW%0l 1 5"))
    (hSecond : request.field (ascii "sec-websocket-key2") = some (ascii "12998 5 Y3 1  .P00")) :
    request.Valid where
  upgrade := ⟨ascii "WebSocket", hUpgrade, by decide⟩
  host := hHost
  keys := by
    intro name hName
    rcases List.mem_cons.1 hName with rfl | hName
    · exact ⟨_, hFirst, by decide, by decide⟩
    · obtain rfl := List.mem_singleton.1 hName
      exact ⟨_, hSecond, by decide, by decide⟩

theorem sampleKeyRequest_valid : sampleKeyRequest.Valid :=
  keyRequest_valid (by decide) (by decide) (by decide) (by decide)

/-- The request has the headers of an upgrade and none of a body, so that the parser stops
in front of whatever key it has. -/
theorem sampleKeyRequest_written : sampleKeyRequest.Written where
  head := ⟨[], rfl, by simp⟩
  plain := by decide +kernel
  upgrade := by decide +kernel
  connection := by decide +kernel

theorem sampleKeyRequest_read : sampleKeyRequest.Read sampleKey RequestParser.init :=
  sampleKeyRequest_written.read RequestParser.init_idle rfl ⟨rfl, rfl⟩ (by decide +kernel)

/-- The key comes between two callbacks on the main thread, in time for the decision. The
parser is the embedded one. -/
theorem switched_late_key :
    let _ : Zlib := HttpResponse.SampleStream.zlib
    let _ : Host := littleEndianHost
    let _ : Digests := sampleDigests
    ∃ finish : Connection InMemoryDataSource,
      (system.guarded (InSchedule sampleKeyRequest (sampleKeyRequest.bytes sampleKey))).Run
        (fresh WSHixie76Parser.textInfo WSHixie76Parser.textInfo)
        [.read (sampleKeyRequest.bytes []) none .epoch, .runMain (.returned none) [] .epoch,
          .read sampleKey none .epoch, .runMain (.returned none) [] .epoch,
          .runBackground none .epoch []] finish [] ∧
      Switched finish.log ∧
      (Switched finish.log ∨ Awaits (sampleKeyRequest.bytes sampleKey) finish) := by
  intro zlib host digests
  obtain ⟨finish, hRun, hSwitched⟩ : ∃ finish,
      [ConnectionAction.read (sampleKeyRequest.bytes []) none .epoch,
        .runMain (.returned none) [] .epoch, .read sampleKey none .epoch,
        .runMain (.returned none) [] .epoch, .runBackground none .epoch []].foldlM
          (fun (conn : Connection InMemoryDataSource) action =>
            if conn.InSchedule sampleKeyRequest (sampleKeyRequest.bytes sampleKey) action then
              conn.next action
            else none)
          (fresh WSHixie76Parser.textInfo WSHixie76Parser.textInfo) = some finish ∧
      decide (Switched finish.log) = true :=
    Option.map_eq_some_iff.1 (by decide +kernel)
  have hGuarded := guarded_of_foldlM hRun
  exact ⟨finish, hGuarded, of_decide_eq_true hSwitched,
    switched_in_every_schedule (Initial.idle _ ⟨_, _, rfl⟩) sampleKeyRequest_read
      sampleKeyRequest_valid rfl hGuarded⟩

/-- The same bytes in one read are accepted, and in two reads they are refused when the decision
is faster than the key. Without a `Connection` header the parser goes on into the key, so that
a request may be refused although all its bytes have come. -/
theorem closed_before_key :
    let _ : Zlib := HttpResponse.SampleStream.zlib
    let _ : Host := littleEndianHost
    let _ : Digests := sampleDigests
    sampleKeyRequest.Valid ∧ sampleKeyRequest.Read sampleKey RequestParser.init ∧
      sampleKey.length = 8 ∧
      (∃ finish : Connection InMemoryDataSource,
        (system.guarded fun conn => conn.Undisturbed (sampleKeyRequest.bytes sampleKey)).Run
          (fresh WSHixie76Parser.textInfo WSHixie76Parser.textInfo)
          [.read (sampleKeyRequest.bytes sampleKey) none .epoch,
            .runMain (.returned none) [] .epoch, .runMain (.returned none) [] .epoch,
            .runBackground none .epoch []] finish [] ∧ Switched finish.log) ∧
      (∃ finish : Connection InMemoryDataSource,
        (system.guarded fun conn => conn.Undisturbed (sampleKeyRequest.bytes sampleKey)).Run
          (fresh WSHixie76Parser.textInfo WSHixie76Parser.textInfo)
          [.read (sampleKeyRequest.bytes []) none .epoch, .runMain (.returned none) [] .epoch,
            .runMain (.returned none) [] .epoch, .runBackground none .epoch []] finish [] ∧
        finish.isClosing = true ∧ ¬ Switched finish.log) ∧
      unconnectedRequest.Valid ∧ methodKey.length = 8 ∧
      ∃ finish : Connection InMemoryDataSource,
        (system.guarded (InSchedule unconnectedRequest (unconnectedRequest.bytes methodKey))).Run
          (fresh WSHixie76Parser.textInfo WSHixie76Parser.textInfo)
          [.read (unconnectedRequest.bytes methodKey) none .epoch,
            .runMain (.returned none) [] .epoch, .runMain (.returned none) [] .epoch,
            .runBackground none .epoch []] finish [] ∧
        finish.isClosing = true ∧ ¬ Switched finish.log := by
  intro zlib host digests
  refine ⟨sampleKeyRequest_valid, sampleKeyRequest_read, rfl, ?_, ?_,
    keyRequest_valid (by decide) (by decide) (by decide) (by decide), rfl, ?_⟩
  · obtain ⟨finish, hRun, hSwitched⟩ : ∃ finish,
        [ConnectionAction.read (sampleKeyRequest.bytes sampleKey) none .epoch,
          .runMain (.returned none) [] .epoch, .runMain (.returned none) [] .epoch,
          .runBackground none .epoch []].foldlM
            (fun (conn : Connection InMemoryDataSource) action =>
              if conn.Undisturbed (sampleKeyRequest.bytes sampleKey) action then conn.next action
              else none)
            (fresh WSHixie76Parser.textInfo WSHixie76Parser.textInfo) = some finish ∧
        decide (Switched finish.log) = true :=
      Option.map_eq_some_iff.1 (by decide +kernel)
    exact ⟨finish, guarded_of_foldlM hRun, of_decide_eq_true hSwitched⟩
  · obtain ⟨finish, hRun, hClosed⟩ : ∃ finish,
        [ConnectionAction.read (sampleKeyRequest.bytes []) none .epoch,
          .runMain (.returned none) [] .epoch, .runMain (.returned none) [] .epoch,
          .runBackground none .epoch []].foldlM
            (fun (conn : Connection InMemoryDataSource) action =>
              if conn.Undisturbed (sampleKeyRequest.bytes sampleKey) action then conn.next action
              else none)
            (fresh WSHixie76Parser.textInfo WSHixie76Parser.textInfo) = some finish ∧
        (finish.isClosing, decide (Switched finish.log)) = (true, false) :=
      Option.map_eq_some_iff.1 (by decide +kernel)
    obtain ⟨hClosing, hNone⟩ := Prod.mk.inj hClosed
    exact ⟨finish, guarded_of_foldlM hRun, hClosing, of_decide_eq_false hNone⟩
  · obtain ⟨finish, hRun, hClosed⟩ : ∃ finish,
        [ConnectionAction.read (unconnectedRequest.bytes methodKey) none .epoch,
          .runMain (.returned none) [] .epoch, .runMain (.returned none) [] .epoch,
          .runBackground none .epoch []].foldlM
            (fun (conn : Connection InMemoryDataSource) action =>
              if conn.InSchedule unconnectedRequest (unconnectedRequest.bytes methodKey) action then
                conn.next action
              else none)
            (fresh WSHixie76Parser.textInfo WSHixie76Parser.textInfo) = some finish ∧
        (finish.isClosing, decide (Switched finish.log)) = (true, false) :=
      Option.map_eq_some_iff.1 (by decide +kernel)
    obtain ⟨hClosing, hNone⟩ := Prod.mk.inj hClosed
    exact ⟨finish, guarded_of_foldlM hRun, hClosing, of_decide_eq_false hNone⟩

end Connection

end Httpuv
