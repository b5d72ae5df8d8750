import Httpuv.Parser.Execute
import Mathlib.Tactic

/-! What holds of a parser between two bytes, and what the cases of the switch
report: every case keeps the order of the callbacks. -/
namespace Httpuv.RequestParser

/-- The header states in the name of a header. -/
def HeaderState.ofField : HeaderState → Bool
  | .general | .C | .CO | .CON | .matchingConnection | .matchingProxyConnection
  | .matchingContentLength | .matchingTransferEncoding | .matchingUpgrade | .connection
  | .contentLength | .transferEncoding | .upgrade => true
  | _ => false

/-- The header states in the value of a header. -/
def HeaderState.ofValue : HeaderState → Bool
  | .general | .contentLength | .matchingTransferEncodingChunked | .matchingConnectionTokenStart
  | .matchingConnectionKeepAlive | .matchingConnectionClose | .matchingConnectionUpgrade
  | .matchingConnectionToken | .transferEncodingChunked | .connectionKeepAlive
  | .connectionClose | .connectionUpgrade => true
  | _ => false

/-- Where a parser is in a message. An invalid target leaves the state of a parser
behind that has come to its end. -/
def phase (parser : RequestParser) : ParserPhase :=
  match parser.state with
  | .dead => if parser.headersStatus = -1 then .head else .between
  | .startReq => .between
  | .waitForOnHeadersCompleted => .waiting
  | .onHeadersCompleted => if parser.headersStatus = 3 then .refused else .body
  | .headerFieldStart | .headerField | .headerValueDiscardWs | .headerValueDiscardWsAlmostDone
  | .headerValueDiscardLws | .headerValueStart | .headerValue | .headerValueLws
  | .headerAlmostDone | .headersAlmostDone => if parser.flags.trailing then .body else .head
  | .headersDone | .chunkSizeStart | .chunkSize | .chunkParameters | .chunkSizeAlmostDone
  | .chunkData | .chunkDataAlmostDone | .chunkDataDone | .bodyIdentity | .messageDone => .body
  | _ => .head

/-- What the state says about the other members. The assertions of
`http_parser_execute` follow from it. -/
def AtState (parser : RequestParser) : Prop :=
  match parser.state with
  | .dead | .startReq | .waitForOnHeadersCompleted => True
  | .onHeadersCompleted | .headersDone | .messageDone => parser.headersStatus ≠ -1
  | .headerField =>
      (parser.flags.trailing = true → parser.headersStatus ≠ -1) ∧
        parser.headerState.ofField = true
  | .headerValue =>
      (parser.flags.trailing = true → parser.headersStatus ≠ -1) ∧
        parser.headerState.ofValue = true
  | .headerFieldStart | .headerValueDiscardWs | .headerValueDiscardWsAlmostDone
  | .headerValueDiscardLws | .headerValueStart | .headerValueLws | .headerAlmostDone
  | .headersAlmostDone => parser.flags.trailing = true → parser.headersStatus ≠ -1
  | .chunkSize | .chunkParameters | .chunkSizeAlmostDone =>
      parser.headersStatus ≠ -1 ∧ parser.flags.chunked = true ∧ parser.contentLength < ULLONG_MAX
  | .chunkData =>
      parser.headersStatus ≠ -1 ∧ parser.flags.chunked = true ∧
        parser.contentLength < ULLONG_MAX ∧ parser.contentLength ≠ 0
  | .chunkDataAlmostDone =>
      parser.headersStatus ≠ -1 ∧ parser.flags.chunked = true ∧ parser.contentLength = 0
  | .chunkSizeStart | .chunkDataDone => parser.headersStatus ≠ -1 ∧ parser.flags.chunked = true
  | .bodyIdentity =>
      parser.headersStatus ≠ -1 ∧ parser.contentLength < ULLONG_MAX ∧ parser.contentLength ≠ 0
  | _ => parser.flags.trailing = false ∧ parser.headersStatus = -1

/-- A parser that `http_parser_execute` can leave behind. -/
structure Sound (parser : RequestParser) : Prop where
  contentLength : parser.contentLength ≤ ULLONG_MAX
  atState : parser.AtState

theorem init_sound : init.Sound := ⟨by decide, trivial⟩

/-- What a macro does to the phase and to the one data callback under way. A body
that has been started in an earlier buffer has no mark. -/
def Call.next (place : ParserPhase × Option DataCallback) : Call → Option (ParserPhase × Option DataCallback)
  | .mark callback => if place.2 = none then some (place.1, some callback) else none
  | .data callback =>
      if place.2 = some callback ∨ place.2 = none ∧ callback = .body then
        (place.1.next (callback.event [])).map (fun phase => (phase, none))
      else none
  | .notify event =>
      if place.2 = none then (place.1.next event).map (fun phase => (phase, none)) else none

/-- A case leads from a phase and a data callback to the ones of the state that it
goes to. A refused message is dropped without a callback. -/
structure Effect.Legal (parser : RequestParser) (slot : Option DataCallback) (effect : Effect) :
    Prop where
  sound : effect.parser.Sound
  path : (∃ slot', effect.calls.foldlM Call.next (parser.phase, slot) =
        some (effect.parser.phase, slot') ∧
      (effect.control = .next → slot' = effect.parser.state.open) ∧
      (∀ consumed, effect.control = .stop consumed → slot' = none)) ∨
    parser.phase = .refused ∧ effect.calls = [] ∧ effect.parser.phase = .between ∧
      effect.control = .stop true
  next : effect.control = .next → effect.parser.httpErrno = parser.httpErrno
  error : effect.control = .error → effect.parser.httpErrno ≠ .ok
  stop : ∀ consumed, effect.control = .stop consumed → effect.parser.state.open = none ∧
    (consumed = true → effect.parser.phase = .between)

section Cases

variable {parser : RequestParser} {ch : UInt8}

theorem legal_go {slot : Option DataCallback} {after : RequestParser} {calls : List Call}
    (hSound : after.Sound) (hErrno : after.httpErrno = parser.httpErrno)
    (hPath : calls.foldlM Call.next (parser.phase, slot) = some (after.phase, after.state.open)) :
    (after.go calls).Legal parser slot where
  sound := hSound
  path := Or.inl ⟨_, hPath, fun _ => rfl, by rintro _ ⟨⟩⟩
  next _ := hErrno
  error := by rintro ⟨⟩
  stop := by rintro _ ⟨⟩

theorem legal_fail {slot : Option DataCallback} {after : RequestParser} {calls : List Call}
    {error : Errno} (hSound : ({ after with httpErrno := error } : RequestParser).Sound)
    (hError : error ≠ .ok)
    (hPath : ∃ slot', calls.foldlM Call.next (parser.phase, slot) = some (after.phase, slot')) :
    (after.fail calls error).Legal parser slot where
  sound := hSound
  path := by
    obtain ⟨slot', hPath⟩ := hPath
    exact Or.inl ⟨slot', hPath, by rintro ⟨⟩, by rintro _ ⟨⟩⟩
  next := by rintro ⟨⟩
  error _ := hError
  stop := by rintro _ ⟨⟩

theorem legal_stop {slot : Option DataCallback} {after : RequestParser} {calls : List Call}
    {consumed : Bool} (hSound : after.Sound)
    (hPath : calls.foldlM Call.next (parser.phase, slot) = some (after.phase, none))
    (hOpen : after.state.open = none) (hBetween : consumed = true → after.phase = .between) :
    Effect.Legal parser slot ⟨after, calls, .stop consumed⟩ where
  sound := hSound
  path := Or.inl ⟨_, hPath, by rintro ⟨⟩, fun _ _ => rfl⟩
  next := by rintro ⟨⟩
  error := by rintro ⟨⟩
  stop := by
    rintro _ ⟨⟩
    exact ⟨hOpen, hBetween⟩

theorem legal_strictCheck {slot : Option DataCallback} {expected : UInt8} {effect : Effect}
    (hSound : ({ parser with httpErrno := .strict } : RequestParser).Sound)
    (hLegal : effect.Legal parser slot) : (parser.strictCheck ch expected effect).Legal parser slot := by
  unfold strictCheck
  split_ifs
  · exact legal_fail hSound (by decide) ⟨slot, rfl⟩
  · exact hLegal

/-- An error does not change what is known of the other members. -/
theorem Sound.failed (hSound : parser.Sound) (error : Errno) :
    ({ parser with httpErrno := error } : RequestParser).Sound := by
  refine ⟨hSound.contentLength, ?_⟩
  have hAt := hSound.atState
  unfold AtState at hAt ⊢
  cases hState : parser.state <;> simp_all

/-- A case without callbacks that stays in its phase. -/
theorem legal_move {slot : Option DataCallback} {after : RequestParser} (hSound : after.Sound)
    (hErrno : after.httpErrno = parser.httpErrno) (hPhase : after.phase = parser.phase)
    (hOpen : after.state.open = slot) : (after.go []).Legal parser slot :=
  legal_go hSound hErrno (by simp [hPhase, hOpen])

theorem legal_error {slot : Option DataCallback} {after : RequestParser} {error : Errno}
    (hSound : ({ after with httpErrno := error } : RequestParser).Sound) (hError : error ≠ .ok)
    (hPhase : after.phase = parser.phase) : (after.fail [] error).Legal parser slot :=
  legal_fail hSound hError ⟨slot, by rw [hPhase]; rfl⟩

/-- An error that leaves the other members alone. -/
theorem legal_refuse {slot : Option DataCallback} {error : Errno} (hSound : parser.Sound)
    (hError : error ≠ .ok) : (parser.fail [] error).Legal parser slot :=
  legal_error (hSound.failed _) hError rfl

theorem dead_legal (hSound : parser.Sound) (hState : parser.state = .dead) :
    (parser.dead ch).Legal parser none := by
  unfold dead
  split_ifs
  · exact legal_move hSound rfl rfl (by simp [State.open, hState])
  · exact legal_refuse hSound (by decide)

theorem startReq_legal (hSound : parser.Sound) (hState : parser.state = .startReq) :
    (parser.startReq ch).Legal parser none := by
  have hPhase : parser.phase = .between := by simp [phase, hState]
  have hLength : ULLONG_MAX ≤ ULLONG_MAX := le_refl _
  unfold startReq
  simp only
  split_ifs
  · exact legal_move hSound rfl rfl (by simp [State.open, hState])
  · exact legal_error ⟨hLength, by simp [AtState, hState]⟩ (by decide) (by simp [phase, hState])
  · split
    · exact legal_error ⟨hLength, by simp [AtState, hState]⟩ (by decide) (by simp [phase, hState])
    · refine legal_go ⟨hLength, by simp [AtState, Flags.none]⟩ rfl ?_
      rw [hPhase]
      simp [Call.next, ParserPhase.next, phase, State.open]

/-- The states of the request line behind the first letter of the method. -/
def State.inRequestLine : State → Bool
  | .reqMethod | .reqSpacesBeforeUrl | .reqSchema | .reqSchemaSlash | .reqSchemaSlashSlash
  | .reqServerStart | .reqServer | .reqServerWithAt | .reqPath | .reqQueryStringStart
  | .reqQueryString | .reqFragmentStart | .reqFragment | .reqHttpStart | .reqHttpH | .reqHttpHT
  | .reqHttpHTT | .reqHttpHTTP | .reqFirstHttpMajor | .reqHttpMajor | .reqFirstHttpMinor
  | .reqHttpMinor | .reqLineAlmostDone => true
  | _ => false

theorem phase_of_requestLine (hState : parser.state.inRequestLine = true) :
    parser.phase = .head := by
  unfold phase
  cases h : parser.state <;> simp_all [State.inRequestLine]

theorem atState_of_requestLine (hState : parser.state.inRequestLine = true) :
    parser.AtState ↔ parser.flags.trailing = false ∧ parser.headersStatus = -1 := by
  unfold AtState
  cases h : parser.state <;> simp_all [State.inRequestLine]

/-- What is known in the request line does not speak of the version and the method. -/
theorem Sound.requestLine {after : RequestParser} (hSound : parser.Sound)
    (hState : parser.state.inRequestLine = true) (hAfter : after.state.inRequestLine = true)
    (hFlags : after.flags = parser.flags) (hStatus : after.headersStatus = parser.headersStatus)
    (hLength : after.contentLength = parser.contentLength) : after.Sound := by
  have hAt := (atState_of_requestLine hState).1 hSound.atState
  refine ⟨?_, ?_⟩
  · rw [hLength]
    exact hSound.contentLength
  · rw [atState_of_requestLine hAfter, hFlags, hStatus]
    exact hAt

/-- A step inside of the request line. -/
theorem legal_requestLine {slot : Option DataCallback} {after : RequestParser} (hSound : parser.Sound)
    (hState : parser.state.inRequestLine = true) (hAfter : after.state.inRequestLine = true)
    (hFlags : after.flags = parser.flags) (hStatus : after.headersStatus = parser.headersStatus)
    (hLength : after.contentLength = parser.contentLength)
    (hErrno : after.httpErrno = parser.httpErrno) (hOpen : after.state.open = slot) :
    (after.go []).Legal parser slot := by
  refine legal_move (hSound.requestLine hState hAfter hFlags hStatus hLength) hErrno ?_ hOpen
  rw [phase_of_requestLine hAfter, phase_of_requestLine hState]

/-- The end of the request line. -/
theorem legal_headerFieldStart {after : RequestParser} (hSound : parser.Sound)
    (hState : parser.state.inRequestLine = true) (hAfter : after.state = .headerFieldStart)
    (hFlags : after.flags = parser.flags) (hLength : after.contentLength = parser.contentLength)
    (hErrno : after.httpErrno = parser.httpErrno) : (after.go []).Legal parser none := by
  have hAt := (atState_of_requestLine hState).1 hSound.atState
  refine legal_move ⟨?_, ?_⟩ hErrno ?_ (by simp [State.open, hAfter])
  · rw [hLength]
    exact hSound.contentLength
  · simp [AtState, hAfter, hFlags, hAt.1]
  · rw [phase_of_requestLine hState]
    simp [phase, hAfter, hFlags, hAt.1]

theorem reqMethod_legal (hSound : parser.Sound) (hState : parser.state = .reqMethod) :
    (parser.reqMethod ch).Legal parser none := by
  have hLine : parser.state.inRequestLine = true := by rw [hState]; rfl
  have hOpen : parser.state.open = none := by rw [hState]; rfl
  unfold reqMethod
  simp only
  split_ifs
  · exact legal_refuse hSound (by decide)
  · exact legal_requestLine hSound hLine rfl rfl rfl rfl rfl rfl
  · exact legal_requestLine hSound hLine hLine rfl rfl rfl rfl hOpen
  · split
    · exact legal_requestLine hSound hLine hLine rfl rfl rfl rfl hOpen
    · exact legal_refuse hSound (by decide)
  · exact legal_requestLine hSound hLine hLine rfl rfl rfl rfl hOpen
  · exact legal_refuse hSound (by decide)

/-- A byte of the target leads to a state of the target. -/
theorem parseUrlChar_open (s : State) (ch : UInt8) (hAlive : parseUrlChar s ch ≠ .dead) :
    (parseUrlChar s ch).open = some .url ∧ (parseUrlChar s ch).inRequestLine = true := by
  unfold parseUrlChar parseUrlChar.server at hAlive ⊢
  cases s <;> simp only at hAlive ⊢ <;> split_ifs at hAlive ⊢ <;> first
    | exact ⟨rfl, rfl⟩
    | exact absurd rfl hAlive

theorem urlChar_legal {slot slot' : Option DataCallback} {calls : List Call} {start : RequestParser}
    (hSound : start.Sound) (hLine : start.state.inRequestLine = true)
    (hParser : parser.flags = start.flags ∧ parser.headersStatus = start.headersStatus ∧
      parser.contentLength = start.contentLength ∧ parser.httpErrno = start.httpErrno)
    (hCalls : calls.foldlM Call.next (.head, slot) = some (.head, slot'))
    (hSlot : slot' = some .url) : (parser.urlChar calls ch).Legal start slot := by
  obtain ⟨hFlags, hStatus, hLength, hErrno⟩ := hParser
  have hAt := (atState_of_requestLine hLine).1 hSound.atState
  have hPhase := phase_of_requestLine hLine
  unfold urlChar
  simp only
  split_ifs with hDead
  · refine legal_fail ⟨?_, ?_⟩ (by decide) ⟨slot', ?_⟩
    · rw [hLength]
      exact hSound.contentLength
    · simp [AtState, hDead]
    · rw [hPhase, hCalls]
      simp [phase, hDead, hStatus, hAt.2]
  · obtain ⟨hOpen, hAfter⟩ := parseUrlChar_open parser.state ch hDead
    refine legal_go ⟨?_, ?_⟩ hErrno ?_
    · rw [hLength]
      exact hSound.contentLength
    · rw [atState_of_requestLine hAfter, hFlags, hStatus]
      exact hAt
    · rw [hPhase, hCalls, phase_of_requestLine hAfter, hOpen, hSlot]

theorem reqSpacesBeforeUrl_legal (hSound : parser.Sound)
    (hState : parser.state = .reqSpacesBeforeUrl) :
    (parser.reqSpacesBeforeUrl ch).Legal parser none := by
  have hLine : parser.state.inRequestLine = true := by rw [hState]; rfl
  unfold reqSpacesBeforeUrl
  split_ifs
  · exact legal_move hSound rfl rfl (by simp [State.open, hState])
  · exact urlChar_legal hSound hLine ⟨rfl, rfl, rfl, rfl⟩ rfl rfl
  · exact urlChar_legal hSound hLine ⟨rfl, rfl, rfl, rfl⟩ rfl rfl

theorem reqSchema_legal (hSound : parser.Sound) (hLine : parser.state.inRequestLine = true) :
    (parser.reqSchema ch).Legal parser (some .url) := by
  unfold reqSchema
  split_ifs
  · exact legal_refuse hSound (by decide)
  · exact urlChar_legal hSound hLine ⟨rfl, rfl, rfl, rfl⟩ rfl rfl

theorem reqServer_legal (hSound : parser.Sound) (hLine : parser.state.inRequestLine = true) :
    (parser.reqServer ch).Legal parser (some .url) := by
  have hAt := (atState_of_requestLine hLine).1 hSound.atState
  have hPhase := phase_of_requestLine hLine
  unfold reqServer
  split_ifs with hSpace hEnd hCR
  · exact legal_go ⟨hSound.contentLength, hAt⟩ rfl (by rw [hPhase]; rfl)
  · exact legal_go ⟨hSound.contentLength, hAt⟩ rfl (by rw [hPhase]; rfl)
  · refine legal_go ⟨hSound.contentLength, ?_⟩ rfl ?_
    · simp [AtState, hAt.1]
    · rw [hPhase]
      simp [phase, hAt.1, Call.next, ParserPhase.next, DataCallback.event, State.open]
  · exact urlChar_legal hSound hLine ⟨rfl, rfl, rfl, rfl⟩ rfl rfl

/-- The fixed text in front of the version. -/
theorem legal_constant {after : State} {expected : UInt8} (hSound : parser.Sound)
    (hLine : parser.state.inRequestLine = true) (hAfter : after.inRequestLine = true)
    (hOpen : after.open = none) :
    (parser.strictCheck ch expected ({ parser with state := after }.go [])).Legal parser none :=
  legal_strictCheck (hSound.failed _)
    (legal_requestLine hSound hLine hAfter rfl rfl rfl rfl hOpen)

theorem reqHttpStart_legal (hSound : parser.Sound) (hState : parser.state = .reqHttpStart) :
    (parser.reqHttpStart ch).Legal parser none := by
  have hLine : parser.state.inRequestLine = true := by rw [hState]; rfl
  unfold reqHttpStart
  split_ifs
  · exact legal_requestLine hSound hLine rfl rfl rfl rfl rfl rfl
  · exact legal_move hSound rfl rfl (by simp [State.open, hState])
  · exact legal_refuse hSound (by decide)

theorem reqFirstHttpMajor_legal (hSound : parser.Sound)
    (hState : parser.state = .reqFirstHttpMajor) :
    (parser.reqFirstHttpMajor ch).Legal parser none := by
  have hLine : parser.state.inRequestLine = true := by rw [hState]; rfl
  unfold reqFirstHttpMajor
  split_ifs
  · exact legal_refuse hSound (by decide)
  · exact legal_requestLine hSound hLine rfl rfl rfl rfl rfl rfl

theorem reqFirstHttpMinor_legal (hSound : parser.Sound)
    (hState : parser.state = .reqFirstHttpMinor) :
    (parser.reqFirstHttpMinor ch).Legal parser none := by
  have hLine : parser.state.inRequestLine = true := by rw [hState]; rfl
  unfold reqFirstHttpMinor
  split_ifs
  · exact legal_refuse hSound (by decide)
  · exact legal_requestLine hSound hLine rfl rfl rfl rfl rfl rfl

theorem reqHttpMajor_legal (hSound : parser.Sound) (hState : parser.state = .reqHttpMajor) :
    (parser.reqHttpMajor ch).Legal parser none := by
  have hLine : parser.state.inRequestLine = true := by rw [hState]; rfl
  have hOpen : parser.state.open = none := by rw [hState]; rfl
  unfold reqHttpMajor
  simp only
  split_ifs
  · exact legal_requestLine hSound hLine rfl rfl rfl rfl rfl rfl
  · exact legal_refuse hSound (by decide)
  · exact legal_error (hSound.requestLine hLine hLine rfl rfl rfl) (by decide) rfl
  · exact legal_requestLine hSound hLine hLine rfl rfl rfl rfl hOpen

theorem reqHttpMinor_legal (hSound : parser.Sound) (hState : parser.state = .reqHttpMinor) :
    (parser.reqHttpMinor ch).Legal parser none := by
  have hLine : parser.state.inRequestLine = true := by rw [hState]; rfl
  have hOpen : parser.state.open = none := by rw [hState]; rfl
  unfold reqHttpMinor
  simp only
  split_ifs
  · exact legal_requestLine hSound hLine rfl rfl rfl rfl rfl rfl
  · exact legal_headerFieldStart hSound hLine rfl rfl rfl rfl
  · exact legal_refuse hSound (by decide)
  · exact legal_error (hSound.requestLine hLine hLine rfl rfl rfl) (by decide) rfl
  · exact legal_requestLine hSound hLine hLine rfl rfl rfl rfl hOpen

theorem reqLineAlmostDone_legal (hSound : parser.Sound)
    (hState : parser.state = .reqLineAlmostDone) :
    (parser.reqLineAlmostDone ch).Legal parser none := by
  unfold reqLineAlmostDone
  split_ifs
  · exact legal_refuse hSound (by decide)
  · exact legal_headerFieldStart hSound (by rw [hState]; rfl) rfl rfl rfl rfl

/-- The parser that a case starts with matters for its phase and its error only. -/
theorem Effect.Legal.congr {slot : Option DataCallback} {start : RequestParser} {effect : Effect}
    (hLegal : effect.Legal parser slot) (hPhase : parser.phase = start.phase)
    (hErrno : parser.httpErrno = start.httpErrno) : effect.Legal start slot where
  sound := hLegal.sound
  path := by
    rw [← hPhase]
    exact hLegal.path
  next hNext := (hLegal.next hNext).trans hErrno
  error := hLegal.error
  stop := hLegal.stop

/-- The state behind a message, in which nothing is under way. -/
theorem newMessage_sound (hLength : parser.contentLength ≤ ULLONG_MAX)
    (hStatus : parser.headersStatus ≠ -1) :
    ({ parser with state := parser.newMessage } : RequestParser).Sound ∧
      ({ parser with state := parser.newMessage } : RequestParser).phase = .between ∧
      parser.newMessage.open = none := by
  unfold newMessage
  split_ifs
  · exact ⟨⟨hLength, trivial⟩, rfl, rfl⟩
  · exact ⟨⟨hLength, trivial⟩, by simp [phase, hStatus], rfl⟩

theorem messageDone_legal (hLength : parser.contentLength ≤ ULLONG_MAX)
    (hStatus : parser.headersStatus ≠ -1) (hPhase : parser.phase = .body) :
    parser.messageDone.Legal parser none := by
  obtain ⟨hSound, hBetween, hOpen⟩ := newMessage_sound hLength hStatus
  have hPath : [Call.notify .onMessageComplete].foldlM Call.next (parser.phase, none) =
      some (({ parser with state := parser.newMessage } : RequestParser).phase, none) := by
    rw [hPhase, hBetween]
    rfl
  unfold messageDone
  simp only
  split_ifs
  · exact legal_stop hSound hPath hOpen (fun _ => hBetween)
  · exact legal_go hSound rfl (by rw [hPath, hOpen])

/-- The states of a header block. -/
def State.inHeaders : State → Bool
  | .headerFieldStart | .headerField | .headerValueDiscardWs | .headerValueDiscardWsAlmostDone
  | .headerValueDiscardLws | .headerValueStart | .headerValue | .headerValueLws
  | .headerAlmostDone | .headersAlmostDone => true
  | _ => false

theorem phase_of_headers (hState : parser.state.inHeaders = true) :
    parser.phase = if parser.flags.trailing then .body else .head := by
  unfold phase
  cases h : parser.state <;> simp_all [State.inHeaders]

theorem trailing_of_headers (hState : parser.state.inHeaders = true) (hSound : parser.Sound) :
    parser.flags.trailing = true → parser.headersStatus ≠ -1 := by
  have hAt := hSound.atState
  unfold AtState at hAt
  cases h : parser.state <;> simp_all [State.inHeaders]

/-- What a header block needs to know, apart from the header states. -/
theorem atState_of_headers (hState : parser.state.inHeaders = true)
    (hTrailing : parser.flags.trailing = true → parser.headersStatus ≠ -1)
    (hField : parser.state = .headerField → parser.headerState.ofField = true)
    (hValue : parser.state = .headerValue → parser.headerState.ofValue = true) :
    parser.AtState := by
  unfold AtState
  cases h : parser.state <;> simp_all [State.inHeaders]

/-- The header lines keep the trailing flag and everything the phase depends on. -/
structure SameBlock (parser after : RequestParser) : Prop where
  state : after.state.inHeaders = true
  trailing : after.flags.trailing = parser.flags.trailing
  status : after.headersStatus = parser.headersStatus
  errno : after.httpErrno = parser.httpErrno
  contentLength : after.contentLength ≤ ULLONG_MAX

namespace SameBlock

variable {after : RequestParser}

theorem phase (hSame : SameBlock parser after) (hState : parser.state.inHeaders = true) :
    after.phase = parser.phase := by
  rw [phase_of_headers hSame.state, phase_of_headers hState, hSame.trailing]

theorem sound (hSame : SameBlock parser after) (hSound : parser.Sound)
    (hState : parser.state.inHeaders = true)
    (hField : after.state = .headerField → after.headerState.ofField = true)
    (hValue : after.state = .headerValue → after.headerState.ofValue = true) : after.Sound := by
  refine ⟨hSame.contentLength, atState_of_headers hSame.state ?_ hField hValue⟩
  rw [hSame.trailing, hSame.status]
  exact trailing_of_headers hState hSound

/-- A step inside of a header block, which has pieces of names and values. -/
theorem legal (hSame : SameBlock parser after) (hSound : parser.Sound)
    (hState : parser.state.inHeaders = true) {slot : Option DataCallback} {calls : List Call}
    (hField : after.state = .headerField → after.headerState.ofField = true)
    (hValue : after.state = .headerValue → after.headerState.ofValue = true)
    (hCalls : ∀ phase, phase = .body ∨ phase = .head →
      calls.foldlM Call.next (phase, slot) = some (phase, after.state.open)) :
    (after.go calls).Legal parser slot := by
  refine legal_go (hSame.sound hSound hState hField hValue) hSame.errno ?_
  rw [hSame.phase hState]
  refine hCalls _ ?_
  rw [phase_of_headers hState]
  cases parser.flags.trailing <;> simp

end SameBlock

theorem headersAlmostDone_legal (hSound : parser.Sound) (hState : parser.state = .headersAlmostDone) :
    (parser.headersAlmostDone ch).Legal parser none := by
  have hIn : parser.state.inHeaders = true := by rw [hState]; rfl
  have hPhase := phase_of_headers hIn
  have hTrailing := trailing_of_headers hIn hSound
  unfold headersAlmostDone
  refine legal_strictCheck (hSound.failed _) ?_
  split_ifs with hDone hBoth
  · have hDoneLegal := @messageDone_legal { parser with state := .messageDone }
      hSound.contentLength (hTrailing hDone) rfl
    refine hDoneLegal.congr ?_ rfl
    rw [hPhase, if_pos hDone]
    rfl
  · exact legal_refuse hSound (by decide)
  · refine legal_stop ⟨hSound.contentLength, trivial⟩ ?_ rfl (by simp)
    rw [hPhase, if_neg hDone]
    rfl

theorem headerFieldStart_legal (hSound : parser.Sound) (hState : parser.state = .headerFieldStart) :
    (parser.headerFieldStart ch).Legal parser none := by
  have hIn : parser.state.inHeaders = true := by rw [hState]; rfl
  have hTrailing := trailing_of_headers hIn hSound
  have hPhase := phase_of_headers hIn
  unfold headerFieldStart
  simp only
  split_ifs with hCR hLF hToken
  · exact legal_move ⟨hSound.contentLength, hTrailing⟩ rfl (by rw [hPhase]; rfl) rfl
  · refine (@headersAlmostDone_legal { parser with state := .headersAlmostDone } ch
      ⟨hSound.contentLength, hTrailing⟩ rfl).congr ?_ rfl
    rw [hPhase]
    rfl
  · exact legal_refuse hSound (by decide)
  all_goals
    refine SameBlock.legal ?_ hSound hIn (fun _ => rfl) nofun ?_
    · exact ⟨rfl, rfl, rfl, rfl, hSound.contentLength⟩
    · rintro _ (rfl | rfl) <;> rfl

theorem headerValueStart_legal (hSound : parser.Sound) (hIn : parser.state.inHeaders = true) :
    (parser.headerValueStart ch).Legal parser none := by
  have hDigit : digit ch ≤ ULLONG_MAX := by
    have hByte := ch.toNat_lt
    unfold digit ULLONG_MAX
    omega
  have hGo : ∀ after, SameBlock parser after → after.state = .headerValue →
      after.headerState.ofValue = true → (after.go [.mark .headerValue]).Legal parser none := by
    intro after hSame hState hValue
    refine hSame.legal hSound hIn (by simp [hState]) (fun _ => hValue) ?_
    intro phase hPhase
    rw [hState]
    rfl
  have hLength := hSound.contentLength
  unfold headerValueStart
  cases hHeader : parser.headerState with
  | upgrade => exact hGo _ ⟨rfl, rfl, rfl, rfl, hLength⟩ rfl rfl
  | transferEncoding =>
      refine hGo _ ⟨rfl, rfl, rfl, rfl, hLength⟩ rfl ?_
      simp only
      split_ifs <;> rfl
  | contentLength =>
      have hFail : ∀ error, error ≠ .ok →
          (({ parser with state := .headerValue, index := 0, headerState := .contentLength } :
            RequestParser).fail [.mark .headerValue] error).Legal parser none := by
        intro error hError
        have hSame : SameBlock parser
            { parser with state := .headerValue, index := 0, headerState := .contentLength } :=
          ⟨rfl, rfl, rfl, rfl, hLength⟩
        refine legal_fail (Sound.failed ?_ _) hError ⟨some .headerValue, ?_⟩
        · exact hSame.sound hSound hIn nofun (fun _ => rfl)
        · rw [hSame.phase hIn]
          rfl
      simp only
      split_ifs
      · exact hFail .invalidContentLength (by decide)
      · exact hFail .unexpectedContentLength (by decide)
      · exact hGo _ ⟨rfl, rfl, rfl, rfl, hDigit⟩ rfl rfl
  | connection =>
      refine hGo _ ⟨rfl, rfl, rfl, rfl, hLength⟩ rfl ?_
      simp only
      split_ifs <;> rfl
  | matchingConnectionTokenStart =>
      exact hGo _ ⟨rfl, rfl, rfl, rfl, hLength⟩ rfl rfl
  | _ => exact hGo _ ⟨rfl, rfl, rfl, rfl, hLength⟩ rfl rfl

theorem headerValueDiscardWs_legal (hSound : parser.Sound)
    (hState : parser.state = .headerValueDiscardWs) :
    (parser.headerValueDiscardWs ch).Legal parser none := by
  have hIn : parser.state.inHeaders = true := by rw [hState]; rfl
  have hTrailing := trailing_of_headers hIn hSound
  have hPhase := phase_of_headers hIn
  unfold headerValueDiscardWs
  split_ifs
  · exact legal_move hSound rfl rfl (by rw [hState]; rfl)
  · exact legal_move ⟨hSound.contentLength, hTrailing⟩ rfl (by rw [hPhase]; rfl) rfl
  · exact legal_move ⟨hSound.contentLength, hTrailing⟩ rfl (by rw [hPhase]; rfl) rfl
  · exact headerValueStart_legal hSound hIn

theorem headerAlmostDone_legal (hSound : parser.Sound) (hState : parser.state = .headerAlmostDone) :
    (parser.headerAlmostDone ch).Legal parser none := by
  have hIn : parser.state.inHeaders = true := by rw [hState]; rfl
  have hTrailing := trailing_of_headers hIn hSound
  unfold headerAlmostDone
  split_ifs
  · exact legal_refuse hSound (by decide)
  · refine legal_move ⟨hSound.contentLength, hTrailing⟩ rfl ?_ rfl
    rw [phase_of_headers hIn]
    rfl

theorem valueFlags_trailing : parser.valueFlags.trailing = parser.flags.trailing := by
  unfold valueFlags
  cases parser.headerState <;> rfl

/-- The end of a header line sets a flag and goes on to the next line. -/
theorem nextLine_legal (hSound : parser.Sound) (hIn : parser.state.inHeaders = true) :
    (headerFieldStart
      { parser with flags := parser.valueFlags, state := .headerFieldStart } ch).Legal parser none := by
  have hTrailing := trailing_of_headers hIn hSound
  have hNext : ({ parser with flags := parser.valueFlags, state := .headerFieldStart } :
      RequestParser).Sound := by
    refine ⟨hSound.contentLength, ?_⟩
    change parser.valueFlags.trailing = true → parser.headersStatus ≠ -1
    rw [valueFlags_trailing]
    exact hTrailing
  refine (headerFieldStart_legal hNext rfl).congr ?_ rfl
  rw [phase_of_headers hIn, phase_of_headers rfl, valueFlags_trailing]

theorem headerValueLws_legal (hSound : parser.Sound) (hState : parser.state = .headerValueLws) :
    (parser.headerValueLws ch).Legal parser none := by
  have hIn : parser.state.inHeaders = true := by rw [hState]; rfl
  have hTrailing := trailing_of_headers hIn hSound
  unfold headerValueLws
  split_ifs
  · have hStart : ({ parser with state := .headerValueStart } : RequestParser).Sound :=
      ⟨hSound.contentLength, hTrailing⟩
    refine (headerValueStart_legal hStart rfl).congr ?_ rfl
    rw [phase_of_headers hIn, phase_of_headers rfl]
  · exact nextLine_legal hSound hIn

theorem headerValueDiscardWsAlmostDone_legal (hSound : parser.Sound)
    (hState : parser.state = .headerValueDiscardWsAlmostDone) :
    (parser.headerValueDiscardWsAlmostDone ch).Legal parser none := by
  have hIn : parser.state.inHeaders = true := by rw [hState]; rfl
  have hTrailing := trailing_of_headers hIn hSound
  refine legal_strictCheck (hSound.failed _) ?_
  refine legal_move ⟨hSound.contentLength, hTrailing⟩ rfl ?_ rfl
  rw [phase_of_headers hIn]
  rfl

/-- The piece of an empty value comes before what the next line reports. -/
theorem legal_emptyValue {effect : Effect} (hIn : parser.state.inHeaders = true)
    (hLegal : effect.Legal parser none) :
    Effect.Legal parser none
      { effect with calls := .mark .headerValue :: .data .headerValue :: effect.calls } where
  sound := hLegal.sound
  path := by
    have hEmpty : [Call.mark .headerValue, .data .headerValue].foldlM Call.next (parser.phase, none) =
        some (parser.phase, none) := by
      rw [phase_of_headers hIn]
      cases parser.flags.trailing <;> rfl
    have hNotRefused : parser.phase ≠ .refused := by
      rw [phase_of_headers hIn]
      split_ifs <;> decide
    rcases hLegal.path with ⟨slot', hCalls, hRest⟩ | ⟨hRefused, -⟩
    · refine Or.inl ⟨slot', ?_, hRest⟩
      change ([Call.mark .headerValue, .data .headerValue] ++ effect.calls).foldlM Call.next _ = _
      rw [List.foldlM_append, hEmpty]
      exact hCalls
    · exact absurd hRefused hNotRefused
  next := hLegal.next
  error := hLegal.error
  stop := hLegal.stop

theorem headerValueDiscardLws_legal (hSound : parser.Sound)
    (hState : parser.state = .headerValueDiscardLws) :
    (parser.headerValueDiscardLws ch).Legal parser none := by
  have hIn : parser.state.inHeaders = true := by rw [hState]; rfl
  have hTrailing := trailing_of_headers hIn hSound
  unfold headerValueDiscardLws
  split_ifs
  · refine legal_move ⟨hSound.contentLength, hTrailing⟩ rfl ?_ rfl
    rw [phase_of_headers hIn]
    rfl
  · exact legal_emptyValue hIn (nextLine_legal hSound hIn)

/-- What is left of a message behind its header block. -/
theorem headersDone_legal (hLength : parser.contentLength ≤ ULLONG_MAX)
    (hStatus : parser.headersStatus ≠ -1) (hState : parser.state = .headersDone) :
    (parser.headersDone ch).Legal parser none := by
  have hPhase : parser.phase = .body := by simp [phase, hState]
  have hSound : parser.Sound := ⟨hLength, by simpa [AtState, hState] using hStatus⟩
  obtain ⟨hDone, hBetween, hOpen⟩ :=
    @newMessage_sound { parser with nread := 0 } hLength hStatus
  have hPath : [Call.notify .onMessageComplete].foldlM Call.next (parser.phase, none) =
      some (.between, none) := by
    rw [hPhase]
    rfl
  have hComplete : Effect.Legal parser none
      (RequestParser.go { parser with
        nread := 0, state := ({ parser with nread := 0 } : RequestParser).newMessage }
        [.notify .onMessageComplete]) :=
    legal_go hDone rfl (by rw [hPath, hBetween, hOpen])
  refine legal_strictCheck (hSound.failed _) ?_
  simp only
  split_ifs with hUpgrade hSkip hChunked hZero hKnown
  · exact legal_stop hDone (by rw [hPath, hBetween]) hOpen (fun _ => hBetween)
  · exact hComplete
  · exact legal_move ⟨hLength, hStatus, hChunked⟩ rfl (by rw [hPhase]; rfl) rfl
  · exact hComplete
  · refine legal_move ⟨hLength, hStatus, ?_, hZero⟩ rfl (by rw [hPhase]; rfl) rfl
    exact lt_of_le_of_ne hLength hKnown
  · exact hComplete

theorem onHeadersCompleted_legal (hSound : parser.Sound)
    (hState : parser.state = .onHeadersCompleted) :
    (parser.onHeadersCompleted ch).Legal parser none := by
  have hLength := hSound.contentLength
  have hStatus : parser.headersStatus ≠ -1 := by simpa [AtState, hState] using hSound.atState
  have hGo : ∀ after : RequestParser, after.state = .headersDone → parser.headersStatus ≠ 3 →
      after.contentLength = parser.contentLength → after.headersStatus = parser.headersStatus →
      after.httpErrno = parser.httpErrno → (after.headersDone ch).Legal parser none := by
    intro after hAfter hNot hSame hSameStatus hErrno
    rw [← hSame] at hLength
    rw [← hSameStatus] at hStatus
    refine (headersDone_legal hLength hStatus hAfter).congr ?_ hErrno
    simp [phase, hState, hAfter, hNot]
  unfold onHeadersCompleted
  split
  · exact hGo _ rfl (by omega) rfl rfl rfl
  · next hThree =>
      obtain ⟨hDone, hBetween, hOpen⟩ := newMessage_sound hLength hStatus
      refine ⟨hDone, Or.inr ⟨?_, rfl, hBetween, rfl⟩, by rintro ⟨⟩, by rintro ⟨⟩, fun _ _ => ⟨hOpen, fun _ => hBetween⟩⟩
      simp [phase, hState, hThree]
  · exact hGo _ rfl (by omega) rfl rfl rfl
  · exact hGo _ rfl (by omega) rfl rfl rfl
  · exact legal_stop (hSound.failed _) rfl (by simp [State.open, hState]) (by simp)

theorem unhex_lt {value : Nat} (h : unhex ch = some value) : value < 16 := by
  unfold unhex isNum at h
  have hA : chr 'A' = 65 := rfl
  have hF : chr 'F' = 70 := rfl
  have ha : chr 'a' = 97 := rfl
  have hf : chr 'f' = 102 := rfl
  have h0 : chr '0' = 48 := rfl
  have h9 : chr '9' = 57 := rfl
  simp only [hA, hF, ha, hf, h0, h9, UInt8.le_iff_toNat_le, Bool.and_eq_true, decide_eq_true_eq]
    at h
  split_ifs at h with hNum hUpper hLower hHigh
  · obtain rfl := Option.some.inj h
    have hNine : (57 : UInt8).toNat = 57 := rfl
    omega
  · obtain rfl := Option.some.inj h
    have hBig : (70 : UInt8).toNat = 70 := rfl
    omega
  · obtain rfl := Option.some.inj h
    have hSmall : (102 : UInt8).toNat = 102 := rfl
    omega
  · obtain rfl := Option.some.inj h
    omega

section Chunk

/-- The states between the chunks of a body and in the lines with their sizes. -/
theorem phase_of_chunk (hState : parser.state = .chunkSizeStart ∨ parser.state = .chunkSize ∨
    parser.state = .chunkParameters ∨ parser.state = .chunkSizeAlmostDone ∨
    parser.state = .chunkDataAlmostDone ∨ parser.state = .chunkDataDone) :
    parser.phase = .body ∧ parser.state.open = none := by
  rcases hState with h | h | h | h | h | h <;> exact ⟨by simp [phase, h], by rw [h]; rfl⟩

theorem chunkSizeStart_legal (hSound : parser.Sound) (hState : parser.state = .chunkSizeStart) :
    (parser.chunkSizeStart ch).Legal parser none := by
  obtain ⟨hStatus, hChunked⟩ : parser.headersStatus ≠ -1 ∧ parser.flags.chunked = true := by
    simpa [AtState, hState] using hSound.atState
  have hPhase := phase_of_chunk (Or.inl hState)
  unfold chunkSizeStart
  split
  · exact legal_refuse hSound (by decide)
  · next value hValue =>
      have hSmall : value < ULLONG_MAX := by
        have hDigit := unhex_lt hValue
        unfold ULLONG_MAX
        omega
      exact legal_move ⟨hSmall.le, hStatus, hChunked, hSmall⟩ rfl (by rw [hPhase.1]; rfl) rfl

theorem chunkSize_legal (hSound : parser.Sound) (hState : parser.state = .chunkSize) :
    (parser.chunkSize ch).Legal parser none := by
  obtain ⟨hStatus, hChunked, hSize⟩ : parser.headersStatus ≠ -1 ∧ parser.flags.chunked = true ∧
      parser.contentLength < ULLONG_MAX := by simpa [AtState, hState] using hSound.atState
  have hPhase := phase_of_chunk (Or.inr (Or.inl hState))
  have hMove : ∀ after : State, after = .chunkSizeAlmostDone ∨ after = .chunkParameters →
      (({ parser with state := after } : RequestParser).go []).Legal parser none := by
    rintro after (rfl | rfl)
    · exact legal_move ⟨hSize.le, hStatus, hChunked, hSize⟩ rfl (by rw [hPhase.1]; rfl) rfl
    · exact legal_move ⟨hSize.le, hStatus, hChunked, hSize⟩ rfl (by rw [hPhase.1]; rfl) rfl
  unfold chunkSize
  cases hHex : unhex ch with
  | none =>
      simp only
      split_ifs
      · exact hMove _ (Or.inl rfl)
      · exact hMove _ (Or.inr rfl)
      · exact legal_refuse hSound (by decide)
  | some value =>
      simp only
      split_ifs with hCR hOverflow
      · exact hMove _ (Or.inl rfl)
      · exact legal_refuse hSound (by decide)
      · have hDigit := unhex_lt hHex
        have hSmall : (parser.contentLength * 16 + value) % 2 ^ 64 < ULLONG_MAX := by
          unfold ULLONG_MAX at hOverflow ⊢
          omega
        refine legal_move ⟨hSmall.le, ?_⟩ rfl ?_ (by rw [hState]; rfl)
        · simpa [AtState, hState] using ⟨hStatus, hChunked, hSmall⟩
        · rw [hPhase.1]
          simp [phase, hState]

theorem chunkParameters_legal (hSound : parser.Sound) (hState : parser.state = .chunkParameters) :
    (parser.chunkParameters ch).Legal parser none := by
  have hAt : parser.headersStatus ≠ -1 ∧ parser.flags.chunked = true ∧
      parser.contentLength < ULLONG_MAX := by simpa [AtState, hState] using hSound.atState
  have hPhase := phase_of_chunk (Or.inr (Or.inr (Or.inl hState)))
  unfold chunkParameters
  split_ifs
  · exact legal_move ⟨hSound.contentLength, hAt⟩ rfl (by rw [hPhase.1]; rfl) rfl
  · exact legal_move hSound rfl rfl hPhase.2

theorem chunkSizeAlmostDone_legal (hSound : parser.Sound)
    (hState : parser.state = .chunkSizeAlmostDone) :
    (parser.chunkSizeAlmostDone ch).Legal parser none := by
  obtain ⟨hStatus, hChunked, hSize⟩ : parser.headersStatus ≠ -1 ∧ parser.flags.chunked = true ∧
      parser.contentLength < ULLONG_MAX := by simpa [AtState, hState] using hSound.atState
  have hPhase := phase_of_chunk (Or.inr (Or.inr (Or.inr (Or.inl hState))))
  refine legal_strictCheck (hSound.failed _) ?_
  simp only
  split_ifs with hZero
  · exact legal_move ⟨hSize.le, fun _ => hStatus⟩ rfl (by rw [hPhase.1]; rfl) rfl
  · exact legal_move ⟨hSize.le, hStatus, hChunked, hSize, hZero⟩ rfl (by rw [hPhase.1]; rfl) rfl

/-- The mark of the body is there if the chunk has data in the same buffer. -/
theorem chunkDataAlmostDone_legal (hSound : parser.Sound)
    (hState : parser.state = .chunkDataAlmostDone) {slot : Option DataCallback}
    (hSlot : slot = none ∨ slot = some .body) :
    (parser.chunkDataAlmostDone ch).Legal parser slot := by
  obtain ⟨hStatus, hChunked, -⟩ : parser.headersStatus ≠ -1 ∧ parser.flags.chunked = true ∧ _ := by
    simpa [AtState, hState] using hSound.atState
  have hPhase := phase_of_chunk (Or.inr (Or.inr (Or.inr (Or.inr (Or.inl hState)))))
  refine legal_strictCheck (hSound.failed _) ?_
  refine legal_go ⟨hSound.contentLength, hStatus, hChunked⟩ rfl ?_
  rw [hPhase.1]
  rcases hSlot with rfl | rfl <;> rfl

theorem chunkDataDone_legal (hSound : parser.Sound) (hState : parser.state = .chunkDataDone) :
    (parser.chunkDataDone ch).Legal parser none := by
  obtain ⟨hStatus, hChunked⟩ : parser.headersStatus ≠ -1 ∧ parser.flags.chunked = true := by
    simpa [AtState, hState] using hSound.atState
  have hPhase := phase_of_chunk (Or.inr (Or.inr (Or.inr (Or.inr (Or.inr hState)))))
  refine legal_strictCheck (hSound.failed _) ?_
  exact legal_move ⟨hSound.contentLength, hStatus, hChunked⟩ rfl (by rw [hPhase.1]; rfl) rfl

end Chunk

/-- The data callback that has a mark: the one of the state, or the body, which
has none at the start of a buffer. -/
def State.Marks (state : State) (slot : Option DataCallback) : Prop :=
  slot = state.open ∨
    slot = some .body ∧ (state = .chunkDataAlmostDone ∨ state = .chunkData ∨ state = .bodyIdentity)

/-- Every case of the switch, for all states with cases for one byte. -/
theorem byteSwitch_legal (hSound : parser.Sound) {slot : Option DataCallback} {effect : Effect}
    (hSlot : parser.state.Marks slot) (hEffect : parser.byteSwitch ch = some effect) :
    effect.Legal parser slot := by
  have hOpen : parser.state ≠ .chunkDataAlmostDone → slot = parser.state.open := by
    intro hNot
    rcases hSlot with hSame | ⟨-, hBody | hChunk | hIdentity⟩
    · exact hSame
    · exact absurd hBody hNot
    · simp [byteSwitch, hChunk] at hEffect
    · simp [byteSwitch, hIdentity] at hEffect
  unfold byteSwitch at hEffect
  cases hState : parser.state <;> rw [hState] at hEffect hOpen <;> cases hEffect
  case dead => rw [hOpen (by decide)]; exact dead_legal hSound hState
  case startReq => rw [hOpen (by decide)]; exact startReq_legal hSound hState
  case reqMethod => rw [hOpen (by decide)]; exact reqMethod_legal hSound hState
  case reqSpacesBeforeUrl =>
    rw [hOpen (by decide)]
    exact reqSpacesBeforeUrl_legal hSound hState
  case reqSchema | reqSchemaSlash | reqSchemaSlashSlash | reqServerStart =>
    rw [hOpen (by decide)]
    exact reqSchema_legal hSound (by rw [hState]; rfl)
  case reqServer | reqServerWithAt | reqPath | reqQueryStringStart | reqQueryString
      | reqFragmentStart | reqFragment =>
    rw [hOpen (by decide)]
    exact reqServer_legal hSound (by rw [hState]; rfl)
  case reqHttpStart => rw [hOpen (by decide)]; exact reqHttpStart_legal hSound hState
  case reqHttpH | reqHttpHT | reqHttpHTT | reqHttpHTTP =>
    rw [hOpen (by decide)]
    exact legal_constant hSound (by rw [hState]; rfl) rfl rfl
  case reqFirstHttpMajor => rw [hOpen (by decide)]; exact reqFirstHttpMajor_legal hSound hState
  case reqHttpMajor => rw [hOpen (by decide)]; exact reqHttpMajor_legal hSound hState
  case reqFirstHttpMinor => rw [hOpen (by decide)]; exact reqFirstHttpMinor_legal hSound hState
  case reqHttpMinor => rw [hOpen (by decide)]; exact reqHttpMinor_legal hSound hState
  case reqLineAlmostDone => rw [hOpen (by decide)]; exact reqLineAlmostDone_legal hSound hState
  case headerFieldStart => rw [hOpen (by decide)]; exact headerFieldStart_legal hSound hState
  case headerValueDiscardWs =>
    rw [hOpen (by decide)]
    exact headerValueDiscardWs_legal hSound hState
  case headerValueDiscardWsAlmostDone =>
    rw [hOpen (by decide)]
    exact headerValueDiscardWsAlmostDone_legal hSound hState
  case headerValueDiscardLws =>
    rw [hOpen (by decide)]
    exact headerValueDiscardLws_legal hSound hState
  case headerValueStart =>
    rw [hOpen (by decide)]
    exact headerValueStart_legal hSound (by rw [hState]; rfl)
  case headerValueLws => rw [hOpen (by decide)]; exact headerValueLws_legal hSound hState
  case headerAlmostDone => rw [hOpen (by decide)]; exact headerAlmostDone_legal hSound hState
  case chunkSizeStart => rw [hOpen (by decide)]; exact chunkSizeStart_legal hSound hState
  case chunkSize => rw [hOpen (by decide)]; exact chunkSize_legal hSound hState
  case chunkParameters => rw [hOpen (by decide)]; exact chunkParameters_legal hSound hState
  case chunkSizeAlmostDone => rw [hOpen (by decide)]; exact chunkSizeAlmostDone_legal hSound hState
  case headersAlmostDone => rw [hOpen (by decide)]; exact headersAlmostDone_legal hSound hState
  case waitForOnHeadersCompleted =>
    rw [hOpen (by decide)]
    exact legal_stop hSound rfl (by simp [State.open, hState]) (by simp)
  case onHeadersCompleted => rw [hOpen (by decide)]; exact onHeadersCompleted_legal hSound hState
  case headersDone =>
    rw [hOpen (by decide)]
    exact headersDone_legal hSound.contentLength (by simpa [AtState, hState] using hSound.atState)
      hState
  case chunkDataAlmostDone =>
    refine chunkDataAlmostDone_legal hSound hState ?_
    rcases hSlot with hNone | ⟨hBody, -⟩
    · left
      rw [hNone, hState]
      rfl
    · exact Or.inr hBody
  case chunkDataDone => rw [hOpen (by decide)]; exact chunkDataDone_legal hSound hState
  case messageDone =>
    rw [hOpen (by decide)]
    exact messageDone_legal hSound.contentLength
      (by simpa [AtState, hState] using hSound.atState) (by simp [phase, hState])

end Cases

end Httpuv.RequestParser
