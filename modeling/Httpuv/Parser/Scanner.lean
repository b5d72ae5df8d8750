import Httpuv.Parser.Callbacks
import Httpuv.Semantics.Coalesce
import Httpuv.Semantics.System

/-! What `http_parser` computes, one byte after the other: without buffers, marks
and the limit on headers, and with every piece of data whole. -/
namespace Httpuv

open Semantics

/-- Two pieces of the same data that follow each other. -/
def ParserEvent.join : ParserEvent → ParserEvent → Option ParserEvent
  | .onUrl first, .onUrl second => some (.onUrl (first ++ second))
  | .onHeaderField first, .onHeaderField second => some (.onHeaderField (first ++ second))
  | .onHeaderValue first, .onHeaderValue second => some (.onHeaderValue (first ++ second))
  | .onBody first, .onBody second => some (.onBody (first ++ second))
  | _, _ => none

def ParserEvent.joining : Joining ParserEvent where
  join := ParserEvent.join
  assoc first second both third h := by
    cases first <;> cases second <;> simp only [ParserEvent.join, reduceCtorEq] at h <;>
      obtain rfl := Option.some.inj h <;> cases third <;> simp [ParserEvent.join]

namespace RequestParser

theorem join_event (callback : DataCallback) (first second : Bytes) :
    ParserEvent.joining.join (callback.event first) (callback.event second) =
      some (callback.event (first ++ second)) := by
  cases callback <;> rfl

/-- `s_header_field`, for one byte. -/
def scanField (parser : RequestParser) (ch : UInt8) : Effect :=
  if isToken ch then (parser.headerFieldChar ch).go []
  else if ch = chr ':' then
    { parser with state := .headerValueDiscardWs }.go [.data .headerField]
  else parser.fail [] .invalidHeaderToken

/-- `s_header_value`, for one byte. Behind `memchr` no byte of a value is checked. -/
def scanValue (parser : RequestParser) (ch : UInt8) : Effect :=
  if ch = CR then { parser with state := .headerAlmostDone }.go [.data .headerValue]
  else if ch = LF then { parser with state := .headerValueLws }.go [.data .headerValue]
  else if parser.headerState = .general then parser.go []
  else if !isHeaderChar ch then parser.fail [] .invalidHeaderToken
  else
    match headerValueChar ⟨parser, parser.headerState⟩ ch with
    | none => parser.fail [] .invalidContentLength
    | some value => { value.parser with headerState := value.hState }.go []

/-- `s_body_identity`, for one byte. -/
def scanIdentity (parser : RequestParser) (ch : UInt8) : Effect :=
  let left : RequestParser := { parser with contentLength := parser.contentLength - 1 }
  if left.contentLength = 0 then
    { left.messageDone with calls := .notify (.onBody [ch]) :: left.messageDone.calls }
  else left.go [.notify (.onBody [ch])]

/-- `s_chunk_data`, for one byte. -/
def scanChunk (parser : RequestParser) (ch : UInt8) : Effect :=
  let left : RequestParser := { parser with contentLength := parser.contentLength - 1 }
  if left.contentLength = 0 then
    { left with state := .chunkDataAlmostDone }.go [.notify (.onBody [ch])]
  else left.go [.notify (.onBody [ch])]

/-- The switch over the current state, for one byte. -/
def scanByte (parser : RequestParser) (ch : UInt8) : Effect :=
  match parser.byteSwitch ch with
  | some effect => effect
  | none =>
      match parser.state with
      | .headerField => parser.scanField ch
      | .headerValue => parser.scanValue ch
      | .bodyIdentity => parser.scanIdentity ch
      | _ => parser.scanChunk ch

/-- A byte of a header is counted. -/
def counted (parser : RequestParser) : RequestParser :=
  if parser.state.parsingHeader then { parser with nread := parser.nread + 1 } else parser

/-- The parser with the piece of data it is in. -/
structure Scanner where
  parser : RequestParser
  pending : Pending
  deriving DecidableEq, Repr

namespace Scanner

/-- What the next byte does. -/
def effect (scanner : Scanner) (ch : UInt8) : Effect := scanner.parser.counted.scanByte ch

/-- A byte that leads on to the next one. -/
def step (scanner : Scanner) (ch : UInt8) : Option (Scanner × List ParserEvent) :=
  let effect := scanner.effect ch
  match effect.control with
  | .next =>
      some (⟨effect.parser, ((scanner.pending.reportAll effect.calls).1).advance [ch]⟩,
        (scanner.pending.reportAll effect.calls).2)
  | _ => none

def scan : Scanner → Bytes → Option (Scanner × List ParserEvent) := System.exec step

/-- A scanner that a parser can be followed by. -/
structure Sound (scanner : Scanner) : Prop where
  parser : scanner.parser.Sound
  slot : scanner.pending.map Prod.fst = scanner.parser.state.open

end Scanner

/-- The same parser with another count. The flag that it is running goes with it. -/
def recount (parser : RequestParser) (nread : Nat) (isRunning : Bool) : RequestParser :=
  { parser with nread, isRunning }

/-- Whether a byte starts the count anew. -/
def resets (parser : RequestParser) (ch : UInt8) : Bool :=
  ch = LF && match parser.state with
    | .headersDone | .chunkSizeAlmostDone | .chunkDataDone => true
    | .onHeadersCompleted =>
        parser.headersStatus = 0 || parser.headersStatus = 1 || parser.headersStatus = 2
    | _ => false

section Recount

variable {parser : RequestParser} {ch : UInt8} {nread : Nat} {isRunning : Bool}

/-- What a case does to a parser with another count. -/
def Effect.recount (effect : Effect) (nread : Nat) (isRunning : Bool) : Effect :=
  { effect with parser := effect.parser.recount nread isRunning }

theorem recount_ite (condition : Prop) [Decidable condition] (first second : Effect) :
    (if condition then first else second).recount nread isRunning =
      if condition then first.recount nread isRunning else second.recount nread isRunning := by
  split_ifs <;> rfl

theorem strictCheck_recount {expected : UInt8} {effect : Effect} :
    (parser.recount nread isRunning).strictCheck ch expected (effect.recount nread isRunning) =
      (parser.strictCheck ch expected effect).recount nread isRunning := by
  unfold strictCheck
  rw [recount_ite]
  rfl

theorem constant_recount {expected : UInt8} {after : State} {calls : List Call} :
    (parser.recount nread isRunning).strictCheck ch expected
        ({ parser.recount nread isRunning with state := after }.go calls) =
      (parser.strictCheck ch expected ({ parser with state := after }.go calls)).recount nread
        isRunning := by
  rw [← strictCheck_recount]
  rfl

theorem startReq_recount : (parser.recount nread isRunning).startReq ch =
    (parser.startReq ch).recount nread isRunning := by
  unfold startReq
  cases firstMethods.find? (fun entry => entry.1 == ch) <;> simp only [recount_ite] <;> rfl

theorem reqMethod_recount : (parser.recount nread isRunning).reqMethod ch =
    (parser.reqMethod ch).recount nread isRunning := by
  unfold reqMethod
  dsimp only [recount]
  cases methodChanges.find? (fun entry => entry.1 == (parser.method, parser.index, ch)) <;>
    simp only [recount_ite] <;> rfl

theorem headersAlmostDone_recount : (parser.recount nread isRunning).headersAlmostDone ch =
    (parser.headersAlmostDone ch).recount nread isRunning := by
  unfold headersAlmostDone
  rw [← strictCheck_recount]
  simp only [recount_ite]
  rfl

theorem headerFieldStart_recount : (parser.recount nread isRunning).headerFieldStart ch =
    (parser.headerFieldStart ch).recount nread isRunning := by
  unfold headerFieldStart
  simp only [recount_ite, ← headersAlmostDone_recount]
  rfl

theorem headerValueStart_recount : (parser.recount nread isRunning).headerValueStart ch =
    (parser.headerValueStart ch).recount nread isRunning := by
  unfold headerValueStart
  dsimp only [recount]
  cases parser.headerState <;> simp only [recount_ite] <;> rfl

theorem headersDone_recount : (parser.recount nread isRunning).headersDone ch =
    (parser.headersDone ch).recount (if ch = LF then 0 else nread) isRunning := by
  unfold headersDone strictCheck
  by_cases hLF : ch = LF
  · simp only [hLF, ne_eq, not_true, if_true, if_false, recount_ite]
    rfl
  · simp only [hLF, ne_eq, not_false_eq_true, if_true, if_false]
    rfl

theorem chunkSize_recount : (parser.recount nread isRunning).chunkSize ch =
    (parser.chunkSize ch).recount nread isRunning := by
  unfold chunkSize
  cases unhex ch <;> simp only [recount_ite] <;> rfl

/-- The headers status, without its numbers. -/
theorem onHeadersCompleted_eq (parser : RequestParser) (ch : UInt8) :
    parser.onHeadersCompleted ch =
      if parser.headersStatus = 0 ∨ parser.headersStatus = 1 ∨ parser.headersStatus = 2 then
        headersDone { parser with
          upgrade := parser.upgrade || parser.headersStatus = 2
          flags := { parser.flags with
            skipBody := parser.flags.skipBody || parser.headersStatus ≠ 0 }
          state := .headersDone } ch
      else if parser.headersStatus = 3 then
        ⟨{ parser with state := parser.newMessage }, [], .stop true⟩
      else ⟨{ parser with httpErrno := .cbHeadersComplete }, [], .stop false⟩ := by
  unfold onHeadersCompleted
  split
  · next hZero => simp [hZero]
  · next hThree => simp [hThree]
  · next hTwo => simp [hTwo]
  · next hOne => simp [hOne]
  · next hZero hThree hTwo hOne =>
      rw [if_neg (by tauto), if_neg hThree]

theorem onHeadersCompleted_recount (hState : parser.state = .onHeadersCompleted) :
    (parser.recount nread isRunning).onHeadersCompleted ch =
      (parser.onHeadersCompleted ch).recount (if parser.resets ch then 0 else nread) isRunning := by
  rw [onHeadersCompleted_eq, onHeadersCompleted_eq]
  by_cases hDone : parser.headersStatus = 0 ∨ parser.headersStatus = 1 ∨ parser.headersStatus = 2
  · have hResets : parser.resets ch = decide (ch = LF) := by
      simp only [resets, hState]
      rcases hDone with h | h | h <;> simp [h]
    refine (if_pos hDone).trans ?_
    rw [if_pos hDone, hResets]
    simp only [decide_eq_true_eq]
    rw [← headersDone_recount]
    rfl
  · have hResets : parser.resets ch = false := by
      simp only [resets, hState]
      simp at hDone
      simp [hDone]
    refine (if_neg hDone).trans ?_
    rw [if_neg hDone, hResets, recount_ite]
    rfl

/-- The count is looked at by no case, and is set by three of them only. -/
theorem byteSwitch_recount (nread : Nat) (isRunning : Bool) :
    (parser.recount nread isRunning).byteSwitch ch = (parser.byteSwitch ch).map (fun effect =>
      effect.recount (if parser.resets ch then 0 else nread) isRunning) := by
  have hKept : ∀ {before effect : Effect}, before = effect.recount nread isRunning →
      parser.resets ch = false →
      some before = (some effect).map (fun effect =>
        effect.recount (if parser.resets ch then 0 else nread) isRunning) := by
    intro before effect hBefore hResets
    rw [hBefore, hResets]
    rfl
  have hStrict : ∀ {before effect : Effect}, before =
      effect.recount (if ch = LF then 0 else nread) isRunning → parser.resets ch = decide (ch = LF) →
      some before = (some effect).map (fun effect =>
        effect.recount (if parser.resets ch then 0 else nread) isRunning) := by
    intro before effect hBefore hResets
    rw [hBefore, hResets]
    simp
  unfold byteSwitch
  rw [show (parser.recount nread isRunning).state = parser.state from rfl]
  cases hState : parser.state
  case headersDone => exact hStrict headersDone_recount (by simp [resets, hState])
  case chunkSizeAlmostDone =>
    refine hStrict ?_ (by simp [resets, hState])
    unfold chunkSizeAlmostDone strictCheck
    by_cases hLF : ch = LF <;> simp only [hLF, ne_eq, not_true, not_false_eq_true, if_true, if_false,
      recount_ite] <;> rfl
  case chunkDataDone =>
    refine hStrict ?_ (by simp [resets, hState])
    unfold chunkDataDone strictCheck
    by_cases hLF : ch = LF <;> simp only [hLF, ne_eq, not_true, not_false_eq_true, if_true,
      if_false] <;> rfl
  case onHeadersCompleted =>
    rw [onHeadersCompleted_recount hState]
    rfl
  case headerField | headerValue | bodyIdentity | chunkData => rfl
  case dead =>
    refine hKept ?_ (by simp [resets, hState])
    unfold dead
    rw [recount_ite]
    rfl
  case startReq => exact hKept startReq_recount (by simp [resets, hState])
  case reqMethod => exact hKept reqMethod_recount (by simp [resets, hState])
  case headersAlmostDone => exact hKept headersAlmostDone_recount (by simp [resets, hState])
  case headerFieldStart => exact hKept headerFieldStart_recount (by simp [resets, hState])
  case headerValueStart => exact hKept headerValueStart_recount (by simp [resets, hState])
  case chunkSize => exact hKept chunkSize_recount (by simp [resets, hState])
  all_goals refine hKept ?_ (by simp [resets, hState])
  case reqSpacesBeforeUrl =>
    unfold reqSpacesBeforeUrl urlChar
    simp only [recount_ite]
    rfl
  case reqSchema | reqSchemaSlash | reqSchemaSlashSlash | reqServerStart =>
    unfold reqSchema urlChar
    simp only [recount_ite]
    rfl
  case reqServer | reqServerWithAt | reqPath | reqQueryStringStart | reqQueryString
      | reqFragmentStart | reqFragment =>
    unfold reqServer urlChar
    simp only [recount_ite]
    rfl
  case reqHttpStart =>
    unfold reqHttpStart
    simp only [recount_ite]
    rfl
  case reqHttpH | reqHttpHT | reqHttpHTT | reqHttpHTTP =>
    exact constant_recount
  case reqFirstHttpMajor =>
    unfold reqFirstHttpMajor
    simp only [recount_ite]
    rfl
  case reqHttpMajor =>
    unfold reqHttpMajor
    simp only [recount_ite]
    rfl
  case reqFirstHttpMinor =>
    unfold reqFirstHttpMinor
    simp only [recount_ite]
    rfl
  case reqHttpMinor =>
    unfold reqHttpMinor
    simp only [recount_ite]
    rfl
  case reqLineAlmostDone =>
    unfold reqLineAlmostDone
    simp only [recount_ite]
    rfl
  case headerValueDiscardWs =>
    unfold headerValueDiscardWs
    simp only [recount_ite, ← headerValueStart_recount]
    rfl
  case headerValueDiscardWsAlmostDone =>
    exact constant_recount
  case headerValueDiscardLws =>
    unfold headerValueDiscardLws
    by_cases hBlank : ch = chr ' ' ∨ ch = chr '\t'
    · rw [if_pos hBlank, if_pos hBlank]
      rfl
    · rw [if_neg hBlank, if_neg hBlank]
      exact congrArg (fun effect : Effect =>
        { effect with calls := .mark .headerValue :: .data .headerValue :: effect.calls })
        (@headerFieldStart_recount
          { parser with flags := parser.valueFlags, state := .headerFieldStart } ch nread isRunning)
  case headerValueLws =>
    unfold headerValueLws
    simp only [recount_ite, ← headerValueStart_recount, ← headerFieldStart_recount]
    rfl
  case headerAlmostDone =>
    unfold headerAlmostDone
    simp only [recount_ite]
    rfl
  case chunkSizeStart =>
    unfold chunkSizeStart
    cases unhex ch <;> rfl
  case chunkParameters =>
    unfold chunkParameters
    simp only [recount_ite]
    rfl
  case waitForOnHeadersCompleted => rfl
  case chunkDataAlmostDone => exact constant_recount
  case messageDone => rfl

theorem headerFieldChar_recount : (parser.recount nread isRunning).headerFieldChar ch =
    (parser.headerFieldChar ch).recount nread isRunning := by
  obtain ⟨_, _, headerState, _, _, _, _, _, _, _, _, _, _⟩ := parser
  unfold headerFieldChar
  cases headerState <;> first
    | rfl
    | (simp only [recount]; split_ifs <;> rfl)

theorem headerValueChar_recount (hState : HeaderState) :
    headerValueChar ⟨parser.recount nread isRunning, hState⟩ ch =
      (headerValueChar ⟨parser, hState⟩ ch).map (fun value =>
        ⟨value.parser.recount nread isRunning, value.hState⟩) := by
  unfold headerValueChar
  dsimp only [recount]
  cases hState <;> first
    | rfl
    | (simp only; split_ifs <;> rfl)

theorem scanByte_recount (nread : Nat) (isRunning : Bool) :
    (parser.recount nread isRunning).scanByte ch =
      (parser.scanByte ch).recount (if parser.resets ch then 0 else nread) isRunning := by
  unfold scanByte
  rw [byteSwitch_recount]
  cases hSwitch : parser.byteSwitch ch with
  | some effect => rfl
  | none =>
      rw [show (parser.recount nread isRunning).state = parser.state from rfl]
      cases hState : parser.state
      case headerField =>
        have hResets : parser.resets ch = false := by simp [resets, hState]
        rw [hResets]
        simp only [Option.map_none, scanField, recount_ite, headerFieldChar_recount]
        rfl
      case headerValue =>
        have hResets : parser.resets ch = false := by simp [resets, hState]
        rw [hResets]
        simp only [Option.map_none, scanValue, recount_ite]
        rw [show (parser.recount nread isRunning).headerState = parser.headerState from rfl,
          headerValueChar_recount]
        cases headerValueChar ⟨parser, parser.headerState⟩ ch <;> rfl
      case bodyIdentity =>
        have hResets : parser.resets ch = false := by simp [resets, hState]
        rw [hResets]
        simp only [Option.map_none, scanIdentity, recount_ite]
        rfl
      case chunkData =>
        have hResets : parser.resets ch = false := by simp [resets, hState]
        rw [hResets]
        simp only [Option.map_none, scanChunk, recount_ite]
        rfl
      all_goals simp [byteSwitch, hState] at hSwitch

end Recount

section Legal

variable {parser : RequestParser} {ch : UInt8}

theorem matchWord_cases (word : Bytes) (matching found failed : HeaderState) (index : Nat)
    (c : UInt8) : matchWord word matching found failed index c = matching ∨
      matchWord word matching found failed index c = found ∨
      matchWord word matching found failed index c = failed := by
  unfold matchWord
  split_ifs <;> simp

/-- A character of a name changes the index and the header state. -/
theorem headerFieldChar_eq (hField : parser.headerState.ofField = true) :
    ∃ index headerState, parser.headerFieldChar ch = { parser with index, headerState } ∧
      headerState.ofField = true := by
  have hWord : ∀ (word : Bytes) (matching found : HeaderState), matching.ofField = true →
      found.ofField = true → ∃ index headerState,
        ({ parser with
          index := parser.nextIndex
          headerState := matchWord word matching found .general parser.nextIndex (tokens ch) } :
          RequestParser) = { parser with index, headerState } ∧ headerState.ofField = true := by
    intro word matching found hMatching hFound
    refine ⟨_, _, rfl, ?_⟩
    rcases matchWord_cases word matching found .general parser.nextIndex (tokens ch) with h | h | h
    · rw [h, hMatching]
    · rw [h, hFound]
    · rw [h]
      rfl
  unfold headerFieldChar
  cases hState : parser.headerState <;> rw [hState] at hField <;> cases hField
  case general => exact ⟨_, _, rfl, by rw [hState]; rfl⟩
  case C => exact ⟨_, _, rfl, by split_ifs <;> rfl⟩
  case CO => exact ⟨_, _, rfl, by split_ifs <;> rfl⟩
  case CON => exact ⟨_, _, rfl, by split_ifs <;> rfl⟩
  case matchingConnection => exact hWord _ _ _ rfl rfl
  case matchingProxyConnection => exact hWord _ _ _ rfl rfl
  case matchingContentLength => exact hWord _ _ _ rfl rfl
  case matchingTransferEncoding => exact hWord _ _ _ rfl rfl
  case matchingUpgrade => exact hWord _ _ _ rfl rfl
  case connection | contentLength | transferEncoding | upgrade =>
    simp only
    split_ifs
    · exact ⟨_, _, rfl, rfl⟩
    · exact ⟨_, _, rfl, by rw [hState]; rfl⟩

/-- A character of a value changes the index, the flags and the content length. -/
theorem headerValueChar_eq {hState : HeaderState} {value : ValueState}
    (hValue : hState.ofValue = true) (h : headerValueChar ⟨parser, hState⟩ ch = some value) :
    ∃ index flags contentLength, value.parser = { parser with index, flags, contentLength } ∧
      value.hState.ofValue = true ∧ flags.trailing = parser.flags.trailing ∧
      (contentLength = parser.contentLength ∨ contentLength < ULLONG_MAX) := by
  have hWord : ∀ (word : Bytes) (matching found failed : HeaderState), matching.ofValue = true →
      found.ofValue = true → failed.ofValue = true →
      (matchWord word matching found failed parser.nextIndex (lower ch)).ofValue = true := by
    intro word matching found failed hMatching hFound hFailed
    rcases matchWord_cases word matching found failed parser.nextIndex (lower ch) with h | h | h
    · rw [h, hMatching]
    · rw [h, hFound]
    · rw [h, hFailed]
  have hKept : ∀ {other : HeaderState}, other.ofValue = true →
      some (⟨parser, other⟩ : ValueState) = some value → ∃ index flags contentLength,
        value.parser = { parser with index, flags, contentLength } ∧ value.hState.ofValue = true ∧
        flags.trailing = parser.flags.trailing ∧
        (contentLength = parser.contentLength ∨ contentLength < ULLONG_MAX) := by
    intro other hOther hSome
    obtain rfl := Option.some.inj hSome
    exact ⟨_, _, _, rfl, hOther, rfl, Or.inl rfl⟩
  have hFlags : ∀ flags state, (tokenFlags flags state).trailing = flags.trailing := by
    intro flags state
    cases state <;> rfl
  unfold headerValueChar at h
  cases hState <;> cases hValue <;> simp only at h
  case general => exact hKept rfl h
  case contentLength =>
    split_ifs at h with hSpace hNum hOverflow
    · exact hKept rfl h
    · obtain rfl := Option.some.inj h
      refine ⟨_, _, _, rfl, rfl, rfl, Or.inr ?_⟩
      have hDigit : digit ch ≤ 9 := by
        have hNine : (chr '9').toNat = 57 := rfl
        simp only [isNum, Bool.not_eq_true', Bool.not_eq_false, Bool.and_eq_true,
          decide_eq_true_eq, UInt8.le_iff_toNat_le] at hNum
        unfold digit
        omega
      unfold ULLONG_MAX at hOverflow ⊢
      rw [Nat.mod_eq_of_lt (by omega)]
      omega
  case matchingTransferEncodingChunked =>
    obtain rfl := Option.some.inj h
    exact ⟨_, _, _, rfl, hWord _ _ _ _ rfl rfl rfl, rfl, Or.inl rfl⟩
  case matchingConnectionTokenStart =>
    split_ifs at h
    all_goals exact hKept rfl h
  case matchingConnectionKeepAlive | matchingConnectionClose | matchingConnectionUpgrade =>
    obtain rfl := Option.some.inj h
    exact ⟨_, _, _, rfl, hWord _ _ _ _ rfl rfl rfl, rfl, Or.inl rfl⟩
  case matchingConnectionToken =>
    split_ifs at h
    · obtain rfl := Option.some.inj h
      exact ⟨_, _, _, rfl, rfl, rfl, Or.inl rfl⟩
    · exact hKept rfl h
  case transferEncodingChunked =>
    split_ifs at h
    all_goals exact hKept rfl h
  case connectionKeepAlive | connectionClose | connectionUpgrade =>
    split_ifs at h
    · obtain rfl := Option.some.inj h
      exact ⟨_, _, _, rfl, rfl, hFlags _ _, Or.inl rfl⟩
    · exact hKept rfl h
    · exact hKept rfl h

theorem scanField_legal (hSound : parser.Sound) (hState : parser.state = .headerField) :
    (parser.scanField ch).Legal parser (some .headerField) := by
  have hIn : parser.state.inHeaders = true := by rw [hState]; rfl
  have hField : parser.headerState.ofField = true := by
    have hAt := hSound.atState
    simp only [AtState, hState] at hAt
    exact hAt.2
  unfold scanField
  split_ifs
  · obtain ⟨index, headerState, hChar, hOf⟩ := @headerFieldChar_eq parser ch hField
    rw [hChar]
    have hSame : SameBlock parser { parser with index, headerState } :=
      ⟨hIn, rfl, rfl, rfl, hSound.contentLength⟩
    refine hSame.legal hSound hIn (fun _ => hOf) (by simp [hState]) ?_
    intro phase _
    simp [hState, State.open]
  · have hSame : SameBlock parser { parser with state := .headerValueDiscardWs } :=
      ⟨rfl, rfl, rfl, rfl, hSound.contentLength⟩
    refine hSame.legal hSound hIn (by simp) (by simp) ?_
    rintro phase (rfl | rfl) <;> rfl
  · exact legal_refuse hSound (by decide)

theorem scanValue_legal (hSound : parser.Sound) (hState : parser.state = .headerValue) :
    (parser.scanValue ch).Legal parser (some .headerValue) := by
  have hIn : parser.state.inHeaders = true := by rw [hState]; rfl
  have hValue : parser.headerState.ofValue = true := by
    have hAt := hSound.atState
    simp only [AtState, hState] at hAt
    exact hAt.2
  have hEnd : ∀ after : State, after = .headerAlmostDone ∨ after = .headerValueLws →
      (({ parser with state := after } : RequestParser).go [.data .headerValue]).Legal parser
        (some .headerValue) := by
    intro after hAfter
    have hSame : SameBlock parser { parser with state := after } :=
      ⟨by rcases hAfter with rfl | rfl <;> rfl, rfl, rfl, rfl, hSound.contentLength⟩
    refine hSame.legal hSound hIn ?_ ?_ ?_
    · rcases hAfter with rfl | rfl <;> simp
    · rcases hAfter with rfl | rfl <;> simp
    · rintro phase (rfl | rfl) <;> rcases hAfter with rfl | rfl <;> rfl
  unfold scanValue
  split_ifs
  · exact hEnd _ (Or.inl rfl)
  · exact hEnd _ (Or.inr rfl)
  · exact legal_move hSound rfl rfl (by rw [hState]; rfl)
  · exact legal_refuse hSound (by decide)
  · cases hChar : headerValueChar ⟨parser, parser.headerState⟩ ch with
    | none => exact legal_refuse hSound (by decide)
    | some value =>
        obtain ⟨index, flags, contentLength, hParser, hOf, hTrailing, hLength⟩ :=
          headerValueChar_eq hValue hChar
        have hBound : contentLength ≤ ULLONG_MAX := by
          rcases hLength with rfl | hLess
          · exact hSound.contentLength
          · exact hLess.le
        simp only [hParser]
        have hSame : SameBlock parser
            { parser with index, flags, contentLength, headerState := value.hState } :=
          ⟨hIn, hTrailing, rfl, rfl, hBound⟩
        refine hSame.legal hSound hIn (by simp [hState]) (fun _ => hOf) ?_
        intro phase _
        simp [hState, State.open]

/-- A case that starts with a piece of the body. -/
theorem legal_body {effect : Effect} (hPhase : parser.phase = .body)
    (hLegal : effect.Legal parser none) (piece : Bytes) : Effect.Legal parser none
      { effect with calls := .notify (.onBody piece) :: effect.calls } where
  sound := hLegal.sound
  path := by
    rcases hLegal.path with ⟨slot', hCalls, hRest⟩ | ⟨hRefused, -⟩
    · refine Or.inl ⟨slot', ?_, hRest⟩
      rw [List.foldlM_cons, hPhase]
      rw [hPhase] at hCalls
      exact hCalls
    · rw [hPhase] at hRefused
      cases hRefused
  next := hLegal.next
  error := hLegal.error
  stop := hLegal.stop

theorem scanIdentity_legal (hSound : parser.Sound) (hState : parser.state = .bodyIdentity) :
    (parser.scanIdentity ch).Legal parser none := by
  obtain ⟨hStatus, hLength, -⟩ : parser.headersStatus ≠ -1 ∧ parser.contentLength < ULLONG_MAX ∧
      parser.contentLength ≠ 0 := by simpa [AtState, hState] using hSound.atState
  have hPhase : parser.phase = .body := by simp [phase, hState]
  have hLess : parser.contentLength - 1 < ULLONG_MAX := by omega
  unfold scanIdentity
  simp only
  split_ifs with hZero
  · have hDone := @messageDone_legal { parser with contentLength := parser.contentLength - 1 }
      hLess.le hStatus (by simp [phase, hState])
    exact legal_body hPhase (hDone.congr (by simp [phase, hState]) rfl) [ch]
  · have hMove : (({ parser with contentLength := parser.contentLength - 1 } :
        RequestParser).go []).Legal parser none :=
      legal_move ⟨hLess.le, by simpa [AtState, hState] using ⟨hStatus, hLess, hZero⟩⟩ rfl
        (by simp [phase, hState]) (by simp [State.open, hState])
    exact legal_body hPhase hMove [ch]

theorem scanChunk_legal (hSound : parser.Sound) (hState : parser.state = .chunkData) :
    (parser.scanChunk ch).Legal parser none := by
  obtain ⟨hStatus, hChunked, hLength, -⟩ : parser.headersStatus ≠ -1 ∧ parser.flags.chunked = true ∧
      parser.contentLength < ULLONG_MAX ∧ parser.contentLength ≠ 0 := by
    simpa [AtState, hState] using hSound.atState
  have hPhase : parser.phase = .body := by simp [phase, hState]
  have hLess : parser.contentLength - 1 < ULLONG_MAX := by omega
  unfold scanChunk
  simp only
  split_ifs with hZero
  · have hMove : (({ parser with
        contentLength := parser.contentLength - 1
        state := .chunkDataAlmostDone } : RequestParser).go []).Legal parser none :=
      legal_move ⟨hLess.le, hStatus, hChunked, hZero⟩ rfl (by rw [hPhase]; rfl) rfl
    exact legal_body hPhase hMove [ch]
  · have hMove : (({ parser with contentLength := parser.contentLength - 1 } :
        RequestParser).go []).Legal parser none :=
      legal_move ⟨hLess.le, by simpa [AtState, hState] using ⟨hStatus, hChunked, hLess, hZero⟩⟩ rfl
        (by simp [phase, hState]) (by simp [State.open, hState])
    exact legal_body hPhase hMove [ch]

theorem scanByte_legal (hSound : parser.Sound) :
    (parser.scanByte ch).Legal parser parser.state.open := by
  unfold scanByte
  cases hSwitch : parser.byteSwitch ch with
  | some effect => exact byteSwitch_legal hSound (Or.inl rfl) hSwitch
  | none =>
      cases hState : parser.state
      case headerField => exact scanField_legal hSound hState
      case headerValue => exact scanValue_legal hSound hState
      case bodyIdentity => exact scanIdentity_legal hSound hState
      case chunkData => exact scanChunk_legal hSound hState
      all_goals simp [byteSwitch, hState] at hSwitch

theorem counted_eq (parser : RequestParser) : ∃ nread, parser.counted = { parser with nread } := by
  unfold counted
  split_ifs
  · exact ⟨_, rfl⟩
  · exact ⟨_, rfl⟩

theorem counted_sound (hSound : parser.Sound) : parser.counted.Sound := by
  obtain ⟨nread, hCounted⟩ := counted_eq parser
  rw [hCounted]
  exact ⟨hSound.contentLength, hSound.atState⟩

end Legal

namespace Scanner

variable {scanner after : Scanner} {ch : UInt8} {events : List ParserEvent}

theorem effect_legal (hSound : scanner.Sound) :
    (scanner.effect ch).Legal scanner.parser (scanner.pending.map Prod.fst) := by
  obtain ⟨nread, hCounted⟩ := counted_eq scanner.parser
  have hLegal := @scanByte_legal _ ch (counted_sound hSound.parser)
  rw [hSound.slot]
  unfold effect
  rw [hCounted] at hLegal ⊢
  exact hLegal.congr rfl rfl

/-- A step keeps what is known of the scanner and the order of the callbacks. -/
theorem step_sound (hSound : scanner.Sound) (hStep : scanner.step ch = some (after, events)) :
    after.Sound ∧ after.parser.httpErrno = scanner.parser.httpErrno ∧
      scanner.parser.phase.after events = some after.parser.phase := by
  have hLegal := @effect_legal scanner ch hSound
  unfold step at hStep
  simp only at hStep
  split at hStep
  · next hControl =>
      simp only [Option.some.injEq, Prod.mk.injEq] at hStep
      obtain ⟨rfl, rfl⟩ := hStep
      rcases hLegal.path with ⟨slot', hPath, hNext, -⟩ | ⟨-, -, -, hStop⟩
      · obtain ⟨hAfter, hSlot⟩ := @reportAll_after scanner.pending _ _ _ rfl hPath
        refine ⟨⟨hLegal.sound, ?_⟩, hLegal.next hControl, hAfter⟩
        rw [Pending.advance_slot, ← hSlot, hNext hControl]
      · rw [hControl] at hStop
        cases hStop
  · cases hStep

theorem scan_sound {bytes : Bytes} (hSound : scanner.Sound)
    (hScan : scanner.scan bytes = some (after, events)) :
    after.Sound ∧ after.parser.httpErrno = scanner.parser.httpErrno ∧
      scanner.parser.phase.after events = some after.parser.phase := by
  induction bytes generalizing scanner events with
  | nil =>
      simp only [scan, System.exec, Option.some.injEq, Prod.mk.injEq] at hScan
      obtain ⟨rfl, rfl⟩ := hScan
      exact ⟨hSound, rfl, rfl⟩
  | cons ch bytes ih =>
      obtain ⟨middle, first, rest, hStep, hRest, rfl⟩ := System.exec_cons_eq_some.1 hScan
      obtain ⟨hMiddle, hErrno, hFirst⟩ := step_sound hSound hStep
      obtain ⟨hFinish, hErrno', hAfter⟩ := ih hMiddle hRest
      refine ⟨hFinish, hErrno'.trans hErrno, ?_⟩
      rw [after_append, hFirst]
      exact hAfter

end Scanner

end RequestParser

end Httpuv
