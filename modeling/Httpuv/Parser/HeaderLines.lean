import Httpuv.Parser.Contract

/-! How the pieces of a header line come: its value behind its name, and an empty piece of
a value first only when there is no other one. -/
namespace Httpuv

/-- How far a header line has been reported: its name, or its value by an empty piece or
by pieces that are not empty. `_on_header_value` takes an empty first piece of a
repeated field for all of the value and adds no comma, so the two are kept apart. -/
inductive LineStage where
  | apart
  | named
  | blank
  | valued
  deriving DecidableEq, Repr

namespace LineStage

/-- What one report makes of a line. There is no way from an empty piece of a value to
another piece of it, nor to a value without a name. -/
def next : LineStage → ParserEvent → Option LineStage
  | .named, .onHeaderValue piece => some (if piece = [] then .blank else .valued)
  | .valued, .onHeaderValue _ => some .valued
  | .apart, .onHeaderValue _ | .blank, .onHeaderValue _ => none
  | _, .onHeaderField _ => some .named
  | _, _ => some .apart

def after (stage : LineStage) (events : List ParserEvent) : Option LineStage :=
  events.foldlM next stage

theorem after_append (stage : LineStage) (events more : List ParserEvent) :
    stage.after (events ++ more) = (stage.after events).bind (fun middle => middle.after more) :=
  List.foldlM_append

theorem after_singleton (stage : LineStage) (event : ParserEvent) :
    stage.after [event] = stage.next event := by
  cases hNext : stage.next event <;> simp [after, hNext]

theorem after_concat {stage middle : LineStage} {events : List ParserEvent}
    (hEvents : stage.after events = some middle) (event : ParserEvent) :
    stage.after (events ++ [event]) = middle.next event := by
  rw [after_append, hEvents, Option.bind_some, after_singleton]

end LineStage

namespace RequestParser

/-- The states that say nothing of a header line. Behind a name and in a value it matters
which pieces have been reported; in all others the next report may be any. -/
def State.free : State → Bool
  | .headerValueDiscardWs | .headerValueDiscardWsAlmostDone | .headerValueDiscardLws
  | .headerValueStart | .headerValue | .headerAlmostDone | .headerValueLws => false
  | _ => true

/-- How far a header line has been reported in a state between two buffers. In a value
there has been a piece by then, since the end of a buffer reports what is under way. -/
def State.Settled (stage : LineStage) : State → Prop
  | .headerValueDiscardWs | .headerValueDiscardWsAlmostDone | .headerValueDiscardLws =>
      stage = .named
  | .headerValueStart => stage = .named ∨ stage = .valued
  | .headerValue | .headerAlmostDone | .headerValueLws => stage = .valued
  | _ => True

theorem settled_of_free {state : State} (hFree : state.free = true) (stage : LineStage) :
    state.Settled stage := by
  cases state <;> first
    | exact trivial
    | cases hFree

/-- The macros that report no piece of a value: marks, names, URLs, bodies and the
notifications. -/
def Call.plain : Call → Bool
  | .data .headerValue => false
  | .notify (.onHeaderValue _) => false
  | _ => true

/-- A case that reports no piece of a value, and does not lead into one. A case that fails
may leave any state behind, as nothing is parsed in it again. -/
structure Effect.Plain (effect : Effect) : Prop where
  calls : effect.calls.all Call.plain = true
  state : effect.control ≠ .error → effect.parser.state.free = true

section Plain

variable {parser after : RequestParser} {ch expected : UInt8} {calls : List Call}
  {first second effect : Effect}

theorem plain_go (hFree : after.state.free = true) (hCalls : calls.all Call.plain = true) :
    (after.go calls).Plain := ⟨hCalls, fun _ => hFree⟩

theorem plain_fail {error : Errno} (hCalls : calls.all Call.plain = true) :
    (after.fail calls error).Plain := ⟨hCalls, fun hControl => absurd rfl hControl⟩

theorem plain_stop {consumed : Bool} (hFree : after.state.free = true)
    (hCalls : calls.all Call.plain = true) : Effect.Plain ⟨after, calls, .stop consumed⟩ :=
  ⟨hCalls, fun _ => hFree⟩

theorem plain_ite {condition : Prop} [Decidable condition] (hFirst : first.Plain)
    (hSecond : second.Plain) : (if condition then first else second).Plain := by
  split_ifs
  · exact hFirst
  · exact hSecond

theorem plain_strictCheck (hEffect : effect.Plain) :
    (parser.strictCheck ch expected effect).Plain :=
  plain_ite (plain_fail rfl) hEffect

theorem newMessage_free (parser : RequestParser) : parser.newMessage.free = true := by
  unfold newMessage
  split_ifs <;> rfl

theorem parseUrlChar_free (s : State) (ch : UInt8) : (parseUrlChar s ch).free = true := by
  unfold parseUrlChar parseUrlChar.server
  cases s <;> simp only <;> split_ifs <;> rfl

theorem urlChar_plain (hCalls : calls.all Call.plain = true) : (parser.urlChar calls ch).Plain :=
  plain_ite (plain_fail hCalls) (plain_go (parseUrlChar_free _ _) hCalls)

theorem messageDone_plain : parser.messageDone.Plain := ⟨rfl, fun _ => newMessage_free parser⟩

theorem headersAlmostDone_plain : (parser.headersAlmostDone ch).Plain :=
  plain_strictCheck (plain_ite messageDone_plain (plain_ite (plain_fail rfl) (plain_stop rfl rfl)))

theorem headerFieldStart_plain : (parser.headerFieldStart ch).Plain :=
  plain_ite (plain_go rfl rfl) (plain_ite headersAlmostDone_plain
    (plain_ite (plain_fail rfl) (plain_go rfl rfl)))

theorem headersDone_plain : (parser.headersDone ch).Plain := by
  have hNew := @newMessage_free { parser with nread := 0 }
  exact plain_strictCheck (plain_ite (plain_stop hNew rfl) (plain_ite (plain_go hNew rfl)
    (plain_ite (plain_go rfl rfl) (plain_ite (plain_go hNew rfl) (plain_ite (plain_go rfl rfl)
      (plain_go hNew rfl))))))

theorem onHeadersCompleted_plain (hFree : parser.state.free = true) :
    (parser.onHeadersCompleted ch).Plain := by
  rw [onHeadersCompleted_eq]
  exact plain_ite headersDone_plain (plain_ite (plain_stop (newMessage_free parser) rfl)
    (plain_stop hFree rfl))

/-- The cases of the free states, one for one with the switch of `http_parser_execute`. None
of them is about a value. -/
theorem byteSwitch_plain (hFree : parser.state.free = true)
    (hEffect : parser.byteSwitch ch = some effect) : effect.Plain := by
  unfold byteSwitch at hEffect
  cases hState : parser.state <;> rw [hState] at hEffect <;>
    simp only [Option.some.injEq, reduceCtorEq] at hEffect <;> subst hEffect
  case headerValueDiscardWs | headerValueDiscardWsAlmostDone | headerValueDiscardLws |
      headerValueStart | headerAlmostDone | headerValueLws =>
    rw [hState] at hFree
    cases hFree
  case dead => exact plain_ite (plain_go hFree rfl) (plain_fail rfl)
  case startReq =>
    unfold startReq
    refine plain_ite (plain_go hFree rfl) (plain_ite (plain_fail rfl) ?_)
    dsimp only
    cases firstMethods.find? (fun entry => entry.1 == ch) with
    | none => exact plain_fail rfl
    | some entry => exact plain_go rfl rfl
  case reqMethod =>
    unfold reqMethod
    refine plain_ite (plain_fail rfl) (plain_ite (plain_go rfl rfl) (plain_ite (plain_go hFree rfl)
      (plain_ite ?_ (plain_ite (plain_go hFree rfl) (plain_fail rfl)))))
    cases methodChanges.find? (fun entry => entry.1 == (parser.method, parser.index, ch)) with
    | none => exact plain_fail rfl
    | some entry => exact plain_go hFree rfl
  case reqSpacesBeforeUrl =>
    exact plain_ite (plain_go hFree rfl) (plain_ite (urlChar_plain rfl) (urlChar_plain rfl))
  case reqSchema | reqSchemaSlash | reqSchemaSlashSlash | reqServerStart =>
    exact plain_ite (plain_fail rfl) (urlChar_plain rfl)
  case reqServer | reqServerWithAt | reqPath | reqQueryStringStart | reqQueryString |
      reqFragmentStart | reqFragment =>
    refine plain_ite (plain_go rfl rfl) (plain_ite (plain_go ?_ rfl) (urlChar_plain rfl))
    dsimp only
    split_ifs <;> rfl
  case reqHttpStart =>
    exact plain_ite (plain_go rfl rfl) (plain_ite (plain_go hFree rfl) (plain_fail rfl))
  case reqHttpH | reqHttpHT | reqHttpHTT | reqHttpHTTP =>
    exact plain_strictCheck (plain_go rfl rfl)
  case reqFirstHttpMajor | reqFirstHttpMinor => exact plain_ite (plain_fail rfl) (plain_go rfl rfl)
  case reqHttpMajor =>
    exact plain_ite (plain_go rfl rfl) (plain_ite (plain_fail rfl)
      (plain_ite (plain_fail rfl) (plain_go hFree rfl)))
  case reqHttpMinor =>
    exact plain_ite (plain_go rfl rfl) (plain_ite (plain_go rfl rfl) (plain_ite (plain_fail rfl)
      (plain_ite (plain_fail rfl) (plain_go hFree rfl))))
  case reqLineAlmostDone => exact plain_ite (plain_fail rfl) (plain_go rfl rfl)
  case headerFieldStart => exact headerFieldStart_plain
  case chunkSizeStart =>
    unfold chunkSizeStart
    cases unhex ch with
    | none => exact plain_fail rfl
    | some value => exact plain_go rfl rfl
  case chunkSize =>
    refine plain_ite (plain_go rfl rfl) ?_
    cases unhex ch with
    | none => exact plain_ite (plain_go rfl rfl) (plain_fail rfl)
    | some value => exact plain_ite (plain_fail rfl) (plain_go hFree rfl)
  case chunkParameters => exact plain_ite (plain_go rfl rfl) (plain_go hFree rfl)
  case chunkSizeAlmostDone =>
    exact plain_strictCheck (plain_ite (plain_go rfl rfl) (plain_go rfl rfl))
  case headersAlmostDone => exact headersAlmostDone_plain
  case waitForOnHeadersCompleted => exact plain_stop hFree rfl
  case onHeadersCompleted => exact onHeadersCompleted_plain hFree
  case headersDone => exact headersDone_plain
  case chunkDataAlmostDone => exact plain_strictCheck (plain_go rfl rfl)
  case chunkDataDone => exact plain_strictCheck (plain_go rfl rfl)
  case messageDone => exact messageDone_plain

end Plain

/-- In a buffer, a value may have begun without a report. Its mark then stands in front of
bytes that are not empty, so that the report to come is not empty either. -/
def Execution.Lined (exec : Execution) (p : Bytes) (stage : LineStage) : Prop :=
  exec.parser.state.Settled stage ∨
    exec.parser.state = .headerValue ∧ stage = .named ∧
      ∃ piece, piece ≠ [] ∧ exec.marks .headerValue = some (piece ++ p)

/-- How far header lines have been reported at the end of an iteration. What is reported in
it is added to the stage at its start. -/
def Outcome.Lined (start : LineStage) (p : Bytes) : Outcome → Prop
  | .next exec skipped => ∃ stage, start.after exec.events = some stage ∧
      exec.Lined (p.drop (skipped + 1)) stage
  | .stop exec _ => ∃ stage, start.after exec.events = some stage ∧
      (exec.parser.httpErrno = .ok → exec.parser.state.Settled stage)

section Effects

variable {start stage : LineStage} {exec : Execution} {parser : RequestParser} {ch : UInt8}
  {rest p : Bytes} {effect : Effect}

theorem next_of_plain {event : ParserEvent} (hPlain : Call.plain (.notify event) = true)
    (stage : LineStage) : ∃ after, stage.next event = some after := by
  cases event with
  | onHeaderValue piece => cases hPlain
  | _ => cases stage <;> exact ⟨_, rfl⟩

/-- A macro that reports no piece of a value. It may report a piece of a name or of a body,
from which a line goes on or begins. -/
theorem call_plain {call : Call} (hCall : call.plain = true) (p : Bytes)
    (hStage : start.after exec.events = some stage) :
    ∃ after, start.after (exec.call p call).events = some after := by
  cases call with
  | mark callback =>
      refine ⟨stage, ?_⟩
      unfold Execution.call
      dsimp only
      split_ifs <;> exact hStage
  | data callback =>
      unfold Execution.call
      dsimp only
      cases exec.marks callback with
      | none => exact ⟨stage, hStage⟩
      | some mark =>
          have hPlain : ∀ piece, Call.plain (.notify (callback.event piece)) = true := by
            intro piece
            cases callback <;> first
              | rfl
              | cases hCall
          obtain ⟨after, hNext⟩ := next_of_plain (hPlain (upTo mark p)) stage
          exact ⟨after, (LineStage.after_concat hStage _).trans hNext⟩
  | notify event =>
      obtain ⟨after, hNext⟩ := next_of_plain hCall stage
      exact ⟨after, (LineStage.after_concat hStage _).trans hNext⟩

theorem callAll_plain {calls : List Call} (hCalls : calls.all Call.plain = true) (p : Bytes)
    (hStage : start.after exec.events = some stage) :
    ∃ after, start.after (exec.callAll p calls).events = some after := by
  induction calls generalizing exec stage with
  | nil => exact ⟨stage, hStage⟩
  | cons call calls ih =>
      rw [List.all_cons, Bool.and_eq_true] at hCalls
      obtain ⟨middle, hMiddle⟩ := call_plain hCalls.1 p hStage
      exact ih hCalls.2 hMiddle

theorem parser_of_callAll (exec : Execution) (p : Bytes) (calls : List Call) :
    (exec.callAll p calls).parser = exec.parser := by
  induction calls generalizing exec with
  | nil => rfl
  | cons call calls ih => exact (ih _).trans Execution.parser_of_call

/-- The effect of a case, once its macros have been run. Only what the macros report and
the state that is left enter into it. -/
theorem apply_lined (hError : effect.control = .error → effect.parser.httpErrno ≠ .ok)
    (hStage : start.after ({ exec with parser := effect.parser }.callAll (ch :: rest)
      effect.calls).events = some stage)
    (hSettled : effect.control ≠ .error → effect.parser.state.Settled stage) :
    (exec.apply (ch :: rest) effect).Lined start (ch :: rest) := by
  have hParser := parser_of_callAll { exec with parser := effect.parser } (ch :: rest) effect.calls
  unfold Execution.apply
  dsimp only
  cases hControl : effect.control with
  | next =>
      refine ⟨stage, hStage, Or.inl ?_⟩
      rw [hParser]
      exact hSettled (by simp [hControl])
  | error =>
      refine ⟨stage, hStage, fun hOk => ?_⟩
      rw [hParser] at hOk
      exact absurd hOk (hError hControl)
  | stop consumed =>
      have hState : effect.parser.state.Settled stage := hSettled (by simp [hControl])
      cases consumed with
      | true =>
          refine ⟨stage, hStage, fun _ => ?_⟩
          rw [hParser]
          exact hState
      | false =>
          refine ⟨stage, hStage, fun _ => ?_⟩
          rw [hParser]
          exact hState

theorem apply_plain (hPlain : effect.Plain)
    (hError : effect.control = .error → effect.parser.httpErrno ≠ .ok)
    (hStage : start.after exec.events = some stage) :
    (exec.apply (ch :: rest) effect).Lined start (ch :: rest) := by
  obtain ⟨after, hAfter⟩ :=
    @callAll_plain _ _ { exec with parser := effect.parser } _ hPlain.calls (ch :: rest) hStage
  exact apply_lined hError hAfter fun hControl => settled_of_free (hPlain.state hControl) after

/-- A value begins with its first byte under the mark. It is reported at its end or at the
end of the buffer, whichever comes first. -/
theorem headerValueStart_cases (parser : RequestParser) (ch : UInt8) :
    (∃ after : RequestParser, after.state = .headerValue ∧
      parser.headerValueStart ch = after.go [.mark .headerValue]) ∨
    ∃ (after : RequestParser) (error : Errno),
      parser.headerValueStart ch = after.fail [.mark .headerValue] error := by
  unfold headerValueStart
  cases parser.headerState
  case contentLength =>
    dsimp only
    split_ifs
    · exact Or.inr ⟨_, _, rfl⟩
    · exact Or.inr ⟨_, _, rfl⟩
    · exact Or.inl ⟨_, rfl, rfl⟩
  all_goals exact Or.inl ⟨_, rfl, rfl⟩

theorem headerValueStart_lined
    (hError : (parser.headerValueStart ch).control = .error →
      (parser.headerValueStart ch).parser.httpErrno ≠ .ok)
    (hUnmarked : exec.marks .headerValue = none) (hStage : start.after exec.events = some stage)
    (hLine : stage = .named ∨ stage = .valued) :
    (exec.apply (ch :: rest) (parser.headerValueStart ch)).Lined start (ch :: rest) := by
  have hMark : ∀ after : RequestParser,
      Execution.callAll (ch :: rest) { exec with parser := after } [.mark .headerValue] =
        { exec with
          parser := after
          marks := Function.update exec.marks .headerValue (some (ch :: rest)) } := by
    intro after
    simp [Execution.callAll, Execution.call, hUnmarked]
  rcases headerValueStart_cases parser ch with ⟨after, hState, hGo⟩ | ⟨after, error, hFail⟩
  · rw [hGo]
    unfold Execution.apply
    simp only [go, hMark]
    refine ⟨stage, hStage, ?_⟩
    rcases hLine with rfl | rfl
    · exact Or.inr ⟨hState, rfl, [ch], List.cons_ne_nil _ _, by simp⟩
    · left
      change after.state.Settled .valued
      rw [hState]
      rfl
  · rw [hFail] at hError ⊢
    have hMarked : start.after (Execution.callAll (ch :: rest)
        { exec with parser := (after.fail [.mark .headerValue] error).parser }
        [.mark .headerValue]).events = some stage := by
      rw [hMark]
      exact hStage
    exact apply_lined hError hMarked fun hControl => absurd rfl hControl

/-- An empty value is reported before the case of the next line is reexecuted, so that it
is behind its name and in front of the next one. -/
theorem blankValue_lined (hPlain : effect.Plain)
    (hError : effect.control = .error → effect.parser.httpErrno ≠ .ok)
    (hUnmarked : exec.marks .headerValue = none)
    (hStage : start.after exec.events = some .named) :
    (exec.apply (ch :: rest)
      { effect with calls := .mark .headerValue :: .data .headerValue :: effect.calls }).Lined start
        (ch :: rest) := by
  let reported : Execution := ({ exec with parser := effect.parser }.call (ch :: rest)
    (.mark .headerValue)).call (ch :: rest) (.data .headerValue)
  have hBlank : start.after reported.events = some .blank := by
    simp only [reported, Execution.call, hUnmarked, Option.isNone_none, if_true,
      Function.update_self]
    rw [LineStage.after_concat hStage]
    simp [upTo, DataCallback.event, LineStage.next]
  obtain ⟨after, hAfter⟩ := callAll_plain hPlain.calls (ch :: rest) hBlank
  exact apply_lined hError hAfter fun hControl => settled_of_free (hPlain.state hControl) after

/-- The cases between the name of a header and the next line. These are the ones in which a
value begins, is found to be empty, or is followed by a line that continues it. -/
theorem byteSwitch_lined (hEffect : parser.byteSwitch ch = some effect)
    (hError : effect.control = .error → effect.parser.httpErrno ≠ .ok)
    (hUnmarked : exec.marks .headerValue = none) (hStage : start.after exec.events = some stage)
    (hSettled : parser.state.Settled stage) :
    (exec.apply (ch :: rest) effect).Lined start (ch :: rest) := by
  by_cases hFree : parser.state.free = true
  · exact apply_plain (byteSwitch_plain hFree hEffect) hError hStage
  unfold byteSwitch at hEffect
  cases hState : parser.state <;> rw [hState] at hEffect hSettled hFree <;>
    simp only [Option.some.injEq, reduceCtorEq] at hEffect <;> subst hEffect <;>
    first
    | exact absurd rfl hFree
    | skip
  case headerValueDiscardWs =>
    obtain rfl : stage = .named := hSettled
    unfold headerValueDiscardWs at hError ⊢
    split_ifs at hError ⊢
    · exact apply_lined hError hStage fun _ => by
        change parser.state.Settled _
        rw [hState]
        rfl
    · exact apply_lined hError hStage fun _ => rfl
    · exact apply_lined hError hStage fun _ => rfl
    · exact headerValueStart_lined hError hUnmarked hStage (Or.inl rfl)
  case headerValueDiscardWsAlmostDone =>
    obtain rfl : stage = .named := hSettled
    unfold headerValueDiscardWsAlmostDone strictCheck at hError ⊢
    split_ifs at hError ⊢
    · exact apply_lined hError hStage fun hControl => absurd rfl hControl
    · exact apply_lined hError hStage fun _ => rfl
  case headerValueDiscardLws =>
    obtain rfl : stage = .named := hSettled
    unfold headerValueDiscardLws at hError ⊢
    split_ifs at hError ⊢
    · exact apply_lined hError hStage fun _ => rfl
    · exact blankValue_lined headerFieldStart_plain hError hUnmarked hStage
  case headerValueStart =>
    exact headerValueStart_lined hError hUnmarked hStage hSettled
  case headerAlmostDone =>
    obtain rfl : stage = .valued := hSettled
    unfold headerAlmostDone at hError ⊢
    split_ifs at hError ⊢
    · exact apply_lined hError hStage fun hControl => absurd rfl hControl
    · exact apply_lined hError hStage fun _ => rfl
  case headerValueLws =>
    obtain rfl : stage = .valued := hSettled
    unfold headerValueLws at hError ⊢
    split_ifs at hError ⊢
    · exact headerValueStart_lined hError hUnmarked hStage (Or.inr rfl)
    · exact apply_plain headerFieldStart_plain hError hStage

theorem countHeaderSize_state (parser : RequestParser) (count : Nat) :
    (parser.countHeaderSize count).state = parser.state := by
  rw [countHeaderSize_eq]

theorem overflow_lined (hStage : start.after exec.events = some stage)
    (hOverflow : exec.parser.httpErrno = .headerOverflow) :
    (Outcome.stop exec rest).Lined start p :=
  ⟨stage, hStage, fun hOk => Errno.noConfusion (hOk.symm.trans hOverflow)⟩

/-- A name is reported before its colon, whether or not a piece of it has been reported in
an earlier buffer. -/
theorem headerField_lined (hState : exec.parser.state = .headerField)
    (hMarked : (exec.marks .headerField).isSome = true)
    (hStage : start.after exec.events = some stage) : (headerField exec p).Lined start p := by
  obtain ⟨mark, hMark⟩ := Option.isSome_iff_exists.1 hMarked
  have hKept : ((p.takeWhile isToken).foldl headerFieldChar exec.parser).state = .headerField :=
    (foldl_headerFieldChar_state _ _).trans hState
  unfold headerField
  dsimp only
  split_ifs with hOverflow
  · exact overflow_lined hStage hOverflow
  cases p.drop (p.takeWhile isToken).length with
  | nil =>
      refine ⟨stage, hStage, Or.inl ?_⟩
      dsimp only
      rw [countHeaderSize_state, hKept]
      trivial
  | cons ch rest =>
      dsimp only
      split_ifs
      · simp only [Execution.call, hMark]
        refine ⟨.named, ?_, Or.inl rfl⟩
        rw [LineStage.after_concat hStage]
        cases stage <;> rfl
      · exact ⟨stage, hStage, Errno.noConfusion⟩

/-- A value that has been told in this buffer, or in an earlier one. In the first case its
mark is set, in the second one there has been a piece of it. -/
theorem value_stage {piece : Bytes} (hState : exec.parser.state = .headerValue)
    (hMark : exec.marks .headerValue = some (piece ++ p)) (hLined : exec.Lined p stage) :
    stage = .valued ∨ stage = .named ∧ piece ≠ [] := by
  rcases hLined with hSettled | ⟨-, rfl, other, hOther, hSame⟩
  · rw [hState] at hSettled
    exact Or.inl hSettled
  · rw [hMark, Option.some.injEq, List.append_cancel_right_eq] at hSame
    exact Or.inr ⟨rfl, hSame ▸ hOther⟩

/-- The end of a value is reported behind its name, by a piece that is not empty unless
another one has come before. -/
theorem value_reported {piece read : Bytes} (hMark : exec.marks .headerValue = some (piece ++ p))
    (hRead : p = read ++ rest) (hStage : start.after exec.events = some stage)
    (hLine : stage = .valued ∨ stage = .named ∧ piece ≠ []) (parser : RequestParser) :
    start.after (Execution.call rest { exec with parser } (.data .headerValue)).events =
      some .valued := by
  simp only [Execution.call, hMark]
  rw [LineStage.after_concat hStage, hRead, ← List.append_assoc, upTo_append]
  rcases hLine with rfl | ⟨rfl, hPiece⟩
  · rfl
  · simp [DataCallback.event, LineStage.next, hPiece]

theorem headerValue_lined {piece : Bytes} (hState : exec.parser.state = .headerValue)
    (hMark : exec.marks .headerValue = some (piece ++ p)) (hNonempty : p ≠ [])
    (hStage : start.after exec.events = some stage) (hLined : exec.Lined p stage) :
    (headerValue exec p).Lined start p := by
  have hLine := value_stage hState hMark hLined
  have hLoop := headerValueLoop_follows ⟨exec.parser, exec.parser.headerState⟩ p hState
  unfold headerValue
  generalize headerValueLoop ⟨exec.parser, exec.parser.headerState⟩ p = exit at hLoop
  cases hLoop with
  | @finish read value hReads hLength hRead =>
      have hEnd : p.drop (p.length - 1 + 1) = [] := by
        rw [Nat.sub_add_cancel (List.length_pos_iff.2 hNonempty), List.drop_length]
      dsimp only
      split_ifs with hOverflow
      · exact overflow_lined hStage hOverflow
      · refine ⟨stage, hStage, ?_⟩
        rw [hEnd]
        rcases hLine with rfl | ⟨rfl, hPiece⟩
        · left
          dsimp only
          rw [countHeaderSize_state, hReads.state]
          rfl
        · exact Or.inr ⟨(countHeaderSize_state _ _).trans hReads.state, rfl, piece ++ p,
            by simp [hPiece], by simp [hMark]⟩
  | @atEnd read rest ch value hReads hRead hEnd =>
      have hReported : ∀ parser : RequestParser, start.after (Execution.call (ch :: rest)
          { exec with parser } (.data .headerValue)).events = some .valued :=
        value_reported hMark hRead hStage hLine
      dsimp only
      rcases hEnd with rfl | rfl
      · simp only [List.head?_cons, if_true, Execution.parser_of_call, Execution.call_with]
        split_ifs with hOverflow
        · exact overflow_lined (hReported _) (by rwa [Execution.parser_of_call])
        · refine ⟨.valued, hReported _, Or.inl ?_⟩
          rw [Execution.parser_of_call, countHeaderSize_state]
          rfl
      · have hNot : ¬some LF = some CR := by decide
        simp only [List.head?_cons, hNot, if_false, Execution.parser_of_call, headerAlmostDone_LF,
          Execution.apply_go, Execution.call_with]
        split_ifs with hOverflow
        · exact overflow_lined hStage hOverflow
        · exact ⟨.valued, hReported _, Or.inl (by rw [Execution.parser_of_call]; rfl)⟩
  | control hReads hRead hEnd hChar => exact ⟨stage, hStage, Errno.noConfusion⟩
  | number hReads hRead hEnd hChar hGeneral hNone => exact ⟨stage, hStage, Errno.noConfusion⟩

theorem bodyIdentity_lined (hState : exec.parser.state = .bodyIdentity)
    (hStage : start.after exec.events = some stage) : (bodyIdentity exec p).Lined start p := by
  have hMark : ∀ parser : RequestParser, ∃ after,
      start.after (Execution.call p { exec with parser } (.mark .body)).events = some after :=
    fun parser => @call_plain start stage { exec with parser } (.mark .body) rfl p hStage
  unfold bodyIdentity
  dsimp only
  split_ifs with hDone
  · rw [Execution.call_with]
    obtain ⟨marked, hMarked⟩ := hMark { exec.parser with
      contentLength := exec.parser.contentLength - exec.parser.toRead p
      state := .messageDone }
    obtain ⟨told, hTold⟩ := call_plain (rfl : Call.plain (.data .body) = true)
      (p.drop (exec.parser.toRead p)) hMarked
    generalize Execution.call (p.drop (exec.parser.toRead p)) _ (.data .body) = done at hTold ⊢
    have hComplete : start.after (done.events ++ [.onMessageComplete]) = some .apart := by
      rw [LineStage.after_concat hTold]
      cases told <;> rfl
    have hFree := newMessage_free done.parser
    unfold Execution.apply RequestParser.messageDone
    dsimp only
    split_ifs
    · exact ⟨.apart, hComplete, fun _ => settled_of_free hFree _⟩
    · exact ⟨.apart, hComplete, Or.inl (settled_of_free hFree _)⟩
  · obtain ⟨after, hAfter⟩ := hMark
      { exec.parser with contentLength := exec.parser.contentLength - exec.parser.toRead p }
    refine ⟨after, hAfter, Or.inl (settled_of_free ?_ after)⟩
    rw [Execution.parser_of_call]
    dsimp only
    rw [hState]
    rfl

theorem chunkData_lined (hState : exec.parser.state = .chunkData)
    (hStage : start.after exec.events = some stage) : (chunkData exec p).Lined start p := by
  unfold chunkData
  dsimp only
  obtain ⟨after, hAfter⟩ := @call_plain start stage
    { exec with parser :=
      if exec.parser.contentLength - exec.parser.toRead p = 0 then
        { exec.parser with
          contentLength := exec.parser.contentLength - exec.parser.toRead p
          state := .chunkDataAlmostDone }
      else
        { exec.parser with
          contentLength := exec.parser.contentLength - exec.parser.toRead p } }
    (.mark .body) rfl p hStage
  refine ⟨after, hAfter, Or.inl (settled_of_free ?_ after)⟩
  rw [Execution.parser_of_call]
  dsimp only
  split_ifs
  · rfl
  · rw [hState]
    rfl

end Effects

section Loop

variable {context : Context} {events : List ParserEvent} {scanner : Scanner} {exec : Execution}
  {start stage : LineStage} {ch : UInt8} {rest p : Bytes} {pending : Pending} {n : Nat}

/-- The piece of data that is under way in a state, with the mark at its first byte in this
buffer. -/
theorem Context.Told.marked {callback : DataCallback}
    (hTold : context.Told events scanner exec p pending)
    (hOpen : scanner.parser.state.open = some callback) :
    ∃ piece, pending = some (callback, piece) := by
  rcases hTold.marks with hSlot | ⟨-, hBody⟩
  · rw [hOpen] at hSlot
    obtain ⟨⟨other, piece⟩, rfl, rfl⟩ := Option.map_eq_some_iff.1 hSlot
    exact ⟨piece, rfl⟩
  · rcases hBody with hState | hState | hState <;> rw [hState] at hOpen <;> cases hOpen

/-- Only the value of a header has a mark for it, so that elsewhere the end of a buffer
reports no piece of a value. -/
theorem Context.Told.unmarked (hTold : context.Told events scanner exec p pending)
    (hState : scanner.parser.state ≠ .headerValue) : exec.marks .headerValue = none := by
  have hSlot : pending.map Prod.fst ≠ some .headerValue := by
    rcases hTold.marks with hOpen | ⟨hBody, -⟩
    · rw [hOpen]
      intro hValue
      unfold State.open at hValue
      split at hValue <;> first
        | exact hState ‹_›
        | cases hValue
    · rw [hBody]
      decide
  rw [hTold.has]
  cases pending with
  | none => rfl
  | some piece => exact if_neg fun hSame => hSlot (by rw [Option.map_some, hSame])

/-- One iteration, at a byte that is counted first. The byte is in a value, ends a name, is
one of those in between, or belongs to a free state. -/
theorem Context.Related.iterate_lined
    (hRelated : context.Related events scanner exec n (ch :: rest) pending)
    (hStage : start.after exec.events = some stage) (hLined : exec.Lined (ch :: rest) stage) :
    (exec.iterate ch rest).Lined start (ch :: rest) := by
  have hTold := hRelated.toTold
  unfold Execution.iterate
  dsimp only
  rcases hRelated.count_byte with ⟨hOverflow, -⟩ | ⟨m, hParser, -, -⟩
  · rw [if_pos hOverflow]
    exact overflow_lined hStage hOverflow
  · have hErrno : ¬(scanner.parser.recount m true).httpErrno = .headerOverflow := by
      have hOk : (scanner.parser.recount m true).httpErrno = .ok := hRelated.errno
      rw [hOk]
      decide
    have hSame : exec.parser.state = scanner.parser.state := by
      rw [hRelated.parser]
      rfl
    have hCounted : Execution.Lined { exec with parser := scanner.parser.recount m true }
        (ch :: rest) stage := by
      unfold Execution.Lined at hLined ⊢
      rwa [hSame] at hLined
    rw [hParser, if_neg hErrno]
    cases hSwitch : (scanner.parser.recount m true).byteSwitch ch with
    | some effect =>
        have hSound : (scanner.parser.recount m true).Sound :=
          ⟨hTold.sound.parser.contentLength, hTold.sound.parser.atState⟩
        have hLegal := byteSwitch_legal hSound hTold.marks hSwitch
        rcases hCounted with hSettled | ⟨hValue, -⟩
        · have hUnmarked : exec.marks .headerValue = none := by
            refine hTold.unmarked fun hValue => ?_
            rw [byteSwitch, show (scanner.parser.recount m true).state = _ from hValue] at hSwitch
            cases hSwitch
          exact @byteSwitch_lined _ _ { exec with parser := scanner.parser.recount m true } _ _ _ _
            hSwitch hLegal.error hUnmarked hStage hSettled
        · rw [byteSwitch, hValue] at hSwitch
          cases hSwitch
    | none =>
        unfold Execution.bulk
        dsimp only
        rw [show (scanner.parser.recount m true).state = scanner.parser.state from rfl]
        cases hState : scanner.parser.state
        case headerField =>
          have hOpen : scanner.parser.state.open = some .headerField := by rw [hState]; rfl
          obtain ⟨piece, rfl⟩ := hTold.marked hOpen
          exact headerField_lined hState (by rw [hTold.has]; rfl) hStage
        case headerValue =>
          have hOpen : scanner.parser.state.open = some .headerValue := by rw [hState]; rfl
          obtain ⟨piece, rfl⟩ := hTold.marked hOpen
          exact headerValue_lined hState (by rw [hTold.has]; rfl) (by simp) hStage hCounted
        case bodyIdentity =>
          exact bodyIdentity_lined hState hStage
        case chunkData => exact chunkData_lined hState hStage
        all_goals
          rw [show (scanner.parser.recount m true).byteSwitch ch = _ from byteSwitch_recount m true,
            byteSwitch, hState] at hSwitch
          cases hSwitch

/-- The end of a buffer reports what is under way. It settles the state, which is what the
next buffer begins with. -/
theorem Context.Related.flush_lined (hRelated : context.Related events scanner exec n [] pending)
    (hStage : start.after exec.events = some stage) (hLined : exec.Lined [] stage) :
    ∃ after, start.after exec.flush.events = some after ∧
      exec.flush.parser.state.Settled after := by
  have hTold := hRelated.toTold
  obtain ⟨hParser, hEvents⟩ := flush_events hTold.has
  have hSame : exec.parser.state = scanner.parser.state := by
    rw [hRelated.parser]
    rfl
  rw [hParser, hEvents]
  by_cases hValue : exec.parser.state = .headerValue
  · have hOpen : scanner.parser.state.open = some .headerValue := by rw [← hSame, hValue]; rfl
    obtain ⟨piece, rfl⟩ := hTold.marked hOpen
    have hLine := value_stage hValue (by rw [hTold.has]; rfl) hLined
    refine ⟨.valued, ?_, by rw [hValue]; rfl⟩
    change start.after (exec.events ++ [.onHeaderValue piece]) = _
    rw [LineStage.after_concat hStage]
    rcases hLine with rfl | ⟨rfl, hPiece⟩
    · rfl
    · simp [LineStage.next, hPiece]
  · have hSettled := hLined.resolve_right fun hOpen => hValue hOpen.1
    cases pending with
    | none => exact ⟨stage, by simpa [Pending.events] using hStage, hSettled⟩
    | some piece =>
        obtain ⟨callback, piece⟩ := piece
        have hFree : exec.parser.state.free = true := by
          rw [hSame] at hValue ⊢
          rcases hTold.marks with hOpen | ⟨-, hState | hState | hState⟩
          · cases hState : scanner.parser.state <;> rw [hState] at hOpen hValue <;> first
              | rfl
              | exact absurd rfl hValue
              | cases hOpen
          all_goals
            rw [hState]
            rfl
        have hPlain : Call.plain (.notify (callback.event piece)) = true := by
          have hUnmarked := hTold.unmarked (hSame ▸ hValue)
          rw [hTold.has] at hUnmarked
          cases callback <;> first
            | rfl
            | simp [Pending.marks] at hUnmarked
        obtain ⟨after, hAfter⟩ := next_of_plain hPlain stage
        exact ⟨after, (LineStage.after_concat hStage _).trans hAfter, settled_of_free hFree after⟩

/-- The loop over a buffer, by induction on what is left of it. The loops inside of a case
skip bytes, which `Outcome.Lined` accounts for. -/
theorem Context.Related.loop_lined (hRelated : context.Related events scanner exec n p pending)
    (hStage : start.after exec.events = some stage) (hLined : exec.Lined p stage) :
    ∃ after, start.after (RequestParser.loop exec p).1.events = some after ∧
      ((RequestParser.loop exec p).1.parser.httpErrno = .ok →
        (RequestParser.loop exec p).1.parser.state.Settled after) := by
  induction hLength : p.length using Nat.strong_induction_on generalizing p exec scanner events n
    pending stage with
  | _ length ih =>
      cases p with
      | nil =>
          rw [RequestParser.loop]
          obtain ⟨after, hAfter, hSettled⟩ := hRelated.flush_lined hStage hLined
          exact ⟨after, hAfter, fun _ => hSettled⟩
      | cons ch rest =>
          have hIterate := hRelated.iterate
          have hOutcome := hRelated.iterate_lined hStage hLined
          rw [RequestParser.loop]
          generalize exec.iterate ch rest = outcome at hIterate hOutcome
          cases hIterate with
          | stop hHalted => exact hOutcome
          | @next read rest' after more exec' n' skipped pending' hScan hRead hRest hAfter =>
              obtain ⟨stage', hStage', hLined'⟩ := hOutcome
              rw [hRest] at hLined'
              change rest.drop skipped = rest' at hRest
              dsimp only
              rw [hRest]
              have hLess : rest'.length < length := by
                rw [← hLength, ← hRest, List.length_drop, List.length_cons]
                omega
              exact ih _ hLess hAfter hStage' hLined' rfl

end Loop

/-- Every execution reports the pieces of header lines in their order, from a state that is
settled to another one unless it fails. -/
theorem execute_lined {fits : Prop} {slack n : Nat} {past events : List ParserEvent}
    {scanner : Scanner} {parser : RequestParser} {data : Bytes} {stage : LineStage}
    (hFollowed : Followed fits slack past events scanner n parser) (hNonempty : data ≠ [])
    (hFits : fits → data.length + HTTP_MAX_HEADER_SIZE < 2 ^ 32)
    (hSettled : parser.state.Settled stage) :
    ∃ after, stage.after (parser.execute data).events = some after ∧
      ((parser.execute data).parser.httpErrno = .ok →
        (parser.execute data).parser.state.Settled after) := by
  have hRunning : parser.isRunning = false := by rw [hFollowed.parser]; rfl
  have hErrno : parser.httpErrno = .ok := by
    rw [hFollowed.parser]
    exact hFollowed.errno
  have hStart : stage.after (entry { parser with isRunning := true } data).events = some stage := rfl
  have hLoop := (hFollowed.entry hFits).loop_lined hStart (Or.inl hSettled)
  simpa [RequestParser.execute, hRunning, hErrno, hNonempty] using hLoop

end RequestParser

end Httpuv
