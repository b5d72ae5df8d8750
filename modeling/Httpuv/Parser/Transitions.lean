import Httpuv.Parser.Executions

/-! Where a byte that leads on does not lead to. -/
namespace Httpuv.RequestParser

open Semantics

/-- The cases that go on to the next byte do not get to the state that waits, and to
the size of a chunk only with a count that starts anew. Those that fail or stop
promise nothing. -/
def Effect.Moves (effect : Effect) : Prop :=
  effect.control = .next → effect.parser.state ≠ .waitForOnHeadersCompleted ∧
    (effect.parser.state = .chunkSizeStart → effect.parser.nread = 0)

section Moves

variable {parser after : RequestParser} {ch expected : UInt8} {calls : List Call}
  {first second effect : Effect}

/-- Most cases end so: the byte is taken, and the next state is one that neither
waits nor begins the size of a chunk. -/
theorem moves_go (hWaits : after.state ≠ .waitForOnHeadersCompleted)
    (hChunk : after.state ≠ .chunkSizeStart) : (after.go calls).Moves :=
  fun _ => ⟨hWaits, fun hState => absurd hState hChunk⟩

/-- The states in front of a chunk set `nread` to zero, as `s_headers_done` and
`s_chunk_data_done` do before they ask for the next size. -/
theorem moves_reset (hChunk : after.state = .chunkSizeStart) (hNread : after.nread = 0) :
    (after.go calls).Moves := by
  intro _
  refine ⟨?_, fun _ => hNread⟩
  change after.state ≠ _
  rw [hChunk]
  exact State.noConfusion

theorem moves_fail {error : Errno} : (after.fail calls error).Moves := Control.noConfusion

theorem moves_stop {consumed : Bool} : Effect.Moves ⟨after, calls, .stop consumed⟩ :=
  Control.noConfusion

/-- The cases of `http_parser_execute` are chains of `if`. Each branch is looked at
alone, whatever its test is. -/
theorem moves_ite {condition : Prop} [Decidable condition] (hFirst : first.Moves)
    (hSecond : second.Moves) : (if condition then first else second).Moves := by
  split_ifs
  · exact hFirst
  · exact hSecond

theorem moves_strictCheck (hEffect : effect.Moves) :
    (parser.strictCheck ch expected effect).Moves :=
  moves_ite moves_fail hEffect

/-- `NEW_MESSAGE` leads to the start of another request, or to the state that takes
no more of them where the connection is not kept alive. -/
theorem newMessage_moves (hState : after.state = parser.newMessage) : (after.go calls).Moves := by
  unfold newMessage at hState
  split_ifs at hState
  · exact moves_go (by simp [hState]) (by simp [hState])
  · exact moves_go (by simp [hState]) (by simp [hState])

/-- `parse_url_char` stays among the states of a URL and the one that is dead, so
that no byte of a request line ends the headers. -/
theorem parseUrlChar_state (s : State) (ch : UInt8) :
    parseUrlChar s ch ≠ .waitForOnHeadersCompleted ∧ parseUrlChar s ch ≠ .chunkSizeStart := by
  unfold parseUrlChar parseUrlChar.server
  cases s <;> simp only <;> split_ifs <;> simp

theorem urlChar_moves : (parser.urlChar calls ch).Moves :=
  moves_ite moves_fail (moves_go (parseUrlChar_state _ _).1 (parseUrlChar_state _ _).2)

/-- The end of a message stops the run where the request upgrades the connection.
Otherwise another message begins behind it. -/
theorem messageDone_moves : parser.messageDone.Moves := by
  unfold messageDone
  dsimp only
  split_ifs
  · exact moves_stop
  · exact newMessage_moves rfl

/-- The LF behind the headers leads to the state that waits, but not as a step to the
next byte: the run stops there, and the LF is looked at again after the decision. -/
theorem headersAlmostDone_moves : (parser.headersAlmostDone ch).Moves :=
  moves_strictCheck (moves_ite messageDone_moves (moves_ite moves_fail moves_stop))

theorem headerFieldStart_moves : (parser.headerFieldStart ch).Moves :=
  moves_ite (moves_go (by simp) (by simp)) (moves_ite headersAlmostDone_moves
    (moves_ite moves_fail (moves_go (by simp) (by simp))))

theorem headerValueStart_moves : (parser.headerValueStart ch).Moves := by
  unfold headerValueStart
  cases parser.headerState
  case contentLength =>
    exact moves_ite moves_fail (moves_ite moves_fail (moves_go (by simp) (by simp)))
  all_goals exact moves_go (by simp) (by simp)

/-- Behind the headers stands a body or the next message. The size of a first chunk
is read with a fresh count. -/
theorem headersDone_moves : (parser.headersDone ch).Moves := by
  refine moves_strictCheck (moves_ite moves_stop (moves_ite (newMessage_moves rfl) (moves_ite
    (moves_reset rfl rfl) (moves_ite (newMessage_moves rfl) (moves_ite ?_ (newMessage_moves rfl))))))
  exact moves_go (by simp) (by simp)

theorem onHeadersCompleted_moves : (parser.onHeadersCompleted ch).Moves := by
  rw [onHeadersCompleted_eq]
  exact moves_ite headersDone_moves (moves_ite moves_stop moves_stop)

/-- All cases for one byte. A state that is kept is none of the two, which is why
the equation for the state is handed to the branches that keep it. -/
theorem byteSwitch_moves (hEffect : parser.byteSwitch ch = some effect) : effect.Moves := by
  unfold byteSwitch at hEffect
  cases hState : parser.state <;> rw [hState] at hEffect <;>
    simp only [Option.some.injEq, reduceCtorEq] at hEffect <;> subst hEffect
  case dead => exact moves_ite (moves_go (by simp [hState]) (by simp [hState])) moves_fail
  case startReq =>
    unfold startReq
    refine moves_ite (moves_go (by simp [hState]) (by simp [hState])) (moves_ite moves_fail ?_)
    dsimp only
    cases firstMethods.find? (fun entry => entry.1 == ch) with
    | none => exact moves_fail
    | some entry => exact moves_go (by simp) (by simp)
  case reqMethod =>
    unfold reqMethod
    refine moves_ite moves_fail (moves_ite (moves_go (by simp) (by simp)) (moves_ite
      (moves_go (by simp [hState]) (by simp [hState])) (moves_ite ?_ (moves_ite
      (moves_go (by simp [hState]) (by simp [hState])) moves_fail))))
    cases methodChanges.find? (fun entry => entry.1 == (parser.method, parser.index, ch)) with
    | none => exact moves_fail
    | some entry => exact moves_go (by simp [hState]) (by simp [hState])
  case reqSpacesBeforeUrl =>
    exact moves_ite (moves_go (by simp [hState]) (by simp [hState]))
      (moves_ite urlChar_moves urlChar_moves)
  case reqSchema | reqSchemaSlash | reqSchemaSlashSlash | reqServerStart =>
    exact moves_ite moves_fail urlChar_moves
  case reqServer | reqServerWithAt | reqPath | reqQueryStringStart | reqQueryString |
      reqFragmentStart | reqFragment =>
    refine moves_ite (moves_go (by simp) (by simp)) (moves_ite (moves_go ?_ ?_) urlChar_moves)
    all_goals
      dsimp only
      split_ifs <;> exact State.noConfusion
  case reqHttpStart =>
    exact moves_ite (moves_go (by simp) (by simp))
      (moves_ite (moves_go (by simp [hState]) (by simp [hState])) moves_fail)
  case reqHttpH | reqHttpHT | reqHttpHTT | reqHttpHTTP =>
    exact moves_strictCheck (moves_go (by simp) (by simp))
  case reqFirstHttpMajor | reqFirstHttpMinor =>
    exact moves_ite moves_fail (moves_go (by simp) (by simp))
  case reqHttpMajor =>
    exact moves_ite (moves_go (by simp) (by simp)) (moves_ite moves_fail
      (moves_ite moves_fail (moves_go (by simp [hState]) (by simp [hState]))))
  case reqHttpMinor =>
    exact moves_ite (moves_go (by simp) (by simp)) (moves_ite (moves_go (by simp) (by simp))
      (moves_ite moves_fail (moves_ite moves_fail
        (moves_go (by simp [hState]) (by simp [hState])))))
  case reqLineAlmostDone => exact moves_ite moves_fail (moves_go (by simp) (by simp))
  case headerFieldStart => exact headerFieldStart_moves
  case headerValueDiscardWs =>
    exact moves_ite (moves_go (by simp [hState]) (by simp [hState])) (moves_ite
      (moves_go (by simp) (by simp)) (moves_ite (moves_go (by simp) (by simp))
      headerValueStart_moves))
  case headerValueDiscardWsAlmostDone =>
    exact moves_strictCheck (moves_go (by simp) (by simp))
  case headerValueDiscardLws => exact moves_ite (moves_go (by simp) (by simp)) headerFieldStart_moves
  case headerValueStart => exact headerValueStart_moves
  case headerValueLws => exact moves_ite headerValueStart_moves headerFieldStart_moves
  case headerAlmostDone => exact moves_ite moves_fail (moves_go (by simp) (by simp))
  case chunkSizeStart =>
    unfold chunkSizeStart
    cases unhex ch with
    | none => exact moves_fail
    | some value => exact moves_go (by simp) (by simp)
  case chunkSize =>
    refine moves_ite (moves_go (by simp) (by simp)) ?_
    cases unhex ch with
    | none => exact moves_ite (moves_go (by simp) (by simp)) moves_fail
    | some value => exact moves_ite moves_fail (moves_go (by simp [hState]) (by simp [hState]))
  case chunkParameters =>
    exact moves_ite (moves_go (by simp) (by simp)) (moves_go (by simp [hState]) (by simp [hState]))
  case chunkSizeAlmostDone =>
    exact moves_strictCheck (moves_ite (moves_go (by simp) (by simp)) (moves_go (by simp) (by simp)))
  case headersAlmostDone => exact headersAlmostDone_moves
  case waitForOnHeadersCompleted => exact moves_stop
  case onHeadersCompleted => exact onHeadersCompleted_moves
  case headersDone => exact headersDone_moves
  case chunkDataAlmostDone => exact moves_strictCheck (moves_go (by simp) (by simp))
  case chunkDataDone => exact moves_strictCheck (moves_reset rfl rfl)
  case messageDone => exact messageDone_moves

/-- A body with a length is left with its last byte. Every byte before that one
keeps the state. -/
theorem scanIdentity_moves (hState : parser.state = .bodyIdentity) :
    (parser.scanIdentity ch).Moves := by
  unfold scanIdentity
  refine moves_ite ?_ (moves_go (by simp [hState]) (by simp [hState]))
  exact @messageDone_moves { parser with contentLength := parser.contentLength - 1 }

/-- One byte, with the loops of `s_header_field`, `s_header_value` and the bodies cut
into single bytes. Those loops keep their state as long as they go on. -/
theorem scanByte_moves : (parser.scanByte ch).Moves := by
  unfold scanByte
  cases hSwitch : parser.byteSwitch ch with
  | some effect => exact byteSwitch_moves hSwitch
  | none =>
      cases hState : parser.state
      case headerField =>
        have hKept := (headerFieldChar_state parser ch).trans hState
        exact moves_ite (moves_go (by simp [hKept]) (by simp [hKept]))
          (moves_ite (moves_go (by simp) (by simp)) moves_fail)
      case headerValue =>
        unfold scanValue
        refine moves_ite (moves_go (by simp) (by simp)) (moves_ite (moves_go (by simp) (by simp))
          (moves_ite (moves_go (by simp [hState]) (by simp [hState])) (moves_ite moves_fail ?_)))
        cases hChar : headerValueChar ⟨parser, parser.headerState⟩ ch with
        | none => exact moves_fail
        | some value =>
            have hKept := (headerValueChar_kept hState hChar).1
            exact moves_go (by simp [hKept]) (by simp [hKept])
      case bodyIdentity => exact scanIdentity_moves hState
      case chunkData =>
        exact moves_ite (moves_go (by simp) (by simp))
          (moves_go (by simp [hState]) (by simp [hState]))
      all_goals simp [byteSwitch, hState] at hSwitch

end Moves

namespace Scanner

/-- Scanning does not get to the state that waits: the bytes of a scan lead on, and
the last one of them decides about the state that is left. -/
theorem scan_moves {scanner after : Scanner} {bytes : Bytes} {events : List ParserEvent}
    (hScan : scanner.scan bytes = some (after, events)) (hNonempty : bytes ≠ []) :
    after.parser.state ≠ .waitForOnHeadersCompleted := by
  induction bytes generalizing scanner events with
  | nil => exact absurd rfl hNonempty
  | cons ch rest ih =>
      obtain ⟨hControl, last, hRest, -⟩ := scan_cons hScan
      by_cases hEnd : rest = []
      · subst hEnd
        obtain ⟨rfl, -⟩ := Prod.mk.inj (Option.some.inj hRest)
        exact (scanByte_moves hControl).1
      · exact ih hRest hEnd

end Scanner

end Httpuv.RequestParser
