import Httpuv.Constants

/-! `http_parser` as its caller sees it: what it reports while it executes, and
what the caller may do to it in between. -/
namespace Httpuv

/-- The callbacks of `request_settings` that are looked at. Completed headers
come with the test that `updateUpgradeStatus` makes on the parser. -/
inductive ParserEvent where
  | onMessageBegin
  | onUrl (data : Bytes)
  | onHeaderField (data : Bytes)
  | onHeaderValue (data : Bytes)
  | onHeadersComplete (upgrade : Bool)
  | onBody (data : Bytes)
  | onMessageComplete
  deriving DecidableEq, Repr

structure ExecuteResult (Parser : Type) where
  parser : Parser
  parsed : Nat
  events : List ParserEvent

/-- The functions of `http_parser` that are called. All callbacks return zero,
so the events of an execution depend on the parser and its input only. -/
class HttpParser where
  Parser : Type
  init : Parser
  execute : Parser → Bytes → ExecuteResult Parser
  waitingForHeadersCompleted : Parser → Bool
  headersCompleted : Parser → Nat → Parser
  shouldKeepAlive : Parser → Bool
  pause : Parser → Parser

/-- Where a parser is in a message. After a headers status of three it still has
to consume the line feed of the header block, and is then `between` messages. -/
inductive ParserPhase where
  | between
  | head
  | waiting
  | body
  | refused
  deriving DecidableEq, Repr

namespace ParserPhase

/-- The order of the callbacks. The body of a chunked message ends with more
header lines. -/
def next : ParserPhase → ParserEvent → Option ParserPhase
  | .between, .onMessageBegin => some .head
  | .head, .onUrl _ => some .head
  | .head, .onHeaderField _ => some .head
  | .head, .onHeaderValue _ => some .head
  | .head, .onHeadersComplete _ => some .waiting
  | .body, .onHeaderField _ => some .body
  | .body, .onHeaderValue _ => some .body
  | .body, .onBody _ => some .body
  | .body, .onMessageComplete => some .between
  | _, _ => none

/-- The events lead from one phase to the other. -/
def Follows : ParserPhase → List ParserEvent → ParserPhase → Prop
  | phase, [], finish => phase = finish
  | phase, event :: events, finish =>
      ∃ middle, phase.next event = some middle ∧ Follows middle events finish

end ParserPhase

/-- The behaviour of `http_parser` that its caller relies on. The parser stops
at the end of a header block and consumes nothing while it waits, and a status of
three makes it drop the rest of the message. -/
structure HttpParserContract [HttpParser] where
  phase : HttpParser.Parser → ParserPhase
  init : phase HttpParser.init = .between
  waiting_iff : ∀ parser,
    HttpParser.waitingForHeadersCompleted parser = true ↔ phase parser = .waiting
  execute : ∀ parser data,
    ParserPhase.Follows (phase parser) (HttpParser.execute parser data).events
        (phase (HttpParser.execute parser data).parser) ∨
      phase parser = .refused ∧ (HttpParser.execute parser data).events = [] ∧
        phase (HttpParser.execute parser data).parser = .between
  proceed : ∀ parser, phase parser = .waiting →
    phase (HttpParser.headersCompleted parser 0) = .body
  refuse : ∀ parser, phase parser = .waiting →
    phase (HttpParser.headersCompleted parser 3) = .refused
  pause : ∀ parser, phase (HttpParser.pause parser) = phase parser
  idle : ∀ parser data, phase parser = .waiting → (HttpParser.execute parser data).parsed = 0

namespace HttpParserContract

variable [HttpParser] (contract : HttpParserContract) {parser : HttpParser.Parser}

/-- Nothing is reported while the parser waits, nor by the execution that drops
a refused message. -/
theorem silent (hPhase : contract.phase parser = .waiting ∨ contract.phase parser = .refused)
    (data : Bytes) :
    (HttpParser.execute parser data).events = [] ∧
      (contract.phase (HttpParser.execute parser data).parser = contract.phase parser ∨
        contract.phase parser = .refused ∧
          contract.phase (HttpParser.execute parser data).parser = .between) := by
  rcases contract.execute parser data with hFollows | ⟨hRefused, hEvents, hBetween⟩
  · cases hEvents : (HttpParser.execute parser data).events with
    | nil =>
        rw [hEvents] at hFollows
        exact ⟨rfl, Or.inl (Eq.symm hFollows)⟩
    | cons event events =>
        rw [hEvents] at hFollows
        obtain ⟨middle, hNext, -⟩ := hFollows
        rcases hPhase with hPhase | hPhase <;> rw [hPhase] at hNext <;> cases hNext
  · exact ⟨hEvents, Or.inr ⟨hRefused, hBetween⟩⟩

end HttpParserContract

namespace ParserPhase

/-- The phase that the events lead to. -/
def after (phase : ParserPhase) (events : List ParserEvent) : Option ParserPhase :=
  events.foldlM next phase

theorem follows_of_after {phase finish : ParserPhase} {events : List ParserEvent}
    (h : phase.after events = some finish) : Follows phase events finish := by
  induction events generalizing phase with
  | nil => exact Option.some.inj h
  | cons event events ih =>
      simp only [after, List.foldlM_cons, Option.bind_eq_bind, Option.bind_eq_some_iff] at h
      obtain ⟨middle, hNext, hRest⟩ := h
      exact ⟨middle, hNext, ih hRest⟩

end ParserPhase

end Httpuv
