import Httpuv.Parser.Contract

/-! The order in which `http_parser` reports to its caller, over all calls that the
caller makes. -/
namespace Httpuv

open Semantics

/-- A call of `http_parser` that changes it. -/
inductive ParserCall where
  | execute (data : Bytes)
  | headersCompleted (status : Nat)
  | pause
  deriving DecidableEq, Repr

/-- What goes between `http_parser` and its caller: a report, or the answer of the
caller to complete headers. -/
inductive ParserExchange where
  | event (event : ParserEvent)
  | answer (status : Nat)
  deriving DecidableEq, Repr

/-- The order of an exchange. Each message begins, has its target and its headers
reported and waits; a status of three ends it, and any other one leads to its body,
more headers and its end. -/
def ParserPhase.exchange : ParserPhase → ParserExchange → Option ParserPhase
  | phase, .event event => phase.next event
  | .waiting, .answer status => some (if status = 3 then .between else .body)
  | _, .answer _ => none

namespace RequestParser

/-- A call, with the part of the exchange that belongs to it. Headers are answered
when the parser waits for it. -/
def call (parser : RequestParser) : ParserCall → Option (RequestParser × List ParserExchange)
  | .execute data =>
      some ((parser.execute data).parser, (parser.execute data).events.map .event)
  | .headersCompleted status =>
      if parser.waitingForHeadersCompleted then
        some (parser.headersCompleted status, [.answer status])
      else none
  | .pause => some (parser.pause, [])

def calls : System RequestParser ParserCall ParserExchange :=
  System.ofStep (fun parser => parser = init) call

/-- How far the exchange has come in a phase. The line feed of a message that its
caller has ended is dropped without a report. -/
def stage : ParserPhase → ParserPhase
  | .refused => .between
  | phase => phase

theorem foldlM_event (phase : ParserPhase) (events : List ParserEvent) :
    (events.map ParserExchange.event).foldlM ParserPhase.exchange phase = phase.after events := by
  rw [List.foldlM_map]
  rfl

theorem stage_of_next {phase finish : ParserPhase} {event : ParserEvent}
    (hNext : phase.next event = some finish) : stage phase = phase ∧ stage finish = finish := by
  cases phase <;> cases event <;> cases hNext <;> exact ⟨rfl, rfl⟩

theorem stage_after {phase finish : ParserPhase} {events : List ParserEvent}
    (hAfter : phase.after events = some finish) :
    (stage phase).after events = some (stage finish) := by
  induction events generalizing phase with
  | nil =>
      obtain rfl := Option.some.inj hAfter
      rfl
  | cons event events ih =>
      obtain ⟨middle, hNext, hRest⟩ := Option.bind_eq_some_iff.1 hAfter
      obtain ⟨hPhase, hMiddle⟩ := stage_of_next hNext
      have hTail := ih hRest
      rw [hMiddle] at hTail
      rw [hPhase]
      exact Option.bind_eq_some_iff.2 ⟨middle, hNext, hTail⟩

variable {parser parser' : RequestParser} {emitted : List ParserExchange}

/-- What one call adds to the exchange. -/
theorem call_exchange {action : ParserCall} (hIdle : parser.Idle)
    (hCall : parser.call action = some (parser', emitted)) :
    parser'.Idle ∧
      emitted.foldlM ParserPhase.exchange (stage parser.phase) = some (stage parser'.phase) := by
  cases action with
  | execute data =>
      simp only [call, Option.some.injEq, Prod.mk.injEq] at hCall
      obtain ⟨rfl, rfl⟩ := hCall
      obtain ⟨hIdle', hOrder⟩ := execute_idle hIdle data
      refine ⟨hIdle', ?_⟩
      rw [foldlM_event]
      rcases hOrder with hAfter | ⟨hRefused, hEvents, hBetween⟩
      · exact stage_after hAfter
      · rw [hRefused, hEvents, hBetween]
        rfl
  | headersCompleted status =>
      simp only [call] at hCall
      split_ifs at hCall with hWaiting
      simp only [Option.some.injEq, Prod.mk.injEq] at hCall
      obtain ⟨rfl, rfl⟩ := hCall
      refine ⟨headersCompleted_idle hIdle (by omega), ?_⟩
      rw [waiting_iff.1 hWaiting]
      change some (if status = 3 then ParserPhase.between else .body) =
        some (stage (if (status : Int) = 3 then .refused else .body))
      by_cases hThree : status = 3
      · rw [if_pos hThree, if_pos (by omega)]
        rfl
      · rw [if_neg hThree, if_neg (by omega)]
        rfl
  | pause =>
      simp only [call, Option.some.injEq, Prod.mk.injEq] at hCall
      obtain ⟨rfl, rfl⟩ := hCall
      obtain ⟨hIdle', hPhase⟩ := pause_idle hIdle
      refine ⟨hIdle', ?_⟩
      rw [hPhase]
      rfl

/-- Whatever a caller does, and whatever it reads, the reports and its answers come
in the order of messages. -/
theorem calls_ordered {actions : List ParserCall} {exchanged : List ParserExchange}
    (hRun : calls.Run init actions parser exchanged) :
    exchanged.foldlM ParserPhase.exchange .between = some (stage parser.phase) := by
  have hAll : parser.Idle ∧
      exchanged.foldlM ParserPhase.exchange .between = some (stage parser.phase) := by
    induction hRun with
    | nil => exact ⟨init_idle, rfl⟩
    | snoc prior last ih =>
        obtain ⟨hIdle, hBefore⟩ := ih
        obtain ⟨hIdle', hStep⟩ := call_exchange hIdle last
        refine ⟨hIdle', ?_⟩
        rw [List.foldlM_append, hBefore]
        exact hStep
  exact hAll.2

/-- A message that its caller ends, and the start of the next one. -/
theorem calls_ordered_refused :
    ∃ parser exchanged, System.exec call init [.execute (ascii "GET / HTTP/1.1\r\n\r"),
        .execute (ascii "\nPUT"), .headersCompleted 3, .execute (ascii "\nPUT")] =
        some (parser, exchanged) ∧
      exchanged.foldlM ParserPhase.exchange .between = some (stage parser.phase) := by
  have hSome : (System.exec call init [.execute (ascii "GET / HTTP/1.1\r\n\r"),
      .execute (ascii "\nPUT"), .headersCompleted 3, .execute (ascii "\nPUT")]).isSome = true := by
    decide +kernel
  obtain ⟨⟨parser, exchanged⟩, hRun⟩ := Option.isSome_iff_exists.1 hSome
  exact ⟨parser, exchanged, hRun, calls_ordered (System.run_of_exec hRun)⟩

end RequestParser

end Httpuv
