import Httpuv.Parser.Sound

/-! The callbacks of one call of `http_parser_execute`, told by the piece of data
that is under way instead of by pointers into the buffer. -/
namespace Httpuv.RequestParser

/-- The data callback that has a mark, with the bytes from the mark on. -/
abbrev Pending := Option (DataCallback × Bytes)

namespace Pending

/-- What a macro leaves under way, and what it reports. -/
def report (pending : Pending) : Call → Pending × List ParserEvent
  | .mark callback => (some (pending.getD (callback, [])), [])
  | .data callback =>
      match pending with
      | some (marked, piece) =>
          if marked = callback then (none, [callback.event piece]) else (pending, [])
      | none => (none, [])
  | .notify event => (pending, [event])

def reportAll (pending : Pending) : List Call → Pending × List ParserEvent
  | [] => (pending, [])
  | call :: calls =>
      let (middle, first) := pending.report call
      let (finish, rest) := reportAll middle calls
      (finish, first ++ rest)

/-- The pointer moves past some bytes. -/
def advance (pending : Pending) (bytes : Bytes) : Pending :=
  pending.map (fun (callback, piece) => (callback, piece ++ bytes))

/-- What the end of the buffer reports. -/
def events (pending : Pending) : List ParserEvent :=
  pending.toList.map (fun (callback, piece) => callback.event piece)

/-- The marks in a buffer of which `p` is left. -/
def marks (pending : Pending) (p : Bytes) (callback : DataCallback) : Option Bytes :=
  match pending with
  | some (marked, piece) => if marked = callback then some (piece ++ p) else none
  | none => none

theorem advance_append (pending : Pending) (first second : Bytes) :
    (pending.advance first).advance second = pending.advance (first ++ second) := by
  cases pending <;> simp [advance]

@[simp] theorem advance_nil (pending : Pending) : pending.advance [] = pending := by
  cases pending <;> simp [advance]

theorem marks_advance (pending : Pending) (bytes p : Bytes) :
    (pending.advance bytes).marks p = pending.marks (bytes ++ p) := by
  funext callback
  cases pending <;> simp [advance, marks]

theorem advance_slot (pending : Pending) (bytes : Bytes) :
    (pending.advance bytes).map Prod.fst = pending.map Prod.fst := by
  cases pending <;> simp [advance]

end Pending

theorem upTo_append (piece p : Bytes) : upTo (piece ++ p) p = piece := by
  simp [upTo]

namespace Execution

/-- The marks are those of the piece under way. -/
def Has (exec : Execution) (p : Bytes) (pending : Pending) : Prop := exec.marks = pending.marks p

theorem call_pending {exec : Execution} {p : Bytes} {pending : Pending} (hHas : exec.Has p pending)
    {call : Call} {place place' : ParserPhase × Option DataCallback}
    (hSlot : place.2 = pending.map Prod.fst) (hNext : Call.next place call = some place') :
    (exec.call p call).parser = exec.parser ∧
      (exec.call p call).events = exec.events ++ (pending.report call).2 ∧
      (exec.call p call).Has p (pending.report call).1 ∧
      place'.2 = (pending.report call).1.map Prod.fst := by
  unfold Has at hHas ⊢
  cases call with
  | mark callback =>
      simp only [Call.next, hSlot] at hNext
      split_ifs at hNext with hNone
      obtain rfl := Option.some.inj hNext
      obtain rfl : pending = none := by simpa using hNone
      have hUnset : exec.marks callback = none := by rw [hHas]; rfl
      refine ⟨?_, ?_, ?_, rfl⟩
      · simp [Execution.call, hUnset]
      · simp [Execution.call, hUnset, Pending.report]
      · funext other
        by_cases hSame : callback = other
        · subst hSame
          simp [Execution.call, hUnset, Pending.report, Pending.marks]
        · have hOther : exec.marks other = none := by rw [hHas]; rfl
          simp [Execution.call, hUnset, Pending.report, Pending.marks, hSame, hOther,
            Function.update_of_ne (Ne.symm hSame)]
  | data callback =>
      simp only [Call.next, hSlot] at hNext
      split_ifs at hNext with hOpen
      obtain ⟨phase, -, rfl⟩ := Option.map_eq_some_iff.1 hNext
      cases pending with
      | none =>
          have hUnset : exec.marks callback = none := by rw [hHas]; rfl
          exact ⟨by simp [Execution.call, hUnset], by simp [Execution.call, hUnset, Pending.report],
            by simpa [Execution.call, hUnset, Pending.report] using hHas, rfl⟩
      | some marked =>
          obtain ⟨marked, piece⟩ := marked
          obtain rfl : marked = callback := by simpa using hOpen
          have hSet : exec.marks marked = some (piece ++ p) := by simp [hHas, Pending.marks]
          refine ⟨?_, ?_, ?_, ?_⟩
          · simp [Execution.call, hSet]
          · simp [Execution.call, hSet, Pending.report, upTo_append]
          · funext other
            by_cases hSame : marked = other
            · subst hSame
              simp [Execution.call, hSet, Pending.report, Pending.marks]
            · simp [Execution.call, hSet, Pending.report, Pending.marks, hHas, hSame,
                Function.update_of_ne (Ne.symm hSame)]
          · simp [Pending.report]
  | notify event =>
      simp only [Call.next, hSlot] at hNext
      split_ifs at hNext with hNone
      obtain ⟨phase, -, rfl⟩ := Option.map_eq_some_iff.1 hNext
      exact ⟨rfl, rfl, hHas, by simpa [Pending.report] using hNone.symm⟩

/-- The macros of a case report what they report of the piece under way. -/
theorem callAll_pending {exec : Execution} {p : Bytes} {pending : Pending}
    (hHas : exec.Has p pending) {calls : List Call} {place place' : ParserPhase × Option DataCallback}
    (hSlot : place.2 = pending.map Prod.fst)
    (hPath : calls.foldlM Call.next place = some place') :
    (exec.callAll p calls).parser = exec.parser ∧
      (exec.callAll p calls).events = exec.events ++ (pending.reportAll calls).2 ∧
      (exec.callAll p calls).Has p (pending.reportAll calls).1 ∧
      place'.2 = (pending.reportAll calls).1.map Prod.fst := by
  induction calls generalizing exec pending place with
  | nil =>
      obtain rfl := Option.some.inj hPath
      exact ⟨rfl, by simp [callAll, Pending.reportAll], hHas, hSlot⟩
  | cons call calls ih =>
      obtain ⟨middle, hNext, hRest⟩ := Option.bind_eq_some_iff.1 hPath
      obtain ⟨hParser, hEvents, hMarks, hMiddle⟩ := call_pending hHas hSlot hNext
      obtain ⟨hParser', hEvents', hMarks', hFinish⟩ := ih hMarks hMiddle hRest
      refine ⟨hParser'.trans hParser, ?_, hMarks', hFinish⟩
      change ((exec.call p call).callAll p calls).events = _
      rw [hEvents', hEvents, List.append_assoc]
      rfl

end Execution

section Order

/-- A piece of data does not matter for the order of the callbacks. -/
theorem next_event (phase : ParserPhase) (callback : DataCallback) (piece : Bytes) :
    phase.next (callback.event piece) = phase.next (callback.event []) := by
  cases phase <;> cases callback <;> rfl

theorem phase_of_next_event {phase phase' : ParserPhase} {callback : DataCallback} {piece : Bytes}
    (hNext : phase.next (callback.event piece) = some phase') : phase' = phase := by
  cases phase <;> cases callback <;> cases hNext <;> rfl

theorem after_append (phase : ParserPhase) (first second : List ParserEvent) :
    phase.after (first ++ second) = (phase.after first).bind (fun middle => middle.after second) := by
  simp [ParserPhase.after, List.foldlM_append]

theorem after_singleton (phase : ParserPhase) (event : ParserEvent) :
    phase.after [event] = phase.next event := by
  cases hNext : phase.next event <;> simp [ParserPhase.after, hNext]

variable {pending : Pending} {place place' : ParserPhase × Option DataCallback}

theorem report_slot {call : Call} (hSlot : place.2 = pending.map Prod.fst)
    (hNext : Call.next place call = some place') :
    place'.2 = (pending.report call).1.map Prod.fst :=
  (@Execution.call_pending ⟨init, pending.marks [], []⟩ [] pending rfl call place place' hSlot
    hNext).2.2.2

theorem report_after {call : Call} (hSlot : place.2 = pending.map Prod.fst)
    (hNext : Call.next place call = some place') :
    place.1.after (pending.report call).2 = some place'.1 := by
  cases call with
  | mark callback =>
      simp only [Call.next] at hNext
      split_ifs at hNext
      obtain rfl := Option.some.inj hNext
      rfl
  | data callback =>
      simp only [Call.next] at hNext
      split_ifs at hNext with hOpen
      obtain ⟨phase, hPhase, rfl⟩ := Option.map_eq_some_iff.1 hNext
      cases pending with
      | none =>
          obtain rfl := phase_of_next_event hPhase
          rfl
      | some marked =>
          obtain ⟨marked, piece⟩ := marked
          obtain rfl : marked = callback := by simpa [hSlot] using hOpen
          simp only [Pending.report, if_true, after_singleton, next_event _ _ piece, hPhase]
  | notify event =>
      simp only [Call.next] at hNext
      split_ifs at hNext
      obtain ⟨phase, hPhase, rfl⟩ := Option.map_eq_some_iff.1 hNext
      simp only [Pending.report, after_singleton, hPhase]

/-- The macros of a case report events in order. -/
theorem reportAll_after {calls : List Call} (hSlot : place.2 = pending.map Prod.fst)
    (hPath : calls.foldlM Call.next place = some place') :
    place.1.after (pending.reportAll calls).2 = some place'.1 ∧
      place'.2 = (pending.reportAll calls).1.map Prod.fst := by
  induction calls generalizing pending place with
  | nil =>
      obtain rfl := Option.some.inj hPath
      exact ⟨rfl, hSlot⟩
  | cons call calls ih =>
      obtain ⟨middle, hNext, hRest⟩ := Option.bind_eq_some_iff.1 hPath
      obtain ⟨hAfter, hFinish⟩ := ih (report_slot hSlot hNext) hRest
      refine ⟨?_, hFinish⟩
      change place.1.after ((pending.report call).2 ++ _) = _
      rw [after_append, report_after hSlot hNext]
      exact hAfter

/-- No callback leads to a refused message. -/
theorem not_refused_of_after {phase : ParserPhase} {events : List ParserEvent}
    (hAfter : phase.after events = some .refused) : events = [] ∧ phase = .refused := by
  induction events generalizing phase with
  | nil => exact ⟨rfl, Option.some.inj hAfter⟩
  | cons event events ih =>
      obtain ⟨middle, hNext, hRest⟩ := Option.bind_eq_some_iff.1 hAfter
      obtain ⟨-, rfl⟩ := ih hRest
      cases phase <;> cases event <;> cases hNext

end Order

end Httpuv.RequestParser
