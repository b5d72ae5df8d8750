import Httpuv.Semantics.System

/-! Readers that receive a stream in chunks. A reader is described by what it
has done after each prefix of the stream; if every chunk moves it from one
prefix to the next, the way the stream is cut cannot be observed. -/
namespace Semantics.Reader

universe u v w x

variable {State : Type u} {Symbol : Type v} {Event : Type w} {View : Type x}

/-- A specification by prefixes: the state a reader is in and the events it has
produced once it has read a given prefix. Events are compared through `view`. -/
structure Follows (read : State → List Symbol → Option (State × List Event))
    (spec : List Symbol → State × List Event) (view : List Event → View) : Prop where
  view_append : ∀ before before' after, view before = view before' →
    view (before ++ after) = view (before' ++ after)
  chunk : ∀ past next, ∃ events,
    read (spec past).1 next = some ((spec (past ++ next)).1, events) ∧
      view ((spec past).2 ++ events) = view (spec (past ++ next)).2

/-- Reading the chunks one after the other reaches the state and the events
specified for their concatenation. -/
theorem Follows.exec_eq {read : State → List Symbol → Option (State × List Event)}
    {spec : List Symbol → State × List Event} {view : List Event → View}
    (follows : Follows read spec view) (past : List Symbol) (chunks : List (List Symbol)) :
    ∃ events, System.exec read (spec past).1 chunks =
        some ((spec (past ++ chunks.flatten)).1, events) ∧
      view ((spec past).2 ++ events) = view (spec (past ++ chunks.flatten)).2 := by
  induction chunks generalizing past with
  | nil => exact ⟨[], by simp [System.exec], by simp⟩
  | cons next rest ih =>
      obtain ⟨first, hRead, hFirst⟩ := follows.chunk past next
      obtain ⟨later, hRest, hLater⟩ := ih (past ++ next)
      refine ⟨first ++ later, ?_, ?_⟩
      · simp only [List.flatten_cons, ← List.append_assoc]
        simp [System.exec, hRead, hRest]
      · calc view ((spec past).2 ++ (first ++ later))
            = view (((spec past).2 ++ first) ++ later) := by rw [List.append_assoc]
          _ = view ((spec (past ++ next)).2 ++ later) := follows.view_append _ _ _ hFirst
          _ = view (spec (past ++ (next :: rest).flatten)).2 := by
            rw [hLater, List.flatten_cons, List.append_assoc]

end Semantics.Reader
