import Mathlib.Data.List.Induction

/-! Labelled transition systems whose steps emit outputs, and the induction
rules for their runs. Nothing here depends on a particular program. -/
namespace Semantics

universe u v w

/-- A system takes one labelled step at a time. Each step emits the outputs
that an observer of the system sees, in order. -/
structure System (State : Type u) (Action : Type v) (Output : Type w) where
  initial : State → Prop
  step : State → Action → State → List Output → Prop

namespace System

variable {State : Type u} {Action : Type v} {Output : Type w}

/-- The actions taken from `start`, the state reached and everything emitted
on the way. The last step is the outermost one. -/
inductive Run (S : System State Action Output) (start : State) :
    List Action → State → List Output → Prop where
  | nil : Run S start [] start []
  | snoc {actions : List Action} {middle finish : State} {outputs emitted : List Output}
      {action : Action}
      (prior : Run S start actions middle outputs)
      (last : S.step middle action finish emitted) :
      Run S start (actions ++ [action]) finish (outputs ++ emitted)

/-- What holds at the start and survives every step holds after every run.
The invariant may speak about the outputs emitted so far. -/
theorem Run.invariant {S : System State Action Output} {start finish : State}
    {actions : List Action} {outputs : List Output}
    {I : State → List Output → Prop}
    (run : S.Run start actions finish outputs) (hStart : I start [])
    (hStep : ∀ s os a t es, I s os → S.step s a t es → I t (os ++ es)) :
    I finish outputs := by
  induction run with
  | nil => exact hStart
  | snoc prior last ih => exact hStep _ _ _ _ _ ih last

/-- Runs compose: the second one continues where the first one ended. -/
theorem Run.trans {S : System State Action Output} {start middle finish : State}
    {first second : List Action} {before after : List Output}
    (left : S.Run start first middle before) (right : S.Run middle second finish after) :
    S.Run start (first ++ second) finish (before ++ after) := by
  induction right with
  | nil => simpa using left
  | snoc prior last ih =>
      rw [← List.append_assoc, ← List.append_assoc]
      exact ih.snoc last

theorem Run.of_snoc {S : System State Action Output} {start finish : State}
    {actions : List Action} {action : Action} {outputs : List Output}
    (run : S.Run start (actions ++ [action]) finish outputs) :
    ∃ middle past emitted, S.Run start actions middle past ∧
      S.step middle action finish emitted ∧ outputs = past ++ emitted := by
  generalize hActions : actions ++ [action] = all at run
  cases run with
  | nil => simp at hActions
  | snoc prior last =>
      obtain ⟨rfl, hAction⟩ := List.append_inj' hActions rfl
      cases hAction
      exact ⟨_, _, _, prior, last, rfl⟩

/-- A run passes through a state behind each of its prefixes. -/
theorem Run.split {S : System State Action Output} {start finish : State}
    {first second : List Action} {outputs : List Output}
    (run : S.Run start (first ++ second) finish outputs) :
    ∃ middle before after, S.Run start first middle before ∧ S.Run middle second finish after ∧
      outputs = before ++ after := by
  induction second using List.reverseRecOn generalizing finish outputs with
  | nil => exact ⟨finish, outputs, [], by simpa using run, .nil, by simp⟩
  | append_singleton second action ih =>
      rw [← List.append_assoc] at run
      obtain ⟨state, past, emitted, hPrior, hLast, rfl⟩ := run.of_snoc
      obtain ⟨middle, before, after, hFirst, hSecond, rfl⟩ := ih hPrior
      exact ⟨middle, before, after ++ emitted, hFirst, hSecond.snoc hLast, by simp⟩

/-- A single step is a run of length one. -/
theorem Run.single {S : System State Action Output} {start finish : State} {action : Action}
    {emitted : List Output} (h : S.step start action finish emitted) :
    S.Run start [action] finish emitted := by
  simpa using Run.nil.snoc h

/-- Relabelling the actions of a run, when it maps steps to steps. -/
theorem Run.map {Label : Type*} {S : System State Action Output} {T : System State Label Output}
    {start finish : State} {actions : List Action} {outputs : List Output} (f : Action → Label)
    (hStep : ∀ s a t es, S.step s a t es → T.step s (f a) t es)
    (run : S.Run start actions finish outputs) :
    T.Run start (actions.map f) finish outputs := by
  induction run with
  | nil => exact .nil
  | snoc prior last ih =>
      rw [List.map_append]
      exact ih.snoc (hStep _ _ _ _ last)

/-- The same system where a step is taken only from states and with actions
that meet the condition. -/
def guarded (S : System State Action Output) (condition : State → Action → Prop) :
    System State Action Output where
  initial := S.initial
  step s a t es := condition s a ∧ S.step s a t es

/-- Guarding only removes runs. -/
theorem Run.of_guarded {S : System State Action Output} {condition : State → Action → Prop}
    {start finish : State} {actions : List Action} {outputs : List Output}
    (run : (S.guarded condition).Run start actions finish outputs) :
    S.Run start actions finish outputs := by
  induction run with
  | nil => exact .nil
  | snoc prior last ih => exact ih.snoc last.2

/-- The system of a step function. A result of `none` is a step that cannot
be taken from this state. -/
def ofStep (initial : State → Prop) (step : State → Action → Option (State × List Output)) :
    System State Action Output where
  initial := initial
  step s a t es := step s a = some (t, es)

/-- Run a step function on a list of actions. -/
def exec (step : State → Action → Option (State × List Output)) :
    State → List Action → Option (State × List Output)
  | s, [] => some (s, [])
  | s, a :: rest => do
      let (t, es) ← step s a
      let (u, os) ← exec step t rest
      return (u, es ++ os)

/-- An evaluation begins with its first step. -/
theorem exec_cons_eq_some {step : State → Action → Option (State × List Output)}
    {start finish : State} {action : Action} {rest : List Action} {outputs : List Output} :
    exec step start (action :: rest) = some (finish, outputs) ↔
      ∃ middle first last, step start action = some (middle, first) ∧
        exec step middle rest = some (finish, last) ∧ outputs = first ++ last := by
  simp only [exec, Option.bind_eq_bind, Option.bind_eq_some_iff, Option.pure_def,
    Option.some.injEq, Prod.mk.injEq, Prod.exists]
  constructor
  · rintro ⟨middle, first, hStep, finish, last, hRest, rfl, rfl⟩
    exact ⟨middle, first, last, hStep, hRest, rfl⟩
  · rintro ⟨middle, first, last, hStep, hRest, rfl⟩
    exact ⟨middle, first, hStep, finish, last, hRest, rfl, rfl⟩

/-- Evaluating a step function on a list of actions gives a run of its system. -/
theorem run_of_exec {initial : State → Prop}
    {step : State → Action → Option (State × List Output)} {start finish : State}
    {actions : List Action} {outputs : List Output}
    (h : exec step start actions = some (finish, outputs)) :
    (ofStep initial step).Run start actions finish outputs := by
  induction actions generalizing start outputs with
  | nil =>
      simp only [exec, Option.some.injEq, Prod.mk.injEq] at h
      obtain ⟨rfl, rfl⟩ := h
      exact .nil
  | cons a rest ih =>
      obtain ⟨t, es, os, hStep, hRest, rfl⟩ := exec_cons_eq_some.1 h
      have hFirst : (ofStep initial step).Run start [a] t es := Run.single hStep
      exact hFirst.trans (ih hRest)

/-- Evaluation of a concatenation goes through the state in the middle. -/
theorem exec_append {step : State → Action → Option (State × List Output)}
    (start : State) (first second : List Action) :
    exec step start (first ++ second) = (exec step start first).bind fun middle =>
      (exec step middle.1 second).map fun finish => (finish.1, middle.2 ++ finish.2) := by
  induction first generalizing start with
  | nil => simp [exec]
  | cons a rest ih =>
      simp only [List.cons_append, exec, ih, Option.bind_eq_bind, Option.pure_def]
      cases step start a with
      | none => rfl
      | some stepped =>
          obtain ⟨t, es⟩ := stepped
          cases hRest : exec step t rest with
          | none => simp [hRest]
          | some middle =>
              cases hSecond : exec step middle.1 second <;> simp [hRest, hSecond]

theorem exec_singleton {step : State → Action → Option (State × List Output)}
    (start : State) (action : Action) : exec step start [action] = step start action := by
  cases hStep : step start action <;> simp [exec, hStep]

/-- A first step without outputs only changes where the rest starts. -/
theorem exec_cons_silent {step : State → Action → Option (State × List Output)}
    {start middle : State} {action : Action} (hStep : step start action = some (middle, []))
    (rest : List Action) : exec step start (action :: rest) = exec step middle rest := by
  cases hRest : exec step middle rest <;> simp [exec, hStep, hRest]

/-- A run of the system of a step function is an evaluation of it. -/
theorem exec_of_run {initial : State → Prop}
    {step : State → Action → Option (State × List Output)} {start finish : State}
    {actions : List Action} {outputs : List Output}
    (run : (ofStep initial step).Run start actions finish outputs) :
    exec step start actions = some (finish, outputs) := by
  induction run with
  | nil => rfl
  | @snoc actions middle finish outputs emitted action prior last ih =>
      have hStep : step middle action = some (finish, emitted) := last
      rw [exec_append, ih]
      simp [exec_singleton, hStep]

/-- A step function leaves no choice. -/
theorem Run.deterministic {initial : State → Prop}
    {step : State → Action → Option (State × List Output)} {start finish finish' : State}
    {actions : List Action} {outputs outputs' : List Output}
    (run : (ofStep initial step).Run start actions finish outputs)
    (run' : (ofStep initial step).Run start actions finish' outputs') :
    finish = finish' ∧ outputs = outputs' := by
  have hSame := (exec_of_run run).symm.trans (exec_of_run run')
  simpa using hSame

end System

end Semantics
