import Mathlib.Data.List.Basic

/-! Sequences of events in which neighbours may be parts of one event. Nothing
here depends on a particular program. -/
namespace Semantics

universe u

/-- How an event is joined with the one after it. Whether a joined event can be
joined with the next one depends on its last part only. -/
structure Joining (Event : Type u) where
  join : Event → Event → Option Event
  assoc : ∀ first second both third, join first second = some both →
    (join second third = none ∧ join both third = none) ∨
      ∃ rest all, join second third = some rest ∧ join first rest = some all ∧
        join both third = some all

namespace Joining

variable {Event : Type u} (J : Joining Event)

/-- An event in front of events that have been joined. -/
def push (event : Event) : List Event → List Event
  | [] => [event]
  | next :: rest =>
      match J.join event next with
      | some joined => joined :: rest
      | none => event :: next :: rest

/-- Joins all neighbours that can be joined. -/
def coalesce (events : List Event) : List Event := events.foldr J.push []

variable {J} {first second both event : Event} {events before before' after after' : List Event}

theorem push_cons_some {next joined : Event} (h : J.join event next = some joined) :
    J.push event (next :: events) = joined :: events := by
  simp [push, h]

theorem push_cons_none {next : Event} (h : J.join event next = none) :
    J.push event (next :: events) = event :: next :: events := by
  simp [push, h]

theorem push_push (h : J.join first second = some both) (events : List Event) :
    J.push first (J.push second events) = J.push both events := by
  cases events with
  | nil => simp [push, h]
  | cons third events =>
      rcases J.assoc first second both third h with ⟨hSecond, hBoth⟩ | ⟨rest, all, hSecond, hFirst, hBoth⟩
      · rw [push_cons_none hSecond, push_cons_some h, push_cons_none hBoth]
      · rw [push_cons_some hSecond, push_cons_some hFirst, push_cons_some hBoth]

theorem foldr_push (event : Event) (before after : List Event) :
    (J.push event before).foldr J.push after = J.push event (before.foldr J.push after) := by
  cases before with
  | nil => rfl
  | cons next before =>
      cases hJoin : J.join event next with
      | none =>
          rw [push_cons_none hJoin]
          rfl
      | some joined =>
          rw [push_cons_some hJoin]
          exact (push_push hJoin _).symm

theorem coalesce_append (before after : List Event) :
    J.coalesce (before ++ after) = (J.coalesce before).foldr J.push (J.coalesce after) := by
  induction before with
  | nil => rfl
  | cons event before ih =>
      change J.push event (J.coalesce (before ++ after)) = _
      rw [ih]
      exact (foldr_push event (J.coalesce before) (J.coalesce after)).symm

theorem coalesce_congr (hBefore : J.coalesce before = J.coalesce before')
    (hAfter : J.coalesce after = J.coalesce after') :
    J.coalesce (before ++ after) = J.coalesce (before' ++ after') := by
  rw [coalesce_append, coalesce_append, hBefore, hAfter]

/-- Two events that can be joined are as good as the joined one. -/
theorem coalesce_join (h : J.join first second = some both) (before after : List Event) :
    J.coalesce (before ++ first :: second :: after) = J.coalesce (before ++ both :: after) :=
  coalesce_congr rfl (push_push h (J.coalesce after))

theorem coalesce_nil (h : J.coalesce events = []) : events = [] := by
  cases events with
  | nil => rfl
  | cons event events =>
      change J.push event (J.coalesce events) = [] at h
      cases hRest : J.coalesce events with
      | nil =>
          rw [hRest] at h
          cases h
      | cons next rest =>
          cases hJoin : J.join event next with
          | none =>
              rw [hRest, push_cons_none hJoin] at h
              cases h
          | some joined =>
              rw [hRest, push_cons_some hJoin] at h
              cases h

/-- The parts of the first joined event come before those of the others. -/
theorem coalesce_cons {whole : Event} {rest : List Event} (h : J.coalesce events = whole :: rest) :
    ∃ pieces more, events = pieces ++ more ∧ J.coalesce pieces = [whole] ∧
      J.coalesce more = rest := by
  induction events generalizing whole rest with
  | nil => cases h
  | cons event events ih =>
      change J.push event (J.coalesce events) = whole :: rest at h
      cases hRest : J.coalesce events with
      | nil =>
          rw [hRest, push, List.cons.injEq] at h
          obtain ⟨rfl, rfl⟩ := h
          exact ⟨[event], events, rfl, rfl, hRest⟩
      | cons next others =>
          cases hJoin : J.join event next with
          | none =>
              rw [hRest, push_cons_none hJoin, List.cons.injEq] at h
              obtain ⟨rfl, rfl⟩ := h
              exact ⟨[event], events, rfl, rfl, hRest⟩
          | some joined =>
              rw [hRest, push_cons_some hJoin, List.cons.injEq] at h
              obtain ⟨rfl, rfl⟩ := h
              obtain ⟨pieces, more, rfl, hPieces, hMore⟩ := ih hRest
              refine ⟨event :: pieces, more, rfl, ?_, hMore⟩
              change J.push event (J.coalesce pieces) = _
              rw [hPieces, push_cons_some hJoin]

/-- An event that is not joined has one part. -/
theorem coalesce_singleton (hMade : ∀ first second, J.join first second ≠ some event)
    (h : J.coalesce events = [event]) : events = [event] := by
  cases events with
  | nil => cases h
  | cons first events =>
      change J.push first (J.coalesce events) = [event] at h
      cases hRest : J.coalesce events with
      | nil =>
          rw [hRest, push, List.cons.injEq] at h
          rw [coalesce_nil hRest, h.1]
      | cons next others =>
          cases hJoin : J.join first next with
          | none =>
              rw [hRest, push_cons_none hJoin] at h
              cases h
          | some joined =>
              rw [hRest, push_cons_some hJoin, List.cons.injEq] at h
              exact absurd (h.1 ▸ hJoin) (hMade first next)

/-- An event that no joining has to do with stays. -/
theorem mem_coalesce (hKept : ∀ other, J.join event other = none ∧ J.join other event = none)
    (hMade : ∀ first second, J.join first second ≠ some event) :
    event ∈ J.coalesce events ↔ event ∈ events := by
  have hPush : ∀ next rest, event ∈ J.push next rest ↔ event = next ∨ event ∈ rest := by
    intro next rest
    cases rest with
    | nil => simp [push]
    | cons second rest =>
        cases hJoin : J.join next second with
        | none => rw [push_cons_none hJoin, List.mem_cons]
        | some joined =>
            have hNext : event ≠ next := by
              rintro rfl
              rw [(hKept second).1] at hJoin
              cases hJoin
            have hSecond : event ≠ second := by
              rintro rfl
              rw [(hKept next).2] at hJoin
              cases hJoin
            have hJoined : event ≠ joined := by
              rintro rfl
              exact hMade next second hJoin
            simp [push_cons_some hJoin, hNext, hSecond, hJoined]
  induction events with
  | nil => rfl
  | cons next rest ih =>
      change event ∈ J.push next (J.coalesce rest) ↔ _
      rw [hPush, List.mem_cons]
      exact or_congr Iff.rfl ih

end Joining

end Semantics
