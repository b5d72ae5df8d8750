import Mathlib.Data.List.Infix

/-! Properties of the entries of a trace in view of what came before them.
Nothing here depends on a particular program. -/
namespace Semantics

universe u

variable {Entry : Type u} {P Q : List Entry → Entry → Prop} {trace entries : List Entry}
  {entry : Entry}

/-- The property holds of every entry together with the entries before it. -/
def AtEach (P : List Entry → Entry → Prop) (trace : List Entry) : Prop :=
  ∀ before entry, before ++ [entry] <+: trace → P before entry

namespace AtEach

theorem nil : AtEach P [] := by
  intro before entry hPrefix
  simp at hPrefix

theorem concat_iff : AtEach P (trace ++ [entry]) ↔ AtEach P trace ∧ P trace entry := by
  constructor
  · intro h
    refine ⟨fun before other hPrefix => ?_, h trace entry (List.prefix_refl _)⟩
    exact h before other (hPrefix.trans (List.prefix_append _ _))
  · rintro ⟨h, hLast⟩ before other hPrefix
    rcases List.prefix_concat_iff.1 hPrefix with hSame | hPrefix
    · obtain ⟨rfl, hEntry⟩ := List.append_inj' hSame rfl
      cases hEntry
      exact hLast
    · exact h before other hPrefix

theorem cons_iff : AtEach P (entry :: trace) ↔
    P [] entry ∧ AtEach (fun before => P (entry :: before)) trace := by
  constructor
  · intro h
    refine ⟨h [] entry (List.prefix_append _ _), fun before other hPrefix => ?_⟩
    exact h (entry :: before) other (List.cons_prefix_cons.2 ⟨rfl, hPrefix⟩)
  · rintro ⟨hFirst, h⟩ before other hPrefix
    cases before with
    | nil =>
        obtain ⟨rfl, -⟩ := List.cons_prefix_cons.1 hPrefix
        exact hFirst
    | cons first before =>
        obtain ⟨rfl, hRest⟩ := List.cons_prefix_cons.1 hPrefix
        exact h before other hRest

theorem of_prefix (h : AtEach P trace) (hPrefix : entries <+: trace) : AtEach P entries :=
  fun before entry hBefore => h before entry (hBefore.trans hPrefix)

theorem of_append (h : AtEach P (trace ++ entries)) : AtEach P trace :=
  h.of_prefix (List.prefix_append _ _)

/-- Entries for which the property holds wherever they stand. -/
theorem append (h : AtEach P trace) (hEntries : ∀ entry ∈ entries, ∀ before, P before entry) :
    AtEach P (trace ++ entries) := by
  induction entries using List.reverseRecOn with
  | nil => simpa using h
  | append_singleton entries entry ih =>
      rw [← List.append_assoc, concat_iff]
      constructor
      · exact ih (fun other hMem => hEntries other (List.mem_append_left _ hMem))
      · exact hEntries entry (by simp) _

/-- An entry that is in the trace has a place in it. -/
theorem of_mem (h : AtEach P trace) (hMem : entry ∈ trace) :
    ∃ before, before ++ [entry] <+: trace ∧ P before entry := by
  obtain ⟨before, after, rfl⟩ := List.append_of_mem hMem
  have hPrefix : before ++ [entry] <+: before ++ entry :: after :=
    ⟨after, by simp⟩
  exact ⟨before, hPrefix, h before entry hPrefix⟩

end AtEach

end Semantics
