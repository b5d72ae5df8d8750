import Mathlib.Data.List.Infix
import Mathlib.Data.Set.Finite.Lemmas
import Mathlib.Data.Set.Finite.List

/-! Paths: sequences of segments with a separator between them, and the names
that cover a path up to a separator. -/
namespace Paths

variable {Symbol : Type} {sep : Symbol}

section Segments

variable [DecidableEq Symbol] {segment path : List Symbol}

/-- A segment stands between two separators or at an end of the path. -/
theorem mem_splitOn (hSegment : segment ∈ path.splitOn sep) :
    ∃ before after, path = before ++ segment ++ after ∧
      (before = [] ∨ [sep] <:+ before) ∧ (after = [] ∨ [sep] <+: after) := by
  induction hLength : path.length using Nat.strongRecOn generalizing path with
  | ind length ih =>
      by_cases hSep : sep ∈ path
      · obtain ⟨first, rest, rfl, hFirst⟩ := List.eq_append_cons_of_mem hSep
        rw [List.splitOn_append_cons_self_of_not_mem hFirst] at hSegment
        rcases List.mem_cons.1 hSegment with rfl | hRest
        · exact ⟨[], sep :: rest, by simp, Or.inl rfl, Or.inr ⟨rest, rfl⟩⟩
        · have hShort : rest.length < length := by
            rw [← hLength, List.length_append, List.length_cons]
            omega
          obtain ⟨before, after, rfl, hBefore, hAfter⟩ := ih rest.length hShort hRest rfl
          refine ⟨first ++ sep :: before, after, by simp, Or.inr ?_, hAfter⟩
          rcases hBefore with rfl | ⟨earlier, rfl⟩
          · exact ⟨first, rfl⟩
          · exact ⟨first ++ sep :: earlier, by simp⟩
      · rw [List.splitOn_eq_singleton hSep] at hSegment
        rw [List.mem_singleton.1 hSegment]
        exact ⟨[], [], by simp, Or.inl rfl, Or.inl rfl⟩

/-- Behind a leading separator a segment has a separator before it. -/
theorem infix_or_suffix_of_mem_splitOn (hSome : segment ≠ []) (hPlain : sep ∉ segment)
    (hSegment : segment ∈ (sep :: path).splitOn sep) :
    sep :: segment ++ [sep] <:+: sep :: path ∨ sep :: segment <:+ sep :: path := by
  obtain ⟨before, after, hPath, hBefore, hAfter⟩ := mem_splitOn hSegment
  rcases hBefore with rfl | ⟨earlier, rfl⟩
  · cases segment with
    | nil => exact absurd rfl hSome
    | cons first rest =>
        have hFirst : sep = first := by simpa using congrArg List.head? hPath
        exact absurd (by simp [hFirst]) hPlain
  · rw [hPath]
    rcases hAfter with rfl | ⟨later, rfl⟩
    · exact Or.inr ⟨earlier, by simp⟩
    · exact Or.inl ⟨earlier, later, by simp⟩

theorem mem_splitOn_of_suffix (hPlain : sep ∉ segment) (hSuffix : sep :: segment <:+ path) :
    segment ∈ path.splitOn sep := by
  obtain ⟨before, rfl⟩ := hSuffix
  rw [List.splitOn_append_cons_self, List.splitOn_eq_singleton hPlain]
  simp

end Segments

/-- What follows the last separator. -/
theorem exists_last {path : List Symbol} (h : sep ∈ path) :
    ∃ front back, path = front ++ sep :: back ∧ sep ∉ back := by
  obtain ⟨back, front, hPath, hBack⟩ := List.eq_append_cons_of_mem (List.mem_reverse.2 h)
  refine ⟨front.reverse, back.reverse, ?_, by simpa using hBack⟩
  rw [← List.reverse_reverse path, hPath]
  simp

section Infixes

variable {needle first rest path : List Symbol}

/-- What has no separator in it stands on one side of each separator. -/
theorem infix_append_cons (hPlain : sep ∉ needle) :
    needle <:+: first ++ sep :: rest ↔ needle <:+: first ∨ needle <:+: rest := by
  constructor
  · intro h
    induction first with
    | nil =>
        rcases List.infix_cons_iff.1 h with hBegin | hRest
        · rcases List.prefix_cons_iff.1 hBegin with rfl | ⟨later, rfl, -⟩
          · exact Or.inl List.nil_infix
          · exact absurd List.mem_cons_self hPlain
        · exact Or.inr hRest
    | cons symbol first ih =>
        rcases List.infix_cons_iff.1 h with hBegin | hLater
        · left
          have hFront : symbol :: first ++ [sep] <+: symbol :: (first ++ sep :: rest) :=
            ⟨rest, by simp⟩
          rcases List.prefix_or_prefix_of_prefix hBegin hFront with hShort | hLong
          · rcases List.prefix_concat_iff.1 hShort with rfl | hFirst
            · exact absurd (by simp) hPlain
            · exact hFirst.isInfix
          · exact absurd (hLong.subset (by simp)) hPlain
        · rcases ih hLater with hFirst | hRest
          · exact Or.inl (List.infix_cons_iff.2 (Or.inr hFirst))
          · exact Or.inr hRest
  · rintro (hFirst | hRest)
    · exact List.infix_append_of_infix_left hFirst
    · exact List.infix_append_of_infix_right (List.infix_cons_iff.2 (Or.inr hRest))

/-- What has no separator in it is a part of the path if and only if it is a part of a segment. -/
theorem infix_splitOn [DecidableEq Symbol] (hPlain : sep ∉ needle) :
    needle <:+: path ↔ ∃ segment ∈ path.splitOn sep, needle <:+: segment := by
  constructor
  · intro h
    induction hLength : path.length using Nat.strongRecOn generalizing path with
    | ind length ih =>
        by_cases hSep : sep ∈ path
        · obtain ⟨first, rest, rfl, hFirst⟩ := List.eq_append_cons_of_mem hSep
          rw [List.splitOn_append_cons_self_of_not_mem hFirst]
          rcases (infix_append_cons hPlain).1 h with hHere | hRest
          · exact ⟨first, List.mem_cons_self, hHere⟩
          · have hShort : rest.length < length := by
              rw [← hLength, List.length_append, List.length_cons]
              omega
            obtain ⟨segment, hMem, hSegment⟩ := ih rest.length hShort hRest rfl
            exact ⟨segment, List.mem_cons_of_mem first hMem, hSegment⟩
        · rw [List.splitOn_eq_singleton hSep]
          exact ⟨path, List.mem_singleton_self path, h⟩
  · rintro ⟨segment, hMem, hSegment⟩
    obtain ⟨before, after, rfl, -, -⟩ := mem_splitOn hMem
    exact hSegment.trans (List.infix_append before segment after)

end Infixes

section Covers

variable {name other path : List Symbol}

/-- A path is covered by itself, by what stands before one of its separators, and
by the separator alone if it begins with one. -/
def Covers (sep : Symbol) (name path : List Symbol) : Prop :=
  name = path ∨ name ++ [sep] <+: path ∨ (name = [sep] ∧ [sep] <+: path)

instance [DecidableEq Symbol] (name path : List Symbol) : Decidable (Covers sep name path) := by
  unfold Covers
  infer_instance

theorem Covers.refl (path : List Symbol) : Covers sep path path := Or.inl rfl

theorem Covers.trans (h : Covers sep name other) (h' : Covers sep other path) :
    Covers sep name path := by
  rcases h with rfl | hName | ⟨rfl, hFirst⟩
  · exact h'
  · right
    left
    rcases h' with rfl | hOther | ⟨rfl, hFirst⟩
    · exact hName
    · exact hName.trans ((List.prefix_append other [sep]).trans hOther)
    · exact hName.trans hFirst
  · refine Or.inr (Or.inr ⟨rfl, ?_⟩)
    rcases h' with rfl | hOther | ⟨rfl, hPath⟩
    · exact hFirst
    · exact hFirst.trans ((List.prefix_append other [sep]).trans hOther)
    · exact hPath

theorem Covers.length_le (h : Covers sep name path) : name.length ≤ path.length := by
  rcases h with rfl | hName | ⟨rfl, hFirst⟩
  · exact le_rfl
  · have hLength := hName.length_le
    rw [List.length_append] at hLength
    omega
  · exact hFirst.length_le

/-- A name is a part of the path it covers. -/
theorem Covers.begins (h : Covers sep name path) : name <+: path := by
  rcases h with rfl | hName | ⟨rfl, hFirst⟩
  · exact List.prefix_rfl
  · exact (List.prefix_append name [sep]).trans hName
  · exact hFirst

/-- Of two names that cover one path the shorter one covers the longer one. -/
theorem Covers.total (h : Covers sep name path) (h' : Covers sep other path)
    (hLength : name.length ≤ other.length) : Covers sep name other := by
  have hBegin : name <+: other := List.prefix_of_prefix_length_le h.begins h'.begins hLength
  rcases h with rfl | hName | ⟨rfl, hFirst⟩
  · exact Or.inl (hBegin.eq_of_length (le_antisymm hLength h'.length_le))
  · rcases Nat.lt_or_ge name.length other.length with hLess | hSame
    · refine Or.inr (Or.inl (List.prefix_of_prefix_length_le hName h'.begins ?_))
      rw [List.length_append]
      exact hLess
    · exact Or.inl (hBegin.eq_of_length (le_antisymm hLength hSame))
  · exact Or.inr (Or.inr ⟨rfl, hBegin⟩)

/-- The longest of the names that cover a path. -/
def IsLongest (sep : Symbol) (names : List (List Symbol)) (path name : List Symbol) : Prop :=
  name ∈ names ∧ Covers sep name path ∧
    ∀ other ∈ names, Covers sep other path → other.length ≤ name.length

theorem IsLongest.unique {names : List (List Symbol)} (h : IsLongest sep names path name)
    (h' : IsLongest sep names path other) : name = other := by
  have hSame : name.length = other.length :=
    le_antisymm (h'.2.2 name h.1 h.2.1) (h.2.2 other h'.1 h'.2.1)
  have hBegin := List.prefix_of_prefix_length_le h.2.1.begins h'.2.1.begins hSame.le
  exact hBegin.eq_of_length hSame

/-- Some name is the longest if one covers the path at all. -/
theorem exists_isLongest {names : List (List Symbol)} (hMem : name ∈ names)
    (hCovers : Covers sep name path) : ∃ longest, IsLongest sep names path longest := by
  let covering : Set (List Symbol) := {other | other ∈ names ∧ Covers sep other path}
  have hFinite : covering.Finite := (List.finite_toSet names).subset fun _ hOther => hOther.1
  obtain ⟨longest, ⟨hLongest, hCovered⟩, hMax⟩ :=
    Set.exists_max_image covering List.length hFinite ⟨name, hMem, hCovers⟩
  exact ⟨longest, hLongest, hCovered, fun other hOther hCovers => hMax other ⟨hOther, hCovers⟩⟩

/-- Two paths have the same longest name if and only if the same names cover them. -/
theorem isLongest_iff {names : List (List Symbol)} {u v : List Symbol} :
    (∀ name, IsLongest sep names u name ↔ IsLongest sep names v name) ↔
      ∀ name ∈ names, Covers sep name u ↔ Covers sep name v := by
  constructor
  · intro hSame name hMem
    constructor
    · intro hCovers
      obtain ⟨longest, hLongest⟩ := exists_isLongest hMem hCovers
      have hShort := hCovers.total hLongest.2.1 (hLongest.2.2 name hMem hCovers)
      exact hShort.trans ((hSame longest).1 hLongest).2.1
    · intro hCovers
      obtain ⟨longest, hLongest⟩ := exists_isLongest hMem hCovers
      have hShort := hCovers.total hLongest.2.1 (hLongest.2.2 name hMem hCovers)
      exact hShort.trans ((hSame longest).2 hLongest).2.1
  · intro hSame name
    constructor
    · rintro ⟨hMem, hCovers, hMax⟩
      exact ⟨hMem, (hSame name hMem).1 hCovers, fun other hOther hCovered =>
        hMax other hOther ((hSame other hOther).2 hCovered)⟩
    · rintro ⟨hMem, hCovers, hMax⟩
      exact ⟨hMem, (hSame name hMem).2 hCovers, fun other hOther hCovered =>
        hMax other hOther ((hSame other hOther).1 hCovered)⟩

end Covers

end Paths
