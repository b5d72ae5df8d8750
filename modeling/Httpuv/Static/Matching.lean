import Httpuv.Static.StaticPath

/-! The search of `matchStaticPath` finds the longest registered name that covers
the path. -/
namespace Httpuv

open Paths

namespace StaticPathManager

variable {manager : StaticPathManager} {path : Bytes} {result : Match}

/-- The registered names. -/
def names (manager : StaticPathManager) : List Bytes :=
  manager.path_map.map (fun entry => entry.1.1)

theorem get_isSome (manager : StaticPathManager) (name : Bytes) :
    (manager.get name).isSome = true ↔ name ∈ manager.names := by
  simp [get, names, List.find?_isSome]

theorem ne_nil_of_mem_names {name : Bytes} (hName : name ∈ manager.names) : name ≠ [] := by
  obtain ⟨entry, -, rfl⟩ := List.mem_map.1 hName
  exact entry.1.2.1

theorem terminated_of_mem_names {name : Bytes} (hName : name ∈ manager.names) : 0 ∉ name := by
  obtain ⟨entry, -, rfl⟩ := List.mem_map.1 hName
  exact entry.1.2.2

theorem found_eq_some {pre_slash post_slash : Bytes}
    (h : manager.found pre_slash post_slash = some result) :
    manager.get pre_slash = some result.sp ∧ result.pre_slash = pre_slash ∧
      result.post_slash = post_slash := by
  obtain ⟨sp, hGet, rfl⟩ := Option.map_eq_some_iff.1 h
  exact ⟨hGet, rfl, rfl⟩

theorem found_eq_none {pre_slash post_slash : Bytes}
    (h : manager.found pre_slash post_slash = none) : pre_slash ∉ manager.names := by
  intro hMem
  obtain ⟨sp, hGet⟩ := Option.isSome_iff_exists.1 ((manager.get_isSome pre_slash).2 hMem)
  simp [found, hGet] at h

/-- A result stands at the last slash whose name is registered. -/
theorem matchBefore_eq_some {found_idx : Nat}
    (h : manager.matchBefore path found_idx = some result) :
    ∃ pos < found_idx, path[pos]? = some 47 ∧
      manager.found (preSlash path pos) (path.drop (pos + 1)) = some result ∧
      ∀ later, pos < later → later < found_idx → path[later]? = some 47 →
        preSlash path later ∉ manager.names := by
  induction found_idx with
  | zero => cases h
  | succ found_idx ih =>
      have hBelow : manager.matchBefore path found_idx = some result →
          (path[found_idx]? = some 47 → preSlash path found_idx ∉ manager.names) →
          ∃ pos < found_idx + 1, path[pos]? = some 47 ∧
            manager.found (preSlash path pos) (path.drop (pos + 1)) = some result ∧
            ∀ later, pos < later → later < found_idx + 1 → path[later]? = some 47 →
              preSlash path later ∉ manager.names := by
        intro hBefore hOther
        obtain ⟨pos, hPos, hSlash, hFound, hLater⟩ := ih hBefore
        refine ⟨pos, by omega, hSlash, hFound, ?_⟩
        intro later hAfter hLess hAt
        rcases Nat.lt_or_ge later found_idx with hBelow | hHere
        · exact hLater later hAfter hBelow hAt
        · obtain rfl : later = found_idx := by omega
          exact hOther hAt
      rw [matchBefore] at h
      split_ifs at h with hSlash
      · cases hFound : manager.found (preSlash path found_idx) (path.drop (found_idx + 1)) with
        | some other =>
            rw [hFound] at h
            obtain rfl := Option.some.inj h
            exact ⟨found_idx, by omega, hSlash, hFound, fun later hAfter hLess => by omega⟩
        | none =>
            rw [hFound] at h
            exact hBelow h fun _ => found_eq_none hFound
      · exact hBelow h fun hAt => absurd hAt hSlash

theorem matchBefore_eq_none {found_idx : Nat} (h : manager.matchBefore path found_idx = none) :
    ∀ pos < found_idx, path[pos]? = some 47 → preSlash path pos ∉ manager.names := by
  induction found_idx with
  | zero =>
      intro pos hPos
      omega
  | succ found_idx ih =>
      rw [matchBefore] at h
      intro pos hPos hAt
      rcases Nat.lt_or_ge pos found_idx with hBelow | hHere
      · apply ih _ pos hBelow hAt
        split_ifs at h with hSlash
        · cases hFound : manager.found (preSlash path found_idx) (path.drop (found_idx + 1)) with
          | some other =>
              rw [hFound] at h
              cases h
          | none =>
              rw [hFound] at h
              exact h
        · exact h
      · obtain rfl : pos = found_idx := by omega
        rw [if_pos hAt] at h
        cases hFound : manager.found (preSlash path pos) (path.drop (pos + 1)) with
        | some other =>
            rw [hFound] at h
            cases h
        | none => exact found_eq_none hFound

/-- A path around one of its slashes. -/
theorem split_at {pos : Nat} (hSlash : path[pos]? = some 47) :
    path = path.take pos ++ 47 :: path.drop (pos + 1) := by
  obtain ⟨hLess, hAt⟩ := List.getElem?_eq_some_iff.1 hSlash
  rw [← hAt, ← List.drop_eq_getElem_cons hLess, List.take_append_drop]

/-- What stands before the slashes of a path is what covers it. -/
theorem covers_iff {name : Bytes} (hName : name ≠ []) :
    Covers 47 name path ↔
      name = path ∨ ∃ pos, path[pos]? = some 47 ∧ name = preSlash path pos := by
  constructor
  · rintro (rfl | ⟨rest, rfl⟩ | ⟨rfl, rest, rfl⟩)
    · exact Or.inl rfl
    · refine Or.inr ⟨name.length, by simp, ?_⟩
      have hTake : (name ++ [47] ++ rest).take name.length = name := by simp
      rw [preSlash, hTake, if_neg hName]
    · exact Or.inr ⟨0, by simp, by simp [preSlash]⟩
  · rintro (rfl | ⟨pos, hSlash, rfl⟩)
    · exact Or.inl rfl
    · have hSplit := split_at hSlash
      unfold preSlash
      split_ifs with hFirst
      · rw [hFirst, List.nil_append] at hSplit
        exact Or.inr (Or.inr ⟨rfl, _, hSplit.symm⟩)
      · exact Or.inr (Or.inl ⟨path.drop (pos + 1), by rw [List.append_assoc]; exact hSplit.symm⟩)

theorem length_preSlash_le {pos later : Nat} (hLess : pos < later)
    (hSlash : path[later]? = some 47) :
    (preSlash path pos).length ≤ (preSlash path later).length := by
  obtain ⟨hShort, -⟩ := List.getElem?_eq_some_iff.1 hSlash
  have hLater : (path.take later).length = later := by
    rw [List.length_take]
    omega
  have hSome : path.take later ≠ [] := by
    intro hNone
    rw [hNone] at hLater
    simp at hLater
    omega
  rw [preSlash, preSlash, if_neg hSome, hLater]
  split_ifs with hFirst
  · simp only [List.length_cons, List.length_nil]
    omega
  · rw [List.length_take]
    omega

/-- Where a match stands in its path. -/
structure At (manager : StaticPathManager) (path : Bytes) (result : Match) : Prop where
  registered : manager.get result.pre_slash = some result.sp
  split : (result.pre_slash = path ∧ result.post_slash = []) ∨
    path = result.pre_slash ++ 47 :: result.post_slash ∨
    (result.pre_slash = [47] ∧ path = 47 :: result.post_slash)
  longest : IsLongest 47 manager.names path result.pre_slash

theorem matchPath_eq_some (h : manager.matchPath path = some result) : manager.At path result := by
  unfold matchPath at h
  cases hWhole : manager.found path [] with
  | some other =>
      rw [hWhole] at h
      obtain rfl := Option.some.inj h
      obtain ⟨hGet, hPre, hPost⟩ := found_eq_some hWhole
      have hMem : path ∈ manager.names := (manager.get_isSome path).1 (by simp [hGet])
      refine ⟨by rw [hPre]; exact hGet, Or.inl ⟨hPre, hPost⟩, ?_⟩
      rw [hPre]
      exact ⟨hMem, Covers.refl path, fun name _ hCovers => hCovers.length_le⟩
  | none =>
      rw [hWhole] at h
      obtain ⟨pos, -, hSlash, hFound, hLater⟩ := matchBefore_eq_some h
      obtain ⟨hGet, hPre, hPost⟩ := found_eq_some hFound
      have hMem : preSlash path pos ∈ manager.names :=
        (manager.get_isSome _).1 (by simp [hGet])
      have hSplit := split_at hSlash
      constructor
      · rw [hPre]
        exact hGet
      · rw [hPre, hPost]
        right
        unfold preSlash
        split_ifs with hFirst
        · rw [hFirst, List.nil_append] at hSplit
          exact Or.inr ⟨rfl, hSplit⟩
        · exact Or.inl hSplit
      · rw [hPre]
        refine ⟨hMem, (covers_iff (ne_nil_of_mem_names hMem)).2 (Or.inr ⟨pos, hSlash, rfl⟩), ?_⟩
        intro name hName hCovers
        rcases (covers_iff (ne_nil_of_mem_names hName)).1 hCovers with rfl | ⟨other, hAt, rfl⟩
        · exact absurd hName (found_eq_none hWhole)
        · rcases Nat.lt_trichotomy pos other with hLess | rfl | hMore
          · have hShort : other < path.length + 1 := by
              obtain ⟨hShort, -⟩ := List.getElem?_eq_some_iff.1 hAt
              omega
            exact absurd hName (hLater other hLess hShort hAt)
          · exact le_rfl
          · exact length_preSlash_le hMore hSlash

/-- Without a match no registered name covers the path. -/
theorem matchPath_eq_none (h : manager.matchPath path = none) {name : Bytes}
    (hName : name ∈ manager.names) : ¬ Covers 47 name path := by
  unfold matchPath at h
  cases hWhole : manager.found path [] with
  | some other =>
      rw [hWhole] at h
      cases h
  | none =>
      rw [hWhole] at h
      intro hCovers
      rcases (covers_iff (ne_nil_of_mem_names hName)).1 hCovers with rfl | ⟨pos, hSlash, rfl⟩
      · exact found_eq_none hWhole hName
      · obtain ⟨hShort, -⟩ := List.getElem?_eq_some_iff.1 hSlash
        exact matchBefore_eq_none h pos (by omega) hSlash hName

/-- What is searched for: no name covers a path with a backslash. -/
def searched (url_path : Bytes) : Bytes :=
  if 92 ∈ url_path then [] else stripTrailingSlash url_path

theorem matchPath_nil (manager : StaticPathManager) : manager.matchPath [] = none := by
  have hNone : ∀ post_slash, manager.found [] post_slash = none := by
    intro post_slash
    rw [found, Option.map_eq_none_iff, ← Option.not_isSome_iff_eq_none, get_isSome]
    intro hMem
    exact ne_nil_of_mem_names hMem rfl
  rw [matchPath, hNone]
  rfl

theorem matchName_eq (manager : StaticPathManager) (url_path : Bytes) :
    manager.matchName url_path = manager.matchPath (searched url_path) := by
  unfold matchName searched
  by_cases hEmpty : url_path = []
  · rw [hEmpty]
    exact (matchPath_nil manager).symm
  · by_cases hBackslash : 92 ∈ url_path
    · rw [if_neg hEmpty, if_pos hBackslash, if_pos hBackslash]
      exact (matchPath_nil manager).symm
    · rw [if_neg hEmpty, if_neg hBackslash, if_neg hBackslash]

/-- The name under which something is found is the longest one. -/
theorem isLongest_iff_matchPath {name : Bytes} :
    IsLongest 47 manager.names path name ↔
      ∃ result, manager.matchPath path = some result ∧ result.pre_slash = name := by
  constructor
  · intro hLongest
    cases hMatch : manager.matchPath path with
    | none => exact absurd hLongest.2.1 (matchPath_eq_none hMatch hLongest.1)
    | some result => exact ⟨result, rfl, (matchPath_eq_some hMatch).longest.unique hLongest⟩
  · rintro ⟨result, hMatch, rfl⟩
    exact (matchPath_eq_some hMatch).longest

end StaticPathManager

/-- A directory with a file in it that is excluded. -/
def sampleStaticPaths : StaticPathManager where
  path_map :=
    [(⟨ascii "/a", by decide⟩,
      { path := ascii "/srv"
        options := { indexhtml := none, fallthrough := none, html_charset := none, headers := none,
                     validation := none, exclude := some false }
        excluded_or_some := by decide
        no_trailing_slash := by decide
        terminated := by decide }),
     (⟨ascii "/a/secret", by decide⟩,
      { path := []
        options := { indexhtml := none, fallthrough := none, html_charset := none, headers := none,
                     validation := none, exclude := some true }
        excluded_or_some := by decide
        no_trailing_slash := by decide
        terminated := by decide })]
  options := { indexhtml := some true, fallthrough := some false, html_charset := some (ascii "utf-8"),
               headers := some [], validation := some [], exclude := some false }

example : (sampleStaticPaths.matchStaticPath (ascii "/a/b/c/")).map Prod.snd = some (ascii "b/c") := by
  decide +kernel

end Httpuv
