import Httpuv.Static.Matching

/-! The loop of `matchStaticPath` ends, with the longest name and what follows it. -/
namespace Httpuv

open Paths

/-- `find_last_of` for one character, from a position downwards. -/
def findLastOf (path : Bytes) (c : UInt8) : Nat → Option Nat
  | 0 => if path[0]? = some c then some 0 else none
  | pos + 1 => if path[pos + 1]? = some c then some (pos + 1) else findLastOf path c pos

namespace StaticPathManager

/-- The local variables of the loop. -/
structure Search where
  pre_slash : Bytes
  post_slash : Bytes
  found_idx : Nat
  deriving DecidableEq, Repr

def Search.start (path : Bytes) : Search :=
  { pre_slash := path, post_slash := [], found_idx := path.length + 1 }

/-- One turn returns, or goes on before an earlier slash. -/
def turn (manager : StaticPathManager) (path : Bytes) (search : Search) : Option Match ⊕ Search :=
  match manager.get search.pre_slash with
  | some sp =>
      .inl (some { pre_slash := search.pre_slash, sp, post_slash := search.post_slash })
  | none =>
      if search.found_idx = 0 then .inl none
      else
        match findLastOf path 47 (search.found_idx - 1) with
        | none => .inl none
        | some found_idx => .inr {
            pre_slash := preSlash path found_idx
            post_slash := path.drop (found_idx + 1)
            found_idx }

/-- The loop, for a number of turns. -/
def loop (manager : StaticPathManager) (path : Bytes) : Nat → Search → Option (Option Match)
  | 0, _ => none
  | turns + 1, search =>
      match manager.turn path search with
      | .inl result => some result
      | .inr next => manager.loop path turns next

/-- What follows a name in a path that it covers. -/
def remainder (path name : Bytes) : Bytes :=
  if path = name then []
  else if name ++ [47] <+: path then path.drop (name.length + 1)
  else path.drop 1

variable {manager : StaticPathManager} {path : Bytes} {result : Match} {pos found_idx : Nat}

theorem findLastOf_le (h : findLastOf path 47 pos = some found_idx) : found_idx ≤ pos := by
  induction pos with
  | zero =>
      obtain ⟨-, hSame⟩ := Option.ite_none_right_eq_some.1 h
      exact (Option.some.inj hSame).symm.le
  | succ pos ih =>
      rw [findLastOf] at h
      split_ifs at h with hSlash
      · exact (Option.some.inj h).symm.le
      · exact (ih h).trans (Nat.le_succ pos)

/-- Positions without a slash are passed over. -/
theorem matchBefore_findLastOf :
    manager.matchBefore path (pos + 1) = match findLastOf path 47 pos with
      | some found_idx =>
          match manager.found (preSlash path found_idx) (path.drop (found_idx + 1)) with
          | some result => some result
          | none => manager.matchBefore path found_idx
      | none => none := by
  induction pos with
  | zero =>
      rw [matchBefore, findLastOf]
      split_ifs <;> rfl
  | succ pos ih =>
      rw [matchBefore, findLastOf]
      split_ifs with hSlash
      · rfl
      · exact ih

/-- The loop has nothing more to do than the search before its position. -/
theorem loop_eq (turns : Nat) (search : Search) (hTurns : search.found_idx < turns) :
    manager.loop path turns search =
      some (match manager.found search.pre_slash search.post_slash with
        | some result => some result
        | none => manager.matchBefore path search.found_idx) := by
  induction turns generalizing search with
  | zero => exact absurd hTurns (Nat.not_lt_zero _)
  | succ turns ih =>
      rw [loop, turn, found]
      cases hGet : manager.get search.pre_slash with
      | some sp => rfl
      | none =>
          cases hIndex : search.found_idx with
          | zero => rfl
          | succ pos =>
              rw [Option.map_none, if_neg (Nat.succ_ne_zero pos), Nat.add_sub_cancel,
                matchBefore_findLastOf]
              cases hLast : findLastOf path 47 pos with
              | none => rfl
              | some found_idx =>
                  have hLess := findLastOf_le hLast
                  exact ih _ (by dsimp only; omega)

/-- The loop ends, after at most one turn for each position. -/
theorem loop_matchPath (manager : StaticPathManager) (path : Bytes) :
    manager.loop path (path.length + 2) (Search.start path) = some (manager.matchPath path) :=
  loop_eq _ _ (Nat.lt_succ_self _)

theorem remainder_split {name rest : Bytes} : remainder (name ++ 47 :: rest) name = rest := by
  have hPrefix : name ++ [47] <+: name ++ 47 :: rest := ⟨rest, by simp⟩
  have hDrop : (name ++ 47 :: rest).drop (name.length + 1) = rest := by
    rw [← List.drop_drop, List.drop_left]
    rfl
  rw [remainder, if_neg (by simp), if_pos hPrefix, hDrop]

/-- The last slash whose name is registered is the one behind which the remainder
begins. -/
theorem matchPath_post (h : manager.matchPath path = some result) :
    result.post_slash = remainder path result.pre_slash := by
  unfold matchPath at h
  cases hWhole : manager.found path [] with
  | some other =>
      rw [hWhole] at h
      obtain rfl := Option.some.inj h
      obtain ⟨-, hPre, hPost⟩ := found_eq_some hWhole
      rw [hPre, hPost, remainder, if_pos rfl]
  | none =>
      rw [hWhole] at h
      obtain ⟨pos, -, hSlash, hFound, hLater⟩ := matchBefore_eq_some h
      obtain ⟨hGet, hPre, hPost⟩ := found_eq_some hFound
      have hMem : preSlash path pos ∈ manager.names := (manager.get_isSome _).1 (by simp [hGet])
      have hSplit := split_at hSlash
      rw [hPre, hPost]
      by_cases hFirst : path.take pos = []
      · -- the name is the leading slash, so no slash follows it
        have hName : preSlash path pos = [47] := if_pos hFirst
        rw [hName] at hMem ⊢
        rw [hFirst, List.nil_append] at hSplit
        have hPos : pos = 0 := by
          obtain ⟨hLess, -⟩ := List.getElem?_eq_some_iff.1 hSlash
          rcases List.take_eq_nil_iff.1 hFirst with hZero | hNil
          · exact hZero
          · rw [hNil] at hLess
            exact absurd hLess (Nat.not_lt_zero pos)
        have hDistinct : path ≠ [47] := by
          intro hSame
          exact found_eq_none hWhole (hSame ▸ hMem)
        have hAlone : ¬ ([47] ++ [47] <+: path) := by
          rintro ⟨rest, hRest⟩
          have hSecond : path[1]? = some 47 := by rw [← hRest]; rfl
          have hAt : preSlash path 1 = [47] := by rw [preSlash, ← hRest]; rfl
          obtain ⟨hShort, -⟩ := List.getElem?_eq_some_iff.1 hSecond
          exact hLater 1 (by omega) (by omega) hSecond (hAt ▸ hMem)
        rw [remainder, if_neg hDistinct, if_neg hAlone, hPos]
      · have hName : preSlash path pos = path.take pos := if_neg hFirst
        rw [hName]
        calc path.drop (pos + 1) = remainder (path.take pos ++ 47 :: path.drop (pos + 1))
              (path.take pos) := remainder_split.symm
          _ = remainder path (path.take pos) := by rw [← hSplit]

/-- **The longest registered name matches**: the loop ends, a path is found with the
longest name that covers it and with what follows that name, and nothing is found
only if no name covers the path. -/
theorem matchStaticPath_longest (manager : StaticPathManager) {url_path : Bytes}
    (hBackslash : 92 ∉ url_path) :
    manager.loop (stripTrailingSlash url_path) ((stripTrailingSlash url_path).length + 2)
        (Search.start (stripTrailingSlash url_path)) = some (manager.matchName url_path) ∧
      (∀ sp rest, manager.matchStaticPath url_path = some (sp, rest) ↔
        ∃ name, IsLongest 47 manager.names (stripTrailingSlash url_path) name ∧
          manager.get name = some sp ∧ rest = remainder (stripTrailingSlash url_path) name) ∧
      (manager.matchStaticPath url_path = none ↔
        ∀ name ∈ manager.names, ¬ Covers 47 name (stripTrailingSlash url_path)) ∧
      ∀ name byte rest, stripTrailingSlash url_path = name ++ byte :: rest → byte ≠ 47 →
        name ≠ [47] → ∀ result, manager.matchName url_path = some result →
          result.pre_slash ≠ name := by
  have hSearched : searched url_path = stripTrailingSlash url_path := if_neg hBackslash
  have hName := matchName_eq manager url_path
  rw [hSearched] at hName
  generalize stripTrailingSlash url_path = path at hName ⊢
  unfold matchStaticPath
  rw [hName]
  refine ⟨loop_matchPath manager path, ?_, ?_, ?_⟩
  · intro sp rest
    rw [Option.map_eq_some_iff]
    constructor
    · rintro ⟨result, hMatch, hSame⟩
      obtain ⟨rfl, rfl⟩ := Prod.mk.inj hSame
      have hAt := matchPath_eq_some hMatch
      exact ⟨_, hAt.longest, hAt.registered, matchPath_post hMatch⟩
    · rintro ⟨name, hLongest, hGet, rfl⟩
      obtain ⟨result, hMatch, rfl⟩ := isLongest_iff_matchPath.1 hLongest
      have hAt := matchPath_eq_some hMatch
      refine ⟨result, hMatch, ?_⟩
      rw [matchPath_post hMatch, Option.some.inj (hAt.registered.symm.trans hGet)]
  · rw [Option.map_eq_none_iff]
    constructor
    · exact fun hNone name hMem => matchPath_eq_none hNone hMem
    · intro hNone
      cases hMatch : manager.matchPath path with
      | none => rfl
      | some result =>
          have hLongest := (matchPath_eq_some hMatch).longest
          exact absurd hLongest.2.1 (hNone _ hLongest.1)
  · rintro name byte rest hPath hByte hRoot result hMatch rfl
    rcases (matchPath_eq_some hMatch).longest.2.1 with hWhole | hSlash | ⟨hSlash, -⟩
    · rw [hPath] at hWhole
      simp at hWhole
    · rw [hPath, List.prefix_append_right_inj, List.cons_prefix_cons] at hSlash
      exact hByte hSlash.1.symm
    · exact hRoot hSlash

/-- The file in the directory. Its siblings whose names begin like an excluded one
are found in the directory too. -/
theorem matchStaticPath_longest_file :
    92 ∉ ascii "/a/secrets/" ∧
      sampleStaticPaths.loop (ascii "/a/secrets") 12 (Search.start (ascii "/a/secrets")) =
        some (sampleStaticPaths.matchName (ascii "/a/secrets/")) ∧
      IsLongest 47 sampleStaticPaths.names (ascii "/a/secrets") (ascii "/a") ∧
      (sampleStaticPaths.matchStaticPath (ascii "/a/secrets/")).map Prod.snd =
        some (ascii "secrets") := by
  have hBackslash : 92 ∉ ascii "/a/secrets/" := by decide
  have hStrip : stripTrailingSlash (ascii "/a/secrets/") = ascii "/a/secrets" := by decide
  obtain ⟨hLoop, hSome, -, -⟩ := matchStaticPath_longest sampleStaticPaths hBackslash
  rw [hStrip] at hLoop hSome
  have hFound : (sampleStaticPaths.matchStaticPath (ascii "/a/secrets/")).map Prod.snd =
      some (ascii "secrets") := by decide +kernel
  refine ⟨hBackslash, hLoop, ?_, hFound⟩
  obtain ⟨⟨sp, rest⟩, hMatch, -⟩ := Option.map_eq_some_iff.1 hFound
  obtain ⟨name, hLongest, -, -⟩ := (hSome sp rest).1 hMatch
  have hMem : name = ascii "/a" ∨ name = ascii "/a/secret" := by
    simpa [names, sampleStaticPaths] using hLongest.1
  rcases hMem with rfl | rfl
  · exact hLongest
  · exact absurd hLongest.2.1 (by decide)

end StaticPathManager

end Httpuv
