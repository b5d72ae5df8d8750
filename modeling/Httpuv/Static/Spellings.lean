import Httpuv.Static.Matching
import Httpuv.Static.Serving

/-! Two spellings of one path, and the static path that each of them selects. -/
namespace Httpuv

open Paths

/-- What the file system goes through: the segments up to the first NUL, without
those that do not lead anywhere. -/
def pathSegments (url_path : Bytes) : List Bytes :=
  ((cString url_path).splitOn 47).filter (fun segment => segment ≠ [] ∧ segment ≠ [46])

/-- Two targets name one file below any directory. -/
def SameSegments (u v : Bytes) : Prop := pathSegments (urlPath u) = pathSegments (urlPath v)

namespace StaticPathManager

variable (manager : StaticPathManager) {u v : Bytes}

/-- The static path that is selected for a target, with its name. -/
def selects (url : Bytes) : Option (Bytes × StaticPath) :=
  (manager.matchName (urlPath url)).map (fun result => (result.pre_slash, result.sp))

theorem selects_eq (url : Bytes) :
    manager.selects url = (manager.matchPath (searched (urlPath url))).map
      (fun result => (result.pre_slash, result.sp)) := by
  rw [selects, matchName_eq]

/-- The static path belongs to the name, and the name is the longest one. -/
theorem selects_eq_some_iff {url name : Bytes} {sp : StaticPath} :
    manager.selects url = some (name, sp) ↔
      IsLongest 47 manager.names (searched (urlPath url)) name ∧ manager.get name = some sp := by
  rw [selects_eq, Option.map_eq_some_iff, isLongest_iff_matchPath]
  constructor
  · rintro ⟨result, hMatch, hPair⟩
    obtain ⟨rfl, rfl⟩ := Prod.mk.inj hPair
    exact ⟨⟨result, hMatch, rfl⟩, (matchPath_eq_some hMatch).registered⟩
  · rintro ⟨⟨result, hMatch, rfl⟩, hGet⟩
    have hSame := (matchPath_eq_some hMatch).registered.symm.trans hGet
    exact ⟨result, hMatch, by rw [Option.some.inj hSame]⟩

/-- Two targets select the same static path if and only if they have the same
longest names. -/
theorem selects_eq_iff :
    manager.selects u = manager.selects v ↔
      ∀ name, IsLongest 47 manager.names (searched (urlPath u)) name ↔
        IsLongest 47 manager.names (searched (urlPath v)) name := by
  have hSelected : ∀ url name, IsLongest 47 manager.names (searched (urlPath url)) name ↔
      ∃ sp, manager.selects url = some (name, sp) := by
    intro url name
    constructor
    · intro hLongest
      obtain ⟨sp, hGet⟩ := Option.isSome_iff_exists.1 ((manager.get_isSome name).2 hLongest.1)
      exact ⟨sp, manager.selects_eq_some_iff.2 ⟨hLongest, hGet⟩⟩
    · rintro ⟨sp, hSelects⟩
      exact (manager.selects_eq_some_iff.1 hSelects).1
  constructor
  · intro hSame name
    rw [hSelected, hSelected, hSame]
  · intro hSame
    apply Option.ext
    rintro ⟨name, sp⟩
    rw [manager.selects_eq_some_iff, manager.selects_eq_some_iff, hSame name]

/-- Two spellings of one path select the same static path exactly when there is no
registered name that covers the text of only one of them. -/
theorem same_static_path_iff :
    (SameSegments u v → manager.selects u = manager.selects v) ↔
      (SameSegments u v → ∀ name ∈ manager.names,
        (Covers 47 name (searched (urlPath u)) ↔ Covers 47 name (searched (urlPath v)))) :=
  forall_congr' fun _ => (manager.selects_eq_iff).trans isLongest_iff

/-- A path is spelled out of its segments. -/
def Canonical (url_path : Bytes) : Prop :=
  stripTrailingSlash url_path = 47 :: [47].intercalate (pathSegments url_path)

theorem backslash_stripTrailingSlash (url_path : Bytes) :
    92 ∈ stripTrailingSlash url_path ↔ 92 ∈ url_path := by
  unfold stripTrailingSlash
  split_ifs with hSlash
  · obtain ⟨before, rfl⟩ := List.getLast?_eq_some_iff.1 hSlash.2
    simp
  · rfl

/-- Targets without empty and `.` segments and NUL select the same static path. -/
theorem selects_canonical (hU : Canonical (urlPath u)) (hV : Canonical (urlPath v))
    (hSame : SameSegments u v) : manager.selects u = manager.selects v := by
  have hPath : stripTrailingSlash (urlPath u) = stripTrailingSlash (urlPath v) := by
    rw [hU, hV, hSame]
  have hBackslash : 92 ∈ urlPath u ↔ 92 ∈ urlPath v := by
    rw [← backslash_stripTrailingSlash, hPath, backslash_stripTrailingSlash]
  have hSearched : searched (urlPath u) = searched (urlPath v) := by
    unfold searched
    rw [hPath]
    exact if_congr hBackslash rfl rfl
  rw [selects_eq, selects_eq, hSearched]

end StaticPathManager

/-- With a second slash, with a dot or with a NUL behind it the excluded file is
found under the name of the directory, which is not excluded. -/
theorem excluded_other_spelling :
    (∀ v ∈ [ascii "/a//secret", ascii "/a/./secret", ascii "/a/secret%00"],
      SameSegments (ascii "/a/secret") v ∧
        (sampleStaticPaths.selects v).map (fun selected => (selected.1, selected.2.options.exclude)) =
          some (ascii "/a", some false)) ∧
      (sampleStaticPaths.selects (ascii "/a/secret")).map
          (fun selected => (selected.1, selected.2.options.exclude)) =
        some (ascii "/a/secret", some true) := by
  unfold SameSegments
  decide +kernel

end Httpuv
