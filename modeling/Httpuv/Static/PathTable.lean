import Httpuv.Static.Configuration

/-! What the updates of the registered paths do to the path of a name. -/
namespace Httpuv

namespace StaticPathManager

/-- The static path of a name, as it was registered: its options have not been
merged with those of the manager yet, as `get` does. -/
def lookup (path_map : List (PathName × StaticPath)) (name : Bytes) : Option StaticPath :=
  (path_map.find? (fun entry => entry.1.1 == name)).map Prod.snd

theorem lookup_cons (entry : PathName × StaticPath) (rest : List (PathName × StaticPath))
    (name : Bytes) :
    lookup (entry :: rest) name = if entry.1.1 = name then some entry.2 else lookup rest name := by
  by_cases h : entry.1.1 = name <;> simp [lookup, h]

theorem lookup_append (first second : List (PathName × StaticPath)) (name : Bytes) :
    lookup (first ++ second) name = (lookup first name).or (lookup second name) := by
  rw [lookup, List.find?_append, Option.map_or]
  rfl

/-- The test of the updates for a name that is there already. Names are compared as
texts, so that the proof that a name is well formed plays no part. -/
theorem any_eq_lookup (path_map : List (PathName × StaticPath)) (path : PathName) :
    path_map.any (fun entry => entry.1 == path) = (lookup path_map path.1).isSome := by
  rw [lookup, Option.isSome_map, List.isSome_find?]
  apply congrArg (path_map.any ·)
  funext entry
  rw [Bool.eq_iff_iff, beq_iff_eq, beq_iff_eq, Subtype.ext_iff]

/-- The first value of a name stays. This is how the map is filled from the list of
R, where a second value for a name changes nothing. -/
theorem lookup_insert (path_map : List (PathName × StaticPath)) (path : PathName)
    (sp : StaticPath) (name : Bytes) :
    lookup (insert path_map path sp) name =
      (lookup path_map name).or (if path.1 = name then some sp else none) := by
  unfold insert
  rw [any_eq_lookup]
  split_ifs with hMem hName hName
  · obtain ⟨old, hOld⟩ := Option.isSome_iff_exists.1 (hName ▸ hMem)
    rw [hOld, Option.some_or]
  · rw [Option.or_none]
  · rw [lookup_append, lookup_cons, if_pos hName]
  · rw [lookup_append, lookup_cons, if_neg hName]
    rfl

/-- Overwriting the entry of a path changes the value of that path alone, and gives
it none where it had none. -/
theorem lookup_replace (path_map : List (PathName × StaticPath)) (path : PathName)
    (sp : StaticPath) (name : Bytes) :
    lookup (path_map.map (fun entry => if entry.1 = path then (entry.1, sp) else entry)) name =
      if path.1 = name then (lookup path_map name).map (fun _ => sp) else lookup path_map name := by
  induction path_map with
  | nil => split_ifs <;> rfl
  | cons entry rest ih =>
      rw [List.map_cons, lookup_cons, lookup_cons, ih]
      by_cases hEntry : entry.1 = path
      · rw [if_pos hEntry, hEntry]
        split_ifs <;> rfl
      · rw [if_neg hEntry]
        split_ifs with hName hPath
        · exact absurd (Subtype.ext (hName.trans hPath.symm)) hEntry
        · rfl
        · rfl
        · rfl

/-- The last value of a name is the one that is set, whether the name is new or its
entry is overwritten in place. The other names keep theirs. -/
theorem lookup_set (manager : StaticPathManager) (path : PathName) (sp : StaticPath)
    (name : Bytes) :
    lookup (manager.set path sp).path_map name =
      if path.1 = name then some sp else lookup manager.path_map name := by
  unfold set
  rw [any_eq_lookup]
  split_ifs with hMem hName hName
  · obtain ⟨old, hOld⟩ := Option.isSome_iff_exists.1 (hName ▸ hMem)
    rw [lookup_replace, if_pos hName, hOld]
    rfl
  · rw [lookup_replace, if_neg hName]
  · have hNone : lookup manager.path_map name = none := by
      rw [← hName]
      exact Option.not_isSome_iff_eq_none.1 hMem
    rw [lookup_append, lookup_cons, if_pos hName, hNone, Option.none_or]
  · rw [lookup_append, lookup_cons, if_neg hName]
    exact Option.or_none

/-- `remove` compares the text that it is given with the names as they stand, and
does not normalize it first. -/
theorem lookup_remove (manager : StaticPathManager) (path name : Bytes) :
    lookup (manager.remove path).path_map name =
      if path = name then none else lookup manager.path_map name := by
  unfold remove
  dsimp only
  induction manager.path_map with
  | nil => split_ifs <;> rfl
  | cons entry rest ih =>
      rw [List.filter_cons, lookup_cons]
      by_cases hEntry : entry.1.1 = path
      · rw [if_neg (by simp [hEntry]), ih, hEntry]
        split_ifs <;> rfl
      · rw [if_pos (by simp [hEntry]), lookup_cons, ih]
        split_ifs with hName hPath
        · exact absurd (hName.trans hPath.symm) hEntry
        · rfl
        · rfl
        · rfl

/-- Removing several paths takes away their names and no others, in whatever order
they are given and however often one of them occurs. -/
theorem lookup_removeAll (paths : List Bytes) (manager : StaticPathManager) (name : Bytes) :
    lookup (manager.removeAll paths).path_map name =
      if name ∈ paths then none else lookup manager.path_map name := by
  induction paths generalizing manager with
  | nil => rfl
  | cons path rest ih =>
      rw [removeAll, List.foldl_cons, ← removeAll, ih, lookup_remove]
      simp only [List.mem_cons, eq_comm (a := name)]
      split_ifs <;> tauto

/-- A name that the map already has keeps its value, and any other one gets that of
the first element that carries it. -/
theorem lookup_foldlM_insertElement (elements : List (Bytes × RStaticPath))
    {start path_map : List (PathName × StaticPath)}
    (h : elements.foldlM insertElement start = some path_map) (name : Bytes) :
    lookup path_map name = (lookup start name).or
      ((elements.find? (fun element => element.1 == name)).bind
        (fun element => StaticPath.construct element.2)) := by
  induction elements generalizing start with
  | nil =>
      obtain rfl := Option.some.inj h
      exact Option.or_none.symm
  | cons element rest ih =>
      rw [List.foldlM_cons, Option.bind_eq_bind, Option.bind_eq_some_iff] at h
      obtain ⟨next, hNext, hRest⟩ := h
      unfold insertElement at hNext
      split_ifs at hNext with hName
      rw [Option.bind_eq_bind, Option.bind_eq_some_iff] at hNext
      obtain ⟨sp, hSp, hSame⟩ := hNext
      rw [ih hRest, ← Option.some.inj hSame, lookup_insert, Option.or_assoc]
      by_cases hFound : element.1 = name
      · rw [if_pos hFound, List.find?_cons_of_pos (by simp [hFound]), Option.bind_some, hSp,
          Option.some_or]
      · rw [if_neg hFound, List.find?_cons_of_neg (by simp [hFound]), Option.none_or]

/-- The map of a list from R has for each name its first element, as `StaticPath`
makes it of the R object. -/
theorem lookup_toMap {elements : List (Bytes × RStaticPath)}
    {path_map : List (PathName × StaticPath)} (h : toMap elements = some path_map) (name : Bytes) :
    lookup path_map name = (elements.find? (fun element => element.1 == name)).bind
      (fun element => StaticPath.construct element.2) := by
  rw [lookup_foldlM_insertElement elements h]
  exact Option.none_or

/-- Inserting keeps the names distinct, which the manager relies on: an update finds
at most one entry. -/
theorem nodup_insert {path_map : List (PathName × StaticPath)}
    (h : (path_map.map Prod.fst).Nodup) (path : PathName) (sp : StaticPath) :
    ((insert path_map path sp).map Prod.fst).Nodup := by
  unfold insert
  split_ifs with hMem
  · exact h
  · rw [List.map_append, List.nodup_append]
    refine ⟨h, List.nodup_singleton _, ?_⟩
    simp only [List.any_eq_true, beq_iff_eq] at hMem
    simp only [List.map_cons, List.map_nil, List.mem_map, List.mem_singleton]
    rintro name ⟨entry, hEntry, rfl⟩ other rfl hSame
    exact hMem ⟨entry, hEntry, hSame⟩

theorem nodup_foldlM_insertElement (elements : List (Bytes × RStaticPath))
    {start path_map : List (PathName × StaticPath)}
    (h : elements.foldlM insertElement start = some path_map)
    (hStart : (start.map Prod.fst).Nodup) : (path_map.map Prod.fst).Nodup := by
  induction elements generalizing start with
  | nil => exact Option.some.inj h ▸ hStart
  | cons element rest ih =>
      rw [List.foldlM_cons, Option.bind_eq_bind, Option.bind_eq_some_iff] at h
      obtain ⟨next, hNext, hRest⟩ := h
      unfold insertElement at hNext
      split_ifs at hNext with hName
      rw [Option.bind_eq_bind, Option.bind_eq_some_iff] at hNext
      obtain ⟨sp, -, hSame⟩ := hNext
      exact ih hRest (Option.some.inj hSame ▸ nodup_insert hStart _ _)

/-- Setting all entries of a map gives its names the values of the map and leaves
the rest of the table as it was. That the names are distinct is needed, since of
two entries for one name the last would win here and the first in `lookup`. -/
theorem lookup_foldl_set {entries : List (PathName × StaticPath)}
    (hNodup : (entries.map Prod.fst).Nodup) (manager : StaticPathManager) (name : Bytes) :
    lookup (entries.foldl (fun manager entry => manager.set entry.1 entry.2) manager).path_map name =
      (lookup entries name).or (lookup manager.path_map name) := by
  induction entries generalizing manager with
  | nil => rfl
  | cons entry rest ih =>
      rw [List.map_cons, List.nodup_cons] at hNodup
      rw [List.foldl_cons, ih hNodup.2, lookup_set, lookup_cons]
      split_ifs with hName
      · have hNone : lookup rest name = none := by
          rw [lookup, Option.map_eq_none_iff, List.find?_eq_none]
          intro other hOther hSame
          apply hNodup.1
          rw [beq_iff_eq, ← hName] at hSame
          exact Subtype.ext hSame ▸ List.mem_map_of_mem hOther
        rw [hNone, Option.none_or, Option.some_or]
      · rfl

/-- The updates of paths do not touch the options that hold for all of them. These
are set by `setOptions` alone. -/
theorem options_foldl_set (entries : List (PathName × StaticPath)) (manager : StaticPathManager) :
    (entries.foldl (fun manager entry => manager.set entry.1 entry.2) manager).options =
      manager.options := by
  induction entries generalizing manager with
  | nil => rfl
  | cons entry rest ih =>
      rw [List.foldl_cons, ih]
      unfold set
      split_ifs <;> rfl

theorem options_removeAll (paths : List Bytes) (manager : StaticPathManager) :
    (manager.removeAll paths).options = manager.options := by
  induction paths generalizing manager with
  | nil => rfl
  | cons path rest ih => exact ih (manager.remove path)

end StaticPathManager

end Httpuv
