import Httpuv.Static.CompleteOptions

/-! The names of static paths: their normal form in R, and the search for it in a manager. -/
namespace Httpuv

open StaticPathManager

/-- The names are normalized and the values converted. -/
def normalizePathsWith {Argument : Type} (convert : Argument → Except RError RStaticPath)
    (paths : List (Bytes × Argument)) : Except RError (List (Bytes × RStaticPath)) :=
  if paths.any (fun path => path.1.isEmpty) then
    .error [ascii "paths must be a named character vector, a named list containing strings and staticPath objects, or NULL."]
  else paths.mapM (fun path => return (normalizeName path.1, ← convert path.2))

/-- `normalizeStaticPaths` on what it has returned. `as.staticPath` gives an object back. -/
def normalizeAgain (paths : List (Bytes × RStaticPath)) :
    Except RError (List (Bytes × RStaticPath)) := normalizePathsWith .ok paths

theorem normalizeStaticPaths_eq [RText] [RSession] :
    normalizeStaticPaths = normalizePathsWith as_staticPath := rfl

section Names

variable {path : Bytes}

/-- A name of which nothing is left: it consists of slashes, and is not just one. -/
def OnlySlashes (path : Bytes) : Prop := (∀ byte ∈ path, byte = 47) ∧ path ≠ [47]

/-- The name with a slash in front. -/
def slashed (path : Bytes) : Bytes := if path.head? = some 47 then path else 47 :: path

theorem normalizeName_eq (path : Bytes) :
    normalizeName path = if slashed path = [47] then [47] else stripSlashes (slashed path) := by
  change (if slashed path = [47] then slashed path else stripSlashes (slashed path)) = _
  split_ifs with hRoot
  · exact hRoot
  · rfl

theorem stripSlashes_eq_nil : stripSlashes path = [] ↔ ∀ byte ∈ path, byte = 47 := by
  rw [stripSlashes, List.rdropWhile_eq_nil_iff]
  simp

theorem head_slashed (path : Bytes) : (slashed path).head? = some 47 := by
  unfold slashed
  split_ifs with hHead
  · exact hHead
  · rfl

theorem normalizeName_onlySlashes (hSome : path ≠ []) (h : OnlySlashes path) :
    normalizeName path = [] := by
  obtain ⟨byte, rest, rfl⟩ := List.exists_cons_of_ne_nil hSome
  have hHead : slashed (byte :: rest) = byte :: rest := if_pos (by simp [h.1 byte])
  rw [normalizeName_eq, hHead, if_neg h.2, stripSlashes_eq_nil]
  exact h.1

/-- The normal form of a name. -/
structure NormalName (name : Bytes) : Prop where
  head : name.head? = some 47
  last : name = [47] ∨ name.getLast? ≠ some 47

theorem NormalName.again (h : NormalName path) : normalizeName path = path := by
  have hSlashed : slashed path = path := if_pos h.head
  rw [normalizeName_eq, hSlashed]
  split_ifs with hRoot
  · exact hRoot.symm
  · have hLast := h.last.resolve_left hRoot
    have hSome : path ≠ [] := by
      rintro rfl
      simpa using h.head
    rw [stripSlashes, List.rdropWhile_eq_self_iff]
    intro hNotEmpty hSlash
    apply hLast
    rw [List.getLast?_eq_some_getLast hNotEmpty]
    simpa using hSlash

theorem stripSlashes_slashed_ne_nil (hSome : path ≠ []) (h : ¬ OnlySlashes path)
    (hRoot : slashed path ≠ [47]) : stripSlashes (slashed path) ≠ [] := by
  rw [Ne, stripSlashes_eq_nil]
  intro hAll
  by_cases hHead : path.head? = some 47
  · have hSlashed : slashed path = path := if_pos hHead
    rw [hSlashed] at hAll hRoot
    exact h ⟨hAll, hRoot⟩
  · obtain ⟨byte, rest, rfl⟩ := List.exists_cons_of_ne_nil hSome
    have hSlashed : slashed (byte :: rest) = 47 :: byte :: rest := if_neg hHead
    rw [hSlashed] at hAll
    exact hHead (congrArg some (hAll byte (by simp)))

theorem normalName_normalizeName (hSome : path ≠ []) (h : ¬ OnlySlashes path) :
    NormalName (normalizeName path) := by
  rw [normalizeName_eq]
  split_ifs with hRoot
  · exact ⟨rfl, Or.inl rfl⟩
  · have hLeft := stripSlashes_slashed_ne_nil hSome h hRoot
    refine ⟨?_, Or.inr ?_⟩
    · obtain ⟨rest, hSlashed⟩ : stripSlashes (slashed path) <+: slashed path :=
        List.rdropWhile_prefix _ _
      have hHead := head_slashed path
      rwa [← hSlashed, List.head?_append, Option.or_of_isSome (by simpa using hLeft)] at hHead
    · rw [List.getLast?_eq_some_getLast hLeft]
      intro hSlash
      have hStripped : (slashed path).rdropWhile (· == 47) ≠ [] := hLeft
      apply List.rdropWhile_last_not (· == 47) (slashed path) hStripped
      exact beq_iff_eq.2 (Option.some.inj hSlash)

end Names

section Matched

variable {manager : StaticPathManager} {name url_path : Bytes} {sp : StaticPath}

/-- A name in normal form is found by itself, and with a slash behind it. -/
theorem NormalName.matched (h : NormalName name) (hPlain : 92 ∉ name)
    (hSp : manager.get name = some sp) (hUrl : url_path = name ∨ url_path = name ++ [47]) :
    manager.matchName url_path = some { pre_slash := name, sp, post_slash := [] } := by
  have hSome : name ≠ [] := by
    rintro rfl
    simpa using h.head
  have hBackslash : 92 ∉ url_path := by
    rcases hUrl with rfl | rfl
    · exact hPlain
    · simpa using hPlain
  have hStripped : stripTrailingSlash url_path = name := by
    rcases hUrl with rfl | rfl
    · rw [← h.again]
      exact stripTrailingSlash_normalizeName url_path
    · have hLong : 1 < (name ++ [47]).length := by
        have hLength := List.length_pos_of_ne_nil hSome
        rw [List.length_append, List.length_singleton]
        omega
      rw [stripTrailingSlash, if_pos ⟨hLong, by simp⟩, List.dropLast_concat]
  have hFound : manager.found name [] = some { pre_slash := name, sp, post_slash := [] } := by
    rw [found, hSp]
    rfl
  rw [matchName_eq, searched, if_neg hBackslash, hStripped, matchPath, hFound]

end Matched

section Registered

variable {elements : List (Bytes × RStaticPath)} {manager : StaticPathManager}
  {element : Bytes × RStaticPath}

/-- A manager that has been made from the list, or that the list has been set in. -/
def Registers (elements : List (Bytes × RStaticPath)) (manager : StaticPathManager) : Prop :=
  (∃ options, StaticPathManager.construct elements options = some manager) ∨
    ∃ before, StaticPathManager.setAll before elements = some manager

theorem lookup_of_toMap {path_map : List (PathName × StaticPath)}
    (hMap : toMap elements = some path_map) (hElement : element ∈ elements) :
    ∃ sp, lookup path_map element.1 = some sp := by
  obtain ⟨first, hFirst⟩ : ∃ first,
      elements.find? (fun other => other.1 == element.1) = some first := by
    rw [← Option.isSome_iff_exists, List.find?_isSome]
    exact ⟨element, hElement, beq_self_eq_true _⟩
  obtain ⟨sp, hSp⟩ := Option.isSome_iff_exists.1
    (construct_of_foldlM elements hMap first (List.mem_of_find?_eq_some hFirst))
  exact ⟨sp, by rw [lookup_toMap hMap, hFirst]; exact hSp⟩

/-- Every name of the list is registered. -/
theorem Registers.get (h : Registers elements manager) (hElement : element ∈ elements) :
    ∃ sp, manager.get element.1 = some sp := by
  have hLookup : ∃ own, lookup manager.path_map element.1 = some own := by
    rcases h with ⟨options, hConstruct⟩ | ⟨before, hSet⟩
    · simp only [StaticPathManager.construct, Option.bind_eq_bind, Option.bind_eq_some_iff,
        Option.pure_def] at hConstruct
      obtain ⟨_, -, path_map, hMap, hManager⟩ := hConstruct
      obtain rfl := Option.some.inj hManager
      exact lookup_of_toMap hMap hElement
    · simp only [setAll, Option.bind_eq_bind, Option.bind_eq_some_iff, Option.pure_def] at hSet
      obtain ⟨path_map, hMap, hManager⟩ := hSet
      obtain rfl := Option.some.inj hManager
      obtain ⟨own, hOwn⟩ := lookup_of_toMap hMap hElement
      have hNodup := nodup_foldlM_insertElement elements hMap List.nodup_nil
      exact ⟨own, (lookup_registered hNodup element.1 own).2 (Or.inl hOwn)⟩
  obtain ⟨own, hOwn⟩ := hLookup
  have hGet := get_eq manager element.1
  rw [hOwn, Option.map_some, Option.map_eq_some_iff] at hGet
  obtain ⟨sp, hSp, -⟩ := hGet
  exact ⟨sp, hSp⟩

end Registered

/-- What the normal form of a list of paths is for. -/
structure NormalPaths (elements : List (Bytes × RStaticPath)) : Prop where
  names : ∀ element ∈ elements, NormalName element.1
  again : normalizeAgain elements = .ok elements
  matched : ∀ manager, Registers elements manager → ∀ element ∈ elements, 92 ∉ element.1 →
    ∀ url_path, url_path = element.1 ∨ url_path = element.1 ++ [47] →
      ∃ sp, manager.get element.1 = some sp ∧
        manager.matchName url_path = some { pre_slash := element.1, sp, post_slash := [] } ∧
        manager.matchStaticPath url_path = some (sp, [])

section Lists

variable {Argument : Type} {convert : Argument → Except RError RStaticPath}
  {paths : List (Bytes × Argument)} {elements : List (Bytes × RStaticPath)}

theorem names_of_mapM
    (h : paths.mapM (fun path => (do return (normalizeName path.1, ← convert path.2) :
      Except RError (Bytes × RStaticPath))) = .ok elements) :
    elements.map Prod.fst = paths.map (fun path => normalizeName path.1) := by
  induction paths generalizing elements with
  | nil =>
      obtain rfl := Except.ok.inj h
      rfl
  | cons path rest ih =>
      rw [List.mapM_cons] at h
      cases hPath : convert path.2 with
      | error e =>
          rw [hPath] at h
          cases h
      | ok rsp =>
          cases hRest : rest.mapM (fun path => (do return (normalizeName path.1, ← convert path.2) :
              Except RError (Bytes × RStaticPath))) with
          | error e =>
              rw [hPath, hRest] at h
              cases h
          | ok others =>
              rw [hPath, hRest] at h
              obtain rfl := Except.ok.inj h
              rw [List.map_cons, ih hRest, List.map_cons]

theorem normalizeAgain_eq (hNames : ∀ element ∈ elements, NormalName element.1) :
    normalizeAgain elements = .ok elements := by
  have hAll : ∀ element ∈ elements, element.1.isEmpty = false := by
    intro element hElement
    have hHead := (hNames element hElement).head
    cases hName : element.1 with
    | nil => simp [hName] at hHead
    | cons byte rest => rfl
  have hNone : elements.any (fun path => path.1.isEmpty) = false :=
    List.any_eq_false.2 fun element hElement => by simp [hAll element hElement]
  rw [normalizeAgain, normalizePathsWith, hNone, if_neg Bool.false_ne_true]
  clear hAll hNone
  induction elements with
  | nil => rfl
  | cons element rest ih =>
      have hElement := hNames element List.mem_cons_self
      have hRest := ih fun other hOther => hNames other (List.mem_cons_of_mem element hOther)
      rw [List.mapM_cons, hRest, hElement.again]
      rfl

/-- An empty name is refused when the list is normalized again. -/
theorem normalizeAgain_ne {element : Bytes × RStaticPath} (hElement : element ∈ elements)
    (hName : element.1 = []) : normalizeAgain elements ≠ .ok elements := by
  have hAny : elements.any (fun path => path.1.isEmpty) = true :=
    List.any_eq_true.2 ⟨element, hElement, by simp [hName]⟩
  rw [normalizeAgain, normalizePathsWith, if_pos hAny]
  simp

/-- **Names are normalized for the search**, exactly if none of them consists of more than
one slash and nothing else. -/
theorem normalized_names_iff [RText] [RSession] {paths : List (Bytes × PathArgument)}
    (h : normalizeStaticPaths paths = .ok elements) :
    NormalPaths elements ↔ ∀ path ∈ paths, ¬ OnlySlashes path.1 := by
  rw [normalizeStaticPaths_eq, normalizePathsWith] at h
  split_ifs at h with hEmpty
  have hSome : ∀ path ∈ paths, path.1 ≠ [] := by
    intro path hPath hName
    exact hEmpty (List.any_eq_true.2 ⟨path, hPath, by simp [hName]⟩)
  have hNames := names_of_mapM h
  constructor
  · intro hNormal path hPath hSlashes
    have hMem : normalizeName path.1 ∈ elements.map Prod.fst := by
      rw [hNames]
      exact List.mem_map_of_mem hPath
    obtain ⟨element, hElement, hName⟩ := List.mem_map.1 hMem
    have hHead := (hNormal.names element hElement).head
    rw [hName, normalizeName_onlySlashes (hSome path hPath) hSlashes] at hHead
    cases hHead
  · intro hSlashes
    have hNormal : ∀ element ∈ elements, NormalName element.1 := by
      intro element hElement
      have hMem : element.1 ∈ paths.map (fun path => normalizeName path.1) := by
        rw [← hNames]
        exact List.mem_map_of_mem hElement
      obtain ⟨path, hPath, hName⟩ := List.mem_map.1 hMem
      rw [← hName]
      exact normalName_normalizeName (hSome path hPath) (hSlashes path hPath)
    refine ⟨hNormal, normalizeAgain_eq hNormal, ?_⟩
    intro manager hManager element hElement hPlain url_path hUrl
    obtain ⟨sp, hSp⟩ := hManager.get hElement
    have hMatch := (hNormal element hElement).matched hPlain hSp hUrl
    exact ⟨sp, hSp, hMatch, by rw [matchStaticPath, hMatch]; rfl⟩

end Lists

/-- Two names that become one. -/
theorem normalized_names_slashes :
    let _ : RText := sampleText
    let _ : RSession := sampleSession
    let paths : List (Bytes × PathArgument) :=
      [(ascii "a//", .value (RValue.string (ascii "/srv"))), (ascii "/", .excludeStaticPath)]
    ∃ elements, normalizeStaticPaths paths = .ok elements ∧
      elements.map Prod.fst = [ascii "/a", ascii "/"] ∧ NormalPaths elements := by
  intro text session paths
  obtain ⟨elements, hElements, hNames⟩ : ∃ elements, normalizeStaticPaths paths = .ok elements ∧
      elements.map Prod.fst = [ascii "/a", ascii "/"] := ⟨_, rfl, by decide +kernel⟩
  refine ⟨elements, hElements, hNames, (normalized_names_iff hElements).2 ?_⟩
  have hPaths : ∀ name ∈ [ascii "a//", ascii "/"], ¬ OnlySlashes name := by
    simp [OnlySlashes, ascii]
  exact fun path hPath => hPaths path.1 (List.mem_map_of_mem hPath)

/-- Of two slashes nothing is left, which is refused when it is seen again. -/
theorem normalized_names_empty :
    let _ : RText := sampleText
    let _ : RSession := sampleSession
    ∃ elements, normalizeStaticPaths [(ascii "//", .excludeStaticPath)] = .ok elements ∧
      elements.map Prod.fst = [[]] ∧ normalizeAgain elements ≠ .ok elements ∧
      ¬ NormalPaths elements := by
  intro text session
  obtain ⟨element, hElements, hName⟩ : ∃ element,
      normalizeStaticPaths [(ascii "//", .excludeStaticPath)] = .ok [element] ∧ element.1 = [] :=
    ⟨_, rfl, by decide +kernel⟩
  have hAgain := normalizeAgain_ne (List.mem_singleton_self element) hName
  exact ⟨[element], hElements, by simp [hName], hAgain, fun hNormal => hAgain hNormal.again⟩

end Httpuv
