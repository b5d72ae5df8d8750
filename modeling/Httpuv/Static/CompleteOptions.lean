import Httpuv.Static.OptionValues
import Httpuv.Static.PathTable

/-! Whether static serving finds every option that it reads. -/
namespace Httpuv

open RValue

section Arguments

variable [RText] [RSession]

/-- The argument that a normalized name is set to, which is the first one. -/
def given (paths : List (Bytes × PathArgument)) (name : Bytes) : Option PathArgument :=
  (paths.find? (fun path => normalizeName path.1 == name)).map Prod.snd

theorem find_normalized (paths : List (Bytes × PathArgument))
    {elements : List (Bytes × RStaticPath)}
    (h : paths.mapM normalizePathArgument = .ok elements) (name : Bytes) :
    (given paths name = none → elements.find? (fun element => element.1 == name) = none) ∧
      ∀ argument, given paths name = some argument → ∃ rsp,
        as_staticPath argument = .ok rsp ∧
          elements.find? (fun element => element.1 == name) = some (name, rsp) := by
  induction paths generalizing elements with
  | nil =>
      obtain rfl := Except.ok.inj h
      exact ⟨fun _ => rfl, fun argument hGiven => absurd hGiven (Option.some_ne_none argument).symm⟩
  | cons path rest ih =>
      rw [List.mapM_cons] at h
      cases hPath : as_staticPath path.2 with
      | error e =>
          rw [normalizePathArgument, hPath] at h
          cases h
      | ok rsp =>
          cases hRest : rest.mapM normalizePathArgument with
          | error e =>
              rw [normalizePathArgument, hPath, hRest] at h
              cases h
          | ok others =>
              rw [normalizePathArgument, hPath, hRest] at h
              obtain rfl := Except.ok.inj h
              unfold given
              by_cases hName : normalizeName path.1 = name
              · rw [List.find?_cons_of_pos (by simp [hName]),
                  List.find?_cons_of_pos (by simp [hName])]
                refine ⟨fun hNone => absurd hNone (Option.some_ne_none path.2), ?_⟩
                intro argument hArgument
                obtain rfl := Option.some.inj hArgument
                exact ⟨rsp, hPath, by rw [hName]⟩
              · rw [List.find?_cons_of_neg (by simp [hName]),
                  List.find?_cons_of_neg (by simp [hName])]
                exact ih hRest

omit [RText] [RSession] in
theorem construct_of_foldlM (elements : List (Bytes × RStaticPath))
    {start path_map : List (PathName × StaticPath)}
    (h : elements.foldlM StaticPathManager.insertElement start = some path_map) :
    ∀ element ∈ elements, (StaticPath.construct element.2).isSome = true := by
  induction elements generalizing start with
  | nil => exact List.forall_mem_nil _
  | cons element rest ih =>
      rw [List.foldlM_cons, Option.bind_eq_bind, Option.bind_eq_some_iff] at h
      obtain ⟨next, hNext, hRest⟩ := h
      refine List.forall_mem_cons.2 ⟨?_, ih hRest⟩
      unfold StaticPathManager.insertElement at hNext
      split_ifs at hNext with hName
      rw [Option.bind_eq_bind, Option.bind_eq_some_iff] at hNext
      obtain ⟨sp, hSp, -⟩ := hNext
      exact Option.isSome_of_mem hSp

/-- Paths that are accepted: no constructor and no conversion fails. -/
def Accepted (paths : List (Bytes × PathArgument)) (path_map : List (PathName × StaticPath)) :
    Prop :=
  ∃ elements, normalizeStaticPaths paths = .ok elements ∧
    StaticPathManager.toMap elements = some path_map

/-- What is registered is what is given. -/
theorem Accepted.lookup {paths : List (Bytes × PathArgument)}
    {path_map : List (PathName × StaticPath)} (h : Accepted paths path_map) (name : Bytes) :
    (given paths name = none → StaticPathManager.lookup path_map name = none) ∧
      ∀ argument, given paths name = some argument → ∃ sp,
        argument.construct = some sp ∧ StaticPathManager.lookup path_map name = some sp := by
  obtain ⟨elements, hElements, hMap⟩ := h
  unfold normalizeStaticPaths at hElements
  split_ifs at hElements
  obtain ⟨hNone, hSome⟩ := find_normalized paths hElements name
  rw [StaticPathManager.lookup_toMap hMap]
  constructor
  · intro hGiven
    rw [hNone hGiven, Option.bind_none]
  · intro argument hGiven
    obtain ⟨rsp, hOk, hFind⟩ := hSome argument hGiven
    obtain ⟨sp, hSp⟩ := Option.isSome_iff_exists.1
      (construct_of_foldlM elements hMap (name, rsp) (List.mem_of_find?_eq_some hFind))
    refine ⟨sp, ?_, by rw [hFind]; exact hSp⟩
    rw [PathArgument.construct, hOk]
    exact hSp

omit [RText] [RSession] in
/-- A normalized name has no slash at its end that would be stripped. -/
theorem stripTrailingSlash_normalizeName (path : Bytes) :
    StaticPathManager.stripTrailingSlash (normalizeName path) = normalizeName path := by
  unfold StaticPathManager.stripTrailingSlash
  rw [if_neg]
  rintro ⟨hLong, hLast⟩
  unfold normalizeName at hLong hLast
  dsimp only at hLong hLast
  generalize (if path.head? = some 47 then path else 47 :: path) = slashed at hLong hLast
  split_ifs at hLong hLast with hRoot
  · rw [hRoot] at hLong
    simp at hLong
  · unfold stripSlashes at hLong hLast
    have hSome : slashed.rdropWhile (· == 47) ≠ [] := List.ne_nil_of_length_pos (by omega)
    rw [List.getLast?_eq_some_getLast hSome] at hLast
    exact List.rdropWhile_last_not (· == 47) slashed hSome (by simpa using hLast)

end Arguments

namespace StaticPathManager

variable {manager : StaticPathManager}

/-- What holds of every manager that is configured from R. -/
structure Sound (manager : StaticPathManager) : Prop where
  options : manager.options.Sound
  paths : ∀ name sp, lookup manager.path_map name = some sp → sp.options.Sound
  excluded : ∀ name sp, lookup manager.path_map name = some sp → sp.options.exclude ≠ none
  names : ∀ name sp, lookup manager.path_map name = some sp → stripTrailingSlash name = name

/-- Every path that is matched and not excluded has all options. -/
def Served (manager : StaticPathManager) : Prop :=
  ∀ url_path sp subpath, manager.matchStaticPath url_path = some (sp, subpath) →
    sp.options.exclude ≠ some true → sp.options.Complete

/-- Every path that has a name without a backslash and is not excluded has all options,
its own or the overall ones. -/
def Supplied (manager : StaticPathManager) : Prop :=
  ∀ name sp, lookup manager.path_map name = some sp → 92 ∉ name →
    sp.options.exclude ≠ some true →
    ∀ option, sp.options.isSet option = true ∨ manager.options.isSet option = true

theorem get_eq (manager : StaticPathManager) (name : Bytes) :
    (manager.get name).map StaticPath.options =
      (lookup manager.path_map name).map (fun sp => sp.options.merge manager.options) := by
  rw [get, lookup, Option.map_map, Option.map_map]
  rfl

theorem get_eq_some {name : Bytes} {sp : StaticPath} (h : manager.get name = some sp) :
    ∃ own, lookup manager.path_map name = some own ∧
      sp.options = own.options.merge manager.options := by
  have hGet := get_eq manager name
  rw [h, Option.map_some, eq_comm, Option.map_eq_some_iff] at hGet
  obtain ⟨own, hOwn, hMerge⟩ := hGet
  exact ⟨own, hOwn, hMerge.symm⟩

theorem exclude_merge (hSound : manager.Sound) {name : Bytes} {own : StaticPath}
    (hOwn : lookup manager.path_map name = some own) :
    (own.options.merge manager.options).exclude = own.options.exclude := by
  obtain ⟨exclude, hExclude⟩ := Option.ne_none_iff_exists'.1 (hSound.excluded name own hOwn)
  rw [StaticPathOptions.merge, hExclude]
  rfl

/-- A name is matched by itself. -/
theorem matchStaticPath_name (hSound : manager.Sound) {name : Bytes} {own : StaticPath}
    (hOwn : lookup manager.path_map name = some own) (hBackslash : 92 ∉ name) :
    ∃ sp, manager.matchStaticPath name = some (sp, []) ∧
      sp.options = own.options.merge manager.options := by
  have hGet := get_eq manager name
  rw [hOwn, Option.map_some, Option.map_eq_some_iff] at hGet
  obtain ⟨sp, hSp, hOptions⟩ := hGet
  refine ⟨sp, ?_, hOptions⟩
  have hFound : manager.matchPath name = some { pre_slash := name, sp, post_slash := [] } := by
    rw [matchPath, found, hSp]
    rfl
  rw [matchStaticPath, matchName_eq, searched, if_neg hBackslash, hSound.names name own hOwn,
    hFound]
  rfl

/-- What is matched is a registered path whose name is in the path of the URL. -/
theorem lookup_of_matchStaticPath {url_path : Bytes} {sp : StaticPath} {subpath : Bytes}
    (h : manager.matchStaticPath url_path = some (sp, subpath)) :
    ∃ name own, lookup manager.path_map name = some own ∧ 92 ∉ name ∧
      sp.options = own.options.merge manager.options := by
  have hPlain := (split_of_matched h).1
  obtain ⟨result, hName, hPair⟩ := Option.map_eq_some_iff.1 h
  obtain ⟨rfl, rfl⟩ := Prod.mk.inj hPair
  rw [matchName_eq, searched, if_neg hPlain] at hName
  have hAt := matchPath_eq_some hName
  obtain ⟨own, hOwn, hOptions⟩ := get_eq_some hAt.registered
  refine ⟨result.pre_slash, own, hOwn, ?_, hOptions⟩
  intro hBackslash
  apply hPlain
  have hPath : 92 ∈ stripTrailingSlash url_path := by
    rcases hAt.split with ⟨hWhole, -⟩ | hSplit | ⟨hRoot, -⟩
    · exact hWhole ▸ hBackslash
    · rw [hSplit]
      exact List.mem_append_left _ hBackslash
    · rw [hRoot] at hBackslash
      exact absurd hBackslash (by decide)
  rcases stripTrailingSlash_eq url_path with hSame | hSlash
  · rwa [hSame]
  · rw [hSlash]
    exact List.mem_append_left _ hPath

/-- Requests see a missing option exactly if a path lacks one. -/
theorem served_iff_supplied (hSound : manager.Sound) : manager.Served ↔ manager.Supplied := by
  constructor
  · intro hServed name own hOwn hBackslash hExclude option
    obtain ⟨sp, hMatch, hOptions⟩ := matchStaticPath_name hSound hOwn hBackslash
    rw [← exclude_merge hSound hOwn, ← hOptions] at hExclude
    have hSet := (hServed name sp [] hMatch hExclude).all_set option
    rwa [hOptions, StaticPathOptions.isSet_merge, Bool.or_eq_true] at hSet
  · intro hSupplied url_path sp subpath hMatch hExclude
    obtain ⟨name, own, hOwn, hBackslash, hOptions⟩ := lookup_of_matchStaticPath hMatch
    rw [hOptions, exclude_merge hSound hOwn] at hExclude
    rw [hOptions]
    apply ((hSound.paths name own hOwn).merge hSound.options).complete
    intro option
    rw [StaticPathOptions.isSet_merge, Bool.or_eq_true]
    exact hSupplied name own hOwn hBackslash hExclude option

end StaticPathManager

section Conditions

variable [RText] [RSession]

/-- Each of the paths that gets a name without a backslash, and is not excluded, gives
every option that is not set for all paths. -/
def PathsSupplied (paths : List (Bytes × PathArgument)) (overall : OptionName → Bool) : Prop :=
  ∀ name argument, given paths name = some argument → 92 ∉ name → argument.excluded = false →
    ∀ option, argument.arguments.gives option = true ∨ overall option = true

def StaticConfiguration.Supplied (app : StaticConfiguration) : Prop :=
  PathsSupplied app.staticPaths (app.staticPathOptions.getD .defaults).gives

/-- Only paths that are accepted have to meet the condition. -/
def StaticUpdate.Supplied (manager : StaticPathManager) : StaticUpdate → Prop
  | .setStaticPath paths =>
      (∃ path_map, Accepted paths path_map) → PathsSupplied paths manager.options.isSet
  | .removeStaticPath _ => True
  | .setStaticPathOption _ => True

/-- The states of a run. -/
def StaticPathManager.states (manager : StaticPathManager) :
    List StaticUpdate → List StaticPathManager
  | [] => [manager]
  | update :: rest => manager :: (manager.update update).states rest

/-- Every update of a run meets its condition in the state it finds. -/
def StaticPathManager.SuppliedRun (manager : StaticPathManager) : List StaticUpdate → Prop
  | [] => True
  | update :: rest => update.Supplied manager ∧ (manager.update update).SuppliedRun rest

variable {paths : List (Bytes × PathArgument)} {path_map : List (PathName × StaticPath)}

/-- A registered path comes from an argument that is given under its name. -/
theorem Accepted.of_lookup (h : Accepted paths path_map) {name : Bytes} {sp : StaticPath}
    (hSp : StaticPathManager.lookup path_map name = some sp) :
    ∃ argument, given paths name = some argument ∧ argument.construct = some sp := by
  obtain ⟨hNone, hSome⟩ := h.lookup name
  cases hGiven : given paths name with
  | none =>
      rw [hNone hGiven] at hSp
      cases hSp
  | some argument =>
      obtain ⟨other, hOther, hSame⟩ := hSome argument hGiven
      obtain rfl := Option.some.inj (hSp.symm.trans hSame)
      exact ⟨argument, rfl, hOther⟩

omit [RText] [RSession] in
theorem strip_of_given {name : Bytes} {argument : PathArgument}
    (h : given paths name = some argument) :
    StaticPathManager.stripTrailingSlash name = name := by
  obtain ⟨path, hFind, -⟩ := Option.map_eq_some_iff.1 h
  obtain rfl : normalizeName path.1 = name := by simpa using List.find?_some hFind
  exact stripTrailingSlash_normalizeName path.1

/-- What is accepted is sound, whatever is registered with it. -/
theorem Accepted.sound (h : Accepted paths path_map) {name : Bytes} {sp : StaticPath}
    (hSp : StaticPathManager.lookup path_map name = some sp) :
    sp.options.Sound ∧ sp.options.exclude ≠ none ∧
      StaticPathManager.stripTrailingSlash name = name := by
  obtain ⟨argument, hGiven, hConstruct⟩ := h.of_lookup hSp
  obtain ⟨-, hSound, hExclude⟩ := PathArgument.construct_eq_some hConstruct
  exact ⟨hSound, by rw [hExclude]; exact Option.some_ne_none _, strip_of_given hGiven⟩

/-- Accepted paths have all options exactly if their arguments give them. -/
theorem Accepted.supplied_iff (h : Accepted paths path_map) (overall : OptionName → Bool) :
    (∀ name sp, StaticPathManager.lookup path_map name = some sp → 92 ∉ name →
      sp.options.exclude ≠ some true →
      ∀ option, sp.options.isSet option = true ∨ overall option = true) ↔
    PathsSupplied paths overall := by
  constructor
  · intro hSupplied name argument hGiven hBackslash hIncluded option
    obtain ⟨sp, hConstruct, hSp⟩ := (h.lookup name).2 argument hGiven
    obtain ⟨hSet, -, hExclude⟩ := PathArgument.construct_eq_some hConstruct
    rw [← hSet option]
    exact hSupplied name sp hSp hBackslash (by simp [hExclude, hIncluded]) option
  · intro hSupplied name sp hSp hBackslash hIncluded option
    obtain ⟨argument, hGiven, hConstruct⟩ := h.of_lookup hSp
    obtain ⟨hSet, -, hExclude⟩ := PathArgument.construct_eq_some hConstruct
    rw [hSet option]
    exact hSupplied name argument hGiven hBackslash (by simpa [hExclude] using hIncluded) option

theorem StaticConfiguration.construct_eq_some {app : StaticConfiguration}
    {manager : StaticPathManager} (h : app.construct = some manager) :
    Accepted app.staticPaths manager.path_map ∧ manager.options.Sound ∧
      ∀ option, manager.options.isSet option =
        (app.staticPathOptions.getD .defaults).gives option := by
  unfold StaticConfiguration.construct at h
  cases hPaths : normalizeStaticPaths app.staticPaths with
  | error e =>
      rw [hPaths] at h
      cases h
  | ok elements =>
      cases hOptions : Httpuv.staticPathOptions (app.staticPathOptions.getD .defaults) with
      | error e =>
          rw [hPaths, hOptions] at h
          cases h
      | ok opts =>
          obtain ⟨hNormalized, hGives, hReadable, -⟩ := staticPathOptions_eq_ok hOptions
          rw [hPaths, hOptions] at h
          change (do
            let options ← (normalizeStaticPathOptions opts).toOption
            StaticPathManager.construct elements options) = some manager at h
          rw [normalizeStaticPathOptions_of_normalized hNormalized] at h
          change StaticPathManager.construct elements opts = some manager at h
          simp only [StaticPathManager.construct, Option.bind_eq_bind, Option.bind_eq_some_iff,
            Option.pure_def] at h
          obtain ⟨options, hConstruct, path_map, hMap, hManager⟩ := h
          obtain rfl := Option.some.inj hManager
          refine ⟨⟨elements, hPaths, hMap⟩, StaticPathOptions.sound_construct hConstruct hReadable, ?_⟩
          intro option
          exact (StaticPathOptions.isSet_construct hConstruct option).trans (hGives option)

end Conditions

section Runs

variable [RText] [RSession] {manager : StaticPathManager}

namespace StaticConfiguration

variable {app : StaticConfiguration}

theorem sound (h : app.construct = some manager) : manager.Sound := by
  obtain ⟨hAccepted, hSound, -⟩ := construct_eq_some h
  exact {
    options := hSound
    paths := fun _ _ hSp => (hAccepted.sound hSp).1
    excluded := fun _ _ hSp => (hAccepted.sound hSp).2.1
    names := fun _ _ hSp => (hAccepted.sound hSp).2.2 }

theorem supplied_iff (h : app.construct = some manager) : manager.Supplied ↔ app.Supplied := by
  obtain ⟨hAccepted, -, hSet⟩ := construct_eq_some h
  have hOverall : manager.options.isSet = (app.staticPathOptions.getD .defaults).gives :=
    funext hSet
  rw [StaticConfiguration.Supplied, ← hOverall]
  exact hAccepted.supplied_iff _

end StaticConfiguration

namespace StaticPathManager

/-- Paths are registered if they are accepted. -/
theorem update_setStaticPath (manager : StaticPathManager) (paths : List (Bytes × PathArgument)) :
    (∃ path_map, Accepted paths path_map ∧ manager.update (.setStaticPath paths) =
        path_map.foldl (fun manager entry => manager.set entry.1 entry.2) manager ∧
      (path_map.map Prod.fst).Nodup) ∨
    ((¬ ∃ path_map, Accepted paths path_map) ∧ manager.update (.setStaticPath paths) = manager) := by
  unfold update
  dsimp only
  cases hPaths : normalizeStaticPaths paths with
  | error e =>
      refine Or.inr ⟨?_, rfl⟩
      rintro ⟨path_map, elements, hElements, -⟩
      rw [hPaths] at hElements
      cases hElements
  | ok elements =>
      cases hMap : toMap elements with
      | none =>
          refine Or.inr ⟨?_, by simp [setAll, hMap]⟩
          rintro ⟨path_map, others, hOthers, hOther⟩
          obtain rfl := Except.ok.inj (hPaths.symm.trans hOthers)
          rw [hMap] at hOther
          cases hOther
      | some path_map =>
          exact Or.inl ⟨path_map, ⟨elements, hPaths, hMap⟩, by simp [setAll, hMap],
            nodup_foldlM_insertElement elements hMap List.nodup_nil⟩

theorem setStaticPathOption_eq_ok {opts : List (Bytes × RValue)} {normalized : ROptions}
    (h : setStaticPathOption opts = .ok normalized) :
    staticPathOptions (.ofList opts) = .ok normalized := by
  unfold setStaticPathOption at h
  split_ifs at h
  cases hOptions : staticPathOptions (.ofList opts) with
  | error e =>
      rw [staticPathOptions] at hOptions
      rw [hOptions] at h
      cases h
  | ok other =>
      rw [staticPathOptions] at hOptions
      rw [hOptions] at h
      change (if _ then Except.ok other else Except.error _) = Except.ok normalized at h
      split_ifs at h
      exact h

omit [RText] [RSession] in
/-- What the overall options and the paths of all names have makes a manager sound. -/
theorem Sound.of_lookup {next : StaticPathManager} (hSound : manager.Sound)
    (hOptions : next.options.Sound)
    (hLookup : ∀ name sp, lookup next.path_map name = some sp →
      lookup manager.path_map name = some sp ∨ sp.options.Sound ∧ sp.options.exclude ≠ none ∧
        stripTrailingSlash name = name) : next.Sound where
  options := hOptions
  paths name sp hSp := (hLookup name sp hSp).elim (hSound.paths name sp) And.left
  excluded name sp hSp := (hLookup name sp hSp).elim (hSound.excluded name sp) fun h => h.2.1
  names name sp hSp := (hLookup name sp hSp).elim (hSound.names name sp) fun h => h.2.2

section SetPaths

variable {paths : List (Bytes × PathArgument)} {path_map : List (PathName × StaticPath)}

omit [RText] [RSession] in
theorem lookup_registered (hNodup : (path_map.map Prod.fst).Nodup) (name : Bytes) (sp : StaticPath) :
    lookup (path_map.foldl (fun manager entry => manager.set entry.1 entry.2) manager).path_map name =
        some sp ↔
      lookup path_map name = some sp ∨
        lookup path_map name = none ∧ lookup manager.path_map name = some sp := by
  rw [lookup_foldl_set hNodup, Option.or_eq_some_iff]

theorem Sound.registered (hSound : manager.Sound) (hAccepted : Accepted paths path_map)
    (hNodup : (path_map.map Prod.fst).Nodup) :
    (path_map.foldl (fun manager entry => manager.set entry.1 entry.2) manager).Sound := by
  apply hSound.of_lookup
  · rw [options_foldl_set]
    exact hSound.options
  · intro name sp hSp
    rcases (lookup_registered hNodup name sp).1 hSp with hNew | ⟨-, hOld⟩
    · exact Or.inr (hAccepted.sound hNew)
    · exact Or.inl hOld

theorem supplied_registered (hAccepted : Accepted paths path_map)
    (hNodup : (path_map.map Prod.fst).Nodup) (hSupplied : manager.Supplied) :
    (path_map.foldl (fun manager entry => manager.set entry.1 entry.2) manager).Supplied ↔
      PathsSupplied paths manager.options.isSet := by
  rw [← hAccepted.supplied_iff, Supplied, options_foldl_set]
  constructor
  · intro hNext name sp hSp
    exact hNext name sp ((lookup_registered hNodup name sp).2 (Or.inl hSp))
  · intro hNew name sp hSp
    rcases (lookup_registered hNodup name sp).1 hSp with hFirst | ⟨-, hOld⟩
    · exact hNew name sp hFirst
    · exact hSupplied name sp hOld

end SetPaths

omit [RText] [RSession] in
theorem lookup_of_removeAll {paths : List Bytes} {name : Bytes} {sp : StaticPath}
    (h : lookup (manager.removeAll paths).path_map name = some sp) :
    lookup manager.path_map name = some sp := by
  rw [lookup_removeAll] at h
  split_ifs at h
  exact h

omit [RText] [RSession] in
theorem Sound.removeAll (hSound : manager.Sound) (paths : List Bytes) :
    (manager.removeAll paths).Sound := by
  apply hSound.of_lookup
  · rw [options_removeAll]
    exact hSound.options
  · exact fun _ _ hSp => Or.inl (lookup_of_removeAll hSp)

omit [RText] [RSession] in
theorem Supplied.removeAll (hSupplied : manager.Supplied) (paths : List Bytes) :
    (manager.removeAll paths).Supplied := by
  intro name sp hSp
  rw [options_removeAll]
  exact hSupplied name sp (lookup_of_removeAll hSp)

/-- An update keeps a manager sound, and supplied exactly if its paths are. -/
theorem update_keeps (hSound : manager.Sound) (update : StaticUpdate) :
    (manager.update update).Sound ∧
      (manager.Supplied → ((manager.update update).Supplied ↔ update.Supplied manager)) := by
  cases update with
  | setStaticPath paths =>
      rcases manager.update_setStaticPath paths with
        ⟨path_map, hAccepted, hUpdate, hNodup⟩ | ⟨hRejected, hUpdate⟩
      · rw [hUpdate]
        refine ⟨hSound.registered hAccepted hNodup, fun hSupplied => ?_⟩
        rw [supplied_registered hAccepted hNodup hSupplied]
        exact ⟨fun hPaths _ => hPaths, fun hPaths => hPaths ⟨path_map, hAccepted⟩⟩
      · rw [hUpdate]
        exact ⟨hSound, fun hSupplied => ⟨fun _ hSome => absurd hSome hRejected, fun _ => hSupplied⟩⟩
  | removeStaticPath path =>
      unfold StaticPathManager.update
      dsimp only
      cases path.paste with
      | error e => exact ⟨hSound, fun hSupplied => ⟨fun _ => trivial, fun _ => hSupplied⟩⟩
      | ok paths =>
          exact ⟨hSound.removeAll paths,
            fun hSupplied => ⟨fun _ => trivial, fun _ => hSupplied.removeAll paths⟩⟩
  | setStaticPathOption opts =>
      unfold StaticPathManager.update
      dsimp only
      cases hOptions : setStaticPathOption opts with
      | error e => exact ⟨hSound, fun hSupplied => ⟨fun _ => trivial, fun _ => hSupplied⟩⟩
      | ok normalized =>
          obtain ⟨-, -, hReadable, -⟩ := staticPathOptions_eq_ok (setStaticPathOption_eq_ok hOptions)
          have hKept := StaticPathOptions.setOptions_keeps hSound.options hReadable
          refine ⟨hSound.of_lookup hKept.sound fun _ _ hSp => Or.inl hSp, fun hSupplied => ?_⟩
          refine ⟨fun _ => trivial, fun _ name sp hSp hBackslash hExclude option => ?_⟩
          exact (hSupplied name sp hSp hBackslash hExclude option).imp_right (hKept.isSet option)

/-- All states of a run are supplied exactly if the first one is and each update meets
its condition. -/
theorem run_supplied_iff (hSound : manager.Sound) (updates : List StaticUpdate) :
    (∀ state ∈ manager.states updates, state.Sound) ∧
      ((∀ state ∈ manager.states updates, state.Supplied) ↔
        manager.Supplied ∧ manager.SuppliedRun updates) := by
  induction updates generalizing manager with
  | nil => simpa [states, SuppliedRun] using hSound
  | cons update rest ih =>
      obtain ⟨hNext, hStep⟩ := update_keeps hSound update
      obtain ⟨hStates, hRun⟩ := ih hNext
      simp only [states, List.forall_mem_cons]
      refine ⟨⟨hSound, hStates⟩, ?_⟩
      rw [hRun, SuppliedRun]
      constructor
      · rintro ⟨hSupplied, hSuppliedNext, hRest⟩
        exact ⟨hSupplied, (hStep hSupplied).1 hSuppliedNext, hRest⟩
      · rintro ⟨hSupplied, hUpdate, hRest⟩
        exact ⟨hSupplied, (hStep hSupplied).2 hUpdate, hRest⟩

end StaticPathManager

end Runs

theorem StaticResult.fallThrough_ne_undefined {File : Type} :
    (StaticResult.fallThrough : StaticResult File) ≠ .undefined := by
  intro h
  cases h

theorem StaticResult.response_ne_undefined {File : Type} (response : HttpResponse (Body File)) :
    StaticResult.response response ≠ .undefined := by
  intro h
  cases h

section Answers

variable {Descriptor : Type} [FileSystem Descriptor] [Calendar] [MimeMap]
  {options : StaticPathOptions}

open StaticResult

omit [FileSystem Descriptor] [Calendar] [MimeMap] in
theorem fallThroughOr_ne_undefined (h : options.Complete) (code : Int) (now : Tm) :
    (fallThroughOr options code now : StaticResult (FileDataSource Descriptor)) ≠ .undefined := by
  obtain ⟨fallthrough, hFallthrough⟩ := Option.isSome_iff_exists.1 (h.all_set .fallthrough)
  unfold fallThroughOr
  rw [hFallthrough]
  cases fallthrough with
  | true => exact fallThrough_ne_undefined
  | false => exact response_ne_undefined _

theorem fileResponse_ne_undefined (h : options.Complete) (method : Bytes) (headers : RequestHeaders)
    (now : Tm) (local_path : Bytes) (source : FileDataSource Descriptor) :
    fileResponse options method headers now local_path source ≠ .undefined := by
  obtain ⟨charset, hCharset⟩ := Option.isSome_iff_exists.1 (h.all_set .html_charset)
  obtain ⟨extra, hExtra⟩ := Option.isSome_iff_exists.1 (h.all_set .headers)
  have hType : (contentType options local_path).isSome = true := by
    unfold contentType
    dsimp only
    rw [hCharset]
    split_ifs <;> rfl
  obtain ⟨content_type, hContentType⟩ := Option.isSome_iff_exists.1 hType
  unfold fileResponse
  rw [hContentType, hExtra]
  exact response_ne_undefined _

theorem serveFile_ne_undefined (h : options.Complete) (method : Bytes) (headers : RequestHeaders)
    (now : Tm) (local_path : Bytes) :
    (serveFile options method headers now local_path :
      StaticResult (FileDataSource Descriptor)) ≠ .undefined := by
  unfold serveFile
  split
  · exact fileResponse_ne_undefined h method headers now local_path _
  · exact fallThroughOr_ne_undefined h 404 now
  · exact fallThroughOr_ne_undefined h 404 now
  · exact response_ne_undefined _

theorem serveLocal_ne_undefined {sp : StaticPath} (h : sp.options.Complete)
    (subpath method : Bytes) (headers : RequestHeaders) (now : Tm) :
    (serveLocal sp subpath method headers now :
      StaticAnswer (FileDataSource Descriptor)).result ≠ .undefined := by
  obtain ⟨indexhtml, hIndex⟩ := Option.isSome_iff_exists.1 (h.all_set .indexhtml)
  unfold serveLocal
  dsimp only
  generalize sp.path ++ (if subpath ≠ [] then ascii "/" ++ subpath else []) = local_path
  rw [hIndex]
  split_ifs
  · cases indexhtml <;> exact serveFile_ne_undefined h method headers now _
  · exact serveFile_ne_undefined h method headers now _

/-- Where no option is missing, every request has a defined result. -/
theorem StaticPathManager.Served.defined {manager : StaticPathManager} (h : manager.Served)
    (method : Bytes) (head : RequestHead) (now : Tm) :
    (staticFileResponse manager method head now :
      StaticAnswer (FileDataSource Descriptor)).result ≠ .undefined := by
  unfold staticFileResponse
  dsimp only
  by_cases hUpgrade : head.headers.has (ascii "Upgrade") = true
  · rw [if_pos hUpgrade]
    exact fallThrough_ne_undefined
  · rw [if_neg hUpgrade]
    cases hMatch : manager.matchStaticPath (urlPath head.url) with
    | none => exact fallThrough_ne_undefined
    | some result =>
        obtain ⟨sp, subpath⟩ := result
        by_cases hExcluded : sp.options.exclude = some true
        · simp only [hExcluded]
          exact fallThrough_ne_undefined
        · have hComplete := h _ sp subpath hMatch hExcluded
          obtain ⟨exclude, hExclude⟩ := Option.isSome_iff_exists.1 (hComplete.all_set .exclude)
          obtain ⟨valid, hValid⟩ := Option.ne_none_iff_exists'.1
            (hComplete.validates head.headers)
          simp only [hExclude, hValid]
          cases exclude with
          | true => exact absurd hExclude hExcluded
          | false =>
              cases valid with
              | false => exact response_ne_undefined _
              | true =>
                  dsimp only
                  split_ifs
                  · exact response_ne_undefined _
                  · exact response_ne_undefined _
                  · exact fallThroughOr_ne_undefined hComplete 400 now
                  · exact serveLocal_ne_undefined hComplete subpath method head.headers now

end Answers

/-- A session in which every path is there. -/
@[reducible] def sampleSession : RSession where
  parse _ := .error []
  normalizePath path := .ok path

/-- A directory that inherits all options, with overall ones that lack validation. -/
def lackingConfiguration : StaticConfiguration where
  staticPaths := [(ascii "a", .value (RValue.string (ascii "/srv")))]
  staticPathOptions := some { OptionArguments.defaults with validation := null }

/-- The same directory with the default options. -/
def sampleConfiguration : StaticConfiguration where
  staticPaths := [(ascii "a", .value (RValue.string (ascii "/srv")))]
  staticPathOptions := none

section Statement

variable [RText] [RSession] {Descriptor : Type} [FileSystem Descriptor] [Calendar] [MimeMap]

/-- **Static serving reads no missing option**, in any state of a run and for any
request, if and only if the paths it is started with and all paths that are set later
give every option that is not set for all paths. -/
theorem StaticConfiguration.served_iff {app : StaticConfiguration} {manager : StaticPathManager}
    (h : app.construct = some manager) (updates : List StaticUpdate) :
    ((∀ state ∈ manager.states updates, state.Served) ↔
        app.Supplied ∧ manager.SuppliedRun updates) ∧
      ∀ state ∈ manager.states updates, state.Served → ∀ method head now,
        (staticFileResponse state method head now :
          StaticAnswer (FileDataSource Descriptor)).result ≠ .undefined := by
  obtain ⟨hSound, hRun⟩ := StaticPathManager.run_supplied_iff (sound h) updates
  refine ⟨?_, fun state _ hServed => hServed.defined⟩
  rw [← supplied_iff h, ← hRun]
  constructor
  · exact fun hServed state hState =>
      (StaticPathManager.served_iff_supplied (hSound state hState)).1 (hServed state hState)
  · exact fun hSupplied state hState =>
      (StaticPathManager.served_iff_supplied (hSound state hState)).2 (hSupplied state hState)

end Statement

/-- With the default options, which an update does not unset, a directory that is set
later has all of them. -/
theorem StaticConfiguration.served_iff_defaults :
    let _ : RText := sampleText
    let _ : RSession := sampleSession
    let _ : FileSystem Bytes := sampleFiles
    let _ : Calendar := ⟨fun _ => .epoch⟩
    let _ : MimeMap := ⟨fun _ => []⟩
    let updates : List StaticUpdate := [.setStaticPath [(ascii "b", .value (RValue.string (ascii "/srv")))],
      .setStaticPathOption [(ascii "indexhtml", null)]]
    ∃ manager, sampleConfiguration.construct = some manager ∧
      (∀ state ∈ manager.states updates, state.Served) ∧
      ∀ state ∈ manager.states updates, ∀ method head now,
        (staticFileResponse state method head now :
          StaticAnswer (FileDataSource Bytes)).result ≠ .undefined := by
  intro text session files calendar mime updates
  obtain ⟨manager, hManager⟩ : ∃ manager, sampleConfiguration.construct = some manager := ⟨_, rfl⟩
  obtain ⟨-, -, hSet⟩ := construct_eq_some hManager
  have hDefaults : ∀ option, OptionArguments.defaults.gives option = true := by
    intro option
    cases option <;> rfl
  obtain ⟨hIff, hDefined⟩ : _ ∧ ∀ state ∈ manager.states updates, state.Served →
      ∀ method head now, (staticFileResponse state method head now :
        StaticAnswer (FileDataSource Bytes)).result ≠ .undefined := served_iff hManager updates
  have hServed := hIff.2 ⟨fun _ _ _ _ _ option => Or.inr (hDefaults option),
    fun _ _ _ _ _ _ option => Or.inr ((hSet option).trans (hDefaults option)), trivial, trivial⟩
  exact ⟨manager, hManager, hServed, fun state hState => hDefined state hState (hServed state hState)⟩

/-- A request for a path that inherits, where there is nothing to inherit from: the
validation of its headers throws. -/
theorem validation_missing :
    let _ : RText := sampleText
    let _ : RSession := sampleSession
    let _ : FileSystem Bytes := sampleFiles
    let _ : Calendar := ⟨fun _ => .epoch⟩
    let _ : MimeMap := ⟨fun _ => []⟩
    let head : RequestHead :=
      { url := ascii "/a/b", headers := [], lastHeaderField := [], lastHeaderState := .start }
    ∃ manager, lackingConfiguration.construct = some manager ∧
      (∃ sp subpath, manager.matchStaticPath (urlPath head.url) = some (sp, subpath) ∧
        sp.options.exclude = some false ∧ sp.options.validation = none ∧
        sp.options.validateRequestHeaders head.headers = none) ∧
      (staticFileResponse manager (ascii "GET") head .epoch :
        StaticAnswer (FileDataSource Bytes)).result = .undefined ∧
      ¬ manager.Served := by
  intro text session files calendar mime head
  refine ⟨_, rfl, ⟨_, _, rfl, rfl, rfl, rfl⟩, rfl, ?_⟩
  intro hServed
  have hSet := (hServed (ascii "/a/b") _ _ rfl (by decide)).all_set .validation
  cases hSet

end Httpuv
