import Httpuv.Static.Matching
import Httpuv.Static.Serving

/-! The pathnames that static serving looks up, and the directory they start from. -/
namespace Httpuv

open Paths StaticPathManager

/-- As C sees it, a pathname is the directory and a relative path that does not
lead back up and has no backslash. -/
def Confined (directory pathname : Bytes) : Prop :=
  ∃ relative, cString pathname = directory ++ relative ∧
    (relative = [] ∨ [47] <+: relative) ∧ ascii ".." ∉ relative.splitOn 47 ∧ 92 ∉ relative

/-- A request that gets to the choice of a local file. -/
structure Admitted (manager : StaticPathManager) (method : Bytes) (head : RequestHead)
    (sp : StaticPath) (subpath : Bytes) : Prop where
  no_upgrade : head.headers.has (ascii "Upgrade") = false
  matched : manager.matchStaticPath (urlPath head.url) = some (sp, subpath)
  included : sp.options.exclude = some false
  validated : sp.options.validateRequestHeaders head.headers = some true
  method_known : method = ascii "GET" ∨ method = ascii "HEAD"
  no_body : hasMessageBody head.headers = false
  no_dots : hasDotDot (urlPath head.url) = false

section Lookups

variable {Descriptor : Type} [FileSystem Descriptor] [Calendar] [MimeMap]
  {manager : StaticPathManager} {method : Bytes} {head : RequestHead} {sp : StaticPath}
  {subpath : Bytes}

/-- What follows the directory in the pathname of a file. -/
def below (subpath : Bytes) : Bytes := if subpath ≠ [] then 47 :: subpath else []

theorem staticFileResponse_admitted (h : Admitted manager method head sp subpath) (now : Tm) :
    (staticFileResponse manager method head now : StaticAnswer (FileDataSource Descriptor)) =
      serveLocal sp subpath method head.headers now := by
  have hMethod : ¬ (method ≠ ascii "GET" ∧ method ≠ ascii "HEAD") := by
    rintro ⟨hGet, hHead⟩
    exact h.method_known.elim hGet hHead
  simp only [staticFileResponse, h.no_upgrade, h.matched, h.included, h.validated, h.no_body,
    h.no_dots, Bool.false_eq_true, if_false, if_neg hMethod]

omit [FileSystem Descriptor] [Calendar] [MimeMap] in
/-- The last checks before the choice of a local file. -/
theorem admitted_of_checks (hUpgrade : ¬ head.headers.has (ascii "Upgrade") = true)
    (hMatch : manager.matchStaticPath (urlPath head.url) = some (sp, subpath))
    (hExclude : sp.options.exclude = some false)
    (hValid : sp.options.validateRequestHeaders head.headers = some true)
    {refused badBody dots : StaticResult (FileDataSource Descriptor)}
    {served : StaticAnswer (FileDataSource Descriptor)} {pathname : Bytes}
    (h : pathname ∈ (if method ≠ ascii "GET" ∧ method ≠ ascii "HEAD" then
        { pathnames := [], result := refused }
      else if hasMessageBody head.headers = true then { pathnames := [], result := badBody }
      else if hasDotDot (urlPath head.url) = true then { pathnames := [], result := dots }
      else served).pathnames) : Admitted manager method head sp subpath := by
  by_cases hMethod : method ≠ ascii "GET" ∧ method ≠ ascii "HEAD"
  · simp [hMethod] at h
  · by_cases hBody : hasMessageBody head.headers = true
    · simp [hMethod, hBody] at h
    · by_cases hDots : hasDotDot (urlPath head.url) = true
      · simp [hMethod, hBody, hDots] at h
      · exact ⟨by simpa using hUpgrade, hMatch, hExclude, hValid, by tauto, by simpa using hBody,
          by simpa using hDots⟩

/-- Nothing is looked up before the request is admitted. -/
theorem admitted_of_pathnames {now : Tm} {pathname : Bytes}
    (h : pathname ∈ (staticFileResponse manager method head now :
      StaticAnswer (FileDataSource Descriptor)).pathnames) :
    ∃ sp subpath, Admitted manager method head sp subpath := by
  by_cases hUpgrade : head.headers.has (ascii "Upgrade") = true
  · simp [staticFileResponse, hUpgrade] at h
  · cases hMatch : manager.matchStaticPath (urlPath head.url) with
    | none => simp [staticFileResponse, hUpgrade, hMatch] at h
    | some result =>
        obtain ⟨sp, subpath⟩ := result
        cases hExclude : sp.options.exclude with
        | none => simp [staticFileResponse, hUpgrade, hMatch, hExclude] at h
        | some excluded =>
            cases excluded with
            | true => simp [staticFileResponse, hUpgrade, hMatch, hExclude] at h
            | false =>
                cases hValid : sp.options.validateRequestHeaders head.headers with
                | none => simp [staticFileResponse, hUpgrade, hMatch, hExclude, hValid] at h
                | some valid =>
                    cases valid with
                    | false => simp [staticFileResponse, hUpgrade, hMatch, hExclude, hValid] at h
                    | true =>
                        simp only [staticFileResponse, hUpgrade, hMatch, hExclude, hValid] at h
                        exact ⟨sp, subpath, admitted_of_checks hUpgrade hMatch hExclude hValid h⟩

/-- The directory or the file itself is looked up first, and then a page in it. -/
theorem serveLocal_pathnames (sp : StaticPath) (subpath method : Bytes) (headers : RequestHeaders)
    (now : Tm) :
    let pathnames := (serveLocal sp subpath method headers now :
      StaticAnswer (FileDataSource Descriptor)).pathnames
    sp.path ++ below subpath ∈ pathnames ∧ ∀ pathname ∈ pathnames,
      pathname = sp.path ++ below subpath ∨
        pathname = sp.path ++ below subpath ++ ascii "/index.html" := by
  have hLocal : sp.path ++ (if subpath ≠ [] then ascii "/" ++ subpath else []) =
      sp.path ++ below subpath := rfl
  have hIndex : ∀ local_path : Bytes, local_path ++ ascii "/" ++ ascii "index.html" =
      local_path ++ ascii "/index.html" := by
    intro local_path
    rw [List.append_assoc]
    rfl
  intro pathnames
  simp only [pathnames, serveLocal, hLocal]
  split_ifs with hDirectory
  · cases hPage : sp.options.indexhtml with
    | none => simp
    | some page => cases page <;> simp [hIndex]
  · simp

end Lookups

section Segments

variable {manager : StaticPathManager} {method : Bytes} {head : RequestHead} {sp : StaticPath}
  {subpath : Bytes}

/-- A path is what is searched for, and maybe a slash. -/
theorem stripTrailingSlash_eq (url_path : Bytes) :
    url_path = stripTrailingSlash url_path ∨ url_path = stripTrailingSlash url_path ++ [47] := by
  unfold stripTrailingSlash
  split_ifs with hSlash
  · obtain ⟨before, rfl⟩ := List.getLast?_eq_some_iff.1 hSlash.2
    simp
  · exact Or.inl rfl

/-- The name comes from R, so that a NUL can only be in what follows it. -/
theorem split_of_matched {url_path : Bytes}
    (h : manager.matchStaticPath url_path = some (sp, subpath)) :
    92 ∉ url_path ∧ ∃ before, 0 ∉ before ∧ (stripTrailingSlash url_path = before ++ 47 :: subpath ∨
      stripTrailingSlash url_path = before ∧ subpath = []) := by
  obtain ⟨result, hName, hPair⟩ := Option.map_eq_some_iff.1 h
  obtain ⟨rfl, rfl⟩ := Prod.mk.inj hPair
  have hPlain : 92 ∉ url_path := by
    intro hBackslash
    simp [matchName, hBackslash] at hName
  rw [matchName_eq, searched, if_neg hPlain] at hName
  have hAt := matchPath_eq_some hName
  have hEnd := terminated_of_mem_names hAt.longest.1
  refine ⟨hPlain, ?_⟩
  rcases hAt.split with ⟨hWhole, hNothing⟩ | hSplit | ⟨-, hSplit⟩
  · exact ⟨result.pre_slash, hEnd, Or.inr ⟨hWhole.symm, hNothing⟩⟩
  · exact ⟨result.pre_slash, hEnd, Or.inl hSplit⟩
  · exact ⟨[], by simp, Or.inl hSplit⟩

theorem hasDotDot_eq_false {url_path : Bytes} (h : hasDotDot url_path = false) :
    ¬ ascii "/../" <:+: url_path ∧ ¬ ascii "/.." <:+ url_path := by
  simpa [hasDotDot] using h

/-- In a path without `/../` that does not end with `/..` there is no `/..` at the
end of what is searched for either. -/
theorem dots_stripTrailingSlash {url_path : Bytes} (h : hasDotDot url_path = false) :
    ¬ ascii "/.." <:+ stripTrailingSlash url_path := by
  obtain ⟨hInner, hLast⟩ := hasDotDot_eq_false h
  rintro ⟨before, hBefore⟩
  rcases stripTrailingSlash_eq url_path with hSame | hSlash
  · exact hLast ⟨before, by rw [hBefore, ← hSame]⟩
  · refine hInner ⟨before, [], ?_⟩
    rw [hSlash, ← hBefore]
    simp [ascii]

/-- Where a NUL is, it is in the part below the directory. -/
theorem cString_url_path {url_path before : Bytes} (hBefore : 0 ∉ before)
    (hSplit : stripTrailingSlash url_path = before ++ 47 :: subpath) (hNul : 0 ∈ subpath) :
    cString url_path = before ++ cString (47 :: subpath) := by
  have hInside : 0 ∈ stripTrailingSlash url_path := by
    rw [hSplit]
    simp [hNul]
  have hSame : cString url_path = cString (stripTrailingSlash url_path) := by
    rcases stripTrailingSlash_eq url_path with hSame | hSlash
    · rw [← hSame]
    · exact (congrArg cString hSlash).trans (cString_append_of_mem hInside [47])
  rw [hSame, hSplit, cString_append hBefore]

/-- There is no `..` below the directory unless a NUL follows one at once. -/
theorem no_dots_below {url_path : Bytes} (hMatch : manager.matchStaticPath url_path = some (sp, subpath))
    (hDots : hasDotDot url_path = false) (hLast : ¬ ascii "/.." <:+ cString url_path) :
    ascii ".." ∉ (cString (below subpath)).splitOn 47 := by
  have hPlain : (47 : UInt8) ∉ ascii ".." := by decide
  have hSome : ascii ".." ≠ [] := by decide
  have hInnerDots : 47 :: ascii ".." ++ [47] = ascii "/../" := by decide
  have hLastDots : 47 :: ascii ".." = ascii "/.." := by decide
  obtain ⟨-, before, hBefore, hSplit⟩ := split_of_matched hMatch
  by_cases hNothing : subpath = []
  · have hEmpty : below subpath = [] := by simp [below, hNothing]
    rw [hEmpty]
    decide
  · have hBelow : below subpath = 47 :: subpath := if_pos hNothing
    have hPath : stripTrailingSlash url_path = before ++ 47 :: subpath :=
      hSplit.resolve_right fun hWhole => hNothing hWhole.2
    have hFirst : cString (47 :: subpath) = 47 :: cString subpath := rfl
    have hPart : 47 :: cString subpath <:+: url_path := by
      have hBegin : 47 :: cString subpath <+: 47 :: subpath :=
        List.cons_prefix_cons.2 ⟨rfl, cString_isPrefix subpath⟩
      have hInside : 47 :: subpath <:+: stripTrailingSlash url_path := ⟨before, [], by simp [hPath]⟩
      have hWhole : stripTrailingSlash url_path <:+: url_path := by
        rcases stripTrailingSlash_eq url_path with hSame | hSlash
        · rw [← hSame]
        · exact ⟨[], [47], by simpa using hSlash.symm⟩
      exact (hBegin.isInfix.trans hInside).trans hWhole
    intro hMem
    rw [hBelow, hFirst] at hMem
    rcases infix_or_suffix_of_mem_splitOn hSome hPlain hMem with hInner | hEnd
    · rw [hInnerDots] at hInner
      exact (hasDotDot_eq_false hDots).1 (hInner.trans hPart)
    · rw [hLastDots] at hEnd
      by_cases hNul : 0 ∈ subpath
      · apply hLast
        rw [cString_url_path hBefore hPath hNul, hFirst]
        exact hEnd.trans (List.suffix_append before _)
      · apply dots_stripTrailingSlash hDots
        rw [cString_of_not_mem hNul] at hEnd
        rw [hPath]
        exact hEnd.trans (List.suffix_append before _)

/-- A `..` in front of a NUL leads back up. -/
theorem dots_below {url_path : Bytes} (hMatch : manager.matchStaticPath url_path = some (sp, subpath))
    (hDots : hasDotDot url_path = false) (hLast : ascii "/.." <:+ cString url_path) :
    ascii ".." ∈ (cString (below subpath)).splitOn 47 := by
  have hPlain : (47 : UInt8) ∉ ascii ".." := by decide
  have hNul : 0 ∈ url_path := by
    by_contra hNoNul
    rw [cString_of_not_mem hNoNul] at hLast
    exact (hasDotDot_eq_false hDots).2 hLast
  obtain ⟨-, before, hBefore, hSplit⟩ := split_of_matched hMatch
  have hInside : 0 ∈ stripTrailingSlash url_path := by
    rcases stripTrailingSlash_eq url_path with hSame | hSlash
    · rwa [← hSame]
    · rw [hSlash] at hNul
      simpa using hNul
  rcases hSplit with hPath | ⟨hWhole, -⟩
  · rw [hPath] at hInside
    have hRest : 0 ∈ subpath := by simpa [hBefore] using hInside
    have hBelow : below subpath = 47 :: subpath := if_pos (List.ne_nil_of_mem hRest)
    have hFirst : cString (47 :: subpath) = 47 :: cString subpath := rfl
    rw [hBelow, hFirst]
    apply mem_splitOn_of_suffix hPlain
    rw [cString_url_path hBefore hPath hRest, hFirst] at hLast
    rcases List.suffix_or_suffix_of_suffix hLast (List.suffix_append before _) with hLong | hShort
    · exact hLong
    · have hSame : 47 :: cString subpath = ascii "/.." := by
        have hCases : 47 :: cString subpath <:+ [47, 46, 46] := hShort
        simp only [List.suffix_cons_iff, List.suffix_nil] at hCases
        rcases hCases with hSame | hSame | hSame | hSame
        · exact hSame
        · exact absurd (List.head_eq_of_cons_eq hSame) (by decide)
        · exact absurd (List.head_eq_of_cons_eq hSame) (by decide)
        · cases hSame
      rw [hSame]
      exact List.suffix_rfl
  · exact absurd (hWhole ▸ hInside) hBefore

/-- A page in a directory has the segments of the directory and its own. -/
theorem splitOn_page (pathname : Bytes) :
    (pathname ++ ascii "/index.html").splitOn 47 = pathname.splitOn 47 ++ [ascii "index.html"] := by
  have hSlash : ascii "/index.html" = 47 :: ascii "index.html" := rfl
  have hPage : (ascii "index.html").splitOn 47 = [ascii "index.html"] := by decide
  rw [hSlash, List.splitOn_append_cons_self, hPage]

/-- The local path, or the page in it, seen as a C string. -/
theorem cString_page (pathname : Bytes) :
    cString (pathname ++ ascii "/index.html") =
      cString pathname ++ if 0 ∈ pathname then [] else ascii "/index.html" := by
  have hPage : cString (ascii "/index.html") = ascii "/index.html" := by decide
  split_ifs with hNul
  · rw [cString_append_of_mem hNul, List.append_nil]
  · rw [cString_append hNul, cString_of_not_mem hNul, hPage]

end Segments

section Confined

variable {manager : StaticPathManager} {method : Bytes} {head : RequestHead} {sp : StaticPath}
  {subpath : Bytes}

/-- Below the directory nothing but `..` can be wrong. -/
theorem confined_iff_no_dots (hBackslash : 92 ∉ subpath) :
    Confined sp.path (sp.path ++ below subpath) ↔
      ascii ".." ∉ (cString (below subpath)).splitOn 47 := by
  have hString : cString (sp.path ++ below subpath) = sp.path ++ cString (below subpath) :=
    cString_append sp.terminated _
  have hBegin : cString (below subpath) = [] ∨ [47] <+: cString (below subpath) := by
    unfold below
    split_ifs with hSome
    · exact Or.inr ⟨cString subpath, rfl⟩
    · exact Or.inl rfl
  have hPlain : 92 ∉ cString (below subpath) := by
    intro hMem
    have hBelow := (cString_isPrefix (below subpath)).subset hMem
    unfold below at hBelow
    split_ifs at hBelow with hSome
    · exact hBackslash (by simpa using hBelow)
    · simp at hBelow
  constructor
  · rintro ⟨relative, hRelative, -, hDots, -⟩
    rw [hString] at hRelative
    rwa [List.append_cancel_left hRelative]
  · intro hDots
    exact ⟨_, hString, hBegin, hDots, hPlain⟩

/-- With the directory the page in it is confined. -/
theorem Confined.page {directory pathname : Bytes} (h : Confined directory pathname) :
    Confined directory (pathname ++ ascii "/index.html") := by
  obtain ⟨relative, hRelative, hBegin, hDots, hBackslash⟩ := h
  by_cases hNul : 0 ∈ pathname
  · exact ⟨relative, by rw [cString_page, if_pos hNul, List.append_nil, hRelative], hBegin, hDots,
      hBackslash⟩
  · refine ⟨relative ++ ascii "/index.html", ?_, Or.inr ?_, ?_, ?_⟩
    · rw [cString_page, if_neg hNul, hRelative, List.append_assoc]
    · rcases hBegin with rfl | ⟨rest, rfl⟩
      · exact ⟨ascii "index.html", rfl⟩
      · exact ⟨rest ++ ascii "/index.html", by simp⟩
    · have hPage : ascii ".." ≠ ascii "index.html" := by decide
      simp [splitOn_page, hDots, hPage]
    · have hPage : 92 ∉ ascii "/index.html" := by decide
      simp [hBackslash, hPage]

variable {Descriptor : Type} [FileSystem Descriptor] [Calendar] [MimeMap]

/-- Whatever is looked up is in the directory of the matched static path, unless
the decoded path of an admitted request has a `/..` in front of its first NUL. -/
theorem pathnames_confined_iff (manager : StaticPathManager) (method : Bytes) (head : RequestHead)
    (now : Tm) :
    (∀ pathname ∈ (staticFileResponse manager method head now :
        StaticAnswer (FileDataSource Descriptor)).pathnames,
      ∃ sp subpath, manager.matchStaticPath (urlPath head.url) = some (sp, subpath) ∧
        Confined sp.path pathname) ↔
      ∀ sp subpath, Admitted manager method head sp subpath →
        ¬ ascii "/.." <:+ cString (urlPath head.url) := by
  have hBackslash : ∀ {sp : StaticPath} {subpath : Bytes},
      manager.matchStaticPath (urlPath head.url) = some (sp, subpath) → 92 ∉ subpath := by
    intro sp subpath hMatch
    obtain ⟨hPlain, before, -, hSplit⟩ := split_of_matched hMatch
    rcases hSplit with hPath | ⟨-, rfl⟩
    · intro hMem
      have hInside : 92 ∈ stripTrailingSlash (urlPath head.url) := by
        rw [hPath]
        simp [hMem]
      rcases stripTrailingSlash_eq (urlPath head.url) with hSame | hSlash
      · exact hPlain (hSame ▸ hInside)
      · exact hPlain (by rw [hSlash]; simp [hInside])
    · simp
  constructor
  · intro hConfined sp subpath hAdmitted hLast
    have hLooked : sp.path ++ below subpath ∈ (staticFileResponse manager method head now :
        StaticAnswer (FileDataSource Descriptor)).pathnames := by
      rw [staticFileResponse_admitted hAdmitted now]
      exact (serveLocal_pathnames sp subpath method head.headers now).1
    obtain ⟨sp', subpath', hMatch, hBelow⟩ := hConfined _ hLooked
    have hPair := Option.some.inj (hAdmitted.matched.symm.trans hMatch)
    obtain ⟨rfl, rfl⟩ := Prod.mk.inj hPair
    exact (confined_iff_no_dots (hBackslash hMatch)).1 hBelow
      (dots_below hMatch hAdmitted.no_dots hLast)
  · intro hLast pathname hMem
    obtain ⟨sp, subpath, hAdmitted⟩ := admitted_of_pathnames hMem
    rw [staticFileResponse_admitted hAdmitted now] at hMem
    have hLocal : Confined sp.path (sp.path ++ below subpath) :=
      (confined_iff_no_dots (hBackslash hAdmitted.matched)).2
        (no_dots_below hAdmitted.matched hAdmitted.no_dots (hLast sp subpath hAdmitted))
    refine ⟨sp, subpath, hAdmitted.matched, ?_⟩
    rcases (serveLocal_pathnames sp subpath method head.headers now).2 pathname hMem with rfl | rfl
    · exact hLocal
    · exact hLocal.page

end Confined

/-- A file system for an example, in which `/` and `/srv` are directories. -/
@[reducible] def sampleFiles : FileSystem Bytes where
  stat pathname :=
    if pathname ∈ [ascii "/srv", ascii "/srv/.."] then some { isDirectory := true, size := 0, mtime := 0 }
    else none
  openFile pathname := .ok pathname
  fstat _ := some { isDirectory := true, size := 0, mtime := 0 }
  read _ _ := none

/-- For `/a/..%00` the directory above the registered one is looked up and opened. -/
theorem parent_looked_up :
    let _ : FileSystem Bytes := sampleFiles
    let _ : Calendar := ⟨fun _ => .epoch⟩
    let _ : MimeMap := ⟨fun _ => []⟩
    let head : RequestHead :=
      { url := ascii "/a/..%00", headers := [], lastHeaderField := [], lastHeaderState := .start }
    (staticFileResponse sampleStaticPaths (ascii "GET") head .epoch :
        StaticAnswer (FileDataSource Bytes)).pathnames.map cString =
      [ascii "/srv/..", ascii "/srv/.."] ∧
    ¬ ∀ pathname ∈ (staticFileResponse sampleStaticPaths (ascii "GET") head .epoch :
        StaticAnswer (FileDataSource Bytes)).pathnames,
      ∃ sp subpath, sampleStaticPaths.matchStaticPath (urlPath head.url) = some (sp, subpath) ∧
        Confined sp.path pathname := by
  intro files calendar mime head
  refine ⟨by decide +kernel, ?_⟩
  intro hConfined
  have hLooked : ascii "/srv/.." ++ [0] ∈
      (staticFileResponse sampleStaticPaths (ascii "GET") head .epoch :
        StaticAnswer (FileDataSource Bytes)).pathnames := by
    decide +kernel
  obtain ⟨sp, subpath, hMatch, relative, hRelative, -, hDots, -⟩ := hConfined _ hLooked
  have hFound : (sampleStaticPaths.matchStaticPath (urlPath head.url)).map (fun result =>
      result.1.path) = some (ascii "/srv") := by
    decide +kernel
  rw [hMatch] at hFound
  have hString : cString (ascii "/srv/.." ++ [0]) = ascii "/srv" ++ ascii "/.." := by decide
  have hPath : sp.path = ascii "/srv" := Option.some.inj hFound
  rw [hString, hPath] at hRelative
  rw [← List.append_cancel_left hRelative] at hDots
  exact hDots (by decide)

end Httpuv
