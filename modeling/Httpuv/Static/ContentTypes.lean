import Httpuv.Static.FileResponses
import Httpuv.Static.MissingFiles

/-! The type of a file that is served, by the extension of its name. -/
namespace Httpuv

/-- What follows the last dot of a name, if there is something in front of it. -/
def IsExtension (name extension : Bytes) : Prop :=
  ∃ stem, stem ≠ [] ∧ name = stem ++ 46 :: extension ∧ 46 ∉ extension

/-- What follows the last slash. -/
def IsLastComponent (path name : Bytes) : Prop :=
  47 ∉ name ∧ (path = name ∨ ∃ front, path = front ++ 47 :: name)

section Names

variable {path name stem extension : Bytes}

theorem basename_bare (h : 47 ∉ name) : basename name = name := by
  have hPlain : ∀ byte ∈ name.reverse, decide (byte ≠ 47) = true := by
    intro byte hByte
    exact decide_eq_true (ne_of_mem_of_not_mem (List.mem_reverse.1 hByte) h)
  rw [basename, List.takeWhile_eq_self_iff.2 hPlain, List.reverse_reverse]

theorem basename_slash {front : Bytes} (h : 47 ∉ name) : basename (front ++ 47 :: name) = name := by
  have hPlain : ∀ byte ∈ name.reverse, decide (byte ≠ 47) = true := by
    intro byte hByte
    exact decide_eq_true (ne_of_mem_of_not_mem (List.mem_reverse.1 hByte) h)
  have hReverse : (front ++ 47 :: name).reverse = name.reverse ++ 47 :: front.reverse := by simp
  rw [basename, hReverse, List.takeWhile_append_of_pos hPlain]
  simp

theorem isLastComponent_iff : IsLastComponent path name ↔ name = basename path := by
  constructor
  · rintro ⟨hName, rfl | ⟨front, rfl⟩⟩
    · exact (basename_bare hName).symm
    · exact (basename_slash hName).symm
  · rintro rfl
    by_cases hSlash : 47 ∈ path
    · obtain ⟨front, name, rfl, hName⟩ := Paths.exists_last hSlash
      rw [basename_slash hName]
      exact ⟨hName, Or.inr ⟨front, rfl⟩⟩
    · rw [basename_bare hSlash]
      exact ⟨hSlash, Or.inl rfl⟩

/-- Without a dot the whole name is taken. -/
theorem find_extension_bare (h : 46 ∉ name) : find_extension name = name := by
  have hNone : name.reverse.findIdx? (· == 46) = none := by
    rw [List.findIdx?_eq_none_iff]
    intro byte hByte
    simpa using ne_of_mem_of_not_mem (List.mem_reverse.1 hByte) h
  rw [find_extension, hNone]

theorem find_extension_dot (h : 46 ∉ extension) :
    find_extension (stem ++ 46 :: extension) = if stem = [] then [] else extension := by
  have hNone : extension.reverse.findIdx? (· == 46) = none := by
    rw [List.findIdx?_eq_none_iff]
    intro byte hByte
    simpa using ne_of_mem_of_not_mem (List.mem_reverse.1 hByte) h
  have hReverse : (stem ++ 46 :: extension).reverse = extension.reverse ++ 46 :: stem.reverse := by
    simp
  have hSome : (stem ++ 46 :: extension).reverse.findIdx? (· == 46) = some extension.length := by
    rw [hReverse, List.findIdx?_append, hNone]
    simp [List.findIdx?_cons]
  have hFirst : extension.length + 1 = (stem ++ 46 :: extension).length ↔ stem = [] := by
    rw [List.length_append, List.length_cons, ← List.length_eq_zero_iff]
    omega
  have hDrop : (stem ++ 46 :: extension).drop ((stem ++ 46 :: extension).length - extension.length) =
      extension := by
    have hCount : (stem ++ 46 :: extension).length - extension.length = (stem ++ [46]).length := by
      simp only [List.length_append, List.length_cons, List.length_nil]
      omega
    have hSplit : stem ++ 46 :: extension = (stem ++ [46]) ++ extension := by simp
    rw [hCount, hSplit, List.drop_left]
  rw [find_extension, hSome]
  simp only [hFirst, hDrop]

/-- With a dot the extension is the right one. -/
theorem find_extension_eq (h : IsExtension name extension) : find_extension name = extension := by
  obtain ⟨stem, hStem, rfl, hLast⟩ := h
  rw [find_extension_dot hLast, if_neg hStem]

theorem find_extension_none (h : ∀ extension, ¬ IsExtension name extension) (hDot : 46 ∈ name) :
    find_extension name = [] := by
  obtain ⟨stem, extension, rfl, hLast⟩ := Paths.exists_last hDot
  rw [find_extension_dot hLast]
  exact if_pos (by_contra fun hStem => h extension ⟨stem, hStem, rfl, hLast⟩)

end Names

section Types

variable [MimeMap] {options : StaticPathOptions} {path type : Bytes}

def octetStream : Bytes := ascii "application/octet-stream"

/-- The entry of an extension, with the encoding of a page. -/
def entryType (html_charset extension : Bytes) : Bytes :=
  if MimeMap.find_mime_type extension = [] then octetStream
  else if MimeMap.find_mime_type extension = ascii "text/html" ∧ html_charset ≠ [] then
    ascii "text/html; charset=" ++ html_charset
  else MimeMap.find_mime_type extension

/-- The type goes by the extension of the last component, and is the general one where
there is none. -/
def TypedByExtension (html_charset path type : Bytes) : Prop :=
  ∀ name, IsLastComponent path name →
    (∀ extension, IsExtension name extension → type = entryType html_charset extension) ∧
      ((∀ extension, ¬ IsExtension name extension) → type = octetStream)

/-- The bare name does not stand for a type of its own. -/
def BareNamesUnknown (path : Bytes) : Prop :=
  ∀ name, IsLastComponent path name →
    46 ∈ name ∨ MimeMap.find_mime_type name = [] ∨ MimeMap.find_mime_type name = octetStream

theorem contentType_eq (h : contentType options path = some type) :
    type = entryType (options.html_charset.getD []) (find_extension (basename path)) := by
  unfold contentType at h
  unfold entryType
  dsimp only at h
  split_ifs at h with hNone hPage
  · rw [if_pos hNone]
    exact (Option.some.inj h).symm
  · obtain ⟨html_charset, hCharset, rfl⟩ := Option.map_eq_some_iff.1 h
    rw [if_neg hNone, hCharset, Option.getD_some]
    simp only [hPage, true_and]
  · rw [if_neg hNone, if_neg fun hBoth => hPage hBoth.1]
    exact (Option.some.inj h).symm

theorem entryType_eq_octetStream {html_charset extension : Bytes} :
    entryType html_charset extension = octetStream ↔
      MimeMap.find_mime_type extension = [] ∨ MimeMap.find_mime_type extension = octetStream := by
  unfold entryType
  split_ifs with hNone hPage
  · simp [hNone]
  · have hPageEntry : ascii "text/html" ≠ [] ∧ ascii "text/html" ≠ octetStream := by decide
    refine iff_of_false (fun hSame => ?_) (by simp [hPage.1, hPageEntry])
    have hFirst : some (116 : UInt8) = some 97 := congrArg List.head? hSame
    exact absurd hFirst (by decide)
  · simp [hNone]

theorem typedByExtension_iff (hEmpty : MimeMap.find_mime_type [] = [])
    (h : contentType options path = some type) :
    TypedByExtension (options.html_charset.getD []) path type ↔ BareNamesUnknown path := by
  have hType := contentType_eq h
  constructor
  · intro hTyped name hName
    by_cases hDot : 46 ∈ name
    · exact Or.inl hDot
    · right
      have hNone : ∀ extension, ¬ IsExtension name extension := by
        rintro extension ⟨stem, -, rfl, -⟩
        exact hDot (by simp)
      rw [← isLastComponent_iff.1 hName, find_extension_bare hDot] at hType
      exact entryType_eq_octetStream.1 (hType.symm.trans ((hTyped name hName).2 hNone))
  · intro hBare name hName
    rw [← isLastComponent_iff.1 hName] at hType
    refine ⟨fun extension hExtension => ?_, fun hNone => ?_⟩
    · rw [hType, find_extension_eq hExtension]
    · rw [hType, entryType_eq_octetStream]
      by_cases hDot : 46 ∈ name
      · rw [find_extension_none hNone hDot]
        exact Or.inl hEmpty
      · rw [find_extension_bare hDot]
        exact (hBare name hName).resolve_left hDot

end Types

section Responses

variable {Descriptor : Type} [FileSystem Descriptor] [Calendar] [MimeMap]
  {manager : StaticPathManager} {method : Bytes} {head : RequestHead} {sp : StaticPath}
  {subpath : Bytes} {now : Tm} {source : FileDataSource Descriptor}
  {response : HttpResponse (Body (FileDataSource Descriptor))}

/-- **A file is served with the type of its extension**, exactly if its name has a dot or
does not stand for a type of its own. -/
theorem content_type_iff (hEmpty : MimeMap.find_mime_type [] = [])
    (hOpened : Opened manager method head sp subpath source)
    (hAnswer : (staticFileResponse manager method head now :
      StaticAnswer (FileDataSource Descriptor)).result = .response response)
    (hStatus : response.statusCode = 200) :
    (∃ type, TypedByExtension (sp.options.html_charset.getD [])
        (servedPath Descriptor sp subpath) type ∧ fileFields type source <:+ response.headers) ↔
      BareNamesUnknown (servedPath Descriptor sp subpath) := by
  obtain ⟨extra, content_type, hType, hFile⟩ := forFile_of_fileResponse (hOpened.result hAnswer)
  have hChanged : clientCacheIsValid head.headers source = false := by
    have hCode := hFile.statusCode
    rw [hStatus] at hCode
    by_contra hValid
    rw [if_pos (by simpa using hValid)] at hCode
    exact absurd hCode (by decide)
  have hHeaders : response.headers =
      (ascii "Date", httpDateString now) :: extra ++ fileFields content_type source := by
    rw [hFile.headers, hChanged]
    rfl
  rw [← typedByExtension_iff hEmpty hType]
  constructor
  · rintro ⟨type, hTyped, hFields⟩
    have hSame : fileFields type source = fileFields content_type source := by
      have hOwn : fileFields content_type source <:+ response.headers := by
        rw [hHeaders]
        exact List.suffix_append _ _
      exact (List.suffix_of_suffix_length_le hFields hOwn le_rfl).eq_of_length rfl
    have hTypes : type = content_type := by
      have hField := congrArg (fun fields => fields[1]?.map Prod.snd) hSame
      exact Option.some.inj hField
    rwa [← hTypes]
  · intro hTyped
    refine ⟨content_type, hTyped, ?_⟩
    rw [hHeaders]
    exact List.suffix_append _ _

end Responses

/-- Some of the entries of the table. -/
@[reducible] def sampleTypes : MimeMap where
  find_mime_type extension :=
    if extension = ascii "html" then ascii "text/html"
    else if extension = ascii "csv" then ascii "text/csv"
    else []

/-- A file that has an extension, and one that has none. -/
def sampleNames : List Bytes := [ascii "f.csv", ascii "html"]

theorem content_type_csv :
    let _ : FileSystem OpenNode := sampleTreeFiles sampleNames
    let _ : Calendar := ⟨fun _ => .epoch⟩
    let _ : MimeMap := sampleTypes
    ∃ response : HttpResponse (Body (FileDataSource OpenNode)),
      (staticFileResponse sampleStaticPaths (ascii "GET") (sampleHead (ascii "/a/f.csv") []) .epoch :
        StaticAnswer (FileDataSource OpenNode)).result = .response response ∧
      ∃ type, ∃ source : FileDataSource OpenNode,
        TypedByExtension (ascii "utf-8") (ascii "/srv/f.csv") type ∧
          fileFields type source <:+ response.headers := by
  intro files calendar mime
  obtain ⟨response, hAnswer, hStatus⟩ : ∃ response : HttpResponse (Body (FileDataSource OpenNode)),
      (staticFileResponse sampleStaticPaths (ascii "GET") (sampleHead (ascii "/a/f.csv") []) .epoch :
        StaticAnswer (FileDataSource OpenNode)).result = .response response ∧
      response.statusCode = 200 := ⟨_, rfl, rfl⟩
  obtain ⟨sp, subpath, source, hOpened, hPath, hCharset⟩ : ∃ sp subpath,
      ∃ source : FileDataSource OpenNode, Opened sampleStaticPaths (ascii "GET")
        (sampleHead (ascii "/a/f.csv") []) sp subpath source ∧
        servedPath OpenNode sp subpath = ascii "/srv/f.csv" ∧
        sp.options.html_charset.getD [] = ascii "utf-8" :=
    ⟨_, _, _, ⟨⟨rfl, rfl, rfl, rfl, Or.inl rfl, rfl, rfl⟩, rfl⟩, by decide +kernel, rfl⟩
  have hKnown : BareNamesUnknown (servedPath OpenNode sp subpath) := by
    intro name hName
    rw [isLastComponent_iff.1 hName, hPath]
    decide
  obtain ⟨type, hTyped, hFields⟩ := (content_type_iff rfl hOpened hAnswer hStatus).2 hKnown
  rw [hPath, hCharset] at hTyped
  exact ⟨response, hAnswer, type, source, hTyped, hFields⟩

/-- A file named `html` is served as a page. -/
theorem content_type_bare :
    let _ : FileSystem OpenNode := sampleTreeFiles sampleNames
    let _ : Calendar := ⟨fun _ => .epoch⟩
    let _ : MimeMap := sampleTypes
    ∃ response : HttpResponse (Body (FileDataSource OpenNode)),
      (staticFileResponse sampleStaticPaths (ascii "GET") (sampleHead (ascii "/a/html") []) .epoch :
        StaticAnswer (FileDataSource OpenNode)).result = .response response ∧
      (ascii "Content-Type", ascii "text/html; charset=utf-8") ∈ response.headers ∧
      ¬ TypedByExtension (ascii "utf-8") (ascii "/srv/html") (ascii "text/html; charset=utf-8") := by
  intro files calendar mime
  refine ⟨_, rfl, by decide +kernel, fun hTyped => ?_⟩
  have hName : IsLastComponent (ascii "/srv/html") (ascii "html") :=
    isLastComponent_iff.2 (by decide)
  have hNone : ∀ extension, ¬ IsExtension (ascii "html") extension := by
    rintro extension ⟨stem, -, hSplit, -⟩
    have hDot : (46 : UInt8) ∈ ascii "html" := by
      rw [hSplit]
      simp
    exact absurd hDot (by decide)
  exact absurd ((hTyped _ hName).2 hNone) (by decide)

end Httpuv
