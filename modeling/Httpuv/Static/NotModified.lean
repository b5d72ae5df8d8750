import Httpuv.Http.HeaderFields
import Httpuv.Static.HeadRequests

/-! The headers of a 304 response, against those of the 200 response for the same file. -/
namespace Httpuv

open StaticPathManager

/-- The names of the headers that a 304 response has if the 200 response has them. -/
def cachingNames : List Bytes :=
  [ascii "Cache-Control", ascii "Content-Location", ascii "Date", ascii "ETag", ascii "Expires",
    ascii "Vary"]

def isCaching (header : Bytes × Bytes) : Bool :=
  cachingNames.any (fun name => sameName header.1 name)

/-- What the filter keeps is a caching header. -/
theorem isCaching_of_kept {header : Bytes × Bytes} (h : keptNotModified header = true) :
    isCaching header = true := by
  have hNames : ∀ name ∈ [ascii "Cache-Control", ascii "Content-Location", ascii "ETag",
      ascii "Expires", ascii "Vary"], isCaching (name, header.2) = true := by
    simp [isCaching, cachingNames, sameName, ascii]
  exact hNames header.1 (List.contains_iff_mem.1 h)

/-- A caching header has none of the names that `writeResponse` or the end of the
connection deal with. -/
theorem strcaseEq_of_caching {header : Bytes × Bytes} (h : isCaching header = true) {name : Bytes}
    (hName : name ∈ [ascii "Connection", ascii "Content-Length", ascii "Content-Encoding"]) :
    strcaseEq header.1 name = false := by
  obtain ⟨caching, hCaching, hSame⟩ := List.any_eq_true.1 h
  rw [sameName, beq_iff_eq] at hSame
  have hPlain : ∀ caching ∈ cachingNames, 0 ∉ caching.map tolower := by
    simp [cachingNames, ascii, tolower]
  have hApart : ∀ caching ∈ cachingNames, ∀ name ∈ [ascii "Connection", ascii "Content-Length",
      ascii "Content-Encoding"], 0 ∉ name ∧ caching.map tolower ≠ name.map tolower := by
    simp [cachingNames, ascii, tolower]
  have hNoNul : 0 ∉ header.1 := by
    intro hMem
    apply hPlain caching hCaching
    rw [← hSame]
    exact List.mem_map.2 ⟨0, hMem, by decide⟩
  obtain ⟨hOther, hDiffer⟩ := hApart caching hCaching name hName
  rw [strcaseEq_eq_sameName hNoNul hOther, sameName, hSame]
  exact beq_eq_false_iff_ne.2 hDiffer

theorem keepsField_of_caching {header : Bytes × Bytes} (h : isCaching header = true)
    (closing : Bool) : keepsField closing header = true := by
  have hConnection : strcaseEq header.1 (ascii "Connection") = false :=
    strcaseEq_of_caching h (by simp)
  have hLength : strcaseEq header.1 (ascii "Content-Length") = false :=
    strcaseEq_of_caching h (by simp)
  simp [keepsField, HttpResponse.namesLength, hConnection, hLength]

theorem filter_caching_eq_iff (extra : ResponseHeaders) :
    extra.filter isCaching = extra.filter keptNotModified ↔
      ∀ header ∈ extra, isCaching header = true → keptNotModified header = true := by
  constructor
  · intro hSame header hMem hCaching
    have hKept : header ∈ extra.filter keptNotModified :=
      hSame ▸ List.mem_filter.2 ⟨hMem, hCaching⟩
    exact (List.mem_filter.1 hKept).2
  · intro hAll
    apply List.filter_congr
    intro header hMem
    rw [Bool.eq_iff_iff]
    exact ⟨hAll header hMem, isCaching_of_kept⟩

section Responses

variable {Descriptor : Type} [FileSystem Descriptor] [Calendar] [MimeMap] [Zlib]
  {manager : StaticPathManager} {fullHead conditionalHead : RequestHead} {fullNow now : Tm}
  {full conditional : HttpResponse (Body (FileDataSource Descriptor))}

/-- The fields of the header block that is written for a request. -/
def fieldsFor (response : HttpResponse (Body (FileDataSource Descriptor)))
    (requestHeaders : RequestHeaders) (closing : Bool) : ResponseHeaders :=
  (response.closedIf closing).writtenFields ((response.closedIf closing).gzip requestHeaders)

omit [MimeMap] [Zlib] in
/-- The caching headers of a 200 response are the date and those of the path. -/
theorem filter_caching (extra : ResponseHeaders) (content_type : Bytes)
    (source : FileDataSource Descriptor) (closing gzip : Bool) :
    (extra.filter (keepsField closing) ++
      [(ascii "Content-Type", content_type),
        (ascii "Last-Modified", httpDateString (Calendar.gmtime_r source.getMtime))] ++
      closeFields closing ++
      if gzip then [HttpResponse.gzipField, HttpResponse.chunkedField]
      else [HttpResponse.lengthField (DataSource.size source)]).filter isCaching =
    extra.filter isCaching := by
  have hOther : ∀ name ∈ [ascii "Content-Type", ascii "Last-Modified", ascii "Connection",
      ascii "Content-Encoding", ascii "Transfer-Encoding", ascii "Content-Length"],
      ∀ value, isCaching (name, value) = false := by
    simp [isCaching, cachingNames, sameName, ascii, tolower]
  have hExtra : (extra.filter (keepsField closing)).filter isCaching = extra.filter isCaching := by
    rw [List.filter_filter]
    apply List.filter_congr
    intro header _
    cases hCaching : isCaching header with
    | true => rw [keepsField_of_caching hCaching, Bool.and_self]
    | false => rfl
  have hClose : (closeFields closing).filter isCaching = [] := by
    cases closing with
    | true => simp [closeFields, hOther]
    | false => rfl
  rw [List.filter_append, List.filter_append, List.filter_append, hExtra, hClose]
  cases gzip with
  | true => simp [hOther, HttpResponse.gzipField, HttpResponse.chunkedField]
  | false => simp [hOther, HttpResponse.lengthField]

omit [Zlib] in
/-- A response with the status of a file comes from a file. -/
theorem opened_of_statusCode {head : RequestHead}
    {response : HttpResponse (Body (FileDataSource Descriptor))}
    (hAnswer : (staticFileResponse manager (ascii "GET") head now :
      StaticAnswer (FileDataSource Descriptor)).result = .response response)
    (hStatus : response.statusCode = 200 ∨ response.statusCode = 304) :
    ∃ sp subpath, ∃ source : FileDataSource Descriptor,
      Opened manager (ascii "GET") head sp subpath source := by
  rcases error_or_opened hAnswer with ⟨code, hCode, rfl⟩ | hOpened
  · have hSame : (AppAnswer.error_response code now :
        HttpResponse (Body (FileDataSource Descriptor))).statusCode = code := rfl
    rw [hSame] at hStatus
    simp only [List.mem_cons, List.not_mem_nil, or_false] at hCode
    omega
  · exact hOpened

/-- The 304 response has the caching headers of the 200 response, in its order. -/
def SameCaching (fullNow now : Tm) (closing : Bool) (fullFields fields : ResponseHeaders) : Prop :=
  ∃ rest, fullFields = (ascii "Date", httpDateString fullNow) :: rest ∧
    fields = (ascii "Date", httpDateString now) :: (rest.filter isCaching ++ closeFields closing)

/-- Every caching header that is configured for the path of a URL is spelled as the
filter spells it. -/
def SpelledAsFiltered (manager : StaticPathManager) (url : Bytes) : Prop :=
  ∀ sp subpath extra, manager.matchStaticPath (urlPath url) = some (sp, subpath) →
    sp.options.headers = some extra →
    ∀ header ∈ extra, isCaching header = true → keptNotModified header = true

omit [Calendar] [MimeMap] [Zlib] in
theorem spelledAsFiltered_iff {url : Bytes} {sp : StaticPath} {subpath : Bytes}
    {extra : ResponseHeaders} (hMatch : manager.matchStaticPath (urlPath url) = some (sp, subpath))
    (hHeaders : sp.options.headers = some extra) : SpelledAsFiltered manager url ↔
      ∀ header ∈ extra, isCaching header = true → keptNotModified header = true := by
  constructor
  · exact fun hAll => hAll sp subpath extra hMatch hHeaders
  · intro hAll other otherPath others hOther hOthers
    obtain ⟨rfl, rfl⟩ := Prod.mk.inj (Option.some.inj (hMatch.symm.trans hOther))
    obtain rfl := Option.some.inj (hHeaders.symm.trans hOthers)
    exact hAll

omit [Calendar] [MimeMap] [Zlib] in
/-- The fields of a 304 response announce no body. -/
theorem notModified_field {extra : ResponseHeaders} {date : Bytes} {closing : Bool}
    {field : Bytes × Bytes} (hField : field ∈
      (ascii "Date", date) :: (extra.filter keptNotModified ++ closeFields closing)) :
    strcaseEq field.1 (ascii "Content-Length") = false ∧
      strcaseEq field.1 (ascii "Content-Encoding") = false := by
  have hCaching : isCaching field = true →
      strcaseEq field.1 (ascii "Content-Length") = false ∧
        strcaseEq field.1 (ascii "Content-Encoding") = false := by
    intro h
    exact ⟨strcaseEq_of_caching h (by simp), strcaseEq_of_caching h (by simp)⟩
  rcases List.mem_cons.1 hField with rfl | hRest
  · apply hCaching
    have hDate : cachingNames.any (fun name => sameName (ascii "Date") name) = true := by decide
    exact hDate
  · rcases List.mem_append.1 hRest with hKept | hClose
    · exact hCaching (isCaching_of_kept (List.mem_filter.1 hKept).2)
    · cases closing with
      | true =>
          rw [List.mem_singleton.1 hClose]
          decide
      | false => exact absurd hClose List.not_mem_nil

/-- **The headers of a 304 response** are the caching headers of the 200 response for the
same file if and only if the configured ones are spelled as the filter spells them. It has
no body, no length and no coding in any case. -/
theorem not_modified_iff (hUrl : fullHead.url = conditionalHead.url)
    (hFull : (staticFileResponse manager (ascii "GET") fullHead fullNow :
      StaticAnswer (FileDataSource Descriptor)).result = .response full)
    (hFullStatus : full.statusCode = 200)
    (hConditional : (staticFileResponse manager (ascii "GET") conditionalHead now :
      StaticAnswer (FileDataSource Descriptor)).result = .response conditional)
    (hStatus : conditional.statusCode = 304) (fullClosing closing : Bool) :
    (SameCaching fullNow now closing (fieldsFor full fullHead.headers fullClosing)
        (fieldsFor conditional conditionalHead.headers closing) ↔
      SpelledAsFiltered manager conditionalHead.url) ∧
    (∀ field ∈ fieldsFor conditional conditionalHead.headers closing,
      strcaseEq field.1 (ascii "Content-Length") = false ∧
        strcaseEq field.1 (ascii "Content-Encoding") = false) ∧
    (∀ written, (full.closedIf fullClosing).writeResponse fullHead.headers = some written →
      written.responseHeader = Framing.formatHead full.statusLine
        (fieldsFor full fullHead.headers fullClosing)) ∧
    ∀ written, (conditional.closedIf closing).writeResponse conditionalHead.headers = some written →
      written.responseHeader = Framing.formatHead conditional.statusLine
          (fieldsFor conditional conditionalHead.headers closing) ∧
        ∀ wire, written.Transmitted wire → wire = written.responseHeader := by
  obtain ⟨sp, subpath, source, hOpened⟩ := opened_of_statusCode hConditional (Or.inr hStatus)
  obtain ⟨sp', subpath', source', hFullOpened⟩ := opened_of_statusCode hFull (Or.inl hFullStatus)
  have hMatch := hOpened.admitted.matched
  have hSamePath := hFullOpened.admitted.matched
  rw [hUrl, hMatch] at hSamePath
  obtain ⟨rfl, rfl⟩ := Prod.mk.inj (Option.some.inj hSamePath)
  have hSameFile := hFullOpened.opened
  rw [hOpened.opened] at hSameFile
  obtain rfl := Option.some.inj (Prod.mk.inj hSameFile).2
  obtain ⟨extra, content_type, -, hFile⟩ := forFile_of_fileResponse (hOpened.result hConditional)
  obtain ⟨extra', content_type', -, hFullFile⟩ :=
    forFile_of_fileResponse (hFullOpened.result hFull)
  obtain rfl : extra = extra' :=
    Option.some.inj (hFile.options_headers.symm.trans hFullFile.options_headers)
  have hUnchanged : clientCacheIsValid conditionalHead.headers source = true := by
    by_contra hChanged
    rw [hFile.statusCode, if_neg hChanged] at hStatus
    exact absurd hStatus (by decide)
  have hChanged : clientCacheIsValid fullHead.headers source = false := by
    rw [← Bool.not_eq_true]
    intro hValid
    rw [hFullFile.statusCode, if_pos hValid] at hFullStatus
    exact absurd hFullStatus (by decide)
  have hBody : (conditional.closedIf closing).pBody = none := by
    rw [(HttpResponse.closedIf_spec conditional closing).2.2.1, hFile.pBody,
      if_pos (Or.inr hUnchanged)]
  have hGzip : (conditional.closedIf closing).gzip conditionalHead.headers = false := by
    rw [← Bool.not_eq_true, HttpResponse.gzip_iff]
    exact fun hAll => hAll.2.2.1 hBody
  have hFields : fieldsFor conditional conditionalHead.headers closing =
      (ascii "Date", httpDateString now) ::
        (extra.filter keptNotModified ++ closeFields closing) := by
    rw [fieldsFor, hGzip, hFile.writtenFields_unchanged hUnchanged]
  refine ⟨?_, ?_, fun written hWritten => hFullFile.block hWritten, fun written hWritten =>
    ⟨hFile.block hWritten, fun wire => (HttpResponse.transmitted_of_bodiless hBody hWritten).1⟩⟩
  · rw [spelledAsFiltered_iff hMatch hFile.options_headers, ← filter_caching_eq_iff, hFields,
      fieldsFor, hFullFile.writtenFields_changed hChanged, SameCaching]
    constructor
    · rintro ⟨rest, hRest, hKept⟩
      obtain ⟨-, rfl⟩ := List.cons.inj hRest
      rw [filter_caching] at hKept
      exact (List.append_cancel_right (List.cons.inj hKept).2).symm
    · intro hKept
      exact ⟨_, rfl, by rw [filter_caching, hKept]⟩
  · intro field hField
    rw [hFields] at hField
    exact notModified_field hField

end Responses

/-- The sample with these extra headers. -/
def sampleStaticPathsWith (headers : ResponseHeaders) : StaticPathManager :=
  { sampleStaticPaths with options := { sampleStaticPaths.options with headers := some headers } }

/-- A client that has the file. -/
def sampleConditionalHead : RequestHead :=
  sampleHead (ascii "/a/f")
    [(ascii "If-Modified-Since", ascii "Thu, 01 Jan 1970 00:00:01 GMT")]

/-- An entity tag that is spelled as usual is kept. -/
theorem not_modified_etag :
    let _ : FileSystem Bytes := sampleSite
    let _ : Calendar := ⟨fun _ => .epoch⟩
    let _ : MimeMap := ⟨fun _ => []⟩
    let _ : Zlib := HttpResponse.SampleStream.zlib
    let manager := sampleStaticPathsWith [(ascii "ETag", ascii "abc"), (ascii "X", ascii "y")]
    ∃ full conditional : HttpResponse (Body (FileDataSource Bytes)),
      (staticFileResponse manager (ascii "GET") sampleConditionalHead .epoch :
          StaticAnswer (FileDataSource Bytes)).result = .response conditional ∧
        SameCaching .epoch .epoch true
          (fieldsFor full (sampleHead (ascii "/a/f") []).headers false)
          (fieldsFor conditional sampleConditionalHead.headers true) := by
  intro files calendar mime zlib manager
  obtain ⟨full, hFull, hFullStatus⟩ : ∃ response : HttpResponse (Body (FileDataSource Bytes)),
      (staticFileResponse manager (ascii "GET") (sampleHead (ascii "/a/f") []) .epoch :
        StaticAnswer (FileDataSource Bytes)).result = .response response ∧
      response.statusCode = 200 := ⟨_, rfl, rfl⟩
  obtain ⟨conditional, hConditional, hStatus⟩ :
      ∃ response : HttpResponse (Body (FileDataSource Bytes)),
      (staticFileResponse manager (ascii "GET") sampleConditionalHead .epoch :
        StaticAnswer (FileDataSource Bytes)).result = .response response ∧
      response.statusCode = 304 := ⟨_, rfl, by decide +kernel⟩
  have hUrl : (sampleHead (ascii "/a/f") []).url = sampleConditionalHead.url := rfl
  refine ⟨full, conditional, hConditional,
    (not_modified_iff hUrl hFull hFullStatus hConditional hStatus false true).1.2 ?_⟩
  intro sp subpath extra hMatch hHeaders
  have hConfigured : (manager.matchStaticPath (urlPath sampleConditionalHead.url)).map
      (fun result => result.1.options.headers) =
        some (some [(ascii "ETag", ascii "abc"), (ascii "X", ascii "y")]) := by
    decide +kernel
  rw [hMatch, Option.map_some, hHeaders] at hConfigured
  obtain rfl := Option.some.inj (Option.some.inj hConfigured)
  have hTag : keptNotModified (ascii "ETag", ascii "abc") = true := by decide
  have hOther : isCaching (ascii "X", ascii "y") = false := by decide
  simp [hTag, hOther]

/-- An entity tag that is spelled in another case is left out. -/
theorem not_modified_case :
    let _ : FileSystem Bytes := sampleSite
    let _ : Calendar := ⟨fun _ => .epoch⟩
    let _ : MimeMap := ⟨fun _ => []⟩
    let manager := sampleStaticPathsWith [(ascii "etag", ascii "abc")]
    ∃ full conditional : HttpResponse (Body (FileDataSource Bytes)),
      (staticFileResponse manager (ascii "GET") (sampleHead (ascii "/a/f") []) .epoch :
          StaticAnswer (FileDataSource Bytes)).result = .response full ∧ full.statusCode = 200 ∧
      (staticFileResponse manager (ascii "GET") sampleConditionalHead .epoch :
          StaticAnswer (FileDataSource Bytes)).result = .response conditional ∧
        conditional.statusCode = 304 ∧
      (ascii "etag", ascii "abc") ∈
        fieldsFor full (sampleHead (ascii "/a/f") []).headers false ∧
      fieldsFor conditional sampleConditionalHead.headers false =
        [(ascii "Date", ascii "Thu, 01 Jan 1970 00:00:00 GMT")] ∧
      ¬ SameCaching .epoch .epoch false
        (fieldsFor full (sampleHead (ascii "/a/f") []).headers false)
        (fieldsFor conditional sampleConditionalHead.headers false) := by
  intro files calendar mime manager
  obtain ⟨full, hFull, hFullStatus, hTag⟩ :
      ∃ response : HttpResponse (Body (FileDataSource Bytes)),
      (staticFileResponse manager (ascii "GET") (sampleHead (ascii "/a/f") []) .epoch :
        StaticAnswer (FileDataSource Bytes)).result = .response response ∧
      response.statusCode = 200 ∧ (ascii "etag", ascii "abc") ∈
        fieldsFor response (sampleHead (ascii "/a/f") []).headers false :=
    ⟨_, rfl, rfl, by decide +kernel⟩
  obtain ⟨conditional, hConditional, hStatus, hFields⟩ :
      ∃ response : HttpResponse (Body (FileDataSource Bytes)),
      (staticFileResponse manager (ascii "GET") sampleConditionalHead .epoch :
        StaticAnswer (FileDataSource Bytes)).result = .response response ∧
      response.statusCode = 304 ∧ fieldsFor response sampleConditionalHead.headers false =
        [(ascii "Date", ascii "Thu, 01 Jan 1970 00:00:00 GMT")] :=
    ⟨_, rfl, by decide +kernel, by decide +kernel⟩
  refine ⟨full, conditional, hFull, hFullStatus, hConditional, hStatus, hTag, hFields, ?_⟩
  rintro ⟨rest, hRest, hKept⟩
  rw [hRest] at hTag
  have hMem : (ascii "etag", ascii "abc") ∈ rest.filter isCaching := by
    refine List.mem_filter.2 ⟨?_, by decide⟩
    exact (List.mem_cons.1 hTag).resolve_left fun hSame =>
      absurd (congrArg Prod.fst hSame) (by decide)
  rw [hFields] at hKept
  have hNone := (List.append_eq_nil_iff.1 (List.cons.inj hKept).2.symm).1
  rw [hNone] at hMem
  exact absurd hMem List.not_mem_nil

end Httpuv
