import Httpuv.Http.SelfDelimiting
import Httpuv.Static.Confinement

/-! The responses of static serving: errors, and those with a file that has been
opened. -/
namespace Httpuv

open StaticPathManager

namespace HttpResponse

variable {Source : Type} {response : HttpResponse Source} {requestHeaders : RequestHeaders}

/-- The response when it is decided whether the connection is closed behind it. -/
def closedIf (response : HttpResponse Source) (closing : Bool) : HttpResponse Source :=
  if closing then response.requestClose else response

/-- Whether the text of `Accept-Encoding` has the name of the coding in it. -/
def mentionsGzip (requestHeaders : RequestHeaders) : Bool :=
  match requestHeaders.find (ascii "Accept-Encoding") with
  | some enc => decide (ascii "gzip" <:+: enc)
  | none => false

/-- What decides on the compression. -/
theorem gzip_iff :
    response.gzip requestHeaders = true ↔
      (∀ header ∈ response.headers, strcaseEq header.1 (ascii "Content-Encoding") = false) ∧
        response.statusCode ≠ 101 ∧ response.pBody ≠ none ∧ mentionsGzip requestHeaders = true := by
  have hEncoding : response.scan.contentEncoding = false ↔ ∀ header ∈ response.headers,
      strcaseEq header.1 (ascii "Content-Encoding") = false := by
    rw [scan, foldl_scanHeader_eq]
    simp
  have hGzip : response.gzip requestHeaders =
      if response.scan.contentEncoding then false
      else if response.statusCode = 101 ∨ response.pBody.isNone then false
      else mentionsGzip requestHeaders := rfl
  rw [← hEncoding, hGzip]
  cases response.scan.contentEncoding with
  | true => simp
  | false =>
      rw [if_neg Bool.false_ne_true]
      split_ifs with hNone
      · rw [Option.isNone_iff_eq_none] at hNone
        rcases hNone with hStatus | hBody
        · simp [hStatus]
        · simp [hBody]
      · rw [Option.isNone_iff_eq_none, not_or] at hNone
        simp [hNone.1, hNone.2]

section Closed

variable (response) (closing : Bool)

theorem closedIf_spec : (response.closedIf closing).statusCode = response.statusCode ∧
    (response.closedIf closing).status = response.status ∧
    (response.closedIf closing).pBody = response.pBody ∧
    (response.closedIf closing).chunked = response.chunked := by
  cases closing <;> exact ⟨rfl, rfl, rfl, rfl⟩

/-- The headers other than the one that says that the connection is closed stay. -/
theorem headers_closedIf : (response.closedIf closing).headers =
    response.headers.filter (fun header =>
        !(closing && strcaseEq header.1 (ascii "Connection"))) ++
      if closing then [(ascii "Connection", ascii "close")] else [] := by
  cases closing with
  | true => rfl
  | false => simp [closedIf]

end Closed

end HttpResponse

section Opening

variable {Descriptor : Type} [FileSystem Descriptor] [Calendar] [MimeMap]
  {manager : StaticPathManager} {method : Bytes} {head : RequestHead} {sp : StaticPath}
  {subpath : Bytes} {now : Tm} {source : FileDataSource Descriptor}
  {response : HttpResponse (Body (FileDataSource Descriptor))}

/-- The pathname of the file, which is a page if a directory is asked for. -/
def servedPath (Descriptor : Type) [FileSystem Descriptor] (sp : StaticPath) (subpath : Bytes) :
    Bytes :=
  let local_path := sp.path ++ below subpath
  if isDirectory Descriptor local_path = true ∧ sp.options.indexhtml = some true then
    local_path ++ ascii "/" ++ ascii "index.html"
  else local_path

/-- A request whose file has been opened. -/
structure Opened (manager : StaticPathManager) (method : Bytes) (head : RequestHead)
    (sp : StaticPath) (subpath : Bytes) (source : FileDataSource Descriptor) : Prop where
  admitted : Admitted manager method head sp subpath
  opened : FileDataSource.initializeFrom (servedPath Descriptor sp subpath) = (.ok, some source)

theorem serveLocal_eq {indexhtml : Bool} (hIndex : sp.options.indexhtml = some indexhtml)
    (subpath method : Bytes) (headers : RequestHeaders) (now : Tm) :
    (serveLocal sp subpath method headers now : StaticAnswer (FileDataSource Descriptor)).result =
      serveFile sp.options method headers now (servedPath Descriptor sp subpath) := by
  have hLocal : sp.path ++ (if subpath ≠ [] then ascii "/" ++ subpath else []) =
      sp.path ++ below subpath := rfl
  unfold serveLocal servedPath
  dsimp only
  rw [hLocal, hIndex]
  by_cases hDirectory : isDirectory Descriptor (sp.path ++ below subpath) = true
  · rw [if_pos hDirectory]
    cases indexhtml with
    | true => rw [if_pos ⟨hDirectory, rfl⟩]
    | false => rw [if_neg (by simp)]
  · rw [if_neg hDirectory, if_neg fun h => hDirectory h.1]

theorem serveLocal_result (sp : StaticPath) (subpath method : Bytes) (headers : RequestHeaders)
    (now : Tm) :
    (serveLocal sp subpath method headers now : StaticAnswer (FileDataSource Descriptor)).result =
        .undefined ∨
      (serveLocal sp subpath method headers now : StaticAnswer (FileDataSource Descriptor)).result =
        serveFile sp.options method headers now (servedPath Descriptor sp subpath) := by
  cases hIndex : sp.options.indexhtml with
  | some indexhtml => exact Or.inr (serveLocal_eq hIndex subpath method headers now)
  | none =>
      have hLocal : sp.path ++ (if subpath ≠ [] then ascii "/" ++ subpath else []) =
          sp.path ++ below subpath := rfl
      unfold serveLocal servedPath
      dsimp only
      rw [hLocal, hIndex]
      by_cases hDirectory : isDirectory Descriptor (sp.path ++ below subpath) = true
      · exact Or.inl (by rw [if_pos hDirectory])
      · exact Or.inr (by rw [if_neg hDirectory, if_neg fun h => hDirectory h.1])

/-- The response to a request whose file has been opened is the one with the file. -/
theorem Opened.result (h : Opened manager method head sp subpath source)
    (hAnswer : (staticFileResponse manager method head now :
      StaticAnswer (FileDataSource Descriptor)).result = .response response) :
    fileResponse sp.options method head.headers now (servedPath Descriptor sp subpath) source =
      .response response := by
  rw [staticFileResponse_admitted h.admitted now] at hAnswer
  rcases @serveLocal_result Descriptor _ _ _ sp subpath method head.headers now with
    hNone | hServed
  · rw [hNone] at hAnswer
    cases hAnswer
  · rwa [hServed, serveFile, h.opened] at hAnswer

/-- The headers that tell about the file. -/
def fileFields (content_type : Bytes) (source : FileDataSource Descriptor) : ResponseHeaders :=
  [(ascii "Content-Length", Framing.Numeral.format 10 (DataSource.size source)),
    (ascii "Content-Type", content_type),
    (ascii "Last-Modified", httpDateString (Calendar.gmtime_r source.getMtime))]

/-- The headers behind the date. -/
def addedHeaders (unchanged : Bool) (extra : ResponseHeaders) (content_type : Bytes)
    (source : FileDataSource Descriptor) : ResponseHeaders :=
  if unchanged then extra.filter keptNotModified else extra ++ fileFields content_type source

/-- What a response with a file consists of. -/
structure ForFile (options : StaticPathOptions) (method : Bytes) (requestHeaders : RequestHeaders)
    (now : Tm) (source : FileDataSource Descriptor) (extra : ResponseHeaders) (content_type : Bytes)
    (response : HttpResponse (Body (FileDataSource Descriptor))) : Prop where
  options_headers : options.headers = some extra
  statusCode : response.statusCode =
    if clientCacheIsValid requestHeaders source then 304 else 200
  status : response.status = getStatusDescription response.statusCode
  headers : response.headers = (ascii "Date", httpDateString now) ::
    addedHeaders (clientCacheIsValid requestHeaders source) extra content_type source
  pBody : response.pBody =
    if method = ascii "HEAD" ∨ clientCacheIsValid requestHeaders source then none
    else some (.inr source)
  chunked : response.chunked = false

theorem forFile_of_fileResponse {options : StaticPathOptions}
    {headers : RequestHeaders} {local_path : Bytes}
    (h : fileResponse options method headers now local_path source = .response response) :
    ∃ extra content_type, contentType options local_path = some content_type ∧
      ForFile options method headers now source extra content_type response := by
  unfold fileResponse at h
  split at h
  · next content_type extra hType hHeaders =>
      obtain rfl := StaticResult.response.inj h
      exact ⟨extra, content_type, hType,
        { options_headers := hHeaders, statusCode := rfl, status := rfl, headers := rfl,
          pBody := rfl, chunked := rfl }⟩
  · cases h

section Fields

variable {options : StaticPathOptions} {requestHeaders : RequestHeaders} {extra : ResponseHeaders}
  {content_type : Bytes} (closing : Bool)

/-- The field of a connection that is closed. -/
def closeFields : ResponseHeaders :=
  if closing then [(ascii "Connection", ascii "close")] else []

/-- The extra headers that are written for a file: the length is the one of the file. -/
def keepsField (header : Bytes × Bytes) : Bool :=
  !(closing && strcaseEq header.1 (ascii "Connection")) && !HttpResponse.namesLength header

variable {closing}

omit [FileSystem Descriptor] [MimeMap] [Calendar] in
theorem keepsField_date : keepsField closing (ascii "Date", httpDateString now) = true := by
  have hConnection : strcaseEq (ascii "Date") (ascii "Connection") = false := by decide
  have hLength : strcaseEq (ascii "Date") (ascii "Content-Length") = false := by decide
  simp [keepsField, HttpResponse.namesLength, hConnection, hLength]

omit [FileSystem Descriptor] [MimeMap] [Calendar] in
theorem keepsField_of_kept {header : Bytes × Bytes} (h : keptNotModified header = true) :
    keepsField closing header = true := by
  have hNames : ∀ name ∈ [ascii "Cache-Control", ascii "Content-Location", ascii "ETag",
      ascii "Expires", ascii "Vary"], strcaseEq name (ascii "Connection") = false ∧
        strcaseEq name (ascii "Content-Length") = false := by
    simp [strcaseEq, caseFold, ascii, tolower]
  obtain ⟨hConnection, hLength⟩ := hNames header.1 (List.contains_iff_mem.1 h)
  simp [keepsField, HttpResponse.namesLength, hConnection, hLength]

omit [FileSystem Descriptor] [MimeMap] [Calendar] in
theorem filter_headers_closedIf {Source : Type} {response : HttpResponse Source} :
    (response.closedIf closing).headers.filter (fun header => !HttpResponse.namesLength header) =
      response.headers.filter (keepsField closing) ++ closeFields closing := by
  have hClose : (closeFields closing).filter (fun header => !HttpResponse.namesLength header) =
      closeFields closing := by
    cases closing <;> decide
  rw [HttpResponse.headers_closedIf, List.filter_append, List.filter_filter]
  refine congrArg₂ _ (List.filter_congr fun header _ => ?_) hClose
  exact Bool.and_comm _ _

omit [FileSystem Descriptor] [MimeMap] [Calendar] in
theorem foldl_length {headers : ResponseHeaders}
    (h : ∀ header ∈ headers, HttpResponse.namesLength header = false) (start : Bytes) :
    headers.foldl (fun length header =>
      if HttpResponse.namesLength header then header.2 else length) start = start := by
  induction headers with
  | nil => rfl
  | cons header headers ih =>
      rw [List.foldl_cons, if_neg (by simp [h header List.mem_cons_self])]
      exact ih fun other hMem => h other (List.mem_cons_of_mem _ hMem)

omit [FileSystem Descriptor] [MimeMap] [Calendar] in
theorem closeFields_length : ∀ header ∈ closeFields closing,
    HttpResponse.namesLength header = false := by
  cases closing with
  | true => simp [closeFields, HttpResponse.namesLength, strcaseEq, caseFold, tolower, ascii]
  | false => exact List.forall_mem_nil _

omit [MimeMap] in
/-- The headers of a response with a file that has changed. -/
theorem ForFile.headers_changed
    (h : ForFile options method requestHeaders now source extra content_type response)
    (hChanged : clientCacheIsValid requestHeaders source = false) :
    (response.closedIf closing).headers = ((ascii "Date", httpDateString now) :: extra).filter
        (fun header => !(closing && strcaseEq header.1 (ascii "Connection"))) ++
      (fileFields content_type source ++ closeFields closing) := by
  have hKept : ∀ header ∈ fileFields content_type source,
      (!(closing && strcaseEq header.1 (ascii "Connection"))) = true := by
    have hLength : strcaseEq (ascii "Content-Length") (ascii "Connection") = false := by decide
    have hType : strcaseEq (ascii "Content-Type") (ascii "Connection") = false := by decide
    have hModified : strcaseEq (ascii "Last-Modified") (ascii "Connection") = false := by decide
    simp [fileFields, hLength, hType, hModified]
  rw [HttpResponse.headers_closedIf, h.headers, hChanged, addedHeaders,
    if_neg Bool.false_ne_true, ← List.cons_append, List.filter_append,
    List.filter_eq_self.2 hKept, List.append_assoc]
  rfl

omit [MimeMap] in
/-- The last length is the one of the file. -/
theorem ForFile.contentLength
    (h : ForFile options method requestHeaders now source extra content_type response)
    (hChanged : clientCacheIsValid requestHeaders source = false) :
    (response.closedIf closing).scan.contentLength =
      Framing.Numeral.format 10 (DataSource.size source) := by
  have hName : HttpResponse.namesLength
      (ascii "Content-Length", Framing.Numeral.format 10 (DataSource.size source)) = true :=
    show strcaseEq (ascii "Content-Length") (ascii "Content-Length") = true by decide
  have hType : HttpResponse.namesLength (ascii "Content-Type", content_type) = false :=
    show strcaseEq (ascii "Content-Type") (ascii "Content-Length") = false by decide
  have hModified : HttpResponse.namesLength
      (ascii "Last-Modified", httpDateString (Calendar.gmtime_r source.getMtime)) = false :=
    show strcaseEq (ascii "Last-Modified") (ascii "Content-Length") = false by decide
  rw [HttpResponse.scan, HttpResponse.foldl_scanHeader_eq, h.headers_changed hChanged]
  dsimp only
  rw [List.foldl_append, List.foldl_append, foldl_length closeFields_length]
  simp [fileFields, hName, hType, hModified]

omit [MimeMap] in
theorem ForFile.writtenFields_changed
    (h : ForFile options method requestHeaders now source extra content_type response)
    (hChanged : clientCacheIsValid requestHeaders source = false) (gzip : Bool) :
    (response.closedIf closing).writtenFields gzip = (ascii "Date", httpDateString now) ::
      (extra.filter (keepsField closing) ++
        [(ascii "Content-Type", content_type),
          (ascii "Last-Modified", httpDateString (Calendar.gmtime_r source.getMtime))] ++
        closeFields closing ++
        if gzip then [HttpResponse.gzipField, HttpResponse.chunkedField]
        else [HttpResponse.lengthField (DataSource.size source)]) := by
  have hFile : (fileFields content_type source).filter (keepsField closing) =
      [(ascii "Content-Type", content_type),
        (ascii "Last-Modified", httpDateString (Calendar.gmtime_r source.getMtime))] := by
    have hLength : strcaseEq (ascii "Content-Length") (ascii "Content-Length") = true := by decide
    have hType : strcaseEq (ascii "Content-Type") (ascii "Connection") = false ∧
        strcaseEq (ascii "Content-Type") (ascii "Content-Length") = false := by decide
    have hModified : strcaseEq (ascii "Last-Modified") (ascii "Connection") = false ∧
        strcaseEq (ascii "Last-Modified") (ascii "Content-Length") = false := by decide
    simp [fileFields, keepsField, HttpResponse.namesLength, hLength, hType, hModified]
  have hSome : Framing.Numeral.format 10 (DataSource.size source) ≠ [] :=
    Framing.Numeral.format_ne_nil _ _
  rw [HttpResponse.writtenFields, filter_headers_closedIf, h.contentLength hChanged,
    HttpResponse.framingFields, if_pos hSome, h.headers, hChanged, addedHeaders,
    if_neg Bool.false_ne_true, List.filter_cons_of_pos keepsField_date, List.filter_append, hFile]
  rfl

omit [MimeMap] in
theorem ForFile.writtenFields_unchanged
    (h : ForFile options method requestHeaders now source extra content_type response)
    (hUnchanged : clientCacheIsValid requestHeaders source = true) :
    (response.closedIf closing).writtenFields false = (ascii "Date", httpDateString now) ::
      (extra.filter keptNotModified ++ closeFields closing) := by
  have hHeaders : response.headers =
      (ascii "Date", httpDateString now) :: extra.filter keptNotModified := by
    rw [h.headers, hUnchanged]
    rfl
  have hKept : ∀ header ∈ response.headers, keepsField closing header = true := by
    rw [hHeaders]
    exact List.forall_mem_cons.2 ⟨keepsField_date,
      fun header hMem => keepsField_of_kept (List.mem_filter.1 hMem).2⟩
  have hFields : (response.closedIf closing).headers.filter
      (fun header => !HttpResponse.namesLength header) = response.headers ++ closeFields closing := by
    rw [filter_headers_closedIf, List.filter_eq_self.2 hKept]
  have hLength : (response.closedIf closing).scan.contentLength = [] := by
    rw [HttpResponse.scan, HttpResponse.foldl_scanHeader_eq]
    apply foldl_length
    intro header hMem
    rw [HttpResponse.headers_closedIf] at hMem
    rcases List.mem_append.1 hMem with hOld | hClose
    · have hKeeps := hKept header (List.mem_of_mem_filter hOld)
      simp only [keepsField, Bool.and_eq_true, Bool.not_eq_true'] at hKeeps
      exact hKeeps.2
    · exact closeFields_length header hClose
  have hBody : (response.closedIf closing).pBody = none := by
    rw [(HttpResponse.closedIf_spec response closing).2.2.1, h.pBody, if_pos (Or.inr hUnchanged)]
  rw [HttpResponse.writtenFields, hFields, hHeaders, hLength, HttpResponse.framingFields, hBody]
  simp

end Fields

/-- One of the error responses of static serving. -/
def IsError (now : Tm) (response : HttpResponse (Body (FileDataSource Descriptor))) : Prop :=
  ∃ code ∈ ([400, 403, 404, 500] : List Int), response = AppAnswer.error_response code now

omit [FileSystem Descriptor] [Calendar] [MimeMap] in
theorem fallThroughOr_response {options : StaticPathOptions} {code : Int}
    (h : fallThroughOr options code now = .response response) :
    response = AppAnswer.error_response code now := by
  unfold fallThroughOr at h
  split at h
  · cases h
  · exact (StaticResult.response.inj h).symm
  · cases h

theorem serveFile_response {options : StaticPathOptions} {headers : RequestHeaders}
    {local_path : Bytes}
    (h : serveFile options method headers now local_path = .response response) :
    IsError now response ∨ ∃ source : FileDataSource Descriptor,
      FileDataSource.initializeFrom local_path = (.ok, some source) := by
  unfold serveFile at h
  split at h
  · next source hOpened => exact Or.inr ⟨source, hOpened⟩
  · exact Or.inl ⟨404, by decide, fallThroughOr_response h⟩
  · exact Or.inl ⟨404, by decide, fallThroughOr_response h⟩
  · exact Or.inl ⟨500, by decide, (StaticResult.response.inj h).symm⟩

/-- Static serving answers with an error or with a file. -/
theorem error_or_opened (hAnswer : (staticFileResponse manager method head now :
      StaticAnswer (FileDataSource Descriptor)).result = .response response) :
    IsError now response ∨ ∃ sp subpath, ∃ source : FileDataSource Descriptor,
      Opened manager method head sp subpath source := by
  by_cases hAdmitted : ∃ sp subpath, Admitted manager method head sp subpath
  · obtain ⟨sp, subpath, hAdmitted⟩ := hAdmitted
    rw [staticFileResponse_admitted hAdmitted now] at hAnswer
    rcases @serveLocal_result Descriptor _ _ _ sp subpath method head.headers now with
      hNone | hServed
    · rw [hNone] at hAnswer
      cases hAnswer
    · rw [hServed] at hAnswer
      rcases serveFile_response hAnswer with hError | ⟨source, hOpened⟩
      · exact Or.inl hError
      · exact Or.inr ⟨sp, subpath, source, hAdmitted, hOpened⟩
  · left
    unfold staticFileResponse at hAnswer
    by_cases hUpgrade : head.headers.has (ascii "Upgrade") = true
    · simp only [hUpgrade, if_true] at hAnswer
      cases hAnswer
    · rw [Bool.not_eq_true] at hUpgrade
      simp only [hUpgrade, Bool.false_eq_true, if_false] at hAnswer
      cases hMatch : manager.matchStaticPath (urlPath head.url) with
      | none =>
          rw [hMatch] at hAnswer
          cases hAnswer
      | some result =>
          obtain ⟨sp, subpath⟩ := result
          cases hExclude : sp.options.exclude with
          | none =>
              simp only [hMatch, hExclude] at hAnswer
              cases hAnswer
          | some excluded =>
              cases excluded with
              | true =>
                  simp only [hMatch, hExclude] at hAnswer
                  cases hAnswer
              | false =>
                  cases hValid : sp.options.validateRequestHeaders head.headers with
                  | none =>
                      simp only [hMatch, hExclude, hValid] at hAnswer
                      cases hAnswer
                  | some valid =>
                      cases valid with
                      | false =>
                          simp only [hMatch, hExclude, hValid] at hAnswer
                          exact ⟨403, by decide, (StaticResult.response.inj hAnswer).symm⟩
                      | true =>
                          simp only [hMatch, hExclude, hValid] at hAnswer
                          split_ifs at hAnswer with hMethod hBody hDots
                          · exact ⟨400, by decide, (StaticResult.response.inj hAnswer).symm⟩
                          · exact ⟨400, by decide, (StaticResult.response.inj hAnswer).symm⟩
                          · exact ⟨400, by decide, fallThroughOr_response hAnswer⟩
                          · exact absurd ⟨sp, subpath, hUpgrade, hMatch, hExclude, hValid,
                              by tauto, by simpa using hBody, by simpa using hDots⟩ hAdmitted

end Opening

/-- A file system with one directory and one file in it. A descriptor is what has not
been read. -/
@[reducible] def sampleSite : FileSystem Bytes where
  stat pathname :=
    if pathname = ascii "/srv" then some { isDirectory := true, size := 0, mtime := 0 } else none
  openFile pathname := if pathname = ascii "/srv/f" then .ok (ascii "hi") else .error .notFound
  fstat _ := some { isDirectory := false, size := 2, mtime := 1 }
  read fd size := some (fd.take size, fd.drop size)

/-- A request without further headers. -/
def sampleHead (url : Bytes) (headers : RequestHeaders) : RequestHead where
  url := url
  headers := headers
  lastHeaderField := []
  lastHeaderState := .start

end Httpuv
