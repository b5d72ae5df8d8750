import Httpuv.Static.FileResponses

/-! HEAD requests: what follows the header block, and whether the block is the one that
a GET request would get. -/
namespace Httpuv

open StaticPathManager

namespace HttpResponse

variable {Source : Type} [DataSource Source] [Zlib] {response : HttpResponse Source}
  {requestHeaders : RequestHeaders} {written : HttpResponse (Source ⊕ GZipDataSource Source)}

/-- A response without a body is only its header block. -/
theorem transmitted_of_bodiless (hBody : response.pBody = none)
    (h : response.writeResponse requestHeaders = some written) {wire : Bytes} :
    written.Transmitted wire ↔ wire = written.responseHeader := by
  have hGzip : response.gzip requestHeaders = false := by
    rw [← Bool.not_eq_true, gzip_iff]
    exact fun hAll => hAll.2.2.1 hBody
  simp only [writeResponse, hGzip, encodeBody, hBody, Option.map_none, Option.bind_eq_bind,
    Option.bind_some, Option.pure_def, Option.some.injEq] at h
  rw [← h]
  rfl

/-- A response that is not compressed can be written. -/
theorem writeResponse_plain (hStatus : response.statusCode ≠ 101)
    (hGzip : response.gzip requestHeaders = false) :
    ∃ written, response.writeResponse requestHeaders = some written := by
  simp only [writeResponse, hGzip, encodeBody, Option.bind_eq_bind, Option.bind_some]
  cases response.pBody with
  | none => exact ⟨_, rfl⟩
  | some body =>
      simp only [Option.map_some, hStatus, false_and, if_false]
      exact ⟨_, rfl⟩

omit [DataSource Source] [Zlib] in
/-- The compression does not depend on the end of the connection. -/
theorem gzip_closedIf (closing : Bool) :
    (response.closedIf closing).gzip requestHeaders = response.gzip requestHeaders := by
  obtain ⟨hStatus, -, hBody, -⟩ := closedIf_spec response closing
  rw [Bool.eq_iff_iff, gzip_iff, gzip_iff, hStatus, hBody, headers_closedIf]
  apply and_congr_left'
  constructor
  · intro hAll header hMem
    by_contra hEncoding
    rw [Bool.not_eq_false] at hEncoding
    have hName : strcaseEq header.1 (ascii "Connection") = false := by
      rw [strcaseEq, beq_iff_eq] at hEncoding
      rw [strcaseEq, hEncoding]
      decide
    have hFalse := hAll header (List.mem_append_left _ (List.mem_filter.2 ⟨hMem, by simp [hName]⟩))
    rw [hEncoding] at hFalse
    cases hFalse
  · intro hAll header hMem
    rcases List.mem_append.1 hMem with hKept | hNew
    · exact hAll header (List.mem_of_mem_filter hKept)
    · cases closing with
      | true =>
          rw [List.mem_singleton.1 hNew]
          decide
      | false => exact absurd hNew List.not_mem_nil

end HttpResponse

section Bodies

variable {Descriptor : Type} [FileSystem Descriptor] [Calendar] [MimeMap] [Zlib]
  {manager : StaticPathManager} {head : RequestHead} {now : Tm}
  {response : HttpResponse (Body (FileDataSource Descriptor))}

/-- **The answer to a HEAD request has no body** if and only if the request passes all
checks and its file can be opened: errors have a body. -/
theorem head_without_body_iff (hAnswer : (staticFileResponse manager (ascii "HEAD") head now :
      StaticAnswer (FileDataSource Descriptor)).result = .response response) :
    (response.pBody = none ∧ ∀ closing written wire,
        (response.closedIf closing).writeResponse head.headers = some written →
          written.Transmitted wire → wire = written.responseHeader) ↔
      ∃ sp subpath, ∃ source : FileDataSource Descriptor,
        Opened manager (ascii "HEAD") head sp subpath source := by
  constructor
  · rintro ⟨hBody, -⟩
    rcases error_or_opened hAnswer with ⟨code, -, rfl⟩ | hOpened
    · exact absurd hBody (Option.some_ne_none _)
    · exact hOpened
  · rintro ⟨sp, subpath, source, hOpened⟩
    obtain ⟨extra, content_type, -, hFile⟩ := forFile_of_fileResponse (hOpened.result hAnswer)
    have hBody : response.pBody = none := by rw [hFile.pBody, if_pos (Or.inl rfl)]
    refine ⟨hBody, fun closing written wire hWritten hWire => ?_⟩
    have hClosed : (response.closedIf closing).pBody = none := by
      rw [(HttpResponse.closedIf_spec response closing).2.2.1, hBody]
    exact (HttpResponse.transmitted_of_bodiless hClosed hWritten).1 hWire

end Bodies

/-- The file is there. -/
theorem head_without_body_file :
    let _ : FileSystem Bytes := sampleSite
    let _ : Calendar := ⟨fun _ => .epoch⟩
    let _ : MimeMap := ⟨fun _ => []⟩
    let _ : Zlib := HttpResponse.SampleStream.zlib
    ∃ response : HttpResponse (Body (FileDataSource Bytes)),
      (staticFileResponse sampleStaticPaths (ascii "HEAD") (sampleHead (ascii "/a/f") []) .epoch :
          StaticAnswer (FileDataSource Bytes)).result = .response response ∧
        response.pBody = none := by
  intro files calendar mime zlib
  obtain ⟨response, hAnswer⟩ : ∃ response : HttpResponse (Body (FileDataSource Bytes)),
      (staticFileResponse sampleStaticPaths (ascii "HEAD") (sampleHead (ascii "/a/f") []) .epoch :
        StaticAnswer (FileDataSource Bytes)).result = .response response := ⟨_, rfl⟩
  have hOpened : ∃ sp subpath, ∃ source : FileDataSource Bytes, Opened sampleStaticPaths
      (ascii "HEAD") (sampleHead (ascii "/a/f") []) sp subpath source :=
    ⟨_, _, _, ⟨rfl, rfl, rfl, rfl, Or.inr rfl, rfl, rfl⟩, rfl⟩
  exact ⟨response, hAnswer, ((head_without_body_iff hAnswer).2 hOpened).1⟩

/-- The answer to HEAD for a file that is not there has a body on the wire. -/
theorem head_error_body :
    let _ : FileSystem Bytes := sampleSite
    let _ : Calendar := ⟨fun _ => .epoch⟩
    let _ : MimeMap := ⟨fun _ => []⟩
    let _ : Zlib := HttpResponse.SampleStream.zlib
    let response : HttpResponse (Body (FileDataSource Bytes)) := AppAnswer.error_response 404 .epoch
    (staticFileResponse sampleStaticPaths (ascii "HEAD") (sampleHead (ascii "/a/g") []) .epoch :
        StaticAnswer (FileDataSource Bytes)).result = .response response ∧
      response.pBody ≠ none ∧
      ∃ written wire, (response.closedIf false).writeResponse [] = some written ∧
        written.Transmitted wire ∧ wire = written.responseHeader ++ ascii "404 Not Found\n" := by
  intro files calendar mime zlib response
  refine ⟨rfl, Option.some_ne_none _, ?_⟩
  obtain ⟨written, hWritten⟩ : ∃ written, (response.closedIf false).writeResponse [] =
      some written := ⟨_, rfl⟩
  refine ⟨written, _, hWritten, ?_, rfl⟩
  have hBody : written.pBody = some (.inl (.inl { buffer := ascii "404 Not Found\n", pos := 0 })) := by
    rw [← Option.some.inj hWritten]
    rfl
  have hChunked : written.chunked = false := by
    rw [← Option.some.inj hWritten]
    rfl
  rw [HttpResponse.transmitted_iff hBody, hChunked]
  exact ⟨[ascii "404 Not Found\n"], ⟨by decide, _, rfl, _, rfl⟩, rfl⟩

section Headers

variable {Descriptor : Type} [FileSystem Descriptor] [Calendar] [MimeMap] [Zlib]
  {manager : StaticPathManager} {head : RequestHead} {sp : StaticPath} {subpath : Bytes}
  {nowGet nowHead : Tm} {source : FileDataSource Descriptor}
  {getResponse headResponse : HttpResponse (Body (FileDataSource Descriptor))}

/-- Two header blocks with this status line and the same fields but for the date. -/
def SameButDate (startLine : Bytes) (nowGet nowHead : Tm) (getBlock headBlock : Bytes) : Prop :=
  ∃ fields,
    getBlock = Framing.formatHead startLine ((ascii "Date", httpDateString nowGet) :: fields) ∧
      headBlock = Framing.formatHead startLine ((ascii "Date", httpDateString nowHead) :: fields)

/-- The request makes the response to GET a compressed one: the file has to be sent,
the path has no coding of its own, and the request mentions gzip. -/
def Compressed (sp : StaticPath) (requestHeaders : RequestHeaders)
    (source : FileDataSource Descriptor) : Prop :=
  clientCacheIsValid requestHeaders source = false ∧
    (∀ extra, sp.options.headers = some extra → ∀ header ∈ extra,
      strcaseEq header.1 (ascii "Content-Encoding") = false) ∧
    HttpResponse.mentionsGzip requestHeaders = true

omit [FileSystem Descriptor] [Calendar] [MimeMap] [Zlib] in
theorem formatHead_cancel {startLine : Bytes} {field : Bytes × Bytes} {fields others : ResponseHeaders}
    (h : Framing.formatHead startLine (field :: fields) =
      Framing.formatHead startLine (field :: others)) :
    fields.flatMap Framing.formatField = others.flatMap Framing.formatField := by
  unfold Framing.formatHead at h
  rw [List.flatMap_cons, List.flatMap_cons] at h
  exact List.append_cancel_left (List.append_cancel_left (List.append_cancel_right h))

omit [FileSystem Descriptor] [Calendar] [MimeMap] [Zlib] in
/-- A length is not a coding. -/
theorem length_ne_gzip {fields : ResponseHeaders} (length : Nat) :
    (fields ++ [HttpResponse.lengthField length]).flatMap Framing.formatField ≠
      (fields ++ [HttpResponse.gzipField, HttpResponse.chunkedField]).flatMap
        Framing.formatField := by
  intro h
  rw [List.flatMap_append, List.flatMap_append] at h
  have hNinth := congrArg (fun bytes : Bytes => bytes[8]?) (List.append_cancel_left h)
  exact absurd (Option.some.inj hNinth) (by decide)

section ForFile

variable {method : Bytes} {now : Tm} {extra : ResponseHeaders} {content_type : Bytes}
  {response : HttpResponse (Body (FileDataSource Descriptor))} {requestHeaders : RequestHeaders}
  {closing : Bool}

omit [MimeMap] [Zlib] in
theorem ForFile.statusCode_ne
    (h : ForFile sp.options method requestHeaders now source extra content_type response) :
    (response.closedIf closing).statusCode ≠ 101 := by
  rw [(HttpResponse.closedIf_spec response closing).1, h.statusCode]
  split_ifs <;> decide

omit [MimeMap] [Zlib] in
/-- A file that is sent is compressed under the condition. -/
theorem ForFile.gzip_iff
    (h : ForFile sp.options (ascii "GET") requestHeaders now source extra content_type response) :
    (response.closedIf closing).gzip requestHeaders = true ↔
      Compressed sp requestHeaders source := by
  have hFile : ∀ header ∈ fileFields content_type source,
      strcaseEq header.1 (ascii "Content-Encoding") = false := by
    have hLength : strcaseEq (ascii "Content-Length") (ascii "Content-Encoding") = false := by decide
    have hType : strcaseEq (ascii "Content-Type") (ascii "Content-Encoding") = false := by decide
    have hModified : strcaseEq (ascii "Last-Modified") (ascii "Content-Encoding") = false := by
      decide
    simp [fileFields, hLength, hType, hModified]
  have hDate : strcaseEq (ascii "Date") (ascii "Content-Encoding") = false := by decide
  have hMethod : ascii "GET" ≠ ascii "HEAD" := by decide
  have hStatus : (response.closedIf false).statusCode ≠ 101 := h.statusCode_ne
  rw [(HttpResponse.closedIf_spec response false).1] at hStatus
  rw [HttpResponse.gzip_closedIf, HttpResponse.gzip_iff, h.headers, h.pBody, Compressed,
    h.options_headers]
  cases clientCacheIsValid requestHeaders source with
  | true => simp
  | false =>
      simp only [addedHeaders, Bool.false_eq_true, if_false, hMethod, or_self, hStatus, ne_eq,
        not_false_eq_true, reduceCtorEq, true_and, List.forall_mem_cons, List.forall_mem_append,
        hDate, Option.some.injEq, forall_eq']
      exact ⟨fun hAll => ⟨hAll.1.1, hAll.2⟩, fun hAll => ⟨⟨hAll.1, hFile⟩, hAll.2⟩⟩

omit [MimeMap] in
/-- What is written for a file. -/
theorem ForFile.block
    (h : ForFile sp.options method requestHeaders now source extra content_type response)
    {written : HttpResponse (Body (FileDataSource Descriptor) ⊕
      GZipDataSource (Body (FileDataSource Descriptor)))}
    (hWritten : (response.closedIf closing).writeResponse requestHeaders = some written) :
    written.responseHeader = Framing.formatHead response.statusLine
      ((response.closedIf closing).writtenFields
        ((response.closedIf closing).gzip requestHeaders)) := by
  obtain ⟨hStatus, hText, -, hChunked⟩ := HttpResponse.closedIf_spec response closing
  have hLine : (response.closedIf closing).statusLine = response.statusLine := by
    rw [HttpResponse.statusLine, HttpResponse.statusLine, hStatus, hText]
  rw [HttpResponse.responseHeader_fields h.statusCode_ne (hChunked.trans h.chunked) hWritten, hLine]

end ForFile

/-- **HEAD is answered with the header block of GET**, but for the date, if and only if
GET is not answered with a compressed body. -/
theorem head_headers_iff (hOpened : Opened manager (ascii "GET") head sp subpath source)
    (hGet : (staticFileResponse manager (ascii "GET") head nowGet :
      StaticAnswer (FileDataSource Descriptor)).result = .response getResponse)
    (hHead : (staticFileResponse manager (ascii "HEAD") head nowHead :
      StaticAnswer (FileDataSource Descriptor)).result = .response headResponse)
    (closing : Bool) :
    (∃ writtenGet writtenHead,
        (getResponse.closedIf closing).writeResponse head.headers = some writtenGet ∧
        (headResponse.closedIf closing).writeResponse head.headers = some writtenHead ∧
        SameButDate getResponse.statusLine nowGet nowHead writtenGet.responseHeader
          writtenHead.responseHeader) ↔
      ¬ Compressed sp head.headers source := by
  have hOpenedHead : Opened manager (ascii "HEAD") head sp subpath source :=
    ⟨{ hOpened.admitted with method_known := Or.inr rfl }, hOpened.opened⟩
  obtain ⟨extra, content_type, hType, hGetFile⟩ := forFile_of_fileResponse (hOpened.result hGet)
  obtain ⟨extra', content_type', hType', hHeadFile⟩ :=
    forFile_of_fileResponse (hOpenedHead.result hHead)
  obtain rfl : extra = extra' :=
    Option.some.inj (hGetFile.options_headers.symm.trans hHeadFile.options_headers)
  obtain rfl : content_type = content_type' := Option.some.inj (hType.symm.trans hType')
  have hLine : headResponse.statusLine = getResponse.statusLine := by
    rw [HttpResponse.statusLine, HttpResponse.statusLine, hHeadFile.status, hGetFile.status,
      hHeadFile.statusCode, hGetFile.statusCode]
  have hHeadGzip : (headResponse.closedIf closing).gzip head.headers = false := by
    rw [HttpResponse.gzip_closedIf, ← Bool.not_eq_true, HttpResponse.gzip_iff, hHeadFile.pBody,
      if_pos (Or.inl rfl)]
    exact fun hAll => hAll.2.2.1 rfl
  obtain ⟨writtenHead, hWrittenHead⟩ :=
    HttpResponse.writeResponse_plain hHeadFile.statusCode_ne hHeadGzip
  have hHeadBlock := hHeadFile.block hWrittenHead
  rw [hHeadGzip, hLine] at hHeadBlock
  have hCompressed : (getResponse.closedIf closing).gzip head.headers = true ↔
      Compressed sp head.headers source := hGetFile.gzip_iff
  rw [← hCompressed]
  constructor
  · rintro ⟨writtenGet, other, hWrittenGet, hOther, fields, hGetFields, hHeadFields⟩ hGzip
    obtain rfl := Option.some.inj (hWrittenHead.symm.trans hOther)
    have hChanged := (hGetFile.gzip_iff.1 hGzip).1
    rw [hGetFile.block hWrittenGet, hGzip, hGetFile.writtenFields_changed hChanged] at hGetFields
    rw [hHeadBlock, hHeadFile.writtenFields_changed hChanged] at hHeadFields
    exact length_ne_gzip _ ((formatHead_cancel hHeadFields).trans (formatHead_cancel hGetFields).symm)
  · intro hGzip
    rw [Bool.not_eq_true] at hGzip
    obtain ⟨writtenGet, hWrittenGet⟩ :=
      HttpResponse.writeResponse_plain hGetFile.statusCode_ne hGzip
    have hGetBlock := hGetFile.block hWrittenGet
    rw [hGzip] at hGetBlock
    cases hValid : clientCacheIsValid head.headers source with
    | true =>
        rw [hGetFile.writtenFields_unchanged hValid] at hGetBlock
        rw [hHeadFile.writtenFields_unchanged hValid] at hHeadBlock
        exact ⟨writtenGet, writtenHead, hWrittenGet, hWrittenHead, _, hGetBlock, hHeadBlock⟩
    | false =>
        rw [hGetFile.writtenFields_changed hValid] at hGetBlock
        rw [hHeadFile.writtenFields_changed hValid] at hHeadBlock
        exact ⟨writtenGet, writtenHead, hWrittenGet, hWrittenHead, _, hGetBlock, hHeadBlock⟩

end Headers

/-- Without gzip the blocks agree. -/
theorem head_headers_plain :
    let _ : FileSystem Bytes := sampleSite
    let _ : Calendar := ⟨fun _ => .epoch⟩
    let _ : MimeMap := ⟨fun _ => []⟩
    let _ : Zlib := HttpResponse.SampleStream.zlib
    ∃ getResponse headResponse : HttpResponse (Body (FileDataSource Bytes)),
      (staticFileResponse sampleStaticPaths (ascii "GET") (sampleHead (ascii "/a/f") []) .epoch :
          StaticAnswer (FileDataSource Bytes)).result = .response getResponse ∧
        (staticFileResponse sampleStaticPaths (ascii "HEAD") (sampleHead (ascii "/a/f") []) .epoch :
          StaticAnswer (FileDataSource Bytes)).result = .response headResponse ∧
        ∃ writtenGet writtenHead, (getResponse.closedIf true).writeResponse [] = some writtenGet ∧
          (headResponse.closedIf true).writeResponse [] = some writtenHead ∧
          SameButDate getResponse.statusLine .epoch .epoch writtenGet.responseHeader
            writtenHead.responseHeader := by
  intro files calendar mime zlib
  obtain ⟨getResponse, hGet⟩ : ∃ response : HttpResponse (Body (FileDataSource Bytes)),
      (staticFileResponse sampleStaticPaths (ascii "GET") (sampleHead (ascii "/a/f") []) .epoch :
        StaticAnswer (FileDataSource Bytes)).result = .response response := ⟨_, rfl⟩
  obtain ⟨headResponse, hHead⟩ : ∃ response : HttpResponse (Body (FileDataSource Bytes)),
      (staticFileResponse sampleStaticPaths (ascii "HEAD") (sampleHead (ascii "/a/f") []) .epoch :
        StaticAnswer (FileDataSource Bytes)).result = .response response := ⟨_, rfl⟩
  have hOpened : ∃ sp subpath, ∃ source : FileDataSource Bytes, Opened sampleStaticPaths
      (ascii "GET") (sampleHead (ascii "/a/f") []) sp subpath source :=
    ⟨_, _, _, ⟨rfl, rfl, rfl, rfl, Or.inl rfl, rfl, rfl⟩, rfl⟩
  obtain ⟨sp, subpath, source, hOpened⟩ := hOpened
  refine ⟨getResponse, headResponse, hGet, hHead, (head_headers_iff hOpened hGet hHead true).2 ?_⟩
  exact fun hCompressed => absurd hCompressed.2.2 (by decide)

/-- With gzip GET is answered without the length that HEAD is answered with. -/
theorem head_headers_differ :
    let _ : FileSystem Bytes := sampleSite
    let _ : Calendar := ⟨fun _ => .epoch⟩
    let _ : MimeMap := ⟨fun _ => []⟩
    let _ : Zlib := HttpResponse.SampleStream.zlib
    let head := sampleHead (ascii "/a/f") [(ascii "Accept-Encoding", ascii "gzip")]
    ∃ getResponse headResponse : HttpResponse (Body (FileDataSource Bytes)),
      (staticFileResponse sampleStaticPaths (ascii "GET") head .epoch :
          StaticAnswer (FileDataSource Bytes)).result = .response getResponse ∧
      (staticFileResponse sampleStaticPaths (ascii "HEAD") head .epoch :
          StaticAnswer (FileDataSource Bytes)).result = .response headResponse ∧
      ∃ writtenGet writtenHead fields,
        (getResponse.closedIf false).writeResponse head.headers = some writtenGet ∧
        (headResponse.closedIf false).writeResponse head.headers = some writtenHead ∧
        writtenGet.responseHeader = Framing.formatHead (ascii "HTTP/1.1 200 OK")
          (fields ++ [HttpResponse.gzipField, HttpResponse.chunkedField]) ∧
        writtenHead.responseHeader = Framing.formatHead (ascii "HTTP/1.1 200 OK")
          (fields ++ [HttpResponse.lengthField 2]) ∧
        ¬ SameButDate (ascii "HTTP/1.1 200 OK") .epoch .epoch writtenGet.responseHeader
          writtenHead.responseHeader := by
  intro files calendar mime zlib head
  let fields : ResponseHeaders := [(ascii "Date", ascii "Thu, 01 Jan 1970 00:00:00 GMT"),
    (ascii "Content-Type", ascii "application/octet-stream"),
    (ascii "Last-Modified", ascii "Thu, 01 Jan 1970 00:00:00 GMT")]
  refine ⟨_, _, rfl, rfl, _, _, fields, rfl, rfl, by decide +kernel, by decide +kernel, ?_⟩
  rintro ⟨others, hGet, hHead⟩
  have hSame := hGet.trans hHead.symm
  exact absurd hSame (by decide +kernel)

end Httpuv
