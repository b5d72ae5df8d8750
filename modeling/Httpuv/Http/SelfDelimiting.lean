import Httpuv.Http.History
import Httpuv.Http.ResponseFraming

/-! Whether a client can tell where a response ends without the end of the connection. -/
namespace Httpuv

/-- A response of this status has no body. -/
def bodiless (status : Int) : Bool :=
  (decide (100 ≤ status) && decide (status < 200)) || status == 204 || status == 304

/-- `Content-Length` -/
def isLength (field : Bytes × Bytes) : Bool :=
  Framing.sameName field.1 Framing.contentLength

/-- `Transfer-Encoding: chunked` -/
def isChunked (field : Bytes × Bytes) : Bool :=
  Framing.sameName field.1 Framing.transferEncoding && Framing.sameName field.2 Framing.chunked

/-- The fields of a header block. -/
def headerFields (block : Bytes) : Option (List (Bytes × Bytes)) := do
  let (_, rest) ← Framing.readLine block
  let (fields, _) ← Framing.readFields (rest.length + 1) rest
  return fields

/-- The method or the status rules out a body, or a field tells where it ends. -/
def selfDelimiting (method : Bytes) (status : Int) (block : Bytes) : Bool :=
  method == ascii "HEAD" || bodiless status ||
    match headerFields block with
    | some fields => fields.any (fun field => isLength field || isChunked field)
    | none => false

/-- The value of the last `Content-Length` header. -/
def lastLength (headers : ResponseHeaders) : Bytes :=
  headers.foldl (fun length header => if isLength header then header.2 else length) []

namespace HttpResponse

section Scan

variable {Source : Type} {headers : ResponseHeaders}

/-- A header whose value `writeResponse` keeps for the end of the block. -/
def namesLength (header : Bytes × Bytes) : Bool := strcaseEq header.1 (ascii "Content-Length")

/-- All headers but the lengths are written as they are. -/
theorem foldl_scanHeader_eq (headers : ResponseHeaders) (start : HeaderScan) :
    headers.foldl scanHeader start = {
      response := start.response ++
        (headers.filter (fun header => !namesLength header)).flatMap Framing.formatField
      contentEncoding := start.contentEncoding ||
        headers.any (fun header => strcaseEq header.1 (ascii "Content-Encoding"))
      contentLength := headers.foldl (fun length header =>
        if namesLength header then header.2 else length) start.contentLength } := by
  induction headers generalizing start with
  | nil => simp
  | cons header headers ih =>
      have hSeparator : ascii ": " = [58, 32] := by decide
      have hEnd : CRLF = Framing.crlf := by decide
      have hName : strcaseEq header.1 (ascii "Content-Length") = namesLength header := rfl
      rw [List.foldl_cons, ih]
      cases hLength : namesLength header with
      | true =>
          have hOther : strcaseEq header.1 (ascii "Content-Encoding") = false := by
            rw [namesLength, strcaseEq, beq_iff_eq] at hLength
            rw [strcaseEq, hLength]
            decide
          simp [scanHeader, hName, hLength, hOther]
      | false =>
          simp [scanHeader, hName, hLength, hSeparator, hEnd, Framing.formatField, Bool.or_assoc]

theorem namesLength_of_token {header : Bytes × Bytes} (h : Framing.isToken header.1 = true) :
    namesLength header = isLength header := strcaseEq_contentLength h

theorem lastLength_of_tokens (hTokens : ∀ header ∈ headers, Framing.isToken header.1 = true)
    (start : Bytes) :
    headers.foldl (fun length header => if namesLength header then header.2 else length) start =
      headers.foldl (fun length header => if isLength header then header.2 else length) start :=
  List.foldl_ext _ _ _ fun _ header hMem => by rw [namesLength_of_token (hTokens header hMem)]

theorem headerFields_formatHead {startLine : Bytes} {fields : ResponseHeaders}
    (hStart : 13 ∉ startLine)
    (hFields : ∀ field ∈ fields, Framing.isToken field.1 = true ∧ 13 ∉ field.2) :
    headerFields (Framing.formatHead startLine fields) = some (Framing.readBack fields) := by
  obtain ⟨block, hLine, hBlock⟩ := Framing.readHead hStart hFields []
  rw [List.append_nil] at hLine
  simp [headerFields, hLine, hBlock]

end Scan

section Block

variable {Source : Type} [DataSource Source] [Zlib] {response : HttpResponse Source}
  {written : HttpResponse (Source ⊕ GZipDataSource Source)} {requestHeaders : RequestHeaders}

/-- The fields that tell the coding of the body and where it ends. -/
def framingFields (response : HttpResponse Source) (gzip : Bool) (contentLength : Bytes) :
    ResponseHeaders :=
  if gzip then [gzipField, chunkedField]
  else if contentLength ≠ [] then [(ascii "Content-Length", contentLength)]
  else
    match response.pBody with
    | some body => [lengthField (DataSource.size body)]
    | none => []

/-- The fields of the header block that `writeResponse` makes. -/
def writtenFields (response : HttpResponse Source) (gzip : Bool) : ResponseHeaders :=
  response.headers.filter (fun header => !namesLength header) ++
    response.framingFields gzip response.scan.contentLength

/-- What `writeResponse` adds to the headers it was given. -/
def addedFields (response : HttpResponse Source) (gzip : Bool) : ResponseHeaders :=
  if gzip then [gzipField, chunkedField]
  else if lastLength response.headers ≠ [] then
    [(ascii "Content-Length", lastLength response.headers)]
  else
    match response.pBody with
    | some body => [lengthField (DataSource.size body)]
    | none => []

omit [DataSource Source] [Zlib] in
theorem gzip_body (hGzip : response.gzip requestHeaders = true) : ∃ body, response.pBody = some body := by
  cases hBody : response.pBody with
  | none => simp [gzip, hBody] at hGzip
  | some body => exact ⟨body, rfl⟩

/-- The lines that are added are the fields. -/
theorem encodeBody_lines {encoded : HttpResponse (Source ⊕ GZipDataSource Source)}
    (hStatus : response.statusCode ≠ 101) (hChunked : response.chunked = false)
    (h : response.encodeBody (response.gzip requestHeaders) = some encoded) (contentLength : Bytes) :
    encoded.statusCode = response.statusCode ∧
      (if response.gzip requestHeaders then ascii "Content-Encoding: gzip" ++ CRLF else []) ++
        encoded.framingLine contentLength =
          (response.framingFields (response.gzip requestHeaders) contentLength).flatMap
            Framing.formatField := by
  have hEnd : CRLF = Framing.crlf := by decide
  have hName : ascii "Content-Length: " = ascii "Content-Length" ++ [58, 32] := by decide
  cases hGzip : response.gzip requestHeaders with
  | true =>
      obtain ⟨body, hBody⟩ := gzip_body hGzip
      simp only [hGzip, encodeBody, hBody, Option.bind_eq_bind, Option.bind_eq_some_iff,
        Option.pure_def, Option.some.injEq] at h
      obtain ⟨wrapped, -, rfl⟩ := h
      have hFields : ascii "Content-Encoding: gzip" ++ CRLF ++
          (ascii "Transfer-Encoding: chunked" ++ CRLF) =
            [gzipField, chunkedField].flatMap Framing.formatField := by
        decide
      refine ⟨rfl, ?_⟩
      rw [framingLine, if_neg hStatus, if_pos rfl, if_pos rfl, hFields]
      rfl
  | false =>
      rw [hGzip] at h
      obtain rfl := Option.some.inj h
      refine ⟨rfl, ?_⟩
      simp only [framingLine, framingFields, hStatus, hChunked, if_false]
      by_cases hLength : contentLength = []
      · cases hBody : response.pBody with
        | none => simp [hLength]
        | some body =>
            have hSize : DataSource.size (Sum.inl body : Source ⊕ GZipDataSource Source) =
              DataSource.size body := rfl
            simp [hLength, hSize, hName, hEnd, Framing.formatField, lengthField]
      · simp [hLength, hName, hEnd, Framing.formatField]

/-- The header block of a response that switches no protocol, whatever its headers are. -/
theorem responseHeader_fields (hStatus : response.statusCode ≠ 101)
    (hChunked : response.chunked = false)
    (h : response.writeResponse requestHeaders = some written) :
    written.responseHeader = Framing.formatHead response.statusLine
      (response.writtenFields (response.gzip requestHeaders)) := by
  have hScanned : response.scan.response = response.statusLine ++ CRLF ++
      (response.headers.filter (fun header => !namesLength header)).flatMap Framing.formatField := by
    rw [scan, foldl_scanHeader_eq]
  simp only [writeResponse, Option.bind_eq_bind, Option.bind_eq_some_iff] at h
  obtain ⟨encoded, hEncoded, h⟩ := h
  obtain ⟨hSame, hLines⟩ := encodeBody_lines hStatus hChunked hEncoded response.scan.contentLength
  have hBlock : written.responseHeader = response.scan.response ++
      (if response.gzip requestHeaders then ascii "Content-Encoding: gzip" ++ CRLF else []) ++
      encoded.framingLine response.scan.contentLength ++ CRLF := by
    have hOther : ¬ encoded.statusCode = 101 := fun hSwitching => hStatus (hSame.symm.trans hSwitching)
    cases hBody : encoded.pBody with
    | none =>
        simp only [hBody, Option.pure_def, Option.some.injEq] at h
        rw [← h]
    | some body =>
        simp only [hBody, hOther, false_and, if_false, Option.pure_def, Option.some.injEq] at h
        rw [← h]
  have hEnd : CRLF = Framing.crlf := by decide
  rw [hBlock, hScanned, List.append_assoc _ _ (encoded.framingLine _), hLines, hEnd]
  simp [Framing.formatHead, writtenFields]

/-- The same for headers whose names are tokens. -/
theorem responseHeader_eq (hTokens : ∀ header ∈ response.headers, Framing.isToken header.1 = true)
    (hStatus : response.statusCode ≠ 101) (hChunked : response.chunked = false)
    (h : response.writeResponse requestHeaders = some written) :
    written.responseHeader = Framing.formatHead response.statusLine
      (response.headers.filter (fun header => !isLength header) ++
        response.addedFields (response.gzip requestHeaders)) := by
  have hKept : response.headers.filter (fun header => !namesLength header) =
      response.headers.filter (fun header => !isLength header) :=
    List.filter_congr fun header hMem => by rw [namesLength_of_token (hTokens header hMem)]
  have hLast : response.scan.contentLength = lastLength response.headers := by
    rw [scan, foldl_scanHeader_eq]
    exact lastLength_of_tokens hTokens []
  rw [responseHeader_fields hStatus hChunked h, writtenFields, hKept, hLast]
  rfl

omit [Zlib] in
/-- Among the fields of a header block there is one that tells the end of the body
if a body, a length or the chunked coding was given. -/
theorem any_fields (response : HttpResponse Source) (gzip : Bool)
    (hGzip : gzip = true → ∃ body, response.pBody = some body) :
    (Framing.readBack (response.headers.filter (fun header => !isLength header) ++
        response.addedFields gzip)).any (fun field => isLength field || isChunked field) = true ↔
      (∃ body, response.pBody = some body) ∨ lastLength response.headers ≠ [] ∨
        ∃ header ∈ response.headers, isChunked (header.1, Framing.trim header.2) = true := by
  have hKept : (Framing.readBack (response.headers.filter (fun header => !isLength header))).any
      (fun field => isLength field || isChunked field) = true ↔
        ∃ header ∈ response.headers, isChunked (header.1, Framing.trim header.2) = true := by
    have hOther : ∀ header : Bytes × Bytes, isChunked (header.1, Framing.trim header.2) = true →
        isLength header = false := by
      intro header hChunked
      simp only [isChunked, Framing.sameName, Bool.and_eq_true, beq_iff_eq] at hChunked
      rw [isLength, Framing.sameName, hChunked.1]
      decide
    simp only [Framing.readBack, List.any_map, List.any_eq_true, List.mem_filter,
      Function.comp_apply, Bool.or_eq_true, Bool.not_eq_true']
    constructor
    · rintro ⟨header, ⟨hMem, hLength⟩, hSame | hChunked⟩
      · exact absurd hSame (by simp [isLength] at hLength ⊢; exact hLength)
      · exact ⟨header, hMem, hChunked⟩
    · rintro ⟨header, hMem, hChunked⟩
      exact ⟨header, ⟨hMem, hOther header hChunked⟩, Or.inr hChunked⟩
  have hAdded : (Framing.readBack (response.addedFields gzip)).any
      (fun field => isLength field || isChunked field) = true ↔
        (∃ body, response.pBody = some body) ∨ lastLength response.headers ≠ [] := by
    have hLengthField : ∀ value : Bytes,
        isLength (ascii "Content-Length", value) = true := by
      intro value
      change Framing.sameName (ascii "Content-Length") _ = true
      decide
    unfold addedFields
    cases gzip with
    | true =>
        have hBody := hGzip rfl
        have hCoding : (Framing.readBack [gzipField, chunkedField]).any
            (fun field => isLength field || isChunked field) = true := by decide
        simp [hBody, hCoding]
    | false =>
        by_cases hLength : lastLength response.headers = []
        · cases hBody : response.pBody <;>
            simp [hLength, Framing.readBack, lengthField, hLengthField]
        · simp [hLength, Framing.readBack, hLengthField]
  rw [Framing.readBack_append, List.any_append, Bool.or_eq_true, hKept, hAdded, or_comm, or_assoc]

omit [DataSource Source] [Zlib] in
theorem noCR_lastLength {headers : ResponseHeaders} (hValues : ∀ header ∈ headers, 13 ∉ header.2) :
    13 ∉ lastLength headers := by
  unfold lastLength
  induction headers using List.reverseRecOn with
  | nil => simp
  | append_singleton headers header ih =>
      have hKept := ih fun other hMem => hValues other (List.mem_append_left _ hMem)
      rw [List.foldl_append, List.foldl_cons, List.foldl_nil]
      split_ifs
      · exact hValues header (by simp)
      · exact hKept

omit [Zlib] in
/-- All fields of the block are proper ones if the given headers are. -/
theorem proper_fields {response : HttpResponse Source}
    (hHeaders : ∀ header ∈ response.headers, Framing.isToken header.1 = true ∧ 13 ∉ header.2)
    (gzip : Bool) :
    ∀ field ∈ response.headers.filter (fun header => !isLength header) ++ response.addedFields gzip,
      Framing.isToken field.1 = true ∧ 13 ∉ field.2 := by
  have hName : Framing.isToken (ascii "Content-Length") = true := by decide
  intro field hMem
  rcases List.mem_append.1 hMem with hKept | hAdded
  · exact hHeaders field (List.mem_filter.1 hKept).1
  · unfold addedFields at hAdded
    cases gzip with
    | true =>
        have hCoding : ∀ field ∈ [gzipField, chunkedField],
            Framing.isToken field.1 = true ∧ 13 ∉ field.2 := by decide
        exact hCoding field hAdded
    | false =>
        have hLast := noCR_lastLength fun header hMem => (hHeaders header hMem).2
        rw [if_neg (by simp)] at hAdded
        split_ifs at hAdded with hLength
        · rw [List.mem_singleton.1 hAdded]
          exact ⟨hName, hLast⟩
        · cases hBody : response.pBody with
          | none => simp [hBody] at hAdded
          | some body =>
              rw [hBody] at hAdded
              rw [List.mem_singleton.1 hAdded]
              exact ⟨hName, Framing.noCR_format 10 _ (by decide) (by decide)⟩

/-- The lines of a response that was built from a status, headers and a body. -/
theorem responseHeader_listToResponse {status : Int} {responseHeaders : ResponseHeaders}
    {body : Option Source} {now : Tm} (hStatus : status ≠ 101)
    (hHeaders : ∀ header ∈ responseHeaders,
      Framing.isToken header.1 = true ∧ 13 ∉ header.2 ∧ 10 ∉ header.2)
    (h : (listToResponse status responseHeaders body now).writeResponse requestHeaders =
      some written) :
    ∃ fields, headerFields written.responseHeader = some fields ∧
      (fields.any (fun field => isLength field || isChunked field) = true ↔
        body.isSome = true ∨ lastLength responseHeaders ≠ [] ∨
          ∃ header ∈ responseHeaders, isChunked (header.1, Framing.trim header.2) = true) := by
  let date : Bytes × Bytes := (ascii "Date", httpDateString now)
  let response : HttpResponse Source :=
    { construct status (getStatusDescription status) body now with
      headers := date :: responseHeaders }
  have hWritten : response.writeResponse requestHeaders = some written := by
    rw [← h, listToResponse_eq]
  have hDate : Framing.isToken (ascii "Date") = true := by decide
  have hDateLine : 13 ∉ httpDateString now := control_httpDateString (by decide) now
  have hNoLength : isLength date = false := show Framing.sameName (ascii "Date") _ = false by decide
  have hNoCoding : isChunked (date.1, Framing.trim date.2) = false := by
    have hName : Framing.sameName (ascii "Date") Framing.transferEncoding = false := by decide
    simp [isChunked, date, hName]
  have hAll : ∀ header ∈ response.headers, Framing.isToken header.1 = true ∧ 13 ∉ header.2 := by
    intro header hMem
    rcases List.mem_cons.1 hMem with rfl | hMem
    · exact ⟨hDate, hDateLine⟩
    · exact ⟨(hHeaders header hMem).1, (hHeaders header hMem).2.1⟩
  have hBlock := responseHeader_eq (fun header hMem => (hAll header hMem).1)
    (show response.statusCode ≠ 101 from hStatus) rfl hWritten
  have hLine : 13 ∉ response.statusLine := noCR_statusLine rfl
  have hFields := proper_fields hAll (response.gzip requestHeaders)
  refine ⟨_, by rw [hBlock, headerFields_formatHead hLine hFields], ?_⟩
  rw [any_fields response _ gzip_body]
  have hLast : lastLength response.headers = lastLength responseHeaders := by
    simp [response, lastLength, hNoLength]
  have hBody : (∃ given, response.pBody = some given) ↔ body.isSome = true :=
    Option.isSome_iff_exists.symm
  have hCoding : (∃ header ∈ response.headers, isChunked (header.1, Framing.trim header.2) = true) ↔
      ∃ header ∈ responseHeaders, isChunked (header.1, Framing.trim header.2) = true := by
    simp [response, hNoCoding]
  rw [hLast, hBody, hCoding]

end Block

/-- A response of the application to a request with any method and headers. -/
theorem selfDelimiting_iff {File : Type} [DataSource File] [Zlib] {status : Int}
    {responseHeaders : ResponseHeaders} {body : Option (Body File)}
    (hHeaders : ∀ header ∈ responseHeaders,
      Framing.isToken header.1 = true ∧ 13 ∉ header.2 ∧ 10 ∉ header.2)
    (now : Tm) (closing : Bool) (method : Bytes) (requestHeaders : RequestHeaders)
    {written : HttpResponse (SentBody File)}
    (h : (if closing then (listToResponse status responseHeaders body now).requestClose
      else listToResponse status responseHeaders body now).writeResponse requestHeaders =
        some written) :
    (written.closeAfterWritten = false →
        selfDelimiting method status written.responseHeader = true) ↔
      closing = true ∨ method = ascii "HEAD" ∨ bodiless status = true ∨ body.isSome = true ∨
        lastLength responseHeaders ≠ [] ∨
        ∃ header ∈ responseHeaders, isChunked (header.1, Framing.trim header.2) = true := by
  have hClose := Connection.writeResponse_closeAfterWritten h
  cases closing with
  | true =>
      have hClosing : written.closeAfterWritten = true := hClose
      simp [hClosing]
  | false =>
      rw [if_neg (by simp)] at h hClose
      have hKept : written.closeAfterWritten = false := by
        rw [hClose, listToResponse_eq]
        rfl
      by_cases hBodiless : bodiless status = true
      · simp [selfDelimiting, hBodiless]
      · have hStatus : status ≠ 101 := by
          rintro rfl
          exact hBodiless (by decide)
        obtain ⟨fields, hFields, hDelimited⟩ := responseHeader_listToResponse hStatus hHeaders h
        have hAny : selfDelimiting method status written.responseHeader = true ↔
            method = ascii "HEAD" ∨ (fields.any fun field => isLength field || isChunked field) = true := by
          simp [selfDelimiting, hFields, hBodiless]
        simp only [hKept, hAny, hDelimited, hBodiless, forall_const, false_or, Bool.false_eq_true]

/-- The responses of the server itself are built from a status, headers and a body as well. -/
theorem listToResponse_server {File : Type} (code : Int) (now : Tm) :
    (AppAnswer.error_response code now : HttpResponse (Body File)) = listToResponse code []
        (some (AppAnswer.memory (formatInt code ++ ascii " " ++ getStatusDescription code ++
          ascii "\n"))) now ∧
      (construct 100 (ascii "Continue") none now : HttpResponse (Body File)) =
        listToResponse 100 [] none now ∧
      ∀ headers : ResponseHeaders, ∀ body : Option (Body File),
        headers.foldl (fun response header => response.addHeader header.1 header.2)
            (construct 101 (ascii "Switching Protocols") body now) =
          listToResponse 101 headers body now :=
  ⟨rfl, rfl, fun _ _ => rfl⟩

/-- Two bytes have a length. -/
theorem selfDelimiting_two_bytes :
    let _ : Zlib := SampleStream.zlib
    let body : Body InMemoryDataSource := .inl { buffer := [0x68, 0x69], pos := 0 }
    ∃ written, (listToResponse 200 [(ascii "Content-Type", ascii "text/plain")] (some body)
        .epoch).writeResponse [] = some written ∧
      written.closeAfterWritten = false ∧
      selfDelimiting (ascii "GET") 200 written.responseHeader = true := by
  intro zlib body
  have hHeaders : ∀ header ∈ [(ascii "Content-Type", ascii "text/plain")],
      Framing.isToken header.1 = true ∧ 13 ∉ header.2 ∧ 10 ∉ header.2 := by
    decide
  obtain ⟨written, hWritten, hKept⟩ := Option.map_eq_some_iff.1
    (show ((listToResponse 200 [(ascii "Content-Type", ascii "text/plain")] (some body)
      .epoch).writeResponse []).map (·.closeAfterWritten) = some false by decide +kernel)
  exact ⟨written, hWritten, hKept, (selfDelimiting_iff hHeaders .epoch false (ascii "GET") []
    hWritten).2 (Or.inr (Or.inr (Or.inr (Or.inl rfl)))) hKept⟩

/-- A success without a body is sent without a length, and the connection stays open. -/
theorem undelimited_missing_body :
    let _ : Zlib := SampleStream.zlib
    ∃ written, (listToResponse 200 [] (none : Option (Body InMemoryDataSource))
        .epoch).writeResponse [] = some written ∧
      written.closeAfterWritten = false ∧
      selfDelimiting (ascii "GET") 200 written.responseHeader = false := by
  intro zlib
  obtain ⟨written, hWritten, hFacts⟩ := Option.map_eq_some_iff.1
    (show ((listToResponse 200 [] (none : Option (Body InMemoryDataSource))
      .epoch).writeResponse []).map (fun written => (written.closeAfterWritten,
        selfDelimiting (ascii "GET") 200 written.responseHeader)) = some (false, false) by
      decide +kernel)
  exact ⟨written, hWritten, congrArg Prod.fst hFacts, congrArg Prod.snd hFacts⟩

end HttpResponse

end Httpuv
