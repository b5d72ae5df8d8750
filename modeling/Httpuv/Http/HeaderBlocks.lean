import Httpuv.Framing.HeaderBlock
import Httpuv.Static.FileResponses

/-! What a client reads back of the headers of a response. -/
namespace Httpuv.HttpResponse

open Framing (Proper Writable isValue readBack readBlock)

section Values

theorem isValue_of_control {value : Bytes}
    (h : ∀ byte : UInt8, byte < 32 ∨ byte = 127 → byte ∉ value) : isValue value = true := by
  rw [isValue, List.all_eq_true]
  intro byte hMem
  have hByte : ¬ (byte < 32 ∨ byte = 127) := fun hControl => h byte hControl hMem
  rw [not_or, UInt8.not_lt] at hByte
  simp [Framing.isValueByte, hByte.1, hByte.2]

theorem writable_date (now : Tm) : Writable (ascii "Date", httpDateString now) :=
  ⟨show Framing.isToken (ascii "Date") = true by decide,
    isValue_of_control fun _ hControl => control_httpDateString hControl now⟩

theorem writable_closeFields (closing : Bool) : ∀ field ∈ closeFields closing, Writable field := by
  cases closing <;> simp only [Writable] <;> decide

theorem writable_length (length : Nat) : Writable (lengthField length) :=
  ⟨show Framing.isToken (ascii "Content-Length") = true by decide,
    isValue_of_control fun _ hControl => control_format hControl length⟩

end Values

section Block

variable {Source : Type} [DataSource Source] {response : HttpResponse Source}
  {requestHeaders : RequestHeaders}

/-- The fields that come behind the headers. A switch of protocols has no body that they
could tell of. -/
def bodyFields (response : HttpResponse Source) (requestHeaders : RequestHeaders) :
    ResponseHeaders :=
  if response.statusCode = 101 then []
  else response.framingFields (response.gzip requestHeaders) response.scan.contentLength

/-- What is sent together with the block: the first bytes of the switched-to protocol. -/
def firstBytes (response : HttpResponse Source) : Bytes :=
  match response.pBody with
  | some body =>
      if response.statusCode = 101 ∧ 0 < DataSource.size body ∧ DataSource.size body < 256 then
        match DataSource.getData body (DataSource.size body) with
        | some (buffer, _) => buffer
        | none => []
      else []
  | none => []

theorem firstBytes_of_ne (hStatus : response.statusCode ≠ 101) : response.firstBytes = [] := by
  cases hBody : response.pBody <;> simp [firstBytes, hBody, hStatus]

/-- The length that was given is the only one of these fields that can go wrong. -/
theorem writable_bodyFields (response : HttpResponse Source) (requestHeaders : RequestHeaders) :
    (∀ field ∈ response.bodyFields requestHeaders, Writable field) ↔
      (response.statusCode ≠ 101 → response.gzip requestHeaders = false →
        isValue response.scan.contentLength = true) := by
  have hName : Framing.isToken (ascii "Content-Length") = true := by decide
  have hCoding : ∀ field ∈ [gzipField, chunkedField], Writable field := by
    simp only [Writable]
    decide
  unfold bodyFields
  by_cases hStatus : response.statusCode = 101
  · simp [hStatus]
  · rw [if_neg hStatus]
    cases response.gzip requestHeaders with
    | true => simpa [framingFields] using hCoding
    | false =>
        by_cases hLength : response.scan.contentLength = []
        · cases hBody : response.pBody with
          | none => simp [framingFields, hLength, hBody, isValue]
          | some body => simp [framingFields, hLength, hBody, isValue, writable_length]
        · simp [framingFields, hLength, hStatus, Writable, hName]

variable [Zlib] {written : HttpResponse (Source ⊕ GZipDataSource Source)}

/-- A response with status 101 has its own fields only, and as much of its body as the first
buffer takes. -/
theorem responseHeader_switching (hStatus : response.statusCode = 101)
    (h : response.writeResponse requestHeaders = some written) :
    written.responseHeader = Framing.formatHead response.statusLine
        (response.headers.filter (fun header => !namesLength header)) ++ response.firstBytes := by
  have hGzip : response.gzip requestHeaders = false := by
    rw [← Bool.not_eq_true, gzip_iff]
    exact fun hAll => hAll.2.1 hStatus
  have hHead : response.scan.response ++ CRLF = Framing.formatHead response.statusLine
      (response.headers.filter (fun header => !namesLength header)) := by
    have hEnd : CRLF = Framing.crlf := by decide
    rw [scan, foldl_scanHeader_eq]
    simp [hEnd, Framing.formatHead]
  rw [← hHead]
  simp only [writeResponse, hGzip, encodeBody, framingLine, hStatus, Option.bind_eq_bind,
    Option.bind_some, Option.pure_def, if_true, true_and, Bool.false_eq_true, if_false,
    List.append_nil] at h
  cases hBody : response.pBody with
  | none =>
      simp only [hBody, Option.map_none, Option.some.injEq] at h
      simp [← h, firstBytes, hBody]
  | some body =>
      have hSize : DataSource.size (Sum.inl body : Source ⊕ GZipDataSource Source) =
          DataSource.size body := rfl
      simp only [hBody, Option.map_some, hSize] at h
      simp only [firstBytes, hBody, hStatus, true_and]
      split_ifs at h with hSmall
      · obtain ⟨⟨buffer, after⟩, hData, h⟩ := Option.bind_eq_some_iff.1 h
        obtain ⟨⟨bytes, rest⟩, hGiven, hSame⟩ := Option.map_eq_some_iff.1
          (show (DataSource.getData body (DataSource.size body)).map _ = _ from hData)
        obtain rfl : bytes = buffer := congrArg Prod.fst hSame
        rw [if_pos hSmall, hGiven, ← Option.some.inj h]
      · rw [if_neg hSmall, List.append_nil, ← Option.some.inj h]

/-- The bytes that are written before the body, for every status. -/
theorem responseHeader_block (hChunked : response.chunked = false)
    (h : response.writeResponse requestHeaders = some written) :
    written.responseHeader = Framing.formatHead response.statusLine
        (response.headers.filter (fun header => !namesLength header) ++
          response.bodyFields requestHeaders) ++ response.firstBytes := by
  by_cases hStatus : response.statusCode = 101
  · have hFields : response.bodyFields requestHeaders = [] := if_pos hStatus
    rw [hFields, List.append_nil, responseHeader_switching hStatus h]
  · rw [responseHeader_fields hStatus hChunked h, firstBytes_of_ne hStatus, List.append_nil,
      writtenFields, bodyFields, if_neg hStatus]

end Block

section Read

variable {Source : Type} [DataSource Source] [Zlib]
  {written : HttpResponse (Source ⊕ GZipDataSource Source)} {status : Int}
  {responseHeaders : ResponseHeaders} {body : Option Source} {now : Tm}

omit [DataSource Source] [Zlib] in
/-- What is written of the response as it was put together. -/
theorem listToResponse_closedIf (status : Int) (responseHeaders : ResponseHeaders)
    (body : Option Source) (now : Tm) (closing : Bool) :
    let response := (listToResponse status responseHeaders body now).closedIf closing
    response.statusCode = status ∧ response.status = getStatusDescription status ∧
      response.chunked = false ∧
      response.headers.filter (fun header => !namesLength header) =
        [(ascii "Date", httpDateString now)] ++ responseHeaders.filter (keepsField closing) ++
          closeFields closing := by
  intro response
  obtain ⟨hStatus, hText, -, hChunked⟩ :=
    closedIf_spec (listToResponse status responseHeaders body now) closing
  refine ⟨hStatus.trans ?_, hText.trans ?_, hChunked.trans ?_, ?_⟩
  · rw [listToResponse_eq]
    rfl
  · rw [listToResponse_eq]
    rfl
  · rw [listToResponse_eq]
    rfl
  · refine filter_headers_closedIf.trans ?_
    rw [listToResponse_eq, List.filter_cons_of_pos keepsField_date]
    rfl

/-- The fields of a response are read back one by one if and only if all of them are proper
ones. Nothing looks at them before they are written. -/
theorem readBlock_response_iff (closing : Bool) (requestHeaders : RequestHeaders)
    (h : ((listToResponse status responseHeaders body now).closedIf closing).writeResponse
      requestHeaders = some written) :
    let response := (listToResponse status responseHeaders body now).closedIf closing
    readBlock written.responseHeader =
        some (readBack [(ascii "Date", httpDateString now)] ++
          responseHeaders.filter (keepsField closing) ++
          readBack (closeFields closing ++ response.bodyFields requestHeaders),
          response.firstBytes) ↔
      (∀ header ∈ responseHeaders.filter (keepsField closing), Proper header) ∧
        (status ≠ 101 → response.gzip requestHeaders = false →
          isValue response.scan.contentLength = true) := by
  intro response
  obtain ⟨hStatus, hText, hChunked, hFields⟩ :=
    listToResponse_closedIf status responseHeaders body now closing
  have hStart : 13 ∉ response.statusLine := noCR_statusLine (hText.trans (by rw [hStatus]))
  have hBack : (∀ field ∈ closeFields closing ++ response.bodyFields requestHeaders,
      Writable field) ↔ (status ≠ 101 → response.gzip requestHeaders = false →
        isValue response.scan.contentLength = true) := by
    rw [List.forall_mem_append, writable_bodyFields, and_iff_right (writable_closeFields closing),
      hStatus]
  rw [responseHeader_block hChunked h, hFields, List.append_assoc (_ ++ _),
    Framing.readBlock_iff hStart (by simpa using writable_date now), hBack]

end Read

/-- A header on a line of its own. -/
theorem readBlock_one_header :
    let _ : Zlib := SampleStream.zlib
    ∃ written, ((listToResponse 200 [(ascii "Content-Type", ascii "text/plain")]
        (none : Option (Body InMemoryDataSource)) .epoch).closedIf false).writeResponse [] =
          some written ∧
      readBlock written.responseHeader =
        some (readBack [(ascii "Date", httpDateString .epoch)] ++
          [(ascii "Content-Type", ascii "text/plain")] ++ readBack [], []) := by
  intro zlib
  obtain ⟨written, hWritten⟩ := Option.isSome_iff_exists.1
    (show (((listToResponse 200 [(ascii "Content-Type", ascii "text/plain")]
      (none : Option (Body InMemoryDataSource)) .epoch).closedIf false).writeResponse []).isSome
        = true by decide +kernel)
  have hValue : ∀ header ∈ [(ascii "Content-Type", ascii "text/plain")].filter (keepsField false),
      Proper header := by
    simp only [Proper, Writable]
    decide
  exact ⟨written, hWritten,
    (readBlock_response_iff false [] hWritten).2 ⟨hValue, fun _ _ => by decide⟩⟩

/-- What is read back of a response with these headers and no body. -/
def sentFields (responseHeaders : ResponseHeaders) (closing : Bool) :
    Option (ResponseHeaders × Bytes) :=
  let _ : Zlib := SampleStream.zlib
  (((listToResponse 200 responseHeaders (none : Option (Body InMemoryDataSource))
    .epoch).closedIf closing).writeResponse []).bind (fun written => readBlock written.responseHeader)

/-- A line end in a value makes a second field of one header, or the end of the block. And
the header of the application on the connection gives way to the one of the server. -/
theorem header_not_read_back :
    sentFields [(ascii "X-Name", ascii "a\r\nSet-Cookie: b")] false =
        some ([(ascii "Date", httpDateString .epoch), (ascii "X-Name", ascii "a"),
          (ascii "Set-Cookie", ascii "b")], []) ∧
      sentFields [(ascii "X-Name", ascii "a\r\n\r\nb")] false =
        some ([(ascii "Date", httpDateString .epoch), (ascii "X-Name", ascii "a")],
          ascii "b\r\n\r\n") ∧
      sentFields [(ascii "Connection", ascii "upgrade")] true =
        some ([(ascii "Date", httpDateString .epoch), (ascii "Connection", ascii "close")], []) :=
  ⟨by decide +kernel, by decide +kernel, by decide +kernel⟩

end Httpuv.HttpResponse
