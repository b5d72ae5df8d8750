import Httpuv.Http.Date
import Httpuv.Http.ExtendedWrite
import Httpuv.Http.GZipDataSource

/-! `HttpResponse`: the header block of a response and the choice of its
content coding and of its framing. -/
namespace Httpuv

def getStatusDescription (code : Int) : Bytes :=
  match code with
  | 100 => ascii "Continue"
  | 101 => ascii "Switching Protocols"
  | 200 => ascii "OK"
  | 201 => ascii "Created"
  | 202 => ascii "Accepted"
  | 203 => ascii "Non-Authoritative Information"
  | 204 => ascii "No Content"
  | 205 => ascii "Reset Content"
  | 206 => ascii "Partial Content"
  | 300 => ascii "Multiple Choices"
  | 301 => ascii "Moved Permanently"
  | 302 => ascii "Found"
  | 303 => ascii "See Other"
  | 304 => ascii "Not Modified"
  | 305 => ascii "Use Proxy"
  | 307 => ascii "Temporary Redirect"
  | 400 => ascii "Bad Request"
  | 401 => ascii "Unauthorized"
  | 402 => ascii "Payment Required"
  | 403 => ascii "Forbidden"
  | 404 => ascii "Not Found"
  | 405 => ascii "Method Not Allowed"
  | 406 => ascii "Not Acceptable"
  | 407 => ascii "Proxy Authentication Required"
  | 408 => ascii "Request Timeout"
  | 409 => ascii "Conflict"
  | 410 => ascii "Gone"
  | 411 => ascii "Length Required"
  | 412 => ascii "Precondition Failed"
  | 413 => ascii "Request Entity Too Large"
  | 414 => ascii "Request-URI Too Long"
  | 415 => ascii "Unsupported Media Type"
  | 416 => ascii "Requested Range Not Satisifable"
  | 417 => ascii "Expectation Failed"
  | 500 => ascii "Internal Server Error"
  | 501 => ascii "Not Implemented"
  | 502 => ascii "Bad Gateway"
  | 503 => ascii "Service Unavailable"
  | 504 => ascii "Gateway Timeout"
  | 505 => ascii "HTTP Version Not Supported"
  | _ => ascii "Dunno"

/-- A body as it was given, or wrapped by the server. -/
instance {Source Wrapper : Type} [DataSource Source] [DataSource Wrapper] :
    DataSource (Source ⊕ Wrapper) where
  size
    | .inl source => DataSource.size source
    | .inr wrapper => DataSource.size wrapper
  getData
    | .inl source, desired =>
        (DataSource.getData source desired).map (fun result => (result.1, .inl result.2))
    | .inr wrapper, desired =>
        (DataSource.getData wrapper desired).map (fun result => (result.1, .inr result.2))

structure HttpResponse (Source : Type) where
  statusCode : Int
  status : Bytes
  headers : ResponseHeaders
  responseHeader : Bytes
  pBody : Option Source
  closeAfterWritten : Bool
  chunked : Bool
  deriving DecidableEq, Repr

namespace HttpResponse

variable {Source : Type}

def construct (statusCode : Int) (status : Bytes) (pBody : Option Source) (now : Tm) :
    HttpResponse Source where
  statusCode := statusCode
  status := status
  headers := [(ascii "Date", httpDateString now)]
  responseHeader := []
  pBody := pBody
  closeAfterWritten := false
  chunked := false

def addHeader (response : HttpResponse Source) (name value : Bytes) : HttpResponse Source :=
  { response with headers := response.headers ++ [(name, value)] }

/-- Replaces every header of the name. The new one comes last. -/
def setHeader (response : HttpResponse Source) (name value : Bytes) : HttpResponse Source :=
  let kept := response.headers.filter (fun header => !strcaseEq header.1 name)
  addHeader { response with headers := kept } name value

/-- The method `closeAfterWritten`. -/
def requestClose (response : HttpResponse Source) : HttpResponse Source :=
  { response.setHeader (ascii "Connection") (ascii "close") with closeAfterWritten := true }

/-- The local variables of `writeResponse` while it goes through the headers. -/
structure HeaderScan where
  response : Bytes
  contentEncoding : Bool
  contentLength : Bytes
  deriving DecidableEq, Repr

def scanHeader (scan : HeaderScan) (header : Bytes × Bytes) : HeaderScan :=
  if strcaseEq header.1 (ascii "Content-Length") then { scan with contentLength := header.2 }
  else
    { scan with
      response := scan.response ++ (header.1 ++ ascii ": " ++ header.2 ++ CRLF)
      contentEncoding := scan.contentEncoding || strcaseEq header.1 (ascii "Content-Encoding") }

def statusLine (response : HttpResponse Source) : Bytes :=
  ascii "HTTP/1.1 " ++ formatInt response.statusCode ++ ascii " " ++ response.status

def scan (response : HttpResponse Source) : HeaderScan :=
  response.headers.foldl scanHeader
    { response := response.statusLine ++ CRLF, contentEncoding := false, contentLength := [] }

/-- Whether the response is compressed. -/
def gzip (response : HttpResponse Source) (requestHeaders : RequestHeaders) : Bool :=
  if response.scan.contentEncoding then false
  else if response.statusCode = 101 ∨ response.pBody.isNone then false
  else
    match requestHeaders.find (ascii "Accept-Encoding") with
    | some enc => decide (ascii "gzip" <:+: enc)
    | none => false

/-- `listToResponse` behind the choice of the body. -/
def listToResponse (status : Int) (responseHeaders : ResponseHeaders) (pDataSource : Option Source)
    (now : Tm) : HttpResponse Source :=
  responseHeaders.foldl (fun pResp header => pResp.addHeader header.1 header.2)
    (construct status (getStatusDescription status) pDataSource now)

variable [DataSource Source] [Zlib]

/-- The header that tells where the body ends. -/
def framingLine (response : HttpResponse Source) (contentLength : Bytes) : Bytes :=
  if response.statusCode = 101 then []
  else if response.chunked then ascii "Transfer-Encoding: chunked" ++ CRLF
  else if contentLength ≠ [] then ascii "Content-Length: " ++ contentLength ++ CRLF
  else
    match response.pBody with
    | some body =>
        ascii "Content-Length: " ++ Framing.Numeral.format 10 (DataSource.size body) ++ CRLF
    | none => []

/-- The body wrapped in a compressor, or left as it is. -/
def encodeBody (response : HttpResponse Source) (gzip : Bool) :
    Option (HttpResponse (Source ⊕ GZipDataSource Source)) :=
  match gzip, response.pBody with
  | true, some body => do
      let wrapped ← GZipDataSource.construct body
      return { response with pBody := some (.inr wrapped), chunked := true }
  | _, body => some { response with pBody := body.map .inl }

/-- `writeResponse` up to its `uv_write`, which is given `responseHeader`. -/
def writeResponse (response : HttpResponse Source) (requestHeaders : RequestHeaders) :
    Option (HttpResponse (Source ⊕ GZipDataSource Source)) := do
  let scan := response.scan
  let gzip := response.gzip requestHeaders
  let response ← response.encodeBody gzip
  let responseStr := scan.response ++ (if gzip then ascii "Content-Encoding: gzip" ++ CRLF else []) ++
    response.framingLine scan.contentLength ++ CRLF
  match response.pBody with
  | some body =>
      -- first bytes of the switched-to protocol
      if response.statusCode = 101 ∧ 0 < DataSource.size body ∧ DataSource.size body < 256 then do
        let (buffer, body) ← DataSource.getData body (DataSource.size body)
        return { response with
          responseHeader := responseStr ++ buffer
          pBody := if buffer.length = DataSource.size body then none else some body }
      else return { response with responseHeader := responseStr }
  | none => return { response with responseHeader := responseStr }

/-- What `onResponseWritten` starts, if anything. -/
def onResponseWritten (response : HttpResponse Source) (status : Int) :
    Option (WriteState Source) :=
  if status ≠ 0 then none
  else response.pBody.map (fun body => WriteState.construct body response.chunked)

end HttpResponse

end Httpuv
