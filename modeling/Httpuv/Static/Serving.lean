import Httpuv.Http.Connection
import Httpuv.Static.FileDataSource
import Httpuv.Static.ParseDate
import Httpuv.Static.StaticPath

/-! `RWebApplication::staticFileResponse`: the answer to a request for a file. -/
namespace Httpuv

/-- `gmtime_r` of the C library. -/
class Calendar where
  gmtime_r : Int → Tm

/-- The table of types that is generated for `mime.cpp`. An extension that is not
in it has the empty type. -/
class MimeMap where
  find_mime_type : Bytes → Bytes

/-- A null pointer falls through to R. A result is undefined where an option is
read that is not set, or the validation pattern is none. -/
inductive StaticResult (File : Type) where
  | fallThrough
  | response (response : HttpResponse (Body File))
  | undefined

/-- The result, with the pathnames that `is_directory` and `initialize` were
given on the way. -/
structure StaticAnswer (File : Type) where
  pathnames : List Bytes
  result : StaticResult File

section Serving

variable {Descriptor : Type} [FileSystem Descriptor] [Calendar] [MimeMap]

/-- The type of a file, with the encoding of a page. -/
def contentType (options : StaticPathOptions) (local_path : Bytes) : Option Bytes :=
  let content_type := MimeMap.find_mime_type (find_extension (basename local_path))
  if content_type = [] then some (ascii "application/octet-stream")
  else if content_type = ascii "text/html" then
    options.html_charset.map (fun html_charset =>
      if html_charset ≠ [] then ascii "text/html; charset=" ++ html_charset else content_type)
  else some content_type

/-- The headers of the options that a 304 response has as well. -/
def keptNotModified (header : Bytes × Bytes) : Bool :=
  [ascii "Cache-Control", ascii "Content-Location", ascii "ETag", ascii "Expires",
    ascii "Vary"].contains header.1

/-- Whether the file has not changed since the client got it. -/
def clientCacheIsValid (headers : RequestHeaders) (source : FileDataSource Descriptor) : Bool :=
  match headers.find (ascii "If-Modified-Since") with
  | some date =>
      let file_mtime := source.getMtime
      let if_mod_since := parse_http_date_string date
      file_mtime != 0 && if_mod_since != 0 && decide (file_mtime ≤ if_mod_since)
  | none => false

/-- The response with a file that has been opened. -/
def fileResponse (options : StaticPathOptions) (method : Bytes) (headers : RequestHeaders)
    (now : Tm) (local_path : Bytes) (source : FileDataSource Descriptor) :
    StaticResult (FileDataSource Descriptor) :=
  match contentType options local_path, options.headers with
  | some content_type, some extraRespHeaders =>
      let unchanged := clientCacheIsValid headers source
      let status_code := if unchanged then 304 else 200
      let pDataSource2 :=
        if method = ascii "HEAD" ∨ unchanged then none else some (Sum.inr source)
      let pResponse : HttpResponse (Body (FileDataSource Descriptor)) :=
        HttpResponse.construct status_code (getStatusDescription status_code) pDataSource2 now
      let added :=
        if unchanged then extraRespHeaders.filter keptNotModified
        else extraRespHeaders ++
          [(ascii "Content-Length", Framing.Numeral.format 10 (DataSource.size source)),
            (ascii "Content-Type", content_type),
            (ascii "Last-Modified", httpDateString (Calendar.gmtime_r source.getMtime))]
      .response { pResponse with headers := pResponse.headers ++ added }
  | _, _ => .undefined

/-- Falling through, if that is the option, or an error. -/
def fallThroughOr (options : StaticPathOptions) (code : Int) (now : Tm) :
    StaticResult (FileDataSource Descriptor) :=
  match options.fallthrough with
  | some true => .fallThrough
  | some false => .response (AppAnswer.error_response code now)
  | none => .undefined

/-- From `FileDataSource::initialize` on. -/
def serveFile (options : StaticPathOptions) (method : Bytes) (headers : RequestHeaders) (now : Tm)
    (local_path : Bytes) : StaticResult (FileDataSource Descriptor) :=
  match FileDataSource.initializeFrom local_path with
  | (.ok, some source) => fileResponse options method headers now local_path source
  | (.notExist, _) => fallThroughOr options 404 now
  | (.isDir, _) => fallThroughOr options 404 now
  | _ => .response (AppAnswer.error_response 500 now)

/-- From the choice of the path to the local file on. -/
def serveLocal (sp : StaticPath) (subpath method : Bytes) (headers : RequestHeaders) (now : Tm) :
    StaticAnswer (FileDataSource Descriptor) :=
  let local_path := sp.path ++ if subpath ≠ [] then ascii "/" ++ subpath else []
  let serve (looked : List Bytes) (local_path : Bytes) :
      StaticAnswer (FileDataSource Descriptor) :=
    { pathnames := looked ++ [local_path]
      result := serveFile sp.options method headers now local_path }
  if isDirectory Descriptor local_path then
    match sp.options.indexhtml with
    | some true => serve [local_path] (local_path ++ ascii "/" ++ ascii "index.html")
    | some false => serve [local_path] local_path
    | none => { pathnames := [local_path], result := .undefined }
  else serve [local_path] local_path

/-- A message body is not expected here. -/
def hasMessageBody (headers : RequestHeaders) : Bool :=
  (headers.has (ascii "Content-Length") &&
    headers.find (ascii "Content-Length") != some (ascii "0")) ||
    headers.has (ascii "Transfer-Encoding")

/-- `..` between two slashes, or at the end of the URL. -/
def hasDotDot (url_path : Bytes) : Bool :=
  decide (ascii "/../" <:+: url_path) || decide (ascii "/.." <:+ url_path)

/-- The path of a URL as it is matched. -/
def urlPath (url : Bytes) : Bytes := doDecodeURI (splitQueryString url).1 true

def staticFileResponse (manager : StaticPathManager) (method : Bytes) (head : RequestHead)
    (now : Tm) : StaticAnswer (FileDataSource Descriptor) :=
  let answer (result : StaticResult (FileDataSource Descriptor)) :
      StaticAnswer (FileDataSource Descriptor) := { pathnames := [], result }
  if head.headers.has (ascii "Upgrade") then answer .fallThrough
  else
    match manager.matchStaticPath (urlPath head.url) with
    | none => answer .fallThrough
    | some (sp, subpath) =>
        match sp.options.exclude with
        | none => answer .undefined
        | some true => answer .fallThrough
        | some false =>
            match sp.options.validateRequestHeaders head.headers with
            | none => answer .undefined
            | some false => answer (.response (AppAnswer.error_response 403 now))
            | some true =>
                if method ≠ ascii "GET" ∧ method ≠ ascii "HEAD" then
                  answer (.response (AppAnswer.error_response 400 now))
                else if hasMessageBody head.headers then
                  answer (.response (AppAnswer.error_response 400 now))
                else if hasDotDot (urlPath head.url) then
                  answer (fallThroughOr sp.options 400 now)
                else serveLocal sp subpath method head.headers now

end Serving

end Httpuv
