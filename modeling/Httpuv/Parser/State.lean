import Httpuv.Parser.Characters

/-! `struct http_parser` for a parser of requests, and what is computed from it. -/
namespace Httpuv

namespace RequestParser

/-- `enum state`. The states of responses are left out, and so is
`s_body_identity_eof`, which requests do not get to. -/
inductive State where
  | dead
  | startReq
  | reqMethod
  | reqSpacesBeforeUrl
  | reqSchema
  | reqSchemaSlash
  | reqSchemaSlashSlash
  | reqServerStart
  | reqServer
  | reqServerWithAt
  | reqPath
  | reqQueryStringStart
  | reqQueryString
  | reqFragmentStart
  | reqFragment
  | reqHttpStart
  | reqHttpH
  | reqHttpHT
  | reqHttpHTT
  | reqHttpHTTP
  | reqFirstHttpMajor
  | reqHttpMajor
  | reqFirstHttpMinor
  | reqHttpMinor
  | reqLineAlmostDone
  | headerFieldStart
  | headerField
  | headerValueDiscardWs
  | headerValueDiscardWsAlmostDone
  | headerValueDiscardLws
  | headerValueStart
  | headerValue
  | headerValueLws
  | headerAlmostDone
  | chunkSizeStart
  | chunkSize
  | chunkParameters
  | chunkSizeAlmostDone
  | headersAlmostDone
  | waitForOnHeadersCompleted
  | onHeadersCompleted
  | headersDone
  | chunkData
  | chunkDataAlmostDone
  | chunkDataDone
  | bodyIdentity
  | messageDone
  deriving DecidableEq, Repr

/-- `enum header_states` -/
inductive HeaderState where
  | general
  | C
  | CO
  | CON
  | matchingConnection
  | matchingProxyConnection
  | matchingContentLength
  | matchingTransferEncoding
  | matchingUpgrade
  | connection
  | contentLength
  | transferEncoding
  | upgrade
  | matchingTransferEncodingChunked
  | matchingConnectionTokenStart
  | matchingConnectionKeepAlive
  | matchingConnectionClose
  | matchingConnectionUpgrade
  | matchingConnectionToken
  | transferEncodingChunked
  | connectionKeepAlive
  | connectionClose
  | connectionUpgrade
  deriving DecidableEq, Repr

/-- The errors of `enum http_errno` that a parser of requests sets. -/
inductive Errno where
  | ok
  | cbHeadersComplete
  | reentrantCall
  | invalidEofState
  | headerOverflow
  | closedConnection
  | invalidVersion
  | invalidMethod
  | invalidUrl
  | lfExpected
  | invalidHeaderToken
  | invalidContentLength
  | unexpectedContentLength
  | invalidChunkSize
  | invalidConstant
  | strict
  | paused
  deriving DecidableEq, Repr

/-- `enum http_method` -/
inductive Method where
  | delete
  | get
  | head
  | post
  | put
  | connect
  | options
  | trace
  | copy
  | lock
  | mkcol
  | move
  | propfind
  | proppatch
  | search
  | unlock
  | bind
  | rebind
  | unbind
  | acl
  | report
  | mkactivity
  | checkout
  | merge
  | msearch
  | notify
  | subscribe
  | unsubscribe
  | patch
  | purge
  | mkcalendar
  | link
  | unlink
  deriving DecidableEq, Repr

/-- `method_strings`, and `http_method_str` -/
def Method.string : Method → Bytes
  | .delete => ascii "DELETE"
  | .get => ascii "GET"
  | .head => ascii "HEAD"
  | .post => ascii "POST"
  | .put => ascii "PUT"
  | .connect => ascii "CONNECT"
  | .options => ascii "OPTIONS"
  | .trace => ascii "TRACE"
  | .copy => ascii "COPY"
  | .lock => ascii "LOCK"
  | .mkcol => ascii "MKCOL"
  | .move => ascii "MOVE"
  | .propfind => ascii "PROPFIND"
  | .proppatch => ascii "PROPPATCH"
  | .search => ascii "SEARCH"
  | .unlock => ascii "UNLOCK"
  | .bind => ascii "BIND"
  | .rebind => ascii "REBIND"
  | .unbind => ascii "UNBIND"
  | .acl => ascii "ACL"
  | .report => ascii "REPORT"
  | .mkactivity => ascii "MKACTIVITY"
  | .checkout => ascii "CHECKOUT"
  | .merge => ascii "MERGE"
  | .msearch => ascii "M-SEARCH"
  | .notify => ascii "NOTIFY"
  | .subscribe => ascii "SUBSCRIBE"
  | .unsubscribe => ascii "UNSUBSCRIBE"
  | .patch => ascii "PATCH"
  | .purge => ascii "PURGE"
  | .mkcalendar => ascii "MKCALENDAR"
  | .link => ascii "LINK"
  | .unlink => ascii "UNLINK"

/-- `enum flags`, as the bits of a word. -/
structure Flags where
  chunked : Bool
  connectionKeepAlive : Bool
  connectionClose : Bool
  connectionUpgrade : Bool
  trailing : Bool
  upgrade : Bool
  skipBody : Bool
  contentLength : Bool
  deriving DecidableEq, Repr

def Flags.none : Flags where
  chunked := false
  connectionKeepAlive := false
  connectionClose := false
  connectionUpgrade := false
  trailing := false
  upgrade := false
  skipBody := false
  contentLength := false

/-- `ULLONG_MAX`, which stands for a content length that is not known. -/
def ULLONG_MAX : Nat := 2 ^ 64 - 1

/-- `HTTP_MAX_HEADER_SIZE` -/
def HTTP_MAX_HEADER_SIZE : Nat := 80 * 1024

end RequestParser

/-- `struct http_parser` of type `HTTP_REQUEST`. `index` has seven bits, `nread`
has 32 and `contentLength` 64. -/
structure RequestParser where
  flags : RequestParser.Flags
  state : RequestParser.State
  headerState : RequestParser.HeaderState
  index : Nat
  nread : Nat
  contentLength : Nat
  httpMajor : Nat
  httpMinor : Nat
  method : RequestParser.Method
  httpErrno : RequestParser.Errno
  upgrade : Bool
  headersStatus : Int
  isRunning : Bool
  deriving DecidableEq, Repr

namespace RequestParser

/-- `PARSING_HEADER` -/
def State.parsingHeader : State → Bool
  | .chunkData | .chunkDataAlmostDone | .chunkDataDone | .bodyIdentity | .messageDone => false
  | _ => true

/-- `http_parser_init` -/
def init : RequestParser where
  flags := .none
  state := .startReq
  headerState := .general
  index := 0
  nread := 0
  contentLength := 0
  httpMajor := 0
  httpMinor := 0
  method := .delete
  httpErrno := .ok
  upgrade := false
  headersStatus := -1
  isRunning := false

/-- `http_should_keep_alive`. A request does not need the end of the stream to
find its own end. -/
def shouldKeepAlive (parser : RequestParser) : Bool :=
  if 0 < parser.httpMajor ∧ 0 < parser.httpMinor then !parser.flags.connectionClose
  else parser.flags.connectionKeepAlive

/-- `NEW_MESSAGE()` in strict mode. -/
def newMessage (parser : RequestParser) : State :=
  if parser.shouldKeepAlive then .startReq else .dead

/-- `http_parser_waiting_for_headers_completed` -/
def waitingForHeadersCompleted (parser : RequestParser) : Bool :=
  parser.state = .waitForOnHeadersCompleted

/-- `http_parser_headers_completed` -/
def headersCompleted (parser : RequestParser) (status : Int) : RequestParser :=
  { parser with headersStatus := status, state := .onHeadersCompleted }

/-- `http_parser_pause(parser, 1)` -/
def pause (parser : RequestParser) : RequestParser :=
  if parser.httpErrno = .ok ∨ parser.httpErrno = .paused then { parser with httpErrno := .paused }
  else parser

/-- `parse_url_char` -/
def parseUrlChar (s : State) (ch : UInt8) : State :=
  if ch = chr ' ' ∨ ch = CR ∨ ch = LF ∨ ch = chr '\t' ∨ ch = 12 then .dead
  else
    match s with
    | .reqSpacesBeforeUrl =>
        if ch = chr '/' ∨ ch = chr '*' then .reqPath
        else if isAlpha ch then .reqSchema
        else .dead
    | .reqSchema =>
        if isAlpha ch then s
        else if ch = chr ':' then .reqSchemaSlash
        else .dead
    | .reqSchemaSlash => if ch = chr '/' then .reqSchemaSlashSlash else .dead
    | .reqSchemaSlashSlash => if ch = chr '/' then .reqServerStart else .dead
    | .reqServerWithAt => if ch = chr '@' then .dead else server ch
    | .reqServerStart | .reqServer => server ch
    | .reqPath =>
        if isUrlChar ch then s
        else if ch = chr '?' then .reqQueryStringStart
        else if ch = chr '#' then .reqFragmentStart
        else .dead
    | .reqQueryStringStart | .reqQueryString =>
        if isUrlChar ch then .reqQueryString
        else if ch = chr '?' then .reqQueryString
        else if ch = chr '#' then .reqFragmentStart
        else .dead
    | .reqFragmentStart =>
        if isUrlChar ch then .reqFragment
        else if ch = chr '?' then .reqFragment
        else if ch = chr '#' then s
        else .dead
    | .reqFragment =>
        if isUrlChar ch then s
        else if ch = chr '?' ∨ ch = chr '#' then s
        else .dead
    | _ => .dead
where
  /-- The cases that `s_req_server_with_at` falls through to. -/
  server (ch : UInt8) : State :=
    if ch = chr '/' then .reqPath
    else if ch = chr '?' then .reqQueryStringStart
    else if ch = chr '@' then .reqServerWithAt
    else if isUserinfoChar ch ∨ ch = chr '[' ∨ ch = chr ']' then .reqServer
    else .dead

end RequestParser

end Httpuv
