import Httpuv.Http.HttpParser
import Httpuv.Parser.State

/-! The cases of the switch of `http_parser_execute` that look at one byte. A case
that another one reexecutes or falls through to is a function that it calls. -/
namespace Httpuv.RequestParser

/-- The data callbacks. Each has a mark in `http_parser_execute`. -/
inductive DataCallback where
  | headerField
  | headerValue
  | url
  | body
  deriving DecidableEq, Repr

def DataCallback.event : DataCallback → Bytes → ParserEvent
  | .headerField => .onHeaderField
  | .headerValue => .onHeaderValue
  | .url => .onUrl
  | .body => .onBody

/-- `MARK`, `CALLBACK_DATA` and `CALLBACK_NOTIFY`. There are no callbacks for the
headers and the ends of chunks. -/
inductive Call where
  | mark (callback : DataCallback)
  | data (callback : DataCallback)
  | notify (event : ParserEvent)
  deriving DecidableEq, Repr

/-- How a case is left: by `break`, by `goto error`, or by `RETURN` with or
without the current byte. -/
inductive Control where
  | next
  | error
  | stop (consumed : Bool)
  deriving DecidableEq, Repr

/-- What a case does: the members it leaves behind and the macros it runs. -/
structure Effect where
  parser : RequestParser
  calls : List Call
  control : Control
  deriving DecidableEq, Repr

def go (parser : RequestParser) (calls : List Call) : Effect := ⟨parser, calls, .next⟩

/-- `SET_ERRNO` and `goto error` -/
def fail (parser : RequestParser) (calls : List Call) (error : Errno) : Effect :=
  ⟨{ parser with httpErrno := error }, calls, .error⟩

/-- `STRICT_CHECK(ch != expected)` -/
def strictCheck (parser : RequestParser) (ch expected : UInt8) (effect : Effect) : Effect :=
  if ch ≠ expected then parser.fail [] .strict else effect

/-- `s_dead` -/
def dead (parser : RequestParser) (ch : UInt8) : Effect :=
  if ch = CR ∨ ch = LF then parser.go [] else parser.fail [] .closedConnection

/-- The method that is tried first for a method that starts with a letter. -/
def firstMethods : List (UInt8 × Method) :=
  [(chr 'A', .acl), (chr 'B', .bind), (chr 'C', .connect), (chr 'D', .delete), (chr 'G', .get),
    (chr 'H', .head), (chr 'L', .lock), (chr 'M', .mkcol), (chr 'N', .notify),
    (chr 'O', .options), (chr 'P', .post), (chr 'R', .report), (chr 'S', .subscribe),
    (chr 'T', .trace), (chr 'U', .unlock)]

/-- `s_start_req` -/
def startReq (parser : RequestParser) (ch : UInt8) : Effect :=
  if ch = CR ∨ ch = LF then parser.go []
  else
    let parser :=
      { parser with flags := .none, headersStatus := -1, contentLength := ULLONG_MAX }
    if !isAlpha ch then parser.fail [] .invalidMethod
    else
      let parser := { parser with method := .delete, index := 1 }
      match firstMethods.find? (fun entry => entry.1 == ch) with
      | none => parser.fail [] .invalidMethod
      | some entry =>
          { parser with method := entry.2, state := .reqMethod }.go [.notify .onMessageBegin]

/-- The switch over method, index and character. -/
def methodChanges : List ((Method × Nat × UInt8) × Method) :=
  [((.post, 1, chr 'U'), .put), ((.post, 1, chr 'A'), .patch),
    ((.connect, 1, chr 'H'), .checkout), ((.connect, 2, chr 'P'), .copy),
    ((.mkcol, 1, chr 'O'), .move), ((.mkcol, 1, chr 'E'), .merge),
    ((.mkcol, 2, chr 'A'), .mkactivity), ((.mkcol, 3, chr 'A'), .mkcalendar),
    ((.subscribe, 1, chr 'E'), .search), ((.report, 2, chr 'B'), .rebind),
    ((.post, 1, chr 'R'), .propfind), ((.propfind, 4, chr 'P'), .proppatch),
    ((.put, 2, chr 'R'), .purge), ((.lock, 1, chr 'I'), .link),
    ((.unlock, 2, chr 'S'), .unsubscribe), ((.unlock, 2, chr 'B'), .unbind),
    ((.unlock, 3, chr 'I'), .unlink)]

/-- The successor of `index`. -/
def nextIndex (parser : RequestParser) : Nat := (parser.index + 1) % 2 ^ 7

/-- `s_req_method`. A method ends with a NUL. -/
def reqMethod (parser : RequestParser) (ch : UInt8) : Effect :=
  if ch = 0 then parser.fail [] .invalidMethod
  else
    let expected := parser.method.string.getD parser.index 0
    let advanced := { parser with index := parser.nextIndex }
    if ch = chr ' ' ∧ expected = 0 then { advanced with state := .reqSpacesBeforeUrl }.go []
    else if ch = expected then advanced.go []
    else if isAlpha ch then
      match methodChanges.find? (fun entry => entry.1 == (parser.method, parser.index, ch)) with
      | some entry => { advanced with method := entry.2 }.go []
      | none => parser.fail [] .invalidMethod
    else if ch = chr '-' ∧ parser.index = 1 ∧ parser.method = .mkcol then
      { advanced with method := .msearch }.go []
    else parser.fail [] .invalidMethod

/-- `UPDATE_STATE(parse_url_char(CURRENT_STATE(), ch))` and the check behind it. -/
def urlChar (parser : RequestParser) (calls : List Call) (ch : UInt8) : Effect :=
  let parser := { parser with state := parseUrlChar parser.state ch }
  if parser.state = .dead then parser.fail calls .invalidUrl else parser.go calls

/-- `s_req_spaces_before_url` -/
def reqSpacesBeforeUrl (parser : RequestParser) (ch : UInt8) : Effect :=
  if ch = chr ' ' then parser.go []
  else if parser.method = .connect then
    { parser with state := .reqServerStart }.urlChar [.mark .url] ch
  else parser.urlChar [.mark .url] ch

/-- `s_req_schema` to `s_req_server_start` -/
def reqSchema (parser : RequestParser) (ch : UInt8) : Effect :=
  if ch = chr ' ' ∨ ch = CR ∨ ch = LF then parser.fail [] .invalidUrl else parser.urlChar [] ch

/-- `s_req_server` to `s_req_fragment` -/
def reqServer (parser : RequestParser) (ch : UInt8) : Effect :=
  if ch = chr ' ' then { parser with state := .reqHttpStart }.go [.data .url]
  else if ch = CR ∨ ch = LF then
    { parser with
      httpMajor := 0
      httpMinor := 9
      state := if ch = CR then .reqLineAlmostDone else .headerFieldStart }.go [.data .url]
  else parser.urlChar [] ch

/-- `s_req_http_start` -/
def reqHttpStart (parser : RequestParser) (ch : UInt8) : Effect :=
  if ch = chr 'H' then { parser with state := .reqHttpH }.go []
  else if ch = chr ' ' then parser.go []
  else parser.fail [] .invalidConstant

/-- `s_req_http_H` -/
def reqHttpH (parser : RequestParser) (ch : UInt8) : Effect :=
  parser.strictCheck ch (chr 'T') ({ parser with state := .reqHttpHT }.go [])

/-- `s_req_http_HT` -/
def reqHttpHT (parser : RequestParser) (ch : UInt8) : Effect :=
  parser.strictCheck ch (chr 'T') ({ parser with state := .reqHttpHTT }.go [])

/-- `s_req_http_HTT` -/
def reqHttpHTT (parser : RequestParser) (ch : UInt8) : Effect :=
  parser.strictCheck ch (chr 'P') ({ parser with state := .reqHttpHTTP }.go [])

/-- `s_req_http_HTTP` -/
def reqHttpHTTP (parser : RequestParser) (ch : UInt8) : Effect :=
  parser.strictCheck ch (chr '/') ({ parser with state := .reqFirstHttpMajor }.go [])

/-- `s_req_first_http_major` -/
def reqFirstHttpMajor (parser : RequestParser) (ch : UInt8) : Effect :=
  if ch < chr '1' ∨ chr '9' < ch then parser.fail [] .invalidVersion
  else { parser with httpMajor := digit ch, state := .reqHttpMajor }.go []

/-- `s_req_http_major`. A number below ten thousand fits into an `unsigned short`. -/
def reqHttpMajor (parser : RequestParser) (ch : UInt8) : Effect :=
  if ch = chr '.' then { parser with state := .reqFirstHttpMinor }.go []
  else if !isNum ch then parser.fail [] .invalidVersion
  else
    let parser := { parser with httpMajor := parser.httpMajor * 10 + digit ch }
    if 999 < parser.httpMajor then parser.fail [] .invalidVersion else parser.go []

/-- `s_req_first_http_minor` -/
def reqFirstHttpMinor (parser : RequestParser) (ch : UInt8) : Effect :=
  if !isNum ch then parser.fail [] .invalidVersion
  else { parser with httpMinor := digit ch, state := .reqHttpMinor }.go []

/-- `s_req_http_minor` -/
def reqHttpMinor (parser : RequestParser) (ch : UInt8) : Effect :=
  if ch = CR then { parser with state := .reqLineAlmostDone }.go []
  else if ch = LF then { parser with state := .headerFieldStart }.go []
  else if !isNum ch then parser.fail [] .invalidVersion
  else
    let parser := { parser with httpMinor := parser.httpMinor * 10 + digit ch }
    if 999 < parser.httpMinor then parser.fail [] .invalidVersion else parser.go []

/-- `s_req_line_almost_done` -/
def reqLineAlmostDone (parser : RequestParser) (ch : UInt8) : Effect :=
  if ch ≠ LF then parser.fail [] .lfExpected else { parser with state := .headerFieldStart }.go []

/-- `s_message_done` -/
def messageDone (parser : RequestParser) : Effect :=
  let parser := { parser with state := parser.newMessage }
  ⟨parser, [.notify .onMessageComplete], if parser.upgrade then .stop true else .next⟩

/-- `s_headers_almost_done`, with the reexecution of `s_message_done` or of
`s_wait_for_on_headers_completed`. The callback goes by `F_UPGRADE` as well as by
`upgrade`. -/
def headersAlmostDone (parser : RequestParser) (ch : UInt8) : Effect :=
  parser.strictCheck ch LF
    (if parser.flags.trailing then { parser with state := .messageDone }.messageDone
    else if parser.flags.chunked ∧ parser.flags.contentLength then
      parser.fail [] .unexpectedContentLength
    else
      let upgrade := parser.flags.upgrade && parser.flags.connectionUpgrade ||
        parser.method = .connect
      ⟨{ parser with upgrade, state := .waitForOnHeadersCompleted },
        [.notify (.onHeadersComplete (upgrade || parser.flags.upgrade))], .stop false⟩)

/-- `s_header_field_start` -/
def headerFieldStart (parser : RequestParser) (ch : UInt8) : Effect :=
  if ch = CR then { parser with state := .headersAlmostDone }.go []
  else if ch = LF then { parser with state := .headersAlmostDone }.headersAlmostDone ch
  else
    let c := tokens ch
    if c = 0 then parser.fail [] .invalidHeaderToken
    else
      { parser with
        index := 0
        state := .headerField
        headerState :=
          if c = chr 'c' then .C
          else if c = chr 'p' then .matchingProxyConnection
          else if c = chr 't' then .matchingTransferEncoding
          else if c = chr 'u' then .matchingUpgrade
          else .general }.go [.mark .headerField]

/-- `s_header_value_start` -/
def headerValueStart (parser : RequestParser) (ch : UInt8) : Effect :=
  let parser := { parser with state := .headerValue, index := 0 }
  let c := lower ch
  match parser.headerState with
  | .upgrade =>
      { parser with
        flags := { parser.flags with upgrade := true }
        headerState := .general }.go [.mark .headerValue]
  | .transferEncoding =>
      { parser with
        headerState :=
          if c = chr 'c' then .matchingTransferEncodingChunked
          else .general }.go [.mark .headerValue]
  | .contentLength =>
      if !isNum ch then parser.fail [.mark .headerValue] .invalidContentLength
      else if parser.flags.contentLength then
        parser.fail [.mark .headerValue] .unexpectedContentLength
      else
        { parser with
          flags := { parser.flags with contentLength := true }
          contentLength := digit ch }.go [.mark .headerValue]
  | .connection =>
      { parser with
        headerState :=
          if c = chr 'k' then .matchingConnectionKeepAlive
          else if c = chr 'c' then .matchingConnectionClose
          else if c = chr 'u' then .matchingConnectionUpgrade
          else .matchingConnectionToken }.go [.mark .headerValue]
  | .matchingConnectionTokenStart => parser.go [.mark .headerValue]
  | _ => { parser with headerState := .general }.go [.mark .headerValue]

/-- `s_header_value_discard_ws` -/
def headerValueDiscardWs (parser : RequestParser) (ch : UInt8) : Effect :=
  if ch = chr ' ' ∨ ch = chr '\t' then parser.go []
  else if ch = CR then { parser with state := .headerValueDiscardWsAlmostDone }.go []
  else if ch = LF then { parser with state := .headerValueDiscardLws }.go []
  else parser.headerValueStart ch

/-- `s_header_almost_done` -/
def headerAlmostDone (parser : RequestParser) (ch : UInt8) : Effect :=
  if ch ≠ LF then parser.fail [] .lfExpected else { parser with state := .headerValueLws }.go []

/-- The flag that the value of a header has set when it ends. -/
def valueFlags (parser : RequestParser) : Flags :=
  match parser.headerState with
  | .connectionKeepAlive => { parser.flags with connectionKeepAlive := true }
  | .connectionClose => { parser.flags with connectionClose := true }
  | .transferEncodingChunked => { parser.flags with chunked := true }
  | .connectionUpgrade => { parser.flags with connectionUpgrade := true }
  | _ => parser.flags

/-- `s_header_value_lws` -/
def headerValueLws (parser : RequestParser) (ch : UInt8) : Effect :=
  if ch = chr ' ' ∨ ch = chr '\t' then
    { parser with state := .headerValueStart }.headerValueStart ch
  else
    { parser with flags := parser.valueFlags, state := .headerFieldStart }.headerFieldStart ch

/-- `s_header_value_discard_ws_almost_done` -/
def headerValueDiscardWsAlmostDone (parser : RequestParser) (ch : UInt8) : Effect :=
  parser.strictCheck ch LF ({ parser with state := .headerValueDiscardLws }.go [])

/-- `s_header_value_discard_lws` -/
def headerValueDiscardLws (parser : RequestParser) (ch : UInt8) : Effect :=
  if ch = chr ' ' ∨ ch = chr '\t' then { parser with state := .headerValueDiscardWs }.go []
  else
    let effect :=
      { parser with flags := parser.valueFlags, state := .headerFieldStart }.headerFieldStart ch
    { effect with calls := .mark .headerValue :: .data .headerValue :: effect.calls }

/-- `s_headers_done`. `http_message_needs_eof` is false for requests. -/
def headersDone (parser : RequestParser) (ch : UInt8) : Effect :=
  parser.strictCheck ch LF
    (let parser := { parser with nread := 0 }
    let hasBody := parser.flags.chunked ||
      (0 < parser.contentLength && parser.contentLength ≠ ULLONG_MAX)
    let done := { parser with state := parser.newMessage }
    if parser.upgrade ∧ (parser.method = .connect ∨ parser.flags.skipBody ∨ !hasBody) then
      ⟨done, [.notify .onMessageComplete], .stop true⟩
    else if parser.flags.skipBody then done.go [.notify .onMessageComplete]
    else if parser.flags.chunked then { parser with state := .chunkSizeStart }.go []
    else if parser.contentLength = 0 then done.go [.notify .onMessageComplete]
    else if parser.contentLength ≠ ULLONG_MAX then { parser with state := .bodyIdentity }.go []
    else done.go [.notify .onMessageComplete])

/-- `s_on_headers_completed` -/
def onHeadersCompleted (parser : RequestParser) (ch : UInt8) : Effect :=
  match parser.headersStatus with
  | 0 => { parser with state := .headersDone }.headersDone ch
  | 3 => ⟨{ parser with state := parser.newMessage }, [], .stop true⟩
  | 2 =>
      { parser with
        upgrade := true
        flags := { parser.flags with skipBody := true }
        state := .headersDone }.headersDone ch
  | 1 =>
      { parser with
        flags := { parser.flags with skipBody := true }
        state := .headersDone }.headersDone ch
  | _ => ⟨{ parser with httpErrno := .cbHeadersComplete }, [], .stop false⟩

/-- `s_chunk_size_start` -/
def chunkSizeStart (parser : RequestParser) (ch : UInt8) : Effect :=
  match unhex ch with
  | none => parser.fail [] .invalidChunkSize
  | some value => { parser with contentLength := value, state := .chunkSize }.go []

/-- `s_chunk_size` -/
def chunkSize (parser : RequestParser) (ch : UInt8) : Effect :=
  if ch = CR then { parser with state := .chunkSizeAlmostDone }.go []
  else
    match unhex ch with
    | none =>
        if ch = chr ';' ∨ ch = chr ' ' then { parser with state := .chunkParameters }.go []
        else parser.fail [] .invalidChunkSize
    | some value =>
        let t := (parser.contentLength * 16 + value) % 2 ^ 64
        if (ULLONG_MAX - 16) / 16 < parser.contentLength then
          parser.fail [] .invalidContentLength
        else { parser with contentLength := t }.go []

/-- `s_chunk_parameters` -/
def chunkParameters (parser : RequestParser) (ch : UInt8) : Effect :=
  if ch = CR then { parser with state := .chunkSizeAlmostDone }.go [] else parser.go []

/-- `s_chunk_size_almost_done` -/
def chunkSizeAlmostDone (parser : RequestParser) (ch : UInt8) : Effect :=
  parser.strictCheck ch LF
    (let parser := { parser with nread := 0 }
    if parser.contentLength = 0 then
      { parser with
        flags := { parser.flags with trailing := true }
        state := .headerFieldStart }.go []
    else { parser with state := .chunkData }.go [])

/-- `s_chunk_data_almost_done` -/
def chunkDataAlmostDone (parser : RequestParser) (ch : UInt8) : Effect :=
  parser.strictCheck ch CR ({ parser with state := .chunkDataDone }.go [.data .body])

/-- `s_chunk_data_done` -/
def chunkDataDone (parser : RequestParser) (ch : UInt8) : Effect :=
  parser.strictCheck ch LF ({ parser with nread := 0, state := .chunkSizeStart }.go [])

/-- One character of a word that a header is compared with, at an index that has
been advanced to it. -/
def matchWord (word : Bytes) (matching found failed : HeaderState) (index : Nat) (c : UInt8) :
    HeaderState :=
  if word.length < index ∨ c ≠ word.getD index 0 then failed
  else if index = word.length - 1 then found
  else matching

/-- The body of the loop of `s_header_field`. -/
def headerFieldChar (parser : RequestParser) (ch : UInt8) : RequestParser :=
  let c := tokens ch
  let index := parser.nextIndex
  match parser.headerState with
  | .general => parser
  | .C => { parser with index, headerState := if c = chr 'o' then .CO else .general }
  | .CO => { parser with index, headerState := if c = chr 'n' then .CON else .general }
  | .CON =>
      { parser with
        index
        headerState :=
          if c = chr 'n' then .matchingConnection
          else if c = chr 't' then .matchingContentLength
          else .general }
  | .matchingConnection =>
      { parser with
        index
        headerState := matchWord (ascii "connection") .matchingConnection .connection .general
          index c }
  | .matchingProxyConnection =>
      { parser with
        index
        headerState := matchWord (ascii "proxy-connection") .matchingProxyConnection .connection
          .general index c }
  | .matchingContentLength =>
      { parser with
        index
        headerState := matchWord (ascii "content-length") .matchingContentLength .contentLength
          .general index c }
  | .matchingTransferEncoding =>
      { parser with
        index
        headerState := matchWord (ascii "transfer-encoding") .matchingTransferEncoding
          .transferEncoding .general index c }
  | .matchingUpgrade =>
      { parser with
        index
        headerState := matchWord (ascii "upgrade") .matchingUpgrade .upgrade .general index c }
  | .connection | .contentLength | .transferEncoding | .upgrade =>
      if ch ≠ chr ' ' then { parser with headerState := .general } else parser
  | _ => parser

/-- The loop of `s_header_value` keeps the header state in a variable. -/
structure ValueState where
  parser : RequestParser
  hState : HeaderState
  deriving DecidableEq, Repr

/-- The flag of an element of a `Connection` header that a comma ends. -/
def tokenFlags (flags : Flags) : HeaderState → Flags
  | .connectionKeepAlive => { flags with connectionKeepAlive := true }
  | .connectionClose => { flags with connectionClose := true }
  | .connectionUpgrade => { flags with connectionUpgrade := true }
  | _ => flags

/-- The switch in the loop of `s_header_value`, apart from the search for the end
of the line in `h_general`. The error is that of a content length. -/
def headerValueChar (value : ValueState) (ch : UInt8) : Option ValueState :=
  let c := lower ch
  let parser := value.parser
  let index := parser.nextIndex
  match value.hState with
  | .general | .connection | .transferEncoding => some value
  | .contentLength =>
      if ch = chr ' ' then some value
      else if !isNum ch then none
      else
        let t := (parser.contentLength * 10 + digit ch) % 2 ^ 64
        if (ULLONG_MAX - 10) / 10 < parser.contentLength then none
        else some { value with parser := { parser with contentLength := t } }
  | .matchingTransferEncodingChunked =>
      some ⟨{ parser with index }, matchWord (ascii "chunked") .matchingTransferEncodingChunked
        .transferEncodingChunked .general index c⟩
  | .matchingConnectionTokenStart =>
      if c = chr 'k' then some { value with hState := .matchingConnectionKeepAlive }
      else if c = chr 'c' then some { value with hState := .matchingConnectionClose }
      else if c = chr 'u' then some { value with hState := .matchingConnectionUpgrade }
      else if isToken c then some { value with hState := .matchingConnectionToken }
      else if c = chr ' ' ∨ c = chr '\t' then some value
      else some { value with hState := .general }
  | .matchingConnectionKeepAlive =>
      some ⟨{ parser with index }, matchWord (ascii "keep-alive") .matchingConnectionKeepAlive
        .connectionKeepAlive .matchingConnectionToken index c⟩
  | .matchingConnectionClose =>
      some ⟨{ parser with index }, matchWord (ascii "close") .matchingConnectionClose
        .connectionClose .matchingConnectionToken index c⟩
  | .matchingConnectionUpgrade =>
      some ⟨{ parser with index }, matchWord (ascii "upgrade") .matchingConnectionUpgrade
        .connectionUpgrade .matchingConnectionToken index c⟩
  | .matchingConnectionToken =>
      if ch = chr ',' then
        some ⟨{ parser with index := 0 }, .matchingConnectionTokenStart⟩
      else some value
  | .transferEncodingChunked =>
      if ch ≠ chr ' ' then some { value with hState := .general } else some value
  | .connectionKeepAlive | .connectionClose | .connectionUpgrade =>
      if ch = chr ',' then
        some ⟨{ parser with flags := tokenFlags parser.flags value.hState, index := 0 },
          .matchingConnectionTokenStart⟩
      else if ch ≠ chr ' ' then some { value with hState := .matchingConnectionToken }
      else some value
  | _ => some ⟨{ parser with state := .headerValue }, .general⟩

end Httpuv.RequestParser
