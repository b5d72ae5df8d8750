import Httpuv.Parser.Switch
import Mathlib.Logic.Function.Basic

/-! `http_parser_execute` on a buffer. A pointer into the buffer is the part of it
that starts there. -/
namespace Httpuv.RequestParser

/-- The bytes from one pointer up to another one. -/
def upTo (start p : Bytes) : Bytes := start.take (start.length - p.length)

/-- The variables of `http_parser_execute` with the callbacks it has made. -/
structure Execution where
  parser : RequestParser
  marks : DataCallback → Option Bytes
  events : List ParserEvent

namespace Execution

/-- One of the macros, at the pointer `p`. -/
def call (p : Bytes) (exec : Execution) : Call → Execution
  | .mark callback =>
      if (exec.marks callback).isNone then
        { exec with marks := Function.update exec.marks callback (some p) }
      else exec
  | .data callback =>
      match exec.marks callback with
      | some start =>
          { exec with
            events := exec.events ++ [callback.event (upTo start p)]
            marks := Function.update exec.marks callback none }
      | none => exec
  | .notify event => { exec with events := exec.events ++ [event] }

def callAll (p : Bytes) (exec : Execution) (calls : List Call) : Execution :=
  calls.foldl (call p) exec

end Execution

/-- How an iteration of the loop over the buffer ends: behind some more bytes than
the current one, or with the pointer up to which the buffer has been parsed. -/
inductive Outcome where
  | next (exec : Execution) (skipped : Nat)
  | stop (exec : Execution) (p : Bytes)

/-- The effect of a case at the byte `p` points to. -/
def Execution.apply (exec : Execution) (p : Bytes) (effect : Effect) : Outcome :=
  let exec := { exec with parser := effect.parser }.callAll p effect.calls
  match effect.control with
  | .next => .next exec 0
  | .error | .stop false => .stop exec p
  | .stop true => .stop exec (p.drop 1)

/-- `COUNT_HEADER_SIZE` -/
def countHeaderSize (parser : RequestParser) (count : Nat) : RequestParser :=
  let nread := (parser.nread + count) % 2 ^ 32
  if HTTP_MAX_HEADER_SIZE < nread then { parser with nread, httpErrno := .headerOverflow }
  else { parser with nread }

/-- `s_header_field` -/
def headerField (exec : Execution) (p : Bytes) : Outcome :=
  let field := p.takeWhile isToken
  let parser := (field.foldl headerFieldChar exec.parser).countHeaderSize field.length
  let exec := { exec with parser }
  if parser.httpErrno = .headerOverflow then .stop exec (p.drop field.length)
  else
    match p.drop field.length with
    | [] => .next exec (field.length - 1)
    | ch :: rest =>
        if ch = chr ':' then
          .next ({ exec with parser := { parser with state := .headerValueDiscardWs } }.call
            (ch :: rest) (.data .headerField)) field.length
        else .stop { exec with parser := { parser with httpErrno := .invalidHeaderToken } } (ch :: rest)

/-- How far the two calls of `memchr` in `h_general` move the pointer: to the first
end of line among the next `HTTP_MAX_HEADER_SIZE` bytes, or to the end. -/
def generalLength (p : Bytes) : Nat :=
  let isEnd := fun ch => ch == CR || ch == LF
  if (p.take HTTP_MAX_HEADER_SIZE).any isEnd then p.findIdx isEnd else p.length

/-- How the loop of `s_header_value` ends: at the end of the buffer, at an end of
line, or at an error. -/
inductive ValueExit where
  | finish (value : ValueState)
  | atEnd (value : ValueState) (p : Bytes)
  | error (parser : RequestParser) (p : Bytes)

/-- The loop of `s_header_value` -/
def headerValueLoop (value : ValueState) : Bytes → ValueExit
  | [] => .finish value
  | ch :: rest =>
      if ch = CR ∨ ch = LF then .atEnd value (ch :: rest)
      else if !isHeaderChar ch then
        .error { value.parser with httpErrno := .invalidHeaderToken } (ch :: rest)
      else if value.hState = .general then
        headerValueLoop value (rest.drop (generalLength (ch :: rest) - 1))
      else
        match headerValueChar value ch with
        | none =>
            .error { value.parser with
              headerState := value.hState
              httpErrno := .invalidContentLength } (ch :: rest)
        | some value => headerValueLoop value rest
termination_by p => p.length

/-- `s_header_value`. The callback comes before the count at a carriage return,
and behind it at a line feed, which `s_header_almost_done` is reexecuted for. -/
def headerValue (exec : Execution) (p : Bytes) : Outcome :=
  match headerValueLoop ⟨exec.parser, exec.parser.headerState⟩ p with
  | .finish value =>
      let parser : RequestParser := { value.parser with headerState := value.hState }
      let parser := parser.countHeaderSize p.length
      let exec := { exec with parser }
      if parser.httpErrno = .headerOverflow then .stop exec [] else .next exec (p.length - 1)
  | .atEnd value rest =>
      let length := p.length - rest.length
      let ended : RequestParser := { value.parser with state := .headerAlmostDone }
      if rest.head? = some CR then
        let exec := { exec with parser := { ended with headerState := value.hState } }.call rest
          (.data .headerValue)
        let parser := exec.parser.countHeaderSize length
        let exec := { exec with parser }
        if parser.httpErrno = .headerOverflow then .stop exec rest else .next exec length
      else
        let parser := ended.countHeaderSize length
        let exec := { exec with parser }
        if parser.httpErrno = .headerOverflow then .stop exec rest
        else
          let exec := { exec with parser := { parser with headerState := value.hState } }.call
            rest (.data .headerValue)
          match exec.apply rest (exec.parser.headerAlmostDone LF) with
          | .next exec _ => .next exec length
          | stopped => stopped
  | .error parser rest => .stop { exec with parser } rest

/-- `to_read` of a body -/
def toRead (parser : RequestParser) (p : Bytes) : Nat := min parser.contentLength p.length

/-- `s_body_identity`. The last byte belongs to the data. -/
def bodyIdentity (exec : Execution) (p : Bytes) : Outcome :=
  let length := exec.parser.toRead p
  let parser : RequestParser :=
    { exec.parser with contentLength := exec.parser.contentLength - length }
  let exec := { exec with parser }.call p (.mark .body)
  if parser.contentLength = 0 then
    let exec := { exec with parser := { parser with state := .messageDone } }.call (p.drop length)
      (.data .body)
    match exec.apply (p.drop (length - 1)) exec.parser.messageDone with
    | .next exec _ => .next exec (length - 1)
    | stopped => stopped
  else .next exec (length - 1)

/-- `s_chunk_data` -/
def chunkData (exec : Execution) (p : Bytes) : Outcome :=
  let length := exec.parser.toRead p
  let parser : RequestParser :=
    { exec.parser with contentLength := exec.parser.contentLength - length }
  let parser := if parser.contentLength = 0 then { parser with state := .chunkDataAlmostDone }
    else parser
  .next ({ exec with parser }.call p (.mark .body)) (length - 1)

/-- The switch over the current state, at the byte `ch`. -/
def byteSwitch (parser : RequestParser) (ch : UInt8) : Option Effect :=
  match parser.state with
  | .dead => parser.dead ch
  | .startReq => parser.startReq ch
  | .reqMethod => parser.reqMethod ch
  | .reqSpacesBeforeUrl => parser.reqSpacesBeforeUrl ch
  | .reqSchema | .reqSchemaSlash | .reqSchemaSlashSlash | .reqServerStart => parser.reqSchema ch
  | .reqServer | .reqServerWithAt | .reqPath | .reqQueryStringStart | .reqQueryString
  | .reqFragmentStart | .reqFragment => parser.reqServer ch
  | .reqHttpStart => parser.reqHttpStart ch
  | .reqHttpH => parser.reqHttpH ch
  | .reqHttpHT => parser.reqHttpHT ch
  | .reqHttpHTT => parser.reqHttpHTT ch
  | .reqHttpHTTP => parser.reqHttpHTTP ch
  | .reqFirstHttpMajor => parser.reqFirstHttpMajor ch
  | .reqHttpMajor => parser.reqHttpMajor ch
  | .reqFirstHttpMinor => parser.reqFirstHttpMinor ch
  | .reqHttpMinor => parser.reqHttpMinor ch
  | .reqLineAlmostDone => parser.reqLineAlmostDone ch
  | .headerFieldStart => parser.headerFieldStart ch
  | .headerValueDiscardWs => parser.headerValueDiscardWs ch
  | .headerValueDiscardWsAlmostDone => parser.headerValueDiscardWsAlmostDone ch
  | .headerValueDiscardLws => parser.headerValueDiscardLws ch
  | .headerValueStart => parser.headerValueStart ch
  | .headerValueLws => parser.headerValueLws ch
  | .headerAlmostDone => parser.headerAlmostDone ch
  | .chunkSizeStart => parser.chunkSizeStart ch
  | .chunkSize => parser.chunkSize ch
  | .chunkParameters => parser.chunkParameters ch
  | .chunkSizeAlmostDone => parser.chunkSizeAlmostDone ch
  | .headersAlmostDone => parser.headersAlmostDone ch
  | .waitForOnHeadersCompleted => some ⟨parser, [], .stop false⟩
  | .onHeadersCompleted => parser.onHeadersCompleted ch
  | .headersDone => parser.headersDone ch
  | .chunkDataAlmostDone => parser.chunkDataAlmostDone ch
  | .chunkDataDone => parser.chunkDataDone ch
  | .messageDone => parser.messageDone
  | .headerField | .headerValue | .bodyIdentity | .chunkData => none

/-- The cases that go through several bytes in one iteration. -/
def Execution.bulk (exec : Execution) (p : Bytes) : Outcome :=
  match exec.parser.state with
  | .headerField => headerField exec p
  | .headerValue => headerValue exec p
  | .bodyIdentity => bodyIdentity exec p
  | _ => chunkData exec p

/-- One iteration of the loop, at the byte `ch`. -/
def Execution.iterate (exec : Execution) (ch : UInt8) (rest : Bytes) : Outcome :=
  let parser := if exec.parser.state.parsingHeader then exec.parser.countHeaderSize 1
    else exec.parser
  let exec := { exec with parser }
  if parser.httpErrno = .headerOverflow then .stop exec (ch :: rest)
  else
    match parser.byteSwitch ch with
    | some effect => exec.apply (ch :: rest) effect
    | none => exec.bulk (ch :: rest)

/-- The callbacks for the marks that are left over. -/
def Execution.flush (exec : Execution) : Execution :=
  exec.callAll [] [.data .headerField, .data .headerValue, .data .url, .data .body]

/-- The loop over the buffer, with the pointer at which it ends. -/
def loop (exec : Execution) : Bytes → Execution × Bytes
  | [] => (exec.flush, [])
  | ch :: rest =>
      match exec.iterate ch rest with
      | .next exec skipped => loop exec (rest.drop skipped)
      | .stop exec p => (exec, p)
termination_by p => p.length

/-- The data callback that is under way in a state. -/
def State.open : State → Option DataCallback
  | .headerField => some .headerField
  | .headerValue => some .headerValue
  | .reqPath | .reqSchema | .reqSchemaSlash | .reqSchemaSlashSlash | .reqServerStart | .reqServer
  | .reqServerWithAt | .reqQueryStringStart | .reqQueryString | .reqFragmentStart
  | .reqFragment => some .url
  | _ => none

/-- The variables when the loop starts. -/
def entry (parser : RequestParser) (data : Bytes) : Execution where
  parser := parser
  marks := fun callback => if parser.state.open = some callback then some data else none
  events := []

/-- `http_parser_execute` -/
def execute (parser : RequestParser) (data : Bytes) : ExecuteResult RequestParser :=
  if parser.isRunning then
    ⟨{ parser with httpErrno := .reentrantCall, isRunning := false }, 0, []⟩
  else
    let parser := { parser with isRunning := true }
    if parser.httpErrno ≠ .ok then ⟨parser, 0, []⟩
    else if data = [] then
      if parser.state = .dead ∨ parser.state = .startReq then ⟨parser, 0, []⟩
      else ⟨{ parser with httpErrno := .invalidEofState }, 1, []⟩
    else
      let (exec, p) := loop (parser.entry data) data
      ⟨{ exec.parser with isRunning := false }, data.length - p.length, exec.events⟩

end Httpuv.RequestParser
