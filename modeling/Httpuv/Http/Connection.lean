import Httpuv.Http.RequestHead
import Httpuv.Http.Response
import Httpuv.WebSockets.Closing
import Httpuv.WebSockets.Handshake

/-! `HttpRequest`, which is one connection, between the event loop on the
background thread and the callbacks on the main thread. -/
namespace Httpuv

open Semantics

inductive Protocol where
  | http
  | webSockets
  deriving DecidableEq, Repr

/-- A body in memory or in a file. -/
abbrev Body (File : Type) := InMemoryDataSource ⊕ File

/-- A body as it is sent. -/
abbrev SentBody (File : Type) [Zlib] := Body File ⊕ GZipDataSource (Body File)

/-- What R hands to `listToResponse`. -/
inductive AppAnswer (File : Type) where
  | response (status : Int) (headers : ResponseHeaders) (body : Option (Body File))
  | unreadableFile

/-- How a function of the application ends. A malformed value is one that
`listToResponse` does not get through, and no answer is the value `NULL`. -/
inductive AppOutcome (File : Type) where
  | returned (answer : Option (AppAnswer File))
  | malformed
  | promise
  | failed

/-- A method of the R object of a WebSocket. -/
inductive WSCall where
  | send (binary : Bool) (message : Bytes)
  | close (code : Int) (reason : Bytes)
  deriving DecidableEq, Repr

/-- Callbacks given to `later`. The number of the request is recorded with
those that belong to one. -/
inductive MainTask where
  | initializeEnv
  | onHeaders (request : Nat)
  | onBodyData (request : Nat) (data : Bytes)
  | getResponse (request : Nat)
  | callROnWSOpen
  | onWSMessage (binary : Bool) (data : Bytes)
  | onWSClose
  deriving DecidableEq, Repr

/-- Callbacks on the background queue. The one that reads what has come with a
handshake holds the address and the size of a buffer that is gone. -/
inductive BackgroundTask (File : Type) where
  | onHeadersCompleteComplete (request : Nat) (response : Option (HttpResponse (Body File)))
  | onBodyError (request : Nat) (response : HttpResponse (Body File))
  | onMessageCompleteComplete (request : Nat) (response : Option (HttpResponse (Body File)))
  | close
  | read (size : Nat)
  | websocket (task : WSTask)

/-- A write that libuv has accepted, with the objects its callback gets. Every
call of `writeResponse` has a serial number. -/
inductive Write (File : Type) [Zlib] where
  | header (serial : Nat) (response : HttpResponse (SentBody File))
  | body (serial : Nat) (response : HttpResponse (SentBody File))
      (write : ExtendedWrite (SentBody File))
  | frame

/-- Where a response comes from: `100 Continue` of the server, the handshake of a
WebSocket, or static serving and the application. -/
inductive ResponseKind where
  | interim
  | switching
  | final
  deriving DecidableEq, Repr

/-- What is recorded of a run. A request is answered in its headers by static
serving or by `onHeaders`, and a response is handed over when `uv_write` has
taken its last byte. The other entries are bytes and calls: what has been read
and what `http_parser_execute` has consumed of it, what a handshake leaves to
the WebSocket, and the calls of `uv_write` that are taken or fail. -/
inductive Observation (File : Type) where
  | read (data : Bytes)
  | execute (consumed : Bytes)
  | onMessageBegin (request : Nat) (handlingRequest : Bool)
  | onHeadersComplete (request : Nat) (upgrade : Bool)
  | onHeaders (request : Nat)
  | answeredInHeaders (request : Nat) (response : HttpResponse (Body File))
  | onBodyData (request : Nat) (failed : Bool)
  | call (request : Nat)
  | writeResponse (request serial : Nat) (kind : ResponseKind)
      (response : HttpResponse (Body File))
  | uvWrite (serial : Option Nat) (bytes : Bytes)
  | uvWriteFailed (serial : Option Nat)
  | handedOver (serial : Nat)
  | accept (request : Nat) (accepted : Bool)
  | handshake (leftover : Bytes)
  | onWSOpen
  | onWSMessage (binary : Bool) (data : Bytes)
  | onWSClose
  | wsRead (data : Bytes)
  | uvClose

/-- The members of `HttpRequest`, the handle and what is under way for it. The
last three record the run. -/
structure Connection (File : Type) [HttpParser] [Zlib] where
  parser : HttpParser.Parser
  protocol : Protocol
  head : RequestHead
  websocket : WebSocketConnection
  pWebSocketConnection : Bool
  ignoreNewData : Bool
  isClosing : Bool
  isUpgrade : Bool
  responseScheduled : Bool
  handlingRequest : Bool
  requestBuffer : Bytes
  reading : Bool
  closed : Bool
  mainQueue : List MainTask
  backgroundQueue : List (BackgroundTask File)
  promises : List Nat
  writes : List (Write File)
  wsHandle : Bool
  current : Nat
  serial : Nat
  log : List (Observation File)

namespace AppAnswer

variable {File : Type}

def memory (bytes : Bytes) : Body File := .inl { buffer := bytes, pos := 0 }

/-- The response to an error in R. -/
def errorResponse (now : Tm) : HttpResponse (Body File) :=
  HttpResponse.listToResponse 500 [(ascii "Content-Type", ascii "text/plain; charset=UTF-8")]
    (some (memory (ascii "An exception occurred."))) now

/-- The response to an error outside of R. -/
def error_response (code : Int) (now : Tm) : HttpResponse (Body File) :=
  HttpResponse.construct code (getStatusDescription code)
    (some (memory (formatInt code ++ ascii " " ++ getStatusDescription code ++ ascii "\n"))) now

def toResponse (now : Tm) : AppAnswer File → HttpResponse (Body File)
  | .response status headers body => HttpResponse.listToResponse status headers body now
  | .unreadableFile => error_response 500 now

end AppAnswer

/-- Whether a stream has nothing more to write. -/
def ExtendedWrite.drained {Source : Type} [DataSource Source] (write : ExtendedWrite Source) :
    Bool :=
  write.completed ||
    (!write.chunked && match DataSource.getData write.pDataSource bytesDesired with
      | some ([], _) => true
      | _ => false)

/-- Whether the header block is all of a response. -/
def HttpResponse.drained {Source : Type} [DataSource Source] (response : HttpResponse Source) :
    Bool :=
  match response.pBody with
  | none => true
  | some body => (ExtendedWrite.construct body response.chunked).drained

/-- Whether libuv has everything of a response once it has taken this write. -/
def Write.drained {File : Type} [Zlib] [DataSource File] : Write File → Bool
  | .header _ response => response.drained
  | .body _ _ write => write.drained
  | .frame => true

/-- The entries of one write of a response. -/
def pieces {File : Type} (serial : Nat) (bytes : Bytes) (drained : Bool) :
    List (Observation File) :=
  .uvWrite (some serial) bytes :: if drained then [.handedOver serial] else []

namespace Connection

variable {File : Type} [HttpParser] [Zlib]

def observe (conn : Connection File) (observation : Observation File) : Connection File :=
  { conn with log := conn.log ++ [observation] }

/-- `invoke_later` -/
def invokeLater (conn : Connection File) (task : MainTask) : Connection File :=
  { conn with mainQueue := conn.mainQueue ++ [task] }

def push (conn : Connection File) (task : BackgroundTask File) : Connection File :=
  { conn with backgroundQueue := conn.backgroundQueue ++ [task] }

def stopReading (conn : Connection File) : Connection File :=
  { conn with reading := false, ignoreNewData := true }

def close (conn : Connection File) : Connection File :=
  if conn.isClosing then conn
  else
    let closing := { conn with isClosing := true, reading := false }.observe .uvClose
    if conn.pWebSocketConnection && conn.protocol == .webSockets then
      closing.invokeLater .onWSClose
    else closing

/-- `_on_closed`, when all writes have been called back. -/
def onClosed (conn : Connection File) : Option (Connection File) :=
  if conn.isClosing && !conn.closed && conn.writes.isEmpty then
    some { conn with
      closed := true
      websocket := if conn.pWebSocketConnection then conn.websocket.markClosed else conn.websocket
      pWebSocketConnection := false }
  else none

/-- A second request that comes too early closes the connection, but it is
parsed all the same. -/
def newRequest (conn : Connection File) : Connection File :=
  let conn := conn.observe (.onMessageBegin (conn.current + 1) conn.handlingRequest)
  let conn := if conn.handlingRequest then conn.close else conn
  { conn with
    handlingRequest := true
    head := conn.head.newRequest
    responseScheduled := false
    current := conn.current + 1 }.invokeLater .initializeEnv

/-- `static` is what `staticFileResponse` finds. It does not look at requests
with an `Upgrade` header. -/
def onHeadersComplete (conn : Connection File) (static : Option (HttpResponse (Body File)))
    (upgrade : Bool) : Connection File :=
  let conn := { conn with isUpgrade := conn.isUpgrade || upgrade }.observe
    (.onHeadersComplete conn.current upgrade)
  match if conn.head.headers.has (ascii "Upgrade") then none else static with
  | some response =>
      (conn.observe (.answeredInHeaders conn.current response)).push
        (.onHeadersCompleteComplete conn.current (some response))
  | none => conn.invokeLater (.onHeaders conn.current)

def onMessageComplete (conn : Connection File) : Connection File :=
  if conn.isUpgrade then conn else conn.invokeLater (.getResponse conn.current)

/-- The callbacks of the parser. -/
def onEvent (static : Option (HttpResponse (Body File))) (conn : Connection File) :
    ParserEvent → Connection File
  | .onMessageBegin => conn.newRequest
  | .onUrl data => { conn with head := conn.head.onUrl data }
  | .onHeaderField data => { conn with head := conn.head.onHeaderField data }
  | .onHeaderValue data => { conn with head := conn.head.onHeaderValue data }
  | .onHeadersComplete upgrade => conn.onHeadersComplete static upgrade
  | .onBody data => conn.invokeLater (.onBodyData conn.current data)
  | .onMessageComplete => conn.onMessageComplete

/-- `http_parser_execute` with its callbacks. -/
def feed (conn : Connection File) (static : Option (HttpResponse (Body File))) (buffer : Bytes) :
    Connection File :=
  let result := HttpParser.execute conn.parser buffer
  result.events.foldl (onEvent static)
    ({ conn with parser := result.parser }.observe (.execute (buffer.take result.parsed)))

variable [DataSource File]

/-- `uv_write` has taken bytes of a response. -/
def queue (conn : Connection File) (serial : Nat) (bytes : Bytes) (write : Write File) :
    Connection File :=
  { conn with
    log := conn.log ++ pieces serial bytes write.drained
    writes := conn.writes ++ [write] }

/-- `HttpResponse::writeResponse`. libuv refuses writes on a handle that is being
closed, and the destructor of the response then has nothing left to close. -/
def writeResponse (conn : Connection File) (request : Nat) (kind : ResponseKind)
    (response : HttpResponse (Body File)) : Option (Connection File) := do
  let written ← response.writeResponse conn.head.headers
  let called := { conn with serial := conn.serial + 1 }.observe
    (.writeResponse request conn.serial kind response)
  if conn.isClosing then return called.observe (.uvWriteFailed (some conn.serial))
  else
    let queued := called.queue conn.serial written.responseHeader (.header conn.serial written)
    return { queued with handlingRequest := false }

/-- The destructor of a response that has been written. -/
def destroy (conn : Connection File) (response : HttpResponse (SentBody File)) : Connection File :=
  if response.closeAfterWritten then conn.close else conn

/-- `ExtendedWrite::next` for the body of a response. A stream whose write is
refused is never called again. -/
def nextWrite (conn : Connection File) (serial : Nat) (response : HttpResponse (SentBody File))
    (write : ExtendedWrite (SentBody File)) : Connection File :=
  let (write, effects) := write.next (!conn.isClosing)
  effects.foldl (fun conn effect => match effect with
    | .uvWrite bufs true => conn.queue serial bufs.flatten (.body serial response write)
    | .uvWrite _ false => conn.observe (.uvWriteFailed (some serial))
    | .onWriteComplete _ => conn.destroy response
    | _ => conn) conn

/-- The callback of the oldest write. The queue of libuv is empty when no other write is
under way. -/
def onWritten (conn : Connection File) (status : Int) (queueEmpty : Bool) :
    Option (Connection File) :=
  match conn.writes with
  | [] => none
  | .frame :: rest => some { conn with writes := rest }
  | .header serial response :: rest =>
      let conn := { conn with writes := rest }
      if status ≠ 0 then some (conn.destroy { response with closeAfterWritten := true })
      else
        match response.pBody with
        | none => some (conn.destroy response)
        | some body =>
            some (conn.nextWrite serial response (ExtendedWrite.construct body response.chunked))
  | .body serial response write :: rest =>
      let conn := { conn with writes := rest }
      let write := { write with activeWrites := write.activeWrites - 1 }
      if queueEmpty then some (conn.nextWrite serial response write)
      else if rest.isEmpty then none
      else some conn

/-- The calls of the WebSocket connection on its owner. -/
def onWSCallback (conn : Connection File) : WSCallback → Connection File
  | .onWSMessage binary data =>
      if conn.pWebSocketConnection then conn.invokeLater (.onWSMessage binary data) else conn
  | .onWSClose _ => conn
  | .sendWSFrame _ header data footer =>
      if conn.isClosing then conn.observe (.uvWriteFailed none)
      else { conn with writes := conn.writes ++ [Write.frame] }.observe
        (.uvWrite none (header ++ data ++ footer))
  | .closeWSSocket => conn.close

def runWebSocket (conn : Connection File) (websocket : WebSocketConnection)
    (callbacks : List WSCallback) : Connection File :=
  callbacks.foldl onWSCallback { conn with websocket }

variable [Host]

def wsRead (conn : Connection File) (data : Bytes) : Option (Connection File) := do
  let (websocket, callbacks) ← conn.websocket.read data
  return (conn.observe (.wsRead data)).runWebSocket websocket callbacks

def runWSTask (conn : Connection File) : WSTask → Option (Connection File)
  | .sendWSMessage binary message => do
      let callbacks ← conn.websocket.sendWSMessage (if binary then .binary else .text) message
      return conn.runWebSocket conn.websocket callbacks
  | .closeWS code reason => do
      let (websocket, callbacks) ← conn.websocket.closeWS code reason
      return conn.runWebSocket websocket callbacks

variable [Digests]

omit [DataSource File] [HttpParser] [Host] [Digests] [Zlib] in
/-- The response to an upgrade that has been accepted. -/
def switchingProtocols (handshake : WebSocketProto.Handshake) (now : Tm) :
    HttpResponse (Body File) :=
  let pResp := HttpResponse.construct 101 (ascii "Switching Protocols")
    (some (AppAnswer.memory handshake.response)) now
  { pResp with headers := pResp.headers ++ handshake.responseHeaders }

/-- `WebSocketConnection::accept` and `handshake`. -/
def accept (conn : Connection File) (parser : WSParser) (handshake : WebSocketProto.Handshake) :
    Connection File :=
  ({ conn with websocket := conn.websocket.withParser parser }.observe
    (.accept conn.current true)).observe (.handshake handshake.pData)

def switchProtocol (conn : Connection File) (handshake : WebSocketProto.Handshake) :
    Connection File :=
  { conn with
    protocol := .webSockets
    requestBuffer := conn.requestBuffer ++ handshake.pData }.invokeLater .callROnWSOpen

/-- The branch of `_parse_http_data` for a request that is an upgrade, with the
bytes the parser has left. -/
def upgrade (conn : Connection File) (now : Tm) (pData : Bytes) : Option (Connection File) :=
  if !conn.pWebSocketConnection then some conn
  else
    match conn.websocket.acceptedParser conn.head.headers pData with
    | some parser => do
        let handshake :=
          WebSocketConnection.handshake parser conn.head.url conn.head.headers pData
        let answered ← (conn.accept parser handshake).writeResponse conn.current .switching
          (switchingProtocols handshake now)
        return answered.switchProtocol handshake
    | none =>
        let refused := conn.observe (.accept conn.current false)
        some (if conn.protocol = .webSockets then refused else refused.close)

def parseHttpData (conn : Connection File) (static : Option (HttpResponse (Body File))) (now : Tm)
    (buffer : Bytes) : Option (Connection File) :=
  let parsed := (HttpParser.execute conn.parser buffer).parsed
  let conn := conn.feed static buffer
  if HttpParser.waitingForHeadersCompleted conn.parser then
    some { conn with requestBuffer := conn.requestBuffer ++ buffer.drop parsed }
  else if conn.isUpgrade then conn.upgrade now (buffer.drop parsed)
  else if parsed < buffer.length then
    some (if conn.ignoreNewData then conn else { conn with reading := false }.close)
  else some conn

def parseHttpDataFromBuffer (conn : Connection File) (static : Option (HttpResponse (Body File)))
    (now : Tm) : Option (Connection File) :=
  { conn with requestBuffer := [] }.parseHttpData static now conn.requestBuffer

def hasHeader (conn : Connection File) (name value : Bytes) : Bool :=
  conn.head.headers.find name == some value

/-- `_on_headers_complete_complete` up to the point where the parser goes on. -/
def headersCompleted (conn : Connection File) (now : Tm) (request : Nat) :
    Option (HttpResponse (Body File)) → Option (Connection File)
  | some response => do
      let closing := conn.head.headers.has (ascii "Content-Length") ||
        conn.head.headers.has (ascii "Transfer-Encoding") ||
        !HttpParser.shouldKeepAlive conn.parser
      let answered ←
        if closing then conn.stopReading.writeResponse request .final response.requestClose
        else conn.writeResponse request .final response
      return { answered with parser := HttpParser.headersCompleted answered.parser 3 }
  | none => do
      let continued ←
        if conn.hasHeader (ascii "Expect") (ascii "100-continue") then
          conn.writeResponse request .interim
            (HttpResponse.construct 100 (ascii "Continue") none now)
        else some conn
      return { continued with parser := HttpParser.headersCompleted continued.parser 0 }

def onBodyError (conn : Connection File) (request : Nat) (response : HttpResponse (Body File)) :
    Option (Connection File) :=
  { conn with parser := HttpParser.pause conn.parser }.stopReading.writeResponse request
    .final response.requestClose

def onMessageCompleteComplete (conn : Connection File) (request : Nat) :
    Option (HttpResponse (Body File)) → Option (Connection File)
  | none => some conn
  | some response =>
      if conn.isClosing then some conn
      else if HttpParser.shouldKeepAlive conn.parser then conn.writeResponse request .final response
      else conn.stopReading.writeResponse request .final response.requestClose

/-- The next callback of the background queue. `freed` is what lies at the address
that a `read` is called with. -/
def runBackground (conn : Connection File) (static : Option (HttpResponse (Body File)))
    (now : Tm) (freed : Bytes) : Option (Connection File) :=
  match conn.backgroundQueue with
  | [] => none
  | task :: rest =>
      let conn := { conn with backgroundQueue := rest }
      match task with
      | .onHeadersCompleteComplete request response => do
          let conn ← conn.headersCompleted now request response
          conn.parseHttpDataFromBuffer static now
      | .onBodyError request response => conn.onBodyError request response
      | .onMessageCompleteComplete request response =>
          conn.onMessageCompleteComplete request response
      | .close => some conn.close
      | .read size => if freed.length = size then conn.wsRead freed else none
      | .websocket task => conn.runWSTask task

/-- `_on_request_read` with data. -/
def onRead (conn : Connection File) (static : Option (HttpResponse (Body File))) (now : Tm)
    (data : Bytes) : Option (Connection File) :=
  let conn := conn.observe (.read data)
  if conn.ignoreNewData then some conn
  else
    match conn.protocol with
    | .http => conn.parseHttpData static now data
    | .webSockets => if conn.pWebSocketConnection then conn.wsRead data else some conn

omit [Host] [Digests] [DataSource File]

def scheduleHeadersCompleteComplete (conn : Connection File) (request : Nat)
    (response : Option (HttpResponse (Body File))) : Connection File :=
  let conn := match response with
    | some response =>
        { conn with responseScheduled := true }.observe (.answeredInHeaders request response)
    | none => conn
  conn.push (.onHeadersCompleteComplete request response)

def scheduleBodyError (conn : Connection File) (request : Nat)
    (response : HttpResponse (Body File)) : Connection File :=
  { conn with responseScheduled := true }.push (.onBodyError request response)

def scheduleMessageCompleteComplete (conn : Connection File) (request : Nat)
    (response : Option (HttpResponse (Body File))) : Connection File :=
  { conn with responseScheduled := true }.push (.onMessageCompleteComplete request response)

/-- `WebApplication::onHeaders`. A promise is not a response either. -/
def onHeaders (conn : Connection File) (request : Nat) (outcome : AppOutcome File) (now : Tm) :
    Connection File :=
  let conn := conn.observe (.onHeaders request)
  match outcome with
  | .returned answer =>
      conn.scheduleHeadersCompleteComplete request (answer.map (AppAnswer.toResponse now))
  | .failed => conn.scheduleHeadersCompleteComplete request (some (AppAnswer.errorResponse now))
  | .malformed | .promise => conn

/-- `WebApplication::onBodyData` -/
def onBodyData (conn : Connection File) (request : Nat) (outcome : AppOutcome File) (now : Tm) :
    Connection File :=
  if conn.responseScheduled then conn
  else
    match outcome with
    | .failed =>
        (conn.observe (.onBodyData request true)).scheduleBodyError request
          (AppAnswer.errorResponse now)
    | _ => conn.observe (.onBodyData request false)

/-- `WebApplication::getResponse`. The callback is called at once or kept by a
promise. -/
def getResponse (conn : Connection File) (request : Nat) (outcome : AppOutcome File) (now : Tm) :
    Connection File :=
  if conn.responseScheduled then conn.scheduleMessageCompleteComplete request none
  else
    let conn := conn.observe (.call request)
    match outcome with
    | .returned answer =>
        conn.scheduleMessageCompleteComplete request (answer.map (AppAnswer.toResponse now))
    | .promise => { conn with promises := conn.promises ++ [request] }
    | .malformed | .failed =>
        conn.scheduleMessageCompleteComplete request (some (AppAnswer.errorResponse now))

/-- A promise is settled. One that cannot be turned into a response, or that is
rejected, leaves the request without one. -/
def settle (conn : Connection File) (index : Nat) (outcome : AppOutcome File) (now : Tm) :
    Option (Connection File) := do
  let request ← conn.promises[index]?
  let conn := { conn with promises := conn.promises.eraseIdx index }
  match outcome with
  | .returned answer =>
      return conn.scheduleMessageCompleteComplete request (answer.map (AppAnswer.toResponse now))
  | _ => return conn

/-- `ws$send` and `ws$close` -/
def wsCall (conn : Connection File) : WSCall → Connection File
  | .send binary message =>
      if conn.wsHandle then conn.push (.websocket (.sendWSMessage binary message)) else conn
  | .close code reason =>
      if conn.wsHandle then
        { conn with wsHandle := false }.push
          (.websocket (.closeWS (WSEndpoint.closeCode code) reason))
      else conn

/-- An error in a WebSocket callback closes the connection. -/
def closeIfFailed (conn : Connection File) : AppOutcome File → Connection File
  | .failed => conn.push .close
  | _ => conn

/-- `_call_r_on_ws_open`. The application uses the new handle while it runs. The call of
`read` is bound to a pointer into a vector that goes away when this function returns,
so that only the size of what has been kept gets to the background. -/
def callROnWSOpen (conn : Connection File) (outcome : AppOutcome File) (calls : List WSCall) :
    Connection File :=
  if !conn.pWebSocketConnection then conn
  else
    let opened := calls.foldl wsCall ({ conn with wsHandle := true }.observe .onWSOpen)
    { opened.closeIfFailed outcome with requestBuffer := [] }.push
      (.read opened.requestBuffer.length)

/-- The next callback on the main thread. -/
def runMain (conn : Connection File) (outcome : AppOutcome File) (calls : List WSCall)
    (now : Tm) : Option (Connection File) :=
  match conn.mainQueue with
  | [] => none
  | task :: rest =>
      let conn := { conn with mainQueue := rest }
      match task with
      | .initializeEnv => some conn
      | .onHeaders request => some (conn.onHeaders request outcome now)
      | .onBodyData request _ => some (conn.onBodyData request outcome now)
      | .getResponse request => some (conn.getResponse request outcome now)
      | .callROnWSOpen => some (conn.callROnWSOpen outcome calls)
      | .onWSMessage binary data =>
          some ((conn.observe (.onWSMessage binary data)).closeIfFailed outcome)
      | .onWSClose => some ({ conn with wsHandle := false }.observe .onWSClose)

end Connection

/-- One step on either thread. The time is taken from the step that needs it, and so
is what a callback finds in memory that has been freed. -/
inductive ConnectionAction (File : Type) where
  | read (data : Bytes) (static : Option (HttpResponse (Body File))) (now : Tm)
  | readError
  | written (status : Int) (queueEmpty : Bool)
  | onClosed
  | pingTimer
  | stop
  | runBackground (static : Option (HttpResponse (Body File))) (now : Tm) (freed : Bytes)
  | runMain (outcome : AppOutcome File) (calls : List WSCall) (now : Tm)
  | settle (index : Nat) (outcome : AppOutcome File) (now : Tm)
  | wsCall (call : WSCall)

namespace Connection

variable {File : Type} [HttpParser] [Zlib] [DataSource File] [Host] [Digests]

/-- A step, unless it cannot be taken or ends the process. -/
def next (conn : Connection File) : ConnectionAction File → Option (Connection File)
  | .read data static now =>
      if conn.reading && data != [] then conn.onRead static now data else none
  | .readError => if conn.reading then some conn.close else none
  | .written status queueEmpty => conn.onWritten status queueEmpty
  | .onClosed => conn.onClosed
  | .pingTimer => do
      let callbacks ← conn.websocket.sendPing
      return conn.runWebSocket conn.websocket callbacks
  | .stop => some conn.close
  | .runBackground static now freed => conn.runBackground static now freed
  | .runMain outcome calls now => conn.runMain outcome calls now
  | .settle index outcome now => conn.settle index outcome now
  | .wsCall call => some (conn.wsCall call)

/-- A connection that has just been accepted. -/
def fresh (incompleteContentHeader header : WSFrameHeaderInfo) : Connection File where
  parser := HttpParser.init
  protocol := .http
  head := { url := [], headers := [], lastHeaderField := [], lastHeaderState := .start }
  websocket := .constructed incompleteContentHeader header
  pWebSocketConnection := true
  ignoreNewData := false
  isClosing := false
  isUpgrade := false
  responseScheduled := false
  handlingRequest := false
  requestBuffer := []
  reading := true
  closed := false
  mainQueue := []
  backgroundQueue := []
  promises := []
  writes := []
  wsHandle := false
  current := 0
  serial := 0
  log := []

def Initial (conn : Connection File) : Prop :=
  ∃ incompleteContentHeader header, conn = fresh incompleteContentHeader header

def system : System (Connection File) (ConnectionAction File) Unit :=
  System.ofStep Initial (fun conn action => (conn.next action).map (fun after => (after, [])))

theorem run_of_foldlM {start finish : Connection File} {actions : List (ConnectionAction File)}
    (h : actions.foldlM next start = some finish) : system.Run start actions finish [] := by
  induction actions generalizing start with
  | nil =>
      obtain rfl := Option.some.inj h
      exact .nil
  | cons action actions ih =>
      simp only [List.foldlM_cons, Option.bind_eq_bind, Option.bind_eq_some_iff] at h
      obtain ⟨middle, hNext, hRest⟩ := h
      have hStep : system.step start action middle [] := by simp [system, System.ofStep, hNext]
      exact (System.Run.single hStep).trans (ih hRest)

end Connection

end Httpuv
