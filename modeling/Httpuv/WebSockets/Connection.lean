import Httpuv.WebSockets.Hixie76
import Httpuv.Semantics.System

/-! `WebSocketConnection`: the closing state, the reassembly of messages and
the calls made to `WebSocketConnectionCallbacks`. -/
namespace Httpuv

open Semantics

inductive WSConnState where
  | wsOpen
  | wsCloseReceived
  | wsCloseSent
  /-- Closed with or without Close messages. -/
  | wsClosed
  deriving DecidableEq, Repr

/-- The two parsers that `accept` creates. A `WSHyBiParser` always gets the
IETF protocol. -/
inductive WSParser where
  | hyBi (parser : WSHyBiParser)
  | hixie76 (parser : WSHixie76Parser)
  deriving DecidableEq, Repr

namespace WSParser

def read : WSParser → Bytes → Option (WSParser × List WSParserEvent)
  | .hyBi parser, data => do
      let (parser, events) ← parser.read .ietf data
      return (.hyBi parser, events)
  | .hixie76 parser, data => do
      let (parser, events) ← parser.read data
      return (.hixie76 parser, events)

/-- Header and footer of an outgoing frame. -/
def createFrameHeaderFooter [Host] (parser : WSParser) (opcode : Opcode) (mask : Bool)
    (payloadSize maskingKey : Nat) : Bytes × Bytes :=
  match parser with
  | .hyBi _ => (WebSocketProto.ietf.createFrameHeader opcode mask payloadSize maskingKey, [])
  | .hixie76 _ => ([0], [0xFF])

end WSParser

/-- The calls to the owner of the connection. A sent frame carries the opcode
`sendWSMessage` was given, which the oldest framing does not write out. -/
inductive WSCallback where
  | onWSMessage (binary : Bool) (data : Bytes)
  | onWSClose (code : Int)
  | sendWSFrame (opcode : Opcode) (header data footer : Bytes)
  | closeWSSocket
  deriving DecidableEq, Repr

structure WebSocketConnection where
  connState : WSConnState
  pParser : Option WSParser
  incompleteContentHeader : WSFrameHeaderInfo
  header : WSFrameHeaderInfo
  incompleteContentPayload : Bytes
  payload : Bytes
  deriving DecidableEq, Repr

namespace WebSocketConnection

/-- The constructor leaves both frame headers uninitialised. -/
def constructed (incompleteContentHeader header : WSFrameHeaderInfo) : WebSocketConnection where
  connState := .wsOpen
  pParser := none
  incompleteContentHeader := incompleteContentHeader
  header := header
  incompleteContentPayload := []
  payload := []

/-- What `accept` does once a protocol can handle the request. -/
def withParser (conn : WebSocketConnection) (parser : WSParser) : WebSocketConnection :=
  { conn with pParser := some parser }

def markClosed (conn : WebSocketConnection) : WebSocketConnection :=
  { conn with connState := .wsClosed }

def onHeaderComplete (conn : WebSocketConnection) (header : WSFrameHeaderInfo) :
    WebSocketConnection :=
  if conn.connState = .wsClosed then conn
  else if !header.fin && header.opcode != .continuation then
    { conn with header := header, incompleteContentHeader := header }
  else { conn with header := header }

/-- Exclusive or with the key, counting from the start of the frame. -/
def unmask (key : Bytes) (origSize : Nat) (data : Bytes) : Bytes :=
  data.mapIdx (fun i byte => byte ^^^ key.getD ((origSize + i) % 4) 0)

def onPayload (conn : WebSocketConnection) (data : Bytes) : WebSocketConnection :=
  if conn.connState = .wsClosed then conn
  else if conn.header.masked then
    { conn with payload := conn.payload ++ unmask conn.header.maskingKey conn.payload.length data }
  else { conn with payload := conn.payload ++ data }

/-! The position of a key byte depends on the frame only. -/

theorem unmask_append (key : Bytes) (origSize : Nat) (data more : Bytes) :
    unmask key origSize (data ++ more) =
      unmask key origSize data ++ unmask key (origSize + data.length) more := by
  simp only [unmask, List.mapIdx_append, List.append_cancel_left_eq]
  congr 1
  funext i byte
  rw [Nat.add_assoc, Nat.add_comm data.length]

theorem length_unmask (key : Bytes) (origSize : Nat) (data : Bytes) :
    (unmask key origSize data).length = data.length := by
  simp [unmask]

theorem onPayload_append (conn : WebSocketConnection) (data more : Bytes) :
    (conn.onPayload data).onPayload more = conn.onPayload (data ++ more) := by
  by_cases hClosed : conn.connState = .wsClosed
  · simp [onPayload, hClosed]
  · by_cases hMasked : conn.header.masked
    · simp [onPayload, hClosed, hMasked, unmask_append, length_unmask]
    · simp [onPayload, hClosed, hMasked]

variable [Host]

/-- Nothing is sent on a closed connection. Sending before `accept` would use
the null parser. -/
def sendWSMessage (conn : WebSocketConnection) (opcode : Opcode) (data : Bytes) :
    Option (List WSCallback) :=
  if conn.connState = .wsClosed then some []
  else do
    let parser ← conn.pParser
    let (header, footer) := parser.createFrameHeaderFooter opcode false data.length 0
    return [.sendWSFrame opcode header data footer]

def sendPing (conn : WebSocketConnection) : Option (List WSCallback) :=
  if conn.pParser.isSome then conn.sendWSMessage .ping [] else none

/-- The status code in network order and the reason. -/
def closeMessage (code : UInt16) (reason : Bytes) : Bytes :=
  let code_p := memoryBytes 2 code.toNat
  (if Host.isBigEndian then code_p else swapByteOrder code_p) ++ reason

def closeWS (conn : WebSocketConnection) (code : UInt16) (reason : Bytes) :
    Option (WebSocketConnection × List WSCallback) :=
  match conn.connState with
  | .wsCloseSent => some (conn, [])
  | .wsClosed => some (conn, [])
  | .wsOpen => do
      let conn := { conn with connState := .wsCloseSent }
      let sent ← conn.sendWSMessage .close (closeMessage code reason)
      return (conn, sent)
  | .wsCloseReceived => do
      let conn := { conn with connState := .wsClosed }
      let sent ← conn.sendWSMessage .close (closeMessage code reason)
      return (conn, sent ++ [.closeWSSocket])

/-- The `case Close` of `onFrameComplete`. -/
def onCloseFrame (conn : WebSocketConnection) : Option (WebSocketConnection × List WSCallback) := do
  let conn :=
    if conn.connState = .wsOpen then { conn with connState := .wsCloseReceived }
    else if conn.connState = .wsCloseSent then { conn with connState := .wsClosed }
    else conn
  let (conn, sent) ←
    if conn.connState ≠ .wsCloseSent ∧ conn.connState ≠ .wsClosed then do
      let conn := { conn with connState := .wsClosed }
      let sent ← conn.sendWSMessage .close conn.payload
      pure (conn, sent)
    else pure (conn, [])
  return (conn, sent ++ [.closeWSSocket, .onWSClose 0])

def onFrameComplete (conn : WebSocketConnection) :
    Option (WebSocketConnection × List WSCallback) :=
  if conn.connState = .wsClosed then some (conn, [])
  else do
    let (conn, callbacks) ←
      if !conn.header.fin then
        some ({ conn with
          incompleteContentPayload := conn.incompleteContentPayload ++ conn.payload }, [])
      else
        match conn.header.opcode with
        | .continuation =>
            some ({ conn with incompleteContentPayload := [] },
              [.onWSMessage (conn.incompleteContentHeader.opcode == .binary)
                (conn.incompleteContentPayload ++ conn.payload)])
        | .text | .binary =>
            some (conn, [.onWSMessage (conn.header.opcode == .binary) conn.payload])
        | .close => conn.onCloseFrame
        | .ping => do
            let sent ← conn.sendWSMessage .pong conn.payload
            pure (conn, sent)
        | .pong => some (conn, [])
        | .reserved => some (conn, [])
    return ({ conn with payload := [] }, callbacks)

/-- The connection as the `WSParserCallbacks` of its parser. -/
def onParserEvent (conn : WebSocketConnection) :
    WSParserEvent → Option (WebSocketConnection × List WSCallback)
  | .onHeaderComplete header => some (conn.onHeaderComplete header, [])
  | .onPayload data => some (conn.onPayload data, [])
  | .onFrameComplete => conn.onFrameComplete

/-- The parser makes its callbacks while it reads and never looks at what they
have done, so they may be run after it. -/
def read (conn : WebSocketConnection) (data : Bytes) :
    Option (WebSocketConnection × List WSCallback) :=
  if conn.connState = .wsClosed then some (conn, [])
  else do
    let parser ← conn.pParser
    let (parser, events) ← parser.read data
    let (conn, callbacks) ← System.exec onParserEvent conn events
    return ({ conn with pParser := some parser }, callbacks)

/-- Whatever has been sent before, the state is closed before the echo is
passed to `sendWSMessage`. -/
theorem onCloseFrame_eq {conn : WebSocketConnection} (hNotClosed : conn.connState ≠ .wsClosed) :
    conn.onCloseFrame =
      some ({ conn with connState := .wsClosed }, [.closeWSSocket, .onWSClose 0]) := by
  cases hState : conn.connState with
  | wsClosed => exact absurd hState hNotClosed
  | wsOpen => simp [onCloseFrame, hState, sendWSMessage]
  | wsCloseReceived => simp [onCloseFrame, hState, sendWSMessage]
  | wsCloseSent => simp [onCloseFrame, hState]

/-- The calls for frames other than Close. -/
def IsData : WSCallback → Prop
  | .onWSMessage _ _ => True
  | .sendWSFrame opcode _ _ _ => opcode = .pong
  | _ => False

/-- What the end of a frame can do. -/
theorem onFrameComplete_cases {conn after : WebSocketConnection} {callbacks : List WSCallback}
    (h : conn.onFrameComplete = some (after, callbacks)) :
    (conn.connState = .wsClosed ∧ after = conn ∧ callbacks = []) ∨
    (conn.connState ≠ .wsClosed ∧ (conn.header.fin = true ∧ conn.header.opcode = .close) ∧
      after = { conn with connState := .wsClosed, payload := [] } ∧
      callbacks = [.closeWSSocket, .onWSClose 0]) ∨
    (conn.connState ≠ .wsClosed ∧ ¬ (conn.header.fin = true ∧ conn.header.opcode = .close) ∧
      after.connState = conn.connState ∧ after.pParser = conn.pParser ∧
      ∀ callback ∈ callbacks, IsData callback) := by
  by_cases hClosed : conn.connState = .wsClosed
  · rw [onFrameComplete, if_pos hClosed] at h
    cases h
    exact Or.inl ⟨hClosed, rfl, rfl⟩
  right
  rw [onFrameComplete, if_neg hClosed] at h
  cases hFin : conn.header.fin with
  | false =>
      simp only [hFin, Bool.not_false, if_true, Option.bind_eq_bind, Option.bind_some,
        Option.pure_def, Option.some.injEq, Prod.mk.injEq] at h
      obtain ⟨rfl, rfl⟩ := h
      exact Or.inr ⟨hClosed, by simp, rfl, rfl, by simp⟩
  | true =>
      simp only [hFin, Bool.not_true, Bool.false_eq_true, if_false, Option.bind_eq_bind,
        Option.pure_def] at h
      cases hOpcode : conn.header.opcode with
      | close =>
          rw [hOpcode] at h
          simp only [onCloseFrame_eq hClosed, Option.bind_some, Option.some.injEq,
            Prod.mk.injEq] at h
          obtain ⟨rfl, rfl⟩ := h
          exact Or.inl ⟨hClosed, ⟨rfl, rfl⟩, rfl, rfl⟩
      | ping =>
          simp only [hOpcode, sendWSMessage, if_neg hClosed] at h
          cases hParser : conn.pParser with
          | none => simp [hParser] at h
          | some parser =>
              simp only [hParser, Option.bind_eq_bind, Option.bind_some, Option.pure_def,
                Option.some.injEq, Prod.mk.injEq] at h
              obtain ⟨rfl, rfl⟩ := h
              exact Or.inr ⟨hClosed, by simp, rfl, rfl, by simp [IsData]⟩
      | _ =>
          simp only [hOpcode, Option.bind_some, Option.some.injEq, Prod.mk.injEq] at h
          obtain ⟨rfl, rfl⟩ := h
          exact Or.inr ⟨hClosed, by simp, rfl, rfl, by simp [IsData]⟩

theorem onParserEvent_pParser {conn after : WebSocketConnection} {event : WSParserEvent}
    {callbacks : List WSCallback} (h : conn.onParserEvent event = some (after, callbacks)) :
    after.pParser = conn.pParser := by
  cases event with
  | onHeaderComplete header =>
      simp only [onParserEvent, Option.some.injEq, Prod.mk.injEq] at h
      obtain ⟨rfl, -⟩ := h
      unfold onHeaderComplete
      split_ifs <;> rfl
  | onPayload data =>
      simp only [onParserEvent, Option.some.injEq, Prod.mk.injEq] at h
      obtain ⟨rfl, -⟩ := h
      unfold onPayload
      split_ifs <;> rfl
  | onFrameComplete =>
      rcases onFrameComplete_cases h with ⟨-, rfl, -⟩ | ⟨-, -, rfl, -⟩ | ⟨-, -, -, hParser, -⟩
      · rfl
      · rfl
      · exact hParser

/-! A closed connection ignores its parser. -/

theorem onParserEvent_closed {conn : WebSocketConnection} (hClosed : conn.connState = .wsClosed)
    (event : WSParserEvent) : conn.onParserEvent event = some (conn, []) := by
  cases event with
  | onHeaderComplete header => simp [onParserEvent, onHeaderComplete, hClosed]
  | onPayload data => simp [onParserEvent, onPayload, hClosed]
  | onFrameComplete => simp [onParserEvent, onFrameComplete, hClosed]

theorem exec_onParserEvent_closed {conn : WebSocketConnection}
    (hClosed : conn.connState = .wsClosed) (events : List WSParserEvent) :
    System.exec onParserEvent conn events = some (conn, []) := by
  induction events with
  | nil => rfl
  | cons event events ih => simp [System.exec, onParserEvent_closed hClosed, ih]

theorem read_closed {conn : WebSocketConnection} (hClosed : conn.connState = .wsClosed)
    (data : Bytes) : conn.read data = some (conn, []) := by
  rw [read, if_pos hClosed]

theorem exec_read_closed {conn : WebSocketConnection} (hClosed : conn.connState = .wsClosed)
    (chunks : List Bytes) : System.exec read conn chunks = some (conn, []) := by
  induction chunks with
  | nil => rfl
  | cons data chunks ih => simp [System.exec, read_closed hClosed, ih]

/-- Joining pieces of a payload changes nothing for the connection. -/
theorem exec_merge (conn : WebSocketConnection) (event : WSParserEvent)
    (events : List WSParserEvent) :
    System.exec onParserEvent conn (WSParserEvent.merge event events) =
      System.exec onParserEvent conn (event :: events) := by
  match event, events with
  | .onPayload data, .onPayload more :: events =>
      simp [WSParserEvent.merge, System.exec, onParserEvent, onPayload_append]
  | .onPayload data, [] => rfl
  | .onPayload data, .onHeaderComplete header :: events => rfl
  | .onPayload data, .onFrameComplete :: events => rfl
  | .onHeaderComplete header, events => rfl
  | .onFrameComplete, events => rfl

theorem exec_coalesce (conn : WebSocketConnection) (events : List WSParserEvent) :
    System.exec onParserEvent conn (WSParserEvent.coalesce events) =
      System.exec onParserEvent conn events := by
  induction events generalizing conn with
  | nil => rfl
  | cons event events ih =>
      rw [WSParserEvent.coalesce_cons, exec_merge]
      simp only [System.exec, ih]

end WebSocketConnection

end Httpuv
