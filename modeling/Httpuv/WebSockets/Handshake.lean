import Httpuv.WebSockets.Connection

/-! Which upgrade requests `accept` takes, and what the handshake answers. -/
namespace Httpuv

/-- The vendored digests and the encoding of the accept key. -/
class Digests where
  sha1 : Bytes → Bytes
  md5 : Bytes → Bytes
  b64encode : Bytes → Bytes

/-- The digests for the key `dGhlIHNhbXBsZSBub25jZQ==`. -/
@[reducible] def sampleDigests : Digests where
  sha1 _ := [0xb3, 0x7a, 0x4f, 0x2c, 0xc0, 0x62, 0x4f, 0x16, 0x90, 0xf6, 0x46, 0x06, 0xcf, 0x38, 0x59,
    0x45, 0xb2, 0xbe, 0xc4, 0xea]
  md5 _ := List.replicate 16 0
  b64encode _ := ascii "s3pPLMBiTxaQ9kYGzzhZRbK+xOo="

/-- `trim` of `constants.h`: tabs and blanks at both ends. -/
def trim (s : Bytes) : Bytes :=
  let blank := fun byte : UInt8 => byte == 9 || byte == 32
  ((s.dropWhile blank).reverse.dropWhile blank).reverse

/-- The digits of a key divided by its number of blanks, in 32 bits. -/
def calculateKeyValue (key : Bytes) : Option Nat :=
  let trimmed := trim key
  let spaces := trimmed.count 32
  let value := trimmed.foldl (fun value byte =>
    if 48 ≤ byte ∧ byte ≤ 57 then (value * 10 + (byte.toNat - 48)) % 2 ^ 32 else value) 0
  if spaces % 2 ^ 32 = 0 then none else some (value / (spaces % 2 ^ 32))

/-- Whether the header asks for this protocol by name. -/
def upgradesToWebSocket (requestHeaders : RequestHeaders) : Bool :=
  match requestHeaders.find (ascii "upgrade") with
  | some value => strcaseEq value (ascii "websocket")
  | none => false

namespace WebSocketProto

def ietfCanHandle (requestHeaders : RequestHeaders) : Bool :=
  upgradesToWebSocket requestHeaders && requestHeaders.has (ascii "sec-websocket-key")

def hyBi03CanHandle (requestHeaders : RequestHeaders) (pData : Bytes) : Bool :=
  pData.length == 8 &&
    (match requestHeaders.find (ascii "sec-websocket-key1"),
        requestHeaders.find (ascii "sec-websocket-key2") with
    | some key1, some key2 => (calculateKeyValue key1).isSome && (calculateKeyValue key2).isSome
    | _, _ => false) &&
    requestHeaders.has (ascii "host") && upgradesToWebSocket requestHeaders

/-- What a handshake adds to the response, and the data that is left. -/
structure Handshake where
  responseHeaders : ResponseHeaders
  response : Bytes
  pData : Bytes
  deriving DecidableEq, Repr

variable [Digests]

def ietfHandshake (requestHeaders : RequestHeaders) (pData : Bytes) : Handshake :=
  let key := (requestHeaders.find (ascii "sec-websocket-key")).getD []
  let clear := trim key ++ ascii "258EAFA5-E914-47DA-95CA-C5AB0DC85B11"
  { responseHeaders := [(ascii "Connection", ascii "Upgrade"), (ascii "Upgrade", ascii "websocket"),
      (ascii "Sec-WebSocket-Accept", Digests.b64encode (Digests.sha1 clear))]
    response := []
    pData }

def hyBi03Handshake [Host] (url : Bytes) (requestHeaders : RequestHeaders) (pData : Bytes) :
    Handshake :=
  let keyBytes := fun name : Bytes =>
    let key := ((requestHeaders.find name).bind calculateKeyValue).getD 0
    if Host.isBigEndian then memoryBytes 4 key else swapByteOrder (memoryBytes 4 key)
  let handshake := keyBytes (ascii "sec-websocket-key1") ++
    keyBytes (ascii "sec-websocket-key2") ++ pData.take 8
  let origin := match requestHeaders.find (ascii "sec-websocket-origin") with
    | some origin => origin
    | none => (requestHeaders.find (ascii "origin")).getD []
  let location := ascii "ws://" ++ (requestHeaders.find (ascii "host")).getD [] ++ url
  { responseHeaders := [(ascii "Connection", ascii "Upgrade"), (ascii "Upgrade", ascii "WebSocket"),
      (ascii "Sec-WebSocket-Origin", origin), (ascii "Sec-WebSocket-Location", location)]
    response := Digests.md5 handshake
    pData := pData.drop 8 }

end WebSocketProto

namespace WebSocketConnection

/-- The parser that `accept` creates, if any. -/
def acceptedParser (conn : WebSocketConnection) (requestHeaders : RequestHeaders) (pData : Bytes) :
    Option WSParser :=
  if conn.connState = .wsClosed then none
  else if WebSocketProto.ietfCanHandle requestHeaders then some (.hyBi .fresh)
  else if WebSocketProto.hyBi03CanHandle requestHeaders pData then some (.hixie76 .fresh)
  else none

/-- The handshake of the parser that was created. -/
def handshake [Host] [Digests] (parser : WSParser) (url : Bytes) (requestHeaders : RequestHeaders)
    (pData : Bytes) : WebSocketProto.Handshake :=
  match parser with
  | .hyBi _ => WebSocketProto.ietfHandshake requestHeaders pData
  | .hixie76 _ => WebSocketProto.hyBi03Handshake url requestHeaders pData

end WebSocketConnection

end Httpuv
