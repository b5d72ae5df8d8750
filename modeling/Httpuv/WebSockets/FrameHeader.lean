import Httpuv.WebSockets.Proto
import Mathlib.Tactic

/-! `WSHyBiFrameHeader`: the bit fields of a frame header, read from the bytes
accumulated so far. A failed assertion is `none`. -/
namespace Httpuv

structure WSFrameHeaderInfo where
  fin : Bool
  opcode : Opcode
  masked : Bool
  maskingKey : Bytes
  hasLength : Bool
  payloadLength : Nat
  deriving DecidableEq, Repr

/-- The accumulated bytes, at most `maxHeaderBytes` of them. -/
structure WSHyBiFrameHeader where
  data : Bytes
  proto : WebSocketProto

namespace WSHyBiFrameHeader

def ofData (proto : WebSocketProto) (data : Bytes) : WSHyBiFrameHeader where
  data := data.take maxHeaderBytes
  proto := proto

variable (header : WSHyBiFrameHeader)

/-- Part of a byte as an unsigned number, counting bits from the most
significant one. Both assertions are kept. -/
def read (bitOffset bitWidth : Nat) : Option Nat :=
  let byteOffset := bitOffset / 8
  let bitOffset := bitOffset % 8
  if bitOffset + bitWidth ≤ 8 then
    match header.data[byteOffset]? with
    | none => none
    | some byte =>
        let mask := ((0xFF <<< (8 - bitWidth)) % 256) >>> bitOffset
        some ((byte.toNat &&& mask) >>> (8 - bitWidth - bitOffset))
  else none

/-- Whole bytes as a big-endian `uint64_t`. -/
def read64 (bitOffset bitWidth : Nat) : Option Nat :=
  if bitOffset % 8 = 0 ∧ bitWidth % 8 = 0 then
    let byteOffset := bitOffset / 8
    let byteWidth := bitWidth / 8
    if byteOffset + byteWidth ≤ header.data.length then
      some (((header.data.drop byteOffset).take byteWidth).foldl
        (fun result byte => (result * 256 + byte.toNat) % 2 ^ 64) 0)
    else none
  else none

def fin : Option Bool := (header.read 0 1).map header.proto.isFin

def opcode : Option Opcode := (header.read 4 4).map header.proto.decodeOpcode

def masked : Option Bool := (header.read 8 1).map (· != 0)

def payloadLength : Option Nat := do
  let pl ← header.read 9 7
  match pl with
  | 126 => header.read64 16 16
  | 127 => header.read64 16 64
  | _ => return pl

def payloadLengthLength : Option Nat := do
  let pll ← header.read 9 7
  match pll with
  | 126 => return 7 + 16
  | 127 => return 7 + 64
  | _ => return 7

def maskingKeyLength : Option Nat := do
  return if ← header.masked then 32 else 0

/-- The four key bytes that follow the length, or zeros for an unmasked frame. -/
def maskingKey : Option Bytes := do
  if ← header.masked then
    let length ← header.payloadLengthLength
    let key0 ← header.read (9 + length) 8
    let key1 ← header.read (9 + length + 8) 8
    let key2 ← header.read (9 + length + 16) 8
    let key3 ← header.read (9 + length + 24) 8
    return [key0.toUInt8, key1.toUInt8, key2.toUInt8, key3.toUInt8]
  else
    return [0, 0, 0, 0]

def headerLength : Option Nat := do
  let length ← header.payloadLengthLength
  let keyLength ← header.maskingKeyLength
  return (9 + length + keyLength) / 8

/-- With fewer than two bytes no field is looked at. -/
def isHeaderComplete : Option Bool := do
  if header.data.length < 2 then
    return false
  else
    let length ← header.headerLength
    return decide (length ≤ header.data.length)

def info : Option WSFrameHeaderInfo := do
  let fin ← header.fin
  let opcode ← header.opcode
  let masked ← header.masked
  let maskingKey ← if masked then header.maskingKey else pure []
  let payloadLength ← header.payloadLength
  return { fin, opcode, masked, maskingKey, hasLength := true, payloadLength }

end WSHyBiFrameHeader

end Httpuv
