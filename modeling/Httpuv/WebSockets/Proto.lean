import Httpuv.Constants

/-! The opcode tables of the two binary framings and the frame header that the
server writes, from `websockets-base`, `websockets-ietf` and `websockets-hybi03`. -/
namespace Httpuv

/-- The virtual methods of `WebSocketProto` that concern frames. -/
structure WebSocketProto where
  isFin : Nat → Bool
  toFin : Bool → Nat
  decodeOpcode : Nat → Opcode
  encodeOpcode : Opcode → Nat

namespace WebSocketProto

def ietf : WebSocketProto where
  isFin firstBit := firstBit != 0
  toFin isFin := if isFin then 1 else 0
  decodeOpcode
    | 0 => .continuation
    | 1 => .text
    | 2 => .binary
    | 8 => .close
    | 9 => .ping
    | 0xA => .pong
    | _ => .reserved
  encodeOpcode
    | .continuation => 0
    | .text => 1
    | .binary => 2
    | .close => 8
    | .ping => 9
    | .pong => 0xA
    | .reserved => 0xF

def hyBi03 : WebSocketProto where
  isFin firstBit := firstBit == 0
  toFin isFin := if isFin then 0 else 1
  decodeOpcode
    | 0 => .continuation
    | 1 => .close
    | 2 => .ping
    | 3 => .pong
    | 4 => .text
    | 5 => .binary
    | _ => .reserved
  encodeOpcode
    | .continuation => 0
    | .close => 1
    | .ping => 2
    | .pong => 3
    | .text => 4
    | .binary => 5
    | .reserved => 6

variable [Host]

/-- Copy the leading bytes of a 64-bit integer in memory, and bring them into
network order on a little-endian host. -/
def networkBytes (count value : Nat) : Bytes :=
  let copied := (memoryBytes 8 value).take count
  if Host.isBigEndian then copied else swapByteOrder copied

/-- The header of a frame that is always final. The masking key is copied as it
lies in memory. -/
def createFrameHeader (proto : WebSocketProto) (opcode : Opcode) (mask : Bool)
    (payloadSize maskingKey : Nat) : Bytes :=
  let first := proto.toFin true <<< 7 ||| proto.encodeOpcode opcode
  let maskBit := if mask then 1 <<< 7 else 0
  let length :=
    if payloadSize ≤ 125 then [(maskBit ||| payloadSize).toUInt8]
    else if payloadSize ≤ 65535 then (maskBit ||| 126).toUInt8 :: networkBytes 2 payloadSize
    else (maskBit ||| 127).toUInt8 :: networkBytes 8 payloadSize
  first.toUInt8 :: length ++ (if mask then memoryBytes 4 maskingKey else [])

end WebSocketProto

end Httpuv
