import Httpuv.WebSockets.SplitReads
import Httpuv.WebSockets.Connection

/-! Messages sent by a client as fragments with control frames in between, and
what `WebSocketConnection` delivers for them. -/
namespace Httpuv

open Semantics

/-- The three ways to write a payload length. Longer forms than needed are
allowed. -/
inductive LengthForm where
  | short
  | medium
  | long
  deriving DecidableEq, Repr

namespace LengthForm

def Fits : LengthForm → Nat → Prop
  | .short, length => length ≤ 125
  | .medium, length => length < 2 ^ 16
  | .long, length => length < 2 ^ 64

instance (form : LengthForm) (length : Nat) : Decidable (form.Fits length) :=
  match form with
  | .short => inferInstanceAs (Decidable (length ≤ 125))
  | .medium => inferInstanceAs (Decidable (length < 2 ^ 16))
  | .long => inferInstanceAs (Decidable (length < 2 ^ 64))

end LengthForm

/-- An unsigned integer in network order. -/
def bigEndianBytes : Nat → Nat → Bytes
  | 0, _ => []
  | width + 1, value => bigEndianBytes width (value / 256) ++ [(value % 256).toUInt8]

/-- A payload and the choices a client makes when it frames it. -/
structure FrameBody where
  payload : Bytes
  maskingKey : Option { key : Bytes // key.length = 4 }
  form : LengthForm
  fits : form.Fits payload.length

namespace FrameBody

def keyBytes (body : FrameBody) : Bytes :=
  match body.maskingKey with
  | none => []
  | some key => key.val

/-- The length bytes behind the mask bit, seven bits of them in the first. -/
def lengthBytes (body : FrameBody) : Bytes :=
  let maskBit := if body.maskingKey.isSome then 128 else 0
  match body.form with
  | .short => [(maskBit + body.payload.length).toUInt8]
  | .medium => (maskBit + 126).toUInt8 :: bigEndianBytes 2 body.payload.length
  | .long => (maskBit + 127).toUInt8 :: bigEndianBytes 8 body.payload.length

/-- Octet `i` of the payload is combined with octet `i mod 4` of the key. -/
def payloadBytes (body : FrameBody) : Bytes :=
  match body.maskingKey with
  | none => body.payload
  | some key => body.payload.mapIdx (fun i byte => byte ^^^ key.val.getD (i % 4) 0)

end FrameBody

/-- A frame as a client of the IETF protocol sends it. -/
structure ClientFrame where
  fin : Bool
  opcode : Opcode
  body : FrameBody

namespace ClientFrame

def encode (frame : ClientFrame) : Bytes :=
  (WebSocketProto.ietf.toFin frame.fin * 128 +
      WebSocketProto.ietf.encodeOpcode frame.opcode).toUInt8 ::
    frame.body.lengthBytes ++ frame.body.keyBytes ++ frame.body.payloadBytes

def info (frame : ClientFrame) : WSFrameHeaderInfo where
  fin := frame.fin
  opcode := frame.opcode
  masked := frame.body.maskingKey.isSome
  maskingKey := frame.body.keyBytes
  hasLength := true
  payloadLength := frame.body.payload.length

end ClientFrame

/-- A complete Ping or Pong frame. -/
structure ControlFrame where
  isPing : Bool
  body : FrameBody

def ControlFrame.frame (control : ControlFrame) : ClientFrame where
  fin := true
  opcode := if control.isPing then .ping else .pong
  body := control.body

/-- One frame of a message, and the control frames the client sends before it. -/
structure Fragment where
  controls : List ControlFrame
  body : FrameBody

/-- A message in at least one fragment. -/
structure Message where
  binary : Bool
  first : Fragment
  others : List Fragment

namespace Message

/-- The frames of the fragments behind the first one. -/
def continuations : List Fragment → List ClientFrame
  | [] => []
  | fragment :: others =>
      fragment.controls.map ControlFrame.frame ++
        { fin := others.isEmpty, opcode := .continuation, body := fragment.body } ::
          continuations others

def frames (message : Message) : List ClientFrame :=
  message.first.controls.map ControlFrame.frame ++
    { fin := message.others.isEmpty
      opcode := if message.binary then .binary else .text
      body := message.first.body } :: continuations message.others

def payload (message : Message) : Bytes :=
  message.first.body.payload ++ message.others.flatMap (·.body.payload)

def controls (message : Message) : List ControlFrame :=
  message.first.controls ++ message.others.flatMap (·.controls)

end Message

/-- The bytes of a list of messages and of the control frames behind the last. -/
def encodeMessages (messages : List Message) (trailing : List ControlFrame) : Bytes :=
  (messages.flatMap Message.frames ++ trailing.map ControlFrame.frame).flatMap ClientFrame.encode

/-- A Pong with the payload of the Ping. -/
def ControlFrame.answer [Host] (control : ControlFrame) : List WSCallback :=
  if control.isPing then
    [.sendWSFrame .pong
      (WebSocketProto.ietf.createFrameHeader .pong false control.body.payload.length 0)
      control.body.payload []]
  else []

/-- One call for each message, behind the answers to the control frames that
came before its last fragment. -/
def Message.delivery [Host] (message : Message) : List WSCallback :=
  message.controls.flatMap ControlFrame.answer ++ [.onWSMessage message.binary message.payload]

def deliveries [Host] (messages : List Message) (trailing : List ControlFrame) :
    List WSCallback :=
  messages.flatMap Message.delivery ++ trailing.flatMap ControlFrame.answer

namespace FrameBody

variable (body : FrameBody)

theorem length_bigEndianBytes (width value : Nat) :
    (bigEndianBytes width value).length = width := by
  induction width generalizing value with
  | zero => rfl
  | succ width ih => simp [bigEndianBytes, ih]

theorem bigEndian_bigEndianBytes (width value : Nat) (h : value < 256 ^ width) :
    FrameLayout.bigEndian (bigEndianBytes width value) = value := by
  induction width generalizing value with
  | zero => simp at h; subst h; rfl
  | succ width ih =>
      rw [Nat.pow_succ] at h
      have hLow : (value % 256).toUInt8.toNat = value % 256 := by
        simp [Nat.toUInt8, UInt8.toNat_ofNat']
      rw [bigEndianBytes, FrameLayout.bigEndian_append_singleton, ih _ (by omega), hLow]
      omega

theorem length_payloadBytes : body.payloadBytes.length = body.payload.length := by
  unfold payloadBytes
  split <;> simp

theorem length_keyBytes :
    body.keyBytes.length = FrameLayout.keyBytes body.maskingKey.isSome := by
  unfold keyBytes
  cases body.maskingKey with
  | none => rfl
  | some key => exact key.property

/-- The length bytes read back, in each of the three forms. -/
theorem lengthBytes_spec : ∃ second extended, body.lengthBytes = second :: extended ∧
    decide (128 ≤ second.toNat) = body.maskingKey.isSome ∧
    extended.length = FrameLayout.extendedBytes (second.toNat % 128) ∧
    (if FrameLayout.extendedBytes (second.toNat % 128) = 0 then second.toNat % 128
      else FrameLayout.bigEndian extended) = body.payload.length := by
  obtain ⟨payload, maskingKey, form, fits⟩ := body
  have hSecond : ∀ length7, length7 < 128 →
      ((if maskingKey.isSome then 128 else 0) + length7).toUInt8.toNat =
        (if maskingKey.isSome then 128 else 0) + length7 := by
    intro length7 h
    simp only [Nat.toUInt8, UInt8.toNat_ofNat']
    split_ifs <;> omega
  have hMasked : ∀ length7, length7 < 128 →
      decide (128 ≤ (if maskingKey.isSome then 128 else 0) + length7) = maskingKey.isSome ∧
        ((if maskingKey.isSome then 128 else 0) + length7) % 128 = length7 := by
    intro length7 h
    cases maskingKey.isSome
    · simp only [Bool.false_eq_true, if_false, decide_eq_false_iff_not]
      omega
    · simp only [if_true, decide_eq_true_eq]
      omega
  cases form with
  | short =>
      have hShort : payload.length ≤ 125 := fits
      obtain ⟨hBit, hLow⟩ := hMasked payload.length (by omega)
      have hExtended : FrameLayout.extendedBytes payload.length = 0 := by
        rw [FrameLayout.extendedBytes, if_neg (by omega), if_neg (by omega)]
      refine ⟨((if maskingKey.isSome then 128 else 0) + payload.length).toUInt8, [], rfl,
        ?_, ?_, ?_⟩ <;> rw [hSecond _ (by omega)]
      · exact hBit
      · rw [hLow, hExtended]; rfl
      · rw [hLow, hExtended, if_pos rfl]
  | medium =>
      have hMedium : payload.length < 2 ^ 16 := fits
      obtain ⟨hBit, hLow⟩ := hMasked 126 (by omega)
      refine ⟨_, _, rfl, ?_, ?_, ?_⟩ <;> rw [hSecond _ (by omega)]
      · exact hBit
      · rw [hLow, length_bigEndianBytes]; rfl
      · rw [hLow, bigEndian_bigEndianBytes _ _ (by omega)]; rfl
  | long =>
      have hLong : payload.length < 2 ^ 64 := fits
      obtain ⟨hBit, hLow⟩ := hMasked 127 (by omega)
      refine ⟨_, _, rfl, ?_, ?_, ?_⟩ <;> rw [hSecond _ (by omega)]
      · exact hBit
      · rw [hLow, length_bigEndianBytes]; rfl
      · rw [hLow, bigEndian_bigEndianBytes _ _ (by omega)]; rfl

end FrameBody

namespace ClientFrame

variable (frame : ClientFrame)

/-- Both tables are inverse to each other, and the two bit fields of the first
byte do not overlap. -/
theorem firstByte (fin : Bool) (opcode : Opcode) :
    WebSocketProto.ietf.isFin ((WebSocketProto.ietf.toFin fin * 128 +
        WebSocketProto.ietf.encodeOpcode opcode).toUInt8.toNat / 128) = fin ∧
      WebSocketProto.ietf.decodeOpcode ((WebSocketProto.ietf.toFin fin * 128 +
        WebSocketProto.ietf.encodeOpcode opcode).toUInt8.toNat % 16) = opcode := by
  cases fin <;> cases opcode <;> exact ⟨rfl, rfl⟩

theorem decodeHeader_encode (more : Bytes) :
    FrameLayout.decodeHeader .ietf (frame.encode ++ more) =
      some (frame.info, frame.body.payloadBytes ++ more) := by
  obtain ⟨second, extended, hBytes, hMasked, hExtended, hLength⟩ := frame.body.lengthBytes_spec
  obtain ⟨hFin, hOpcode⟩ := firstByte frame.fin frame.opcode
  have hKey := frame.body.length_keyBytes
  simp only [encode, hBytes, List.cons_append, FrameLayout.decodeHeader, hMasked, ← hKey,
    ← hExtended, List.append_assoc, List.length_append]
  rw [if_pos (by omega)]
  have hKeyBytes : ((extended ++ (frame.body.keyBytes ++ (frame.body.payloadBytes ++ more))).drop
      extended.length).take frame.body.keyBytes.length = frame.body.keyBytes := by
    rw [List.drop_left, List.take_left]
  have hRest : (extended ++ (frame.body.keyBytes ++ (frame.body.payloadBytes ++ more))).drop
      (extended.length + frame.body.keyBytes.length) = frame.body.payloadBytes ++ more := by
    rw [← List.append_assoc, List.drop_left' (by simp)]
  rw [hKeyBytes, hRest, List.take_left, hExtended, hLength, hFin, hOpcode]
  rfl

/-- The callbacks for one frame. -/
def events : List WSParserEvent :=
  [.onHeaderComplete frame.info, .onPayload frame.body.payloadBytes, .onFrameComplete]

theorem decodeFrames_encode (more : Bytes) :
    FrameLayout.decodeFrames .ietf (frame.encode ++ more) =
      ((FrameLayout.decodeFrames .ietf more).1,
        frame.events ++ (FrameLayout.decodeFrames .ietf more).2) := by
  have hLength : frame.info.payloadLength = frame.body.payloadBytes.length :=
    frame.body.length_payloadBytes.symm
  rw [FrameLayout.decodeFrames_some (frame.decodeHeader_encode more), FrameLayout.decodePayload,
    hLength, if_pos (by simp), List.drop_left, List.take_left]
  rfl

/-- Whole frames leave the parser as it was before the first of them. -/
theorem decodeFrames_flatMap_encode (frames : List ClientFrame) :
    FrameLayout.decodeFrames .ietf (frames.flatMap encode) =
      (WSHyBiParser.fresh, frames.flatMap events) := by
  induction frames with
  | nil => exact WSHyBiParser.decodeFrames_nil
  | cons frame frames ih =>
      rw [List.flatMap_cons, decodeFrames_encode, ih]
      rfl

end ClientFrame

end Httpuv
