import Httpuv.WebSockets.Closing
import Httpuv.WebSockets.FrameEncoding

/-! The frames that a connection of the IETF protocol hands to `sendWSFrame`, as
RFC 6455 wants them. The encoder does not know about the limit for control frames. -/
namespace Httpuv

open Semantics FrameLayout FrameBody WebSocketProto

def Opcode.isControl : Opcode → Bool
  | .close => true
  | .ping => true
  | .pong => true
  | _ => false

/-- A frame as a server may send it. -/
structure WellFormed (opcode : Opcode) (header data footer : Bytes) : Prop where
  fields : ∃ info, decodeHeader .ietf header = some (info, []) ∧ info.fin = true ∧
    info.opcode = opcode ∧ info.masked = false ∧ info.payloadLength = data.length
  reserved : ∀ first ∈ header.head?, first &&& 0x70 = 0
  minimal : ∀ other, (WSHyBiFrameHeader.ofData .ietf other).isHeaderComplete = some true →
    (WSHyBiFrameHeader.ofData .ietf other).masked = some false →
    (WSHyBiFrameHeader.ofData .ietf other).payloadLength = some data.length →
    header.length ≤ other.length
  noFooter : footer = []
  control : opcode.isControl = true → data.length ≤ 125
  close : opcode = .close → data = [] ∨ ∃ (code : UInt16) (reason : Bytes),
    data = bigEndianBytes 2 code.toNat ++ reason

def WSCallback.WellFormed : WSCallback → Prop
  | .sendWSFrame opcode header data footer => Httpuv.WellFormed opcode header data footer
  | _ => True

section Encoder

variable [Host]

/-- Where the length bytes come out in network order. -/
def LengthFits (payloadSize : Nat) : Prop :=
  payloadSize < 2 ^ 64 ∧
    (Host.isBigEndian = true → ¬ (126 ≤ payloadSize ∧ payloadSize ≤ 65535))

/-- What the encoder gets right on its own. -/
theorem wellFormed_createFrameHeader {opcode : Opcode} {data : Bytes}
    (hLength : LengthFits data.length)
    (hControl : opcode.isControl = true → data.length ≤ 125)
    (hClose : opcode = .close → data = [] ∨ ∃ (code : UInt16) (reason : Bytes),
      data = bigEndianBytes 2 code.toNat ++ reason) :
    WellFormed opcode (createFrameHeader .ietf opcode false data.length 0) data [] := by
  obtain ⟨hSize, hEndian⟩ := hLength
  have hHost : Host.isBigEndian = false ∨ data.length ≤ 125 ∨ 65535 < data.length := by
    cases hBig : Host.isBigEndian with
    | false => exact Or.inl rfl
    | true =>
        have hClass := hEndian hBig
        exact Or.inr (by omega)
  have hKey := length_memoryBytes 4 0
  rw [createFrameHeader_eq (Or.inl rfl) hHost]
  refine ⟨?_, ?_, ?_, rfl, hControl, hClose⟩
  · have hDecoded := @decodeHeader_encodeHeader .ietf opcode false data.length (memoryBytes 4 0)
      (Or.inl rfl) hSize hKey []
    rw [List.append_nil] at hDecoded
    exact ⟨_, hDecoded, rfl, rfl, rfl, rfl⟩
  · intro first hFirst
    have hByte : (WebSocketProto.ietf.toFin true * 128 + WebSocketProto.ietf.encodeOpcode opcode).toUInt8 = first :=
      Option.some.inj hFirst
    rw [← hByte]
    cases opcode <;> decide
  · intro other
    exact WSHyBiFrameHeader.shortest_encodeHeader hKey

omit [Host] in
/-- The length field holds no more than 64 bits. -/
theorem payloadLength_lt {header rest : Bytes} {info : WSFrameHeaderInfo}
    (hHeader : decodeHeader .ietf header = some (info, rest)) : info.payloadLength < 2 ^ 64 := by
  match header with
  | [] => cases hHeader
  | [_] => cases hHeader
  | first :: second :: tail =>
      have hExtended := extendedBytes_le (second.toNat % 128)
      have hBound := bigEndian_lt (tail.take (extendedBytes (second.toNat % 128)))
      have hPower : 256 ^ (tail.take (extendedBytes (second.toNat % 128))).length ≤ 256 ^ 8 := by
        apply Nat.pow_le_pow_right (by norm_num)
        rw [List.length_take]
        omega
      rw [decodeHeader] at hHeader
      split_ifs at hHeader with hEnough hNone
      · cases hHeader
        change second.toNat % 128 < 2 ^ 64
        omega
      · cases hHeader
        change bigEndian (tail.take (extendedBytes (second.toNat % 128))) < 2 ^ 64
        omega

/-- And what it gets wrong. -/
theorem lengthFits_of_wellFormed {opcode : Opcode} {data footer : Bytes}
    (h : WellFormed opcode (createFrameHeader .ietf opcode false data.length 0) data footer) :
    LengthFits data.length := by
  obtain ⟨info, hHeader, -, -, -, hLength⟩ := h.fields
  refine ⟨hLength ▸ payloadLength_lt hHeader, ?_⟩
  intro hBig hMedium
  have hClass : length7 data.length = 126 := by
    rw [length7, if_neg (by omega), if_pos hMedium.2]
  -- the two high bytes of eight, which are zero
  rw [createFrameHeader_bytes, hClass, show extendedBytes 126 = 2 from rfl, networkBytes_big hBig,
    bigEndianBytes_take 2 6, Nat.div_eq_of_lt (by omega)] at hHeader
  simp only [decodeHeader, Bool.false_eq_true, if_false, List.append_nil] at hHeader
  split_ifs at hHeader with hEnough hNone
  · exact absurd hNone (by decide)
  · simp only [Option.some.injEq, Prod.mk.injEq] at hHeader
    obtain ⟨rfl, -⟩ := hHeader
    have hZero : bigEndian ((bigEndianBytes 2 0).take 2) = data.length := hLength
    have hNothing : bigEndian ((bigEndianBytes 2 0).take 2) = 0 := rfl
    omega

/-- Whatever the byte order of the host, the code is in network order. -/
theorem closeMessage_eq (code : UInt16) (reason : Bytes) :
    WebSocketConnection.closeMessage code reason = bigEndianBytes 2 code.toNat ++ reason := by
  unfold WebSocketConnection.closeMessage memoryBytes swapByteOrder
  rw [bigEndianBytes_eq]
  cases hBig : Host.isBigEndian with
  | true => simp only [if_true]
  | false => simp only [Bool.false_eq_true, if_false]

end Encoder

/-- Callbacks that follow the frames of a stream. The number counts the bytes to go
in the payload of the current frame. -/
inductive Framed : Option Nat → List WSParserEvent → Option Nat → Prop where
  | nil (left : Option Nat) : Framed left [] left
  | header {info : WSFrameHeaderInfo} {events : List WSParserEvent} {after : Option Nat}
      (rest : Framed (some info.payloadLength) events after) :
      Framed none (.onHeaderComplete info :: events) after
  | payload {left : Nat} {data : Bytes} {events : List WSParserEvent} {after : Option Nat}
      (rest : Framed (some left) events after) :
      Framed (some (data.length + left)) (.onPayload data :: events) after
  | complete {events : List WSParserEvent} {after : Option Nat} (rest : Framed none events after) :
      Framed (some 0) (.onFrameComplete :: events) after

namespace WSHyBiParser

/-- The bytes to go in the payload that a parser is in. -/
def left (parser : WSHyBiParser) : Option Nat :=
  match parser.state with
  | .inHeader => none
  | .inPayload => some parser.bytesLeft

theorem framed_decodePayload {proto : WebSocketProto} {bytesLeft : Nat} {data : Bytes}
    (hFrames : bytesLeft ≤ data.length → Framed none
      (decodeFrames proto (data.drop bytesLeft)).2 (decodeFrames proto (data.drop bytesLeft)).1.left) :
    Framed (some bytesLeft) (decodePayload proto bytesLeft data).2
      (decodePayload proto bytesLeft data).1.left := by
  unfold decodePayload
  split_ifs with hEnough hNil
  · have hLength : (data.take bytesLeft).length + 0 = bytesLeft := by
      rw [List.length_take]
      omega
    have hPayload := @Framed.payload 0 (data.take bytesLeft) _ _
      (Framed.complete (hFrames hEnough))
    rwa [hLength] at hPayload
  · subst hNil
    exact Framed.nil _
  · have hLength : data.length + (bytesLeft - data.length) = bytesLeft := by omega
    have hPayload := @Framed.payload _ data _ _
      (Framed.nil (some (bytesLeft - data.length)))
    rwa [hLength] at hPayload

theorem framed_decodeFrames (proto : WebSocketProto) (data : Bytes) :
    Framed none (decodeFrames proto data).2 (decodeFrames proto data).1.left := by
  induction hLength : data.length using Nat.strongRecOn generalizing data with
  | ind length ih =>
      cases hHeader : decodeHeader proto data with
      | none =>
          rw [decodeFrames_none hHeader]
          exact Framed.nil none
      | some decoded =>
          obtain ⟨info, rest⟩ := decoded
          have hShorter := decodeHeader_length hHeader
          rw [decodeFrames_some hHeader]
          apply Framed.header
          apply framed_decodePayload
          intro hPayload
          exact ih (rest.drop info.payloadLength).length (by rw [List.length_drop]; omega) _ rfl

/-- A read continues the frames and leaves a parser that can be read from. -/
theorem framed_read {proto : WebSocketProto} {parser next : WSHyBiParser} {data : Bytes}
    {events : List WSParserEvent} (hResting : parser.Resting proto)
    (hRead : read proto parser data = some (next, events)) :
    Framed parser.left events next.left ∧ next.Resting proto := by
  rw [read_eq hResting, Option.some.injEq] at hRead
  obtain ⟨state, header, bytesLeft⟩ := parser
  cases state with
  | inHeader =>
      have hFrames : decodeFrames proto (header ++ data) = (next, events) := hRead
      have hFramed := framed_decodeFrames proto (header ++ data)
      have hNext := @resting_decodeFrames proto (header ++ data)
      rw [hFrames] at hFramed hNext
      exact ⟨hFramed, hNext⟩
  | inPayload =>
      have hPayload : decodePayload proto bytesLeft data = (next, events) := hRead
      have hFramed := @framed_decodePayload proto bytesLeft data
        fun _ => framed_decodeFrames proto (data.drop bytesLeft)
      rw [hPayload] at hFramed
      refine ⟨hFramed, ?_⟩
      by_cases hEnough : bytesLeft ≤ data.length
      · have hNext := @resting_decodeFrames proto (data.drop bytesLeft)
        rw [decodePayload, if_pos hEnough] at hPayload
        rw [(Prod.mk.inj hPayload).1] at hNext
        exact hNext
      · rw [decodePayload, if_neg hEnough] at hPayload
        rw [← (Prod.mk.inj hPayload).1]
        exact ⟨rfl, Nat.sub_pos_of_lt (Nat.lt_of_not_le hEnough)⟩

end WSHyBiParser

namespace WebSocketConnection

variable [Host]

/-- The payload collected so far is that of the frame being read, and a ping is short
enough to be answered. -/
def Synced (conn : WebSocketConnection) (left : Option Nat) : Prop :=
  conn.connState = .wsClosed ∨
    match left with
    | none => conn.payload = []
    | some left => conn.payload.length + left = conn.header.payloadLength ∧
        (conn.header.opcode = .ping → conn.header.payloadLength ≤ 125)

/-- A frame on the IETF protocol. -/
theorem sendWSMessage_frame {conn : WebSocketConnection} {parser : WSHyBiParser}
    (hParser : conn.pParser = some (.hyBi parser))
    (hOpen : conn.connState ≠ .wsClosed) (opcode : Opcode) (data : Bytes) :
    conn.sendWSMessage opcode data = some [.sendWSFrame opcode
      (createFrameHeader .ietf opcode false data.length 0) data []] := by
  rw [sendWSMessage, if_neg hOpen, hParser]
  rfl

/-- The end of a frame sends nothing but the answer to a ping. -/
theorem onFrameComplete_sent {conn after : WebSocketConnection} {parser : WSHyBiParser}
    {callbacks : List WSCallback} (hParser : conn.pParser = some (.hyBi parser))
    (hOpen : conn.connState ≠ .wsClosed) (h : conn.onFrameComplete = some (after, callbacks)) :
    after.payload = [] ∧
    ∀ callback ∈ callbacks, callback.IsFrame → conn.header.opcode = .ping ∧
      callback = .sendWSFrame .pong
        (createFrameHeader .ietf .pong false conn.payload.length 0) conn.payload [] := by
  rw [onFrameComplete, if_neg hOpen] at h
  cases hFin : conn.header.fin with
  | false =>
      simp only [hFin, Bool.not_false, if_true, Option.bind_eq_bind, Option.bind_some,
        Option.pure_def, Option.some.injEq, Prod.mk.injEq] at h
      obtain ⟨rfl, rfl⟩ := h
      exact ⟨rfl, List.forall_mem_nil _⟩
  | true =>
      simp only [hFin, Bool.not_true, Bool.false_eq_true, if_false, Option.bind_eq_bind,
        Option.pure_def] at h
      cases hOpcode : conn.header.opcode with
      | close =>
          simp only [hOpcode, onCloseFrame_eq hOpen, Option.bind_some, Option.some.injEq,
            Prod.mk.injEq] at h
          obtain ⟨rfl, rfl⟩ := h
          refine ⟨rfl, ?_⟩
          intro callback hCallback hFrame
          simp only [List.mem_cons, List.not_mem_nil, or_false] at hCallback
          rcases hCallback with rfl | rfl
          · exact False.elim hFrame
          · exact False.elim hFrame
      | ping =>
          simp only [hOpcode, sendWSMessage_frame hParser hOpen, Option.bind_some,
            Option.some.injEq, Prod.mk.injEq] at h
          obtain ⟨rfl, rfl⟩ := h
          exact ⟨rfl, fun callback hCallback _ => ⟨rfl, List.mem_singleton.1 hCallback⟩⟩
      | continuation | text | binary =>
          simp only [hOpcode, Option.bind_some, Option.some.injEq, Prod.mk.injEq] at h
          obtain ⟨rfl, rfl⟩ := h
          refine ⟨rfl, ?_⟩
          intro callback hCallback hFrame
          rw [List.mem_singleton.1 hCallback] at hFrame
          exact False.elim hFrame
      | pong | reserved =>
          simp only [hOpcode, Option.bind_some, Option.some.injEq, Prod.mk.injEq] at h
          obtain ⟨rfl, rfl⟩ := h
          exact ⟨rfl, List.forall_mem_nil _⟩

/-- One event. -/
theorem onParserEvent_framed {conn after : WebSocketConnection} {parser : WSHyBiParser}
    {left : Option Nat} {event : WSParserEvent} {events : List WSParserEvent}
    {next : Option Nat} {callbacks : List WSCallback}
    (hFramed : Framed left (event :: events) next) (hSynced : conn.Synced left)
    (hParser : conn.pParser = some (.hyBi parser))
    (hPing : ∀ info, .onHeaderComplete info = event → info.opcode = .ping →
      info.payloadLength ≤ 125)
    (hEvent : conn.onParserEvent event = some (after, callbacks)) :
    (∃ middle, Framed middle events next ∧ after.Synced middle) ∧
      ∀ callback ∈ callbacks, callback.WellFormed := by
  by_cases hClosed : conn.connState = .wsClosed
  · rw [onParserEvent_closed hClosed] at hEvent
    cases hEvent
    refine ⟨?_, List.forall_mem_nil _⟩
    cases hFramed with
    | header rest => exact ⟨_, rest, Or.inl hClosed⟩
    | payload rest => exact ⟨_, rest, Or.inl hClosed⟩
    | complete rest => exact ⟨_, rest, Or.inl hClosed⟩
  · have hState := hSynced.resolve_left hClosed
    cases hFramed with
    | @header info _ _ rest =>
        simp only [onParserEvent, Option.some.injEq, Prod.mk.injEq] at hEvent
        obtain ⟨rfl, rfl⟩ := hEvent
        refine ⟨⟨_, rest, Or.inr ?_⟩, List.forall_mem_nil _⟩
        have hHeader : (conn.onHeaderComplete info).header = info := by
          unfold onHeaderComplete
          rw [if_neg hClosed]
          split_ifs <;> rfl
        have hPayload : (conn.onHeaderComplete info).payload = conn.payload := by
          unfold onHeaderComplete
          rw [if_neg hClosed]
          split_ifs <;> rfl
        have hEmpty : conn.payload = [] := hState
        refine ⟨?_, ?_⟩
        · rw [hPayload, hHeader, hEmpty, List.length_nil, Nat.zero_add]
        · rw [hHeader]
          exact hPing info rfl
    | @payload left data _ _ rest =>
        simp only [onParserEvent, Option.some.injEq, Prod.mk.injEq] at hEvent
        obtain ⟨rfl, rfl⟩ := hEvent
        refine ⟨⟨_, rest, Or.inr ?_⟩, List.forall_mem_nil _⟩
        have hHeader : (conn.onPayload data).header = conn.header := by
          unfold onPayload
          rw [if_neg hClosed]
          split_ifs <;> rfl
        have hPayload : (conn.onPayload data).payload.length =
            conn.payload.length + data.length := by
          unfold onPayload
          rw [if_neg hClosed]
          split_ifs
          · rw [List.length_append, length_unmask]
          · rw [List.length_append]
        obtain ⟨hLength, hShort⟩ := hState
        refine ⟨?_, ?_⟩
        · rw [hPayload, hHeader, ← hLength, Nat.add_assoc]
        · rw [hHeader]
          exact hShort
    | complete rest =>
        obtain ⟨hNext, hSent⟩ := onFrameComplete_sent hParser hClosed hEvent
        obtain ⟨hLength, hShort⟩ := hState
        refine ⟨⟨_, rest, Or.inr hNext⟩, ?_⟩
        intro callback hCallback
        cases callback with
        | sendWSFrame opcode header data footer =>
            obtain ⟨hOpcode, hFrame⟩ := hSent _ hCallback trivial
            rw [hFrame]
            have hFits := hShort hOpcode
            rw [← hLength, Nat.add_zero] at hFits
            apply wellFormed_createFrameHeader ⟨by omega, fun _ => by omega⟩ (fun _ => hFits)
            exact fun hOpcode => absurd hOpcode (by decide)
        | onWSMessage binary data => trivial
        | onWSClose code => trivial
        | closeWSSocket => trivial

/-- The events of a read. -/
theorem exec_framed {conn after : WebSocketConnection} {parser : WSHyBiParser}
    {left next : Option Nat} {events : List WSParserEvent} {callbacks : List WSCallback}
    (hFramed : Framed left events next) (hSynced : conn.Synced left)
    (hParser : conn.pParser = some (.hyBi parser))
    (hPings : ∀ info, .onHeaderComplete info ∈ events → info.opcode = .ping →
      info.payloadLength ≤ 125)
    (hExec : System.exec onParserEvent conn events = some (after, callbacks)) :
    after.Synced next ∧ ∀ callback ∈ callbacks, callback.WellFormed := by
  induction events generalizing conn left callbacks with
  | nil =>
      cases hExec
      cases hFramed
      exact ⟨hSynced, List.forall_mem_nil _⟩
  | cons event events ih =>
      obtain ⟨middle, calls, rest, hEvent, hRest, rfl⟩ := System.exec_cons_eq_some.1 hExec
      obtain ⟨⟨between, hFrames, hMiddle⟩, hCalls⟩ := onParserEvent_framed hFramed hSynced hParser
        (fun info hInfo => hPings info (hInfo ▸ List.mem_cons_self)) hEvent
      have hSame := (onParserEvent_pParser hEvent).trans hParser
      obtain ⟨hLast, hLater⟩ := ih hFrames hMiddle hSame
        (fun info hInfo => hPings info (List.mem_cons_of_mem _ hInfo)) hRest
      refine ⟨hLast, ?_⟩
      intro callback hCallback
      cases List.mem_append.1 hCallback with
      | inl hFirst => exact hCalls callback hFirst
      | inr hSecond => exact hLater callback hSecond

end WebSocketConnection

namespace WSEndpoint

/-- A ping that can be answered has at most 125 bytes. -/
def PingsFit (endpoint : WSEndpoint) : WSAction → Prop
  | .read data => ∀ parser next events info, endpoint.conn.pParser = some parser →
      parser.read data = some (next, events) → .onHeaderComplete info ∈ events →
      info.opcode = .ping → info.payloadLength ≤ 125
  | _ => True

variable [Host]

/-- What is about to be sent can be put into a frame: a close reason leaves room for
its code, and the length of a message comes out in network order. -/
def FramesFit (endpoint : WSEndpoint) : WSAction → Prop
  | .runTask =>
      match endpoint.backgroundQueue with
      | [] => True
      | .sendWSMessage _ message :: _ =>
          endpoint.conn.connState ≠ .wsClosed → LengthFits message.length
      | .closeWS _ reason :: _ => endpoint.conn.connState = .wsOpen → reason.length ≤ 123
  | _ => True

/-- An endpoint of the IETF protocol between two steps. -/
def Ready (endpoint : WSEndpoint) : Prop :=
  ∃ parser, endpoint.conn.pParser = some (.hyBi parser) ∧ parser.Resting .ietf ∧
    endpoint.conn.Synced parser.left

end WSEndpoint

namespace WebSocketConnection

variable [Host] {conn after : WebSocketConnection} {parser : WSHyBiParser}
  {callbacks : List WSCallback}

theorem sendWSMessage_wellFormed_iff (hParser : conn.pParser = some (.hyBi parser))
    (binary : Bool) (message : Bytes)
    (hSend : conn.sendWSMessage (if binary then .binary else .text) message = some callbacks) :
    (conn.connState ≠ .wsClosed → LengthFits message.length) ↔
      ∀ callback ∈ callbacks, callback.WellFormed := by
  by_cases hClosed : conn.connState = .wsClosed
  · rw [sendWSMessage, if_pos hClosed] at hSend
    cases hSend
    exact ⟨fun _ => List.forall_mem_nil _, fun _ hOpen => absurd hClosed hOpen⟩
  · rw [sendWSMessage_frame hParser hClosed] at hSend
    cases hSend
    constructor
    · intro hFits callback hCallback
      rw [List.mem_singleton.1 hCallback]
      apply wellFormed_createFrameHeader (hFits hClosed)
      · cases binary <;> exact fun h => absurd h (by decide)
      · cases binary <;> exact fun h => absurd h (by decide)
    · intro hFrames hOpen
      exact lengthFits_of_wellFormed (hFrames _ List.mem_cons_self)

theorem sendPing_wellFormed (hParser : conn.pParser = some (.hyBi parser))
    (hPing : conn.sendPing = some callbacks) : ∀ callback ∈ callbacks, callback.WellFormed := by
  rw [sendPing, hParser, Option.isSome_some, if_pos rfl] at hPing
  by_cases hClosed : conn.connState = .wsClosed
  · rw [sendWSMessage, if_pos hClosed] at hPing
    cases hPing
    exact List.forall_mem_nil _
  · rw [sendWSMessage_frame hParser hClosed] at hPing
    cases hPing
    intro callback hCallback
    rw [List.mem_singleton.1 hCallback]
    apply wellFormed_createFrameHeader ⟨by norm_num, fun _ => by simp⟩
    · exact fun _ => Nat.zero_le 125
    · exact fun hOpcode => absurd hOpcode (by decide)

theorem closeWS_wellFormed_iff (hParser : conn.pParser = some (.hyBi parser)) (code : UInt16)
    (reason : Bytes) (hClose : conn.closeWS code reason = some (after, callbacks)) :
    (conn.connState = .wsOpen → reason.length ≤ 123) ↔
      ∀ callback ∈ callbacks, callback.WellFormed := by
  rcases closeWS_cases hClose with ⟨hState, -, rfl⟩ | ⟨hOpen, -, hSend⟩ | ⟨hReceived, -, rfl⟩
  · refine ⟨fun _ => List.forall_mem_nil _, fun _ hOpen => ?_⟩
    rcases hState with hState | hState <;> rw [hState] at hOpen <;> cases hOpen
  · have hParserSent : ({ conn with connState := .wsCloseSent } : WebSocketConnection).pParser =
        some (.hyBi parser) := hParser
    rw [sendWSMessage_frame hParserSent (by simp)] at hSend
    cases hSend
    have hLength : (closeMessage code reason).length = 2 + reason.length := by
      rw [closeMessage_eq, List.length_append, length_bigEndianBytes]
    constructor
    · intro hFits callback hCallback
      have hReason := hFits hOpen
      rw [List.mem_singleton.1 hCallback]
      apply wellFormed_createFrameHeader
      · rw [hLength]
        exact ⟨by omega, fun _ => by omega⟩
      · intro hControl
        omega
      · intro hOpcode
        exact Or.inr ⟨code, reason, closeMessage_eq code reason⟩
    · intro hFrames _
      have hControl := (hFrames _ List.mem_cons_self).control rfl
      omega
  · refine ⟨fun _ callback hCallback => ?_, fun _ hOpen => ?_⟩
    · rw [List.mem_singleton.1 hCallback]
      trivial
    · rw [hReceived] at hOpen
      cases hOpen

/-- Closing does not touch what is being read. -/
theorem closeWS_synced {left : Option Nat} {code : UInt16} {reason : Bytes}
    (hSynced : conn.Synced left) (hClose : conn.closeWS code reason = some (after, callbacks)) :
    after.Synced left ∧ after.pParser = conn.pParser := by
  rcases closeWS_cases hClose with ⟨-, rfl, -⟩ | ⟨hOpen, rfl, -⟩ | ⟨-, rfl, -⟩
  · exact ⟨hSynced, rfl⟩
  · have hNotClosed : conn.connState ≠ .wsClosed := by simp [hOpen]
    exact ⟨Or.inr (hSynced.resolve_left hNotClosed), rfl⟩
  · exact ⟨Or.inl rfl, rfl⟩

/-- A read. -/
theorem read_framed {data : Bytes} (hParser : conn.pParser = some (.hyBi parser))
    (hResting : parser.Resting .ietf) (hSynced : conn.Synced parser.left)
    (hPings : ∀ next events info, (WSParser.hyBi parser).read data = some (next, events) →
      .onHeaderComplete info ∈ events → info.opcode = .ping → info.payloadLength ≤ 125)
    (hRead : conn.read data = some (after, callbacks)) :
    (∃ next, after.pParser = some (.hyBi next) ∧ next.Resting .ietf ∧ after.Synced next.left) ∧
      ∀ callback ∈ callbacks, callback.WellFormed := by
  by_cases hClosed : conn.connState = .wsClosed
  · rw [read_closed hClosed] at hRead
    cases hRead
    exact ⟨⟨parser, hParser, hResting, hSynced⟩, List.forall_mem_nil _⟩
  · rw [read, if_neg hClosed, hParser] at hRead
    simp only [Option.bind_eq_bind, Option.bind_eq_some_iff, Option.pure_def, Option.some.injEq,
      Prod.mk.injEq, Prod.exists] at hRead
    obtain ⟨_, rfl, parsed, events, hParsed, last, calls, hExec, rfl, rfl⟩ := hRead
    have hEvents := hPings parsed events
    simp only [WSParser.read, Option.bind_eq_bind, Option.bind_eq_some_iff, Option.pure_def,
      Option.some.injEq, Prod.mk.injEq, Prod.exists] at hParsed hEvents
    obtain ⟨next, reported, hNext, rfl, rfl⟩ := hParsed
    obtain ⟨hFramed, hRest⟩ := WSHyBiParser.framed_read hResting hNext
    obtain ⟨hLast, hCalls⟩ := exec_framed hFramed hSynced hParser
      (fun info => hEvents info ⟨next, reported, hNext, rfl, rfl⟩) hExec
    exact ⟨⟨next, rfl, hRest, hLast⟩, hCalls⟩

end WebSocketConnection

namespace WSEndpoint

open WebSocketConnection

variable [Host]

/-- A step that fits sends well-formed frames only, and one that does not fit sends
another one. -/
theorem Ready.step {endpoint after : WSEndpoint} {action : WSAction}
    {callbacks : List WSCallback} (h : endpoint.Ready) (hPings : endpoint.PingsFit action)
    (hStep : endpoint.step action = some (after, callbacks)) :
    after.Ready ∧ (endpoint.FramesFit action ↔ ∀ callback ∈ callbacks, callback.WellFormed) := by
  obtain ⟨parser, hParser, hResting, hSynced⟩ := h
  have hQuiet : ∀ other : WSEndpoint, other.conn = endpoint.conn → other.Ready := by
    intro other hSame
    refine ⟨parser, ?_, hResting, ?_⟩ <;> rw [hSame]
    · exact hParser
    · exact hSynced
  cases action with
  | send binary message =>
      cases hStep
      refine ⟨hQuiet _ ?_, ⟨fun _ => nofun, fun _ => trivial⟩⟩
      unfold send
      split_ifs <;> rfl
  | close code reason =>
      cases hStep
      refine ⟨hQuiet _ ?_, ⟨fun _ => nofun, fun _ => trivial⟩⟩
      unfold WSEndpoint.close
      split_ifs <;> rfl
  | onWSClose =>
      cases hStep
      exact ⟨hQuiet _ rfl, ⟨fun _ => nofun, fun _ => trivial⟩⟩
  | runTask =>
      obtain ⟨handle, backgroundQueue, conn⟩ := endpoint
      cases backgroundQueue with
      | nil => cases hStep
      | cons task rest =>
          cases task with
          | sendWSMessage binary message =>
              simp only [WSEndpoint.step, runTask, Option.bind_eq_bind, Option.bind_eq_some_iff,
                Option.pure_def, Option.some.injEq, Prod.mk.injEq] at hStep
              obtain ⟨sent, hSend, rfl, rfl⟩ := hStep
              exact ⟨hQuiet _ rfl, sendWSMessage_wellFormed_iff hParser binary message hSend⟩
          | closeWS code reason =>
              simp only [WSEndpoint.step, runTask, Option.bind_eq_bind, Option.bind_eq_some_iff,
                Option.pure_def, Option.some.injEq, Prod.mk.injEq, Prod.exists] at hStep
              obtain ⟨closed, sent, hClose, rfl, rfl⟩ := hStep
              obtain ⟨hAfter, hSame⟩ := closeWS_synced hSynced hClose
              exact ⟨⟨parser, hSame.trans hParser, hResting, hAfter⟩,
                closeWS_wellFormed_iff hParser code reason hClose⟩
  | pingTimer =>
      simp only [WSEndpoint.step, Option.bind_eq_bind, Option.bind_eq_some_iff, Option.pure_def,
        Option.some.injEq, Prod.mk.injEq] at hStep
      obtain ⟨sent, hPing, rfl, rfl⟩ := hStep
      exact ⟨hQuiet _ rfl, ⟨fun _ => sendPing_wellFormed hParser hPing, fun _ => trivial⟩⟩
  | read data =>
      simp only [WSEndpoint.step, Option.bind_eq_bind, Option.bind_eq_some_iff, Option.pure_def,
        Option.some.injEq, Prod.mk.injEq, Prod.exists] at hStep
      obtain ⟨conn, calls, hRead, rfl, rfl⟩ := hStep
      obtain ⟨hAfter, hCalls⟩ := read_framed hParser hResting hSynced
        (fun next events info => hPings _ next events info hParser) hRead
      exact ⟨hAfter, ⟨fun _ => hCalls, fun _ => trivial⟩⟩
  | markClosed =>
      cases hStep
      exact ⟨⟨parser, hParser, hResting, Or.inl rfl⟩, ⟨fun _ => nofun, fun _ => trivial⟩⟩

theorem ready_run {start finish : WSEndpoint} {actions : List WSAction}
    {callbacks : List WSCallback} (hStart : start.Ready)
    (run : (system.guarded PingsFit).Run start actions finish callbacks) : finish.Ready := by
  induction run with
  | nil => exact hStart
  | snoc prior last ih => exact (ih.step last.1 last.2).1

/-- On the IETF protocol, in any run in which the pings of the client fit, every frame
is well formed exactly when every step has something to send that fits into one. -/
theorem sent_wellFormed_iff {start finish : WSEndpoint} {actions : List WSAction}
    {callbacks : List WSCallback} (hStart : system.initial start)
    (hIetf : start.conn.pParser = some (.hyBi .fresh))
    (run : (system.guarded PingsFit).Run start actions finish callbacks) :
    (∀ callback ∈ callbacks, callback.WellFormed) ↔
      ((system.guarded PingsFit).guarded FramesFit).Run start actions finish callbacks := by
  have hReady : start.Ready := by
    obtain ⟨-, -, incompleteContentHeader, header, parser, -, hConn⟩ := hStart
    refine ⟨.fresh, hIetf, ⟨rfl, rfl⟩, Or.inr ?_⟩
    rw [hConn]
    rfl
  constructor
  · intro hFrames
    induction run with
    | nil => exact .nil
    | snoc prior last ih =>
        have hPrior := ih fun callback hCallback => hFrames callback (List.mem_append_left _ hCallback)
        have hStep := (ready_run hReady prior).step last.1 last.2
        have hFits := hStep.2.2 fun callback hCallback =>
          hFrames callback (List.mem_append_right _ hCallback)
        exact hPrior.snoc ⟨hFits, last⟩
  · intro hFits
    induction hFits with
    | nil => exact nofun
    | snoc prior last ih =>
        have hStep := (ready_run hReady prior.of_guarded).step last.2.1 last.2.2
        intro callback hCallback
        cases List.mem_append.1 hCallback with
        | inl hOld => exact ih prior.of_guarded callback hOld
        | inr hNew => exact hStep.2.1 last.1 callback hNew

omit [Host] in
/-- An endpoint just accepted on the IETF protocol. -/
def ietfAccepted : WSEndpoint where
  handle := true
  backgroundQueue := []
  conn := (constructed WSHixie76Parser.textInfo WSHixie76Parser.textInfo).withParser (.hyBi .fresh)

omit [Host] in
/-- A binary message, and the answer to a masked ping without payload. -/
theorem sent_wellFormed_iff_message :
    let _ : Host := littleEndianHost
    ∃ finish, system.Run ietfAccepted
        [.send true [1, 2], .runTask, .read [0x89, 0x80, 1, 2, 3, 4]] finish
        [.sendWSFrame .binary [0x82, 2] [1, 2] [], .sendWSFrame .pong [0x8A, 0] [] []] ∧
      ∀ callback ∈ [WSCallback.sendWSFrame .binary [0x82, 2] [1, 2] [],
        .sendWSFrame .pong [0x8A, 0] [] []], callback.WellFormed := by
  intro _
  let queued : WSEndpoint := ietfAccepted.send true [1, 2]
  have hSend : ietfAccepted.step (.send true [1, 2]) = some (queued, []) := rfl
  have hTask : queued.step .runTask =
      some (ietfAccepted, [.sendWSFrame .binary [0x82, 2] [1, 2] []]) := by decide +kernel
  obtain ⟨finish, hRead⟩ : ∃ finish, ietfAccepted.step (.read [0x89, 0x80, 1, 2, 3, 4]) =
      some (finish, [.sendWSFrame .pong [0x8A, 0] [] []]) := by
    have hCalls : (ietfAccepted.step (.read [0x89, 0x80, 1, 2, 3, 4])).map Prod.snd =
        some [.sendWSFrame .pong [0x8A, 0] [] []] := by decide +kernel
    obtain ⟨⟨finish, calls⟩, hStep, hSame⟩ := Option.map_eq_some_iff.1 hCalls
    have hPong : calls = [.sendWSFrame .pong [0x8A, 0] [] []] := hSame
    exact ⟨finish, hPong ▸ hStep⟩
  have hPings : ietfAccepted.PingsFit (.read [0x89, 0x80, 1, 2, 3, 4]) := by
    intro parser next events info hParser hEvents hInfo hPing
    have hSame : WSParser.hyBi .fresh = parser := Option.some.inj hParser
    subst hSame
    have hShort : ((WSParser.hyBi .fresh).read [0x89, 0x80, 1, 2, 3, 4]).all (fun result =>
        result.2.all fun event =>
          match event with
          | .onHeaderComplete info => info.payloadLength ≤ 125
          | _ => true) = true := by decide +kernel
    rw [hEvents, Option.all_some, List.all_eq_true] at hShort
    exact of_decide_eq_true (hShort _ hInfo)
  have hFits : LengthFits [(1 : UInt8), 2].length := ⟨by norm_num, nofun⟩
  have hFirst : ((system.guarded PingsFit).guarded FramesFit).Run ietfAccepted
      [.send true [1, 2]] queued [] := System.Run.single ⟨trivial, trivial, hSend⟩
  have hTaskFits : queued.FramesFit .runTask := fun _ => hFits
  have hSecond := hFirst.snoc ⟨hTaskFits, trivial, hTask⟩
  have run : ((system.guarded PingsFit).guarded FramesFit).Run ietfAccepted
      [.send true [1, 2], .runTask, .read [0x89, 0x80, 1, 2, 3, 4]] finish
      [.sendWSFrame .binary [0x82, 2] [1, 2] [], .sendWSFrame .pong [0x8A, 0] [] []] :=
    hSecond.snoc ⟨trivial, hPings, hRead⟩
  have hInitial : system.initial ietfAccepted := ⟨rfl, rfl, _, _, _, Or.inl rfl, rfl⟩
  exact ⟨finish, run.of_guarded.of_guarded,
    (sent_wellFormed_iff hInitial rfl run.of_guarded).2 run⟩

omit [Host] in
/-- A reason of 124 bytes makes a Close frame of 126. -/
theorem closeWS_long_reason :
    let _ : Host := littleEndianHost
    ∃ finish callbacks, system.Run ietfAccepted
        [.close 1000 (List.replicate 124 97), .runTask] finish callbacks ∧
      callbacks = [.sendWSFrame .close [0x88, 126, 0, 126] (3 :: 232 :: List.replicate 124 97) []] ∧
      ¬ ∀ callback ∈ callbacks, callback.WellFormed := by
  intro _
  have hExec : (System.exec WSEndpoint.step ietfAccepted
      [.close 1000 (List.replicate 124 97), .runTask]).map Prod.snd =
      some [.sendWSFrame .close [0x88, 126, 0, 126] (3 :: 232 :: List.replicate 124 97) []] := by
    decide +kernel
  obtain ⟨⟨finish, callbacks⟩, hRun, hCalls⟩ := Option.map_eq_some_iff.1 hExec
  refine ⟨finish, callbacks, System.run_of_exec hRun, hCalls, ?_⟩
  intro hFrames
  have hSame : callbacks = _ := hCalls
  rw [hSame] at hFrames
  have hControl := (hFrames _ List.mem_cons_self).control rfl
  rw [List.length_cons, List.length_cons, List.length_replicate] at hControl
  omega

end WSEndpoint

end Httpuv
