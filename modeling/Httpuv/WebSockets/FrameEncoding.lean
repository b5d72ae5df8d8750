import Httpuv.WebSockets.Messages

/-! What `createFrameHeader` writes, against the frame layout. It is read back as
it was given, and there is no shorter header. The length class in the middle comes
out wrong on a big-endian host. -/
namespace Httpuv

open FrameBody

@[reducible] def bigEndianHost : Host where
  isBigEndian := true

namespace FrameLayout

/-- The seven length bits of the shortest form. -/
def length7 (payloadSize : Nat) : Nat :=
  if payloadSize ≤ 125 then payloadSize else if payloadSize ≤ 65535 then 126 else 127

/-- The header of a final frame, with its length in the shortest form. -/
def encodeHeader (proto : WebSocketProto) (opcode : Opcode) (mask : Bool) (payloadSize : Nat)
    (maskingKey : Bytes) : Bytes :=
  (proto.toFin true * 128 + proto.encodeOpcode opcode).toUInt8 ::
    ((if mask then 128 else 0) + length7 payloadSize).toUInt8 ::
      (bigEndianBytes (extendedBytes (length7 payloadSize)) payloadSize ++
        if mask then maskingKey else [])

theorem length7_lt (payloadSize : Nat) : length7 payloadSize < 128 := by
  unfold length7
  split_ifs <;> omega

/-- The three length classes. -/
theorem extendedBytes_length7 (payloadSize : Nat) :
    payloadSize ≤ 125 ∧ extendedBytes (length7 payloadSize) = 0 ∨
    (125 < payloadSize ∧ payloadSize ≤ 65535) ∧ extendedBytes (length7 payloadSize) = 2 ∨
    65535 < payloadSize ∧ extendedBytes (length7 payloadSize) = 8 := by
  unfold length7
  split_ifs with hShort hMedium
  · refine Or.inl ⟨hShort, ?_⟩
    rw [extendedBytes, if_neg (by omega), if_neg (by omega)]
  · exact Or.inr (Or.inl ⟨⟨by omega, hMedium⟩, rfl⟩)
  · exact Or.inr (Or.inr ⟨by omega, rfl⟩)

theorem second_toNat (mask : Bool) (payloadSize : Nat) :
    ((if mask then 128 else 0) + length7 payloadSize).toUInt8.toNat =
      (if mask then 128 else 0) + length7 payloadSize := by
  have hLess := length7_lt payloadSize
  simp only [Nat.toUInt8, UInt8.toNat_ofNat']
  split_ifs <;> omega

theorem second_fields (mask : Bool) (payloadSize : Nat) :
    decide (128 ≤ ((if mask then 128 else 0) + length7 payloadSize).toUInt8.toNat) = mask ∧
      ((if mask then 128 else 0) + length7 payloadSize).toUInt8.toNat % 128 =
        length7 payloadSize := by
  have hLess := length7_lt payloadSize
  rw [second_toNat]
  cases mask with
  | false =>
      simp only [Bool.false_eq_true, if_false, decide_eq_false_iff_not]
      omega
  | true =>
      simp only [if_true, decide_eq_true_eq]
      omega

/-- Both tables of opcodes are inverse to each other. -/
theorem first_fields {proto : WebSocketProto} (hProto : proto = .ietf ∨ proto = .hyBi03)
    (opcode : Opcode) :
    proto.isFin ((proto.toFin true * 128 + proto.encodeOpcode opcode).toUInt8.toNat / 128) = true ∧
      proto.decodeOpcode
        ((proto.toFin true * 128 + proto.encodeOpcode opcode).toUInt8.toNat % 16) = opcode := by
  rcases hProto with rfl | rfl
  · cases opcode <;> exact ⟨rfl, rfl⟩
  · cases opcode <;> exact ⟨rfl, rfl⟩

/-- The length bytes hold the payload size. -/
theorem lengthBytes_value {payloadSize : Nat} (hSize : payloadSize < 2 ^ 64) :
    (if extendedBytes (length7 payloadSize) = 0 then length7 payloadSize
      else bigEndian (bigEndianBytes (extendedBytes (length7 payloadSize)) payloadSize)) =
      payloadSize := by
  rcases extendedBytes_length7 payloadSize with ⟨hShort, hNone⟩ | ⟨hMedium, hTwo⟩ | ⟨hLong, hEight⟩
  · rw [if_pos hNone, length7, if_pos hShort]
  · rw [if_neg (by omega), hTwo, bigEndian_bigEndianBytes _ _ (by omega)]
  · rw [if_neg (by omega), hEight, bigEndian_bigEndianBytes _ _ (by omega)]

section Header

variable {proto : WebSocketProto} {opcode : Opcode} {mask : Bool} {payloadSize : Nat}
  {maskingKey : Bytes}

theorem length_encodeHeader (hKey : maskingKey.length = 4) :
    (encodeHeader proto opcode mask payloadSize maskingKey).length =
      2 + (extendedBytes (length7 payloadSize) + keyBytes mask) := by
  have hMask : (if mask then maskingKey else []).length = keyBytes mask := by
    cases mask with
    | false => rfl
    | true => exact hKey
  simp only [encodeHeader, List.length_cons, List.length_append, length_bigEndianBytes, hMask]
  omega

theorem encodeHeader_append (more : Bytes) :
    encodeHeader proto opcode mask payloadSize maskingKey ++ more =
      (proto.toFin true * 128 + proto.encodeOpcode opcode).toUInt8 ::
        ((if mask then 128 else 0) + length7 payloadSize).toUInt8 ::
          (bigEndianBytes (extendedBytes (length7 payloadSize)) payloadSize ++
            ((if mask then maskingKey else []) ++ more)) := by
  rw [encodeHeader, List.cons_append, List.cons_append, List.append_assoc]

/-- The header is complete, and nothing of it is left. -/
theorem decodeHeader_encodeHeader (hProto : proto = .ietf ∨ proto = .hyBi03)
    (hSize : payloadSize < 2 ^ 64) (hKey : maskingKey.length = 4) (more : Bytes) :
    decodeHeader proto (encodeHeader proto opcode mask payloadSize maskingKey ++ more) =
      some ({ fin := true, opcode, masked := mask, maskingKey := if mask then maskingKey else []
              hasLength := true, payloadLength := payloadSize }, more) := by
  obtain ⟨hFin, hOpcode⟩ := first_fields hProto opcode
  obtain ⟨hMasked, hLength⟩ := second_fields mask payloadSize
  have hMask : (if mask then maskingKey else []).length = keyBytes mask := by
    cases mask with
    | false => rfl
    | true => exact hKey
  have hExtended := length_bigEndianBytes (extendedBytes (length7 payloadSize)) payloadSize
  have hValue := lengthBytes_value hSize
  simp only [encodeHeader_append, decodeHeader, hFin, hOpcode, hMasked, hLength]
  generalize bigEndianBytes (extendedBytes (length7 payloadSize)) payloadSize = extended
    at hExtended hValue ⊢
  generalize (if mask then maskingKey else []) = key at hMask ⊢
  rw [← hExtended, ← hMask, if_pos (by simp), List.drop_left, List.take_left, List.take_left,
    ← List.append_assoc, List.drop_left' (by simp), hExtended, hValue]

end Header

end FrameLayout

namespace WebSocketProto

open FrameLayout

/-- The bytes of an integer in network order, from the least significant end. -/
theorem bigEndianBytes_eq (width value : Nat) : bigEndianBytes width value =
    ((List.range width).map (fun i => (value / 256 ^ i % 256).toUInt8)).reverse := by
  induction width generalizing value with
  | zero => rfl
  | succ width ih =>
      have hShift : ∀ i, value / 256 / 256 ^ i = value / 256 ^ (i + 1) := by
        intro i
        rw [Nat.div_div_eq_div_mul, Nat.pow_succ']
      rw [bigEndianBytes, ih, List.range_succ_eq_map, List.map_cons, List.map_map,
        List.reverse_cons]
      simp [hShift, Function.comp_def]

section Memory

variable [Host]

/-- On a little-endian host the leading bytes in memory are the low ones. -/
theorem networkBytes_little (hHost : Host.isBigEndian = false) {count : Nat} (hCount : count ≤ 8)
    (value : Nat) : networkBytes count value = bigEndianBytes count value := by
  have hMemory : (memoryBytes 8 value).take count =
      (List.range count).map (fun i => (value / 256 ^ i % 256).toUInt8) := by
    simp only [memoryBytes, hHost, Bool.false_eq_true, if_false]
    rw [← List.map_take, List.take_range, min_eq_left hCount]
  rw [networkBytes, hMemory, if_neg (by simp [hHost]), bigEndianBytes_eq]
  rfl

/-- On a big-endian host they are the high ones. -/
theorem networkBytes_big (hHost : Host.isBigEndian = true) (count value : Nat) :
    networkBytes count value = (bigEndianBytes 8 value).take count := by
  rw [networkBytes, if_pos hHost, bigEndianBytes_eq]
  simp only [memoryBytes, hHost, if_true]

omit [Host] in
/-- The first bytes of a number are its high digits. -/
theorem bigEndianBytes_take (width more value : Nat) :
    (bigEndianBytes (width + more) value).take width =
      bigEndianBytes width (value / 256 ^ more) := by
  induction more generalizing value with
  | zero =>
      rw [Nat.add_zero, pow_zero, Nat.div_one, List.take_of_length_le]
      rw [FrameBody.length_bigEndianBytes]
  | succ more ih =>
      rw [Nat.add_succ, bigEndianBytes, List.take_append_of_le_length, ih, Nat.div_div_eq_div_mul,
        pow_succ']
      rw [FrameBody.length_bigEndianBytes]
      exact Nat.le_add_right _ _

theorem length_memoryBytes (width value : Nat) : (memoryBytes width value).length = width := by
  unfold memoryBytes
  split_ifs <;> simp

end Memory

theorem maskBit_or (mask : Bool) {length7 : Nat} (hLess : length7 < 128) :
    (if mask then 1 <<< 7 else 0) ||| length7 = (if mask then 128 else 0) + length7 := by
  cases mask with
  | false => simp
  | true => exact (Nat.two_pow_add_eq_or_of_lt (i := 7) hLess 1).symm

theorem first_or {proto : WebSocketProto} (hProto : proto = .ietf ∨ proto = .hyBi03)
    (opcode : Opcode) : proto.toFin true <<< 7 ||| proto.encodeOpcode opcode =
      proto.toFin true * 128 + proto.encodeOpcode opcode := by
  rcases hProto with rfl | rfl
  · cases opcode <;> rfl
  · cases opcode <;> rfl

section Header

variable [Host]

theorem networkBytes_zero (value : Nat) : networkBytes 0 value = [] := by
  unfold networkBytes
  split_ifs <;> rfl

/-- The header in terms of the length class. -/
theorem createFrameHeader_bytes (proto : WebSocketProto) (opcode : Opcode) (mask : Bool)
    (payloadSize maskingKey : Nat) : createFrameHeader proto opcode mask payloadSize maskingKey =
      (proto.toFin true <<< 7 ||| proto.encodeOpcode opcode).toUInt8 ::
        ((if mask then 128 else 0) + length7 payloadSize).toUInt8 ::
          (networkBytes (extendedBytes (length7 payloadSize)) payloadSize ++
            if mask then memoryBytes 4 maskingKey else []) := by
  rcases extendedBytes_length7 payloadSize with ⟨hShort, hNone⟩ | ⟨hMedium, hTwo⟩ | ⟨hLong, hEight⟩
  · have hClass : length7 payloadSize = payloadSize := if_pos hShort
    rw [hNone, hClass, networkBytes_zero, ← maskBit_or mask (by omega)]
    simp [createFrameHeader, hShort]
  · have hClass : length7 payloadSize = 126 := by
      rw [length7, if_neg (by omega), if_pos hMedium.2]
    rw [hTwo, hClass, ← maskBit_or mask (by omega)]
    simp [createFrameHeader, show ¬ payloadSize ≤ 125 by omega, hMedium.2]
  · have hClass : length7 payloadSize = 127 := by
      rw [length7, if_neg (by omega), if_neg (by omega)]
    rw [hEight, hClass, ← maskBit_or mask (by omega)]
    simp [createFrameHeader, show ¬ payloadSize ≤ 125 by omega,
      show ¬ payloadSize ≤ 65535 by omega]

/-- The length bytes are in network order, unless a big-endian host takes two of
them. -/
theorem networkBytes_eq {payloadSize : Nat}
    (hHost : Host.isBigEndian = false ∨ payloadSize ≤ 125 ∨ 65535 < payloadSize) :
    networkBytes (extendedBytes (length7 payloadSize)) payloadSize =
      bigEndianBytes (extendedBytes (length7 payloadSize)) payloadSize := by
  cases hEndian : Host.isBigEndian with
  | false => exact networkBytes_little hEndian (extendedBytes_le _) payloadSize
  | true =>
      rw [networkBytes_big hEndian]
      rcases extendedBytes_length7 payloadSize with ⟨-, hNone⟩ | ⟨hMedium, -⟩ | ⟨-, hEight⟩
      · rw [hNone]
        rfl
      · simp only [hEndian, Bool.true_eq_false, false_or] at hHost
        omega
      · rw [hEight, List.take_of_length_le (by rw [length_bigEndianBytes])]

/-- Then the header is the shortest one of the layout. -/
theorem createFrameHeader_eq {proto : WebSocketProto} (hProto : proto = .ietf ∨ proto = .hyBi03)
    {payloadSize : Nat}
    (hHost : Host.isBigEndian = false ∨ payloadSize ≤ 125 ∨ 65535 < payloadSize)
    (opcode : Opcode) (mask : Bool) (maskingKey : Nat) :
    createFrameHeader proto opcode mask payloadSize maskingKey =
      encodeHeader proto opcode mask payloadSize (memoryBytes 4 maskingKey) := by
  rw [createFrameHeader_bytes, first_or hProto, networkBytes_eq hHost]
  rfl

end Header

end WebSocketProto

namespace WSHyBiFrameHeader

open FrameLayout WebSocketProto

/-- The fields that are read from a frame header. -/
structure ReadsBack (header : WSHyBiFrameHeader) (opcode : Opcode) (mask : Bool)
    (payloadSize : Nat) (maskingKey : Bytes) (headerLength : Nat) : Prop where
  info : header.info = some { fin := true, opcode, masked := mask
                              maskingKey := if mask then maskingKey else []
                              hasLength := true, payloadLength := payloadSize }
  isHeaderComplete : header.isHeaderComplete = some true
  fin : header.fin = some true
  opcode : header.opcode = some opcode
  masked : header.masked = some mask
  payloadLength : header.payloadLength = some payloadSize
  headerLength : header.headerLength = some headerLength
  maskingKey : mask = true → header.maskingKey = some maskingKey

section Layout

variable {proto : WebSocketProto} {opcode : Opcode} {mask : Bool} {payloadSize : Nat}
  {maskingKey : Bytes}

/-- The header of the layout, in front of any bytes. -/
theorem readsBack_encodeHeader (hProto : proto = .ietf ∨ proto = .hyBi03)
    (hSize : payloadSize < 2 ^ 64) (hKey : maskingKey.length = 4) (rest : Bytes) :
    (ofData proto (encodeHeader proto opcode mask payloadSize maskingKey ++ rest)).ReadsBack
      opcode mask payloadSize maskingKey
      (encodeHeader proto opcode mask payloadSize maskingKey).length := by
  have hDecoded := @decodeHeader_encodeHeader proto opcode mask payloadSize maskingKey hProto hSize
    hKey rest
  obtain ⟨hInfo, hLength, hHeader⟩ := info_eq hDecoded
  obtain ⟨hFin, hOpcode⟩ := first_fields hProto opcode
  obtain ⟨hMasked, hLength7⟩ := second_fields mask payloadSize
  have hTail := length_bigEndianBytes (extendedBytes (length7 payloadSize)) payloadSize
  refine ⟨hInfo, ?_, ?_, ?_, ?_, hLength, ?_, ?_⟩
  · rw [isHeaderComplete_eq, hDecoded]
    rfl
  · exact (congrArg (Option.map proto.isFin) (read_fin proto _ _ _)).trans (congrArg some hFin)
  · exact (congrArg (Option.map proto.decodeOpcode) (read_opcode proto _ _ _)).trans
      (congrArg some hOpcode)
  · exact (masked_eq proto _ _ _).trans (congrArg some hMasked)
  · rw [hHeader, List.length_append, Nat.add_sub_cancel]
  · intro hMask
    subst hMask
    have hSecond : 128 ≤ ((if true then 128 else 0) + length7 payloadSize).toUInt8.toNat :=
      of_decide_eq_true hMasked
    have hRest : ∀ extended : Bytes, extended.length = extendedBytes (length7 payloadSize) →
        ((extended ++ (maskingKey ++ rest)).drop (extendedBytes (length7 payloadSize))).take 4 =
          maskingKey := by
      intro extended hExtended
      rw [← hExtended, List.drop_left, ← hKey, List.take_left]
    rw [encodeHeader_append, maskingKey_eq proto _ _ _ hSecond, hLength7, if_pos rfl,
      hRest _ hTail]
    rw [hLength7, if_pos rfl, List.length_append, List.length_append, hTail, hKey]
    omega

/-- A part of it is not complete. -/
theorem incomplete_encodeHeader (hProto : proto = .ietf ∨ proto = .hyBi03)
    (hSize : payloadSize < 2 ^ 64) (hKey : maskingKey.length = 4) {part : Bytes}
    (hPart : part <+: encodeHeader proto opcode mask payloadSize maskingKey)
    (hStrict : part ≠ encodeHeader proto opcode mask payloadSize maskingKey) :
    (ofData proto part).isHeaderComplete = some false := by
  obtain ⟨more, hMore⟩ := hPart
  have hDecoded := @decodeHeader_encodeHeader proto opcode mask payloadSize maskingKey hProto hSize
    hKey []
  rw [isHeaderComplete_eq]
  cases hHeader : decodeHeader proto part with
  | none => rfl
  | some decoded =>
      obtain ⟨info, rest⟩ := decoded
      have hWhole := decodeHeader_append more hHeader
      rw [List.append_nil] at hDecoded
      rw [hMore, hDecoded] at hWhole
      have hNothing : rest ++ more = [] := (Prod.mk.inj (Option.some.inj hWhole)).2.symm
      rw [(List.append_eq_nil_iff.1 hNothing).2, List.append_nil] at hMore
      exact absurd hMore hStrict

/-- A header with this payload length and mask flag has at least as many bytes. -/
theorem shortest_encodeHeader (hKey : maskingKey.length = 4) {other : Bytes}
    (hComplete : (ofData proto other).isHeaderComplete = some true)
    (hMasked : (ofData proto other).masked = some mask)
    (hLength : (ofData proto other).payloadLength = some payloadSize) :
    (encodeHeader proto opcode mask payloadSize maskingKey).length ≤ other.length := by
  rw [length_encodeHeader hKey]
  match other with
  | [] => simp [isHeaderComplete, ofData] at hComplete
  | [_] => simp [isHeaderComplete, ofData] at hComplete
  | first :: second :: rest =>
      rw [isHeaderComplete_eq, Option.some.injEq, decodeHeader] at hComplete
      rw [masked_eq, Option.some.injEq] at hMasked
      split at hComplete
      · next hRest =>
          rw [payloadLength_eq proto first second rest (by omega), Option.some.injEq] at hLength
          rw [hMasked] at hRest
          have hBound := bigEndian_lt (rest.take (extendedBytes (second.toNat % 128)))
          rw [List.length_take, min_eq_left (by omega)] at hBound
          have hClass : extendedBytes (length7 payloadSize) ≤ extendedBytes (second.toNat % 128) := by
            have hCases : ∀ length7, extendedBytes length7 = 0 ∧ length7 ≠ 126 ∧ length7 ≠ 127 ∨
                extendedBytes length7 = 2 ∨ extendedBytes length7 = 8 := by
              intro length7
              unfold extendedBytes
              split_ifs <;> simp_all
            rcases hCases (second.toNat % 128) with ⟨hNone, h126, h127⟩ | hTwo | hEight
            · rw [if_pos hNone] at hLength
              have hShort : payloadSize ≤ 125 := by omega
              rw [hNone, length7, if_pos hShort, extendedBytes, if_neg (by omega),
                if_neg (by omega)]
            · rw [if_neg (by omega)] at hLength
              rw [hTwo] at hBound ⊢
              rcases extendedBytes_length7 payloadSize with ⟨-, hNone⟩ | ⟨-, hSame⟩ | ⟨hLong, -⟩
              · omega
              · omega
              · rw [hTwo] at hLength
                omega
            · rw [hEight]
              exact extendedBytes_le _
          simp only [List.length_cons]
          omega
      · cases hComplete

end Layout

section Host

variable [Host]

/-- What `createFrameHeader` writes on a little-endian host is read back as it was
given, whatever follows, and there is no shorter header that reads the same. -/
theorem createFrameHeader_reads_back (hHost : Host.isBigEndian = false) {proto : WebSocketProto}
    (hProto : proto = .ietf ∨ proto = .hyBi03) (opcode : Opcode) (mask : Bool) {payloadSize : Nat}
    (hSize : payloadSize < 2 ^ 64) (maskingKey : Nat) :
    let header := createFrameHeader proto opcode mask payloadSize maskingKey
    header.length ≤ maxHeaderBytes ∧
    (∀ rest, (ofData proto (header ++ rest)).ReadsBack opcode mask payloadSize
      (memoryBytes 4 maskingKey) header.length) ∧
    (∀ part, part <+: header → part ≠ header →
      (ofData proto part).isHeaderComplete = some false) ∧
    ∀ other, (ofData proto other).isHeaderComplete = some true →
      (ofData proto other).masked = some mask →
      (ofData proto other).payloadLength = some payloadSize → header.length ≤ other.length := by
  intro header
  have hHeader : header = encodeHeader proto opcode mask payloadSize (memoryBytes 4 maskingKey) :=
    createFrameHeader_eq hProto (Or.inl hHost) opcode mask maskingKey
  have hKey := length_memoryBytes 4 maskingKey
  rw [hHeader]
  refine ⟨?_, readsBack_encodeHeader hProto hSize hKey,
    fun part => incomplete_encodeHeader hProto hSize hKey, fun other => shortest_encodeHeader hKey⟩
  rw [length_encodeHeader hKey]
  exact header_fits _ mask

end Host

/-- A masked Binary frame of 65536 bytes, on the older protocol. -/
theorem createFrameHeader_reads_back_long :
    let header := @createFrameHeader littleEndianHost .hyBi03 .binary true 65536 0x01020304
    header = [0x05, 0xFF, 0, 0, 0, 0, 0, 1, 0, 0, 4, 3, 2, 1] ∧
      (ofData .hyBi03 (header ++ [0])).ReadsBack .binary true 65536 [4, 3, 2, 1] header.length :=
  ⟨by decide, (@createFrameHeader_reads_back littleEndianHost rfl .hyBi03 (Or.inr rfl) .binary true
    65536 (by norm_num) 0x01020304).2.1 [0]⟩

end WSHyBiFrameHeader

namespace WebSocketProto

open FrameLayout

/-- The header of an unmasked frame is the same on hosts of both byte orders
exactly when its length is not in the middle class. -/
theorem createFrameHeader_host_iff (proto : WebSocketProto) (opcode : Opcode) {payloadSize : Nat}
    (hSize : payloadSize < 2 ^ 64) (maskingKey : Nat) :
    @createFrameHeader bigEndianHost proto opcode false payloadSize maskingKey =
        @createFrameHeader littleEndianHost proto opcode false payloadSize maskingKey ↔
      ¬ (126 ≤ payloadSize ∧ payloadSize ≤ 65535) := by
  rw [@createFrameHeader_bytes bigEndianHost, @createFrameHeader_bytes littleEndianHost]
  constructor
  · intro hSame hMedium
    have hClass : length7 payloadSize = 126 := by
      rw [length7, if_neg (by omega), if_pos hMedium.2]
    have hTwo : extendedBytes 126 = 2 := rfl
    rw [hClass, hTwo] at hSame
    have hTail := List.append_cancel_right (List.cons.inj (List.cons.inj hSame).2).2
    -- the two bytes that are copied are the high ones of the eight, and these are zero
    rw [@networkBytes_big bigEndianHost rfl, @networkBytes_little littleEndianHost rfl 2 (by omega),
      bigEndianBytes_take 2 6, Nat.div_eq_of_lt (by omega)] at hTail
    have hValue := congrArg bigEndian hTail
    rw [bigEndian_bigEndianBytes 2 _ (by omega), bigEndian_bigEndianBytes 2 _ (by omega)] at hValue
    omega
  · intro hClass
    rw [@networkBytes_eq bigEndianHost payloadSize (Or.inr (by omega)),
      @networkBytes_eq littleEndianHost payloadSize (Or.inl rfl)]
    rfl

/-- A text of the first length of the longest class. -/
theorem createFrameHeader_host_iff_long :
    (65536 : Nat) < 2 ^ 64 ∧ @createFrameHeader bigEndianHost .ietf .text false 65536 0 =
      @createFrameHeader littleEndianHost .ietf .text false 65536 0 :=
  ⟨by norm_num, (createFrameHeader_host_iff .ietf .text (by norm_num) 0).2 (by norm_num)⟩

/-- A text of 126 bytes: a big-endian host announces none. -/
theorem createFrameHeader_host_differs :
    let big := @createFrameHeader bigEndianHost .ietf .text false 126 0
    let little := @createFrameHeader littleEndianHost .ietf .text false 126 0
    big = [0x81, 126, 0, 0] ∧ little = [0x81, 126, 0, 126] ∧ big ≠ little := by
  decide

end WebSocketProto

end Httpuv
