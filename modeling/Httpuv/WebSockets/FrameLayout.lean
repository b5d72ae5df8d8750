import Httpuv.WebSockets.FrameHeader

/-! The frame layout of RFC 6455, section 5.2, written over whole inputs, and
the agreement of `WSHyBiFrameHeader` with it. -/
namespace Httpuv.FrameLayout

/-- An unsigned integer in network order. -/
def bigEndian (bytes : Bytes) : Nat :=
  bytes.foldl (fun value byte => value * 256 + byte.toNat) 0

/-- Length bytes that follow the two fixed ones. -/
def extendedBytes (length7 : Nat) : Nat :=
  if length7 = 126 then 2 else if length7 = 127 then 8 else 0

def keyBytes (masked : Bool) : Nat := if masked then 4 else 0

/-- The fields of the header at the front of the input and the bytes behind it,
or `none` while the header is incomplete. -/
def decodeHeader (proto : WebSocketProto) : Bytes → Option (WSFrameHeaderInfo × Bytes)
  | first :: second :: rest =>
      let length7 := second.toNat % 128
      let extended := extendedBytes length7
      let masked := decide (128 ≤ second.toNat)
      if extended + keyBytes masked ≤ rest.length then
        some ({ fin := proto.isFin (first.toNat / 128)
                opcode := proto.decodeOpcode (first.toNat % 16)
                masked := masked
                maskingKey := (rest.drop extended).take (keyBytes masked)
                hasLength := true
                payloadLength := if extended = 0 then length7 else bigEndian (rest.take extended) },
              rest.drop (extended + keyBytes masked))
      else none
  | _ => none

theorem bigEndian_append_singleton (bytes : Bytes) (byte : UInt8) :
    bigEndian (bytes ++ [byte]) = bigEndian bytes * 256 + byte.toNat := by
  simp [bigEndian]

theorem bigEndian_lt (bytes : Bytes) : bigEndian bytes < 256 ^ bytes.length := by
  induction bytes using List.reverseRecOn with
  | nil => simp [bigEndian]
  | append_singleton bytes byte ih =>
      have hByte := byte.toNat_lt
      rw [bigEndian_append_singleton, List.length_append, List.length_singleton, Nat.pow_succ]
      omega

/-- The loop of `read64` computes the value modulo `2^64`. -/
theorem read64_fold (bytes : Bytes) :
    bytes.foldl (fun result byte => (result * 256 + byte.toNat) % 2 ^ 64) 0 =
      bigEndian bytes % 2 ^ 64 := by
  induction bytes using List.reverseRecOn with
  | nil => rfl
  | append_singleton bytes byte ih =>
      rw [bigEndian_append_singleton, List.foldl_append, List.foldl_cons, List.foldl_nil, ih]
      omega

theorem extendedBytes_le (length7 : Nat) : extendedBytes length7 ≤ 8 := by
  unfold extendedBytes
  split_ifs <;> omega

theorem keyBytes_le (masked : Bool) : keyBytes masked ≤ 4 := by
  cases masked <;> decide

/-- Complete headers fit the accumulator. -/
theorem header_fits (length7 : Nat) (masked : Bool) :
    2 + (extendedBytes length7 + keyBytes masked) ≤ maxHeaderBytes := by
  have hExtended := extendedBytes_le length7
  have hKey := keyBytes_le masked
  simp only [maxHeaderBytes]
  omega

section Fields

/-! The four bit fields, as numbers. -/

theorem highBit (n : Nat) (h : n < 256) : (n &&& 128) >>> 7 = n / 128 := by
  have hAll : ∀ i : Fin 256, (i.val &&& 128) >>> 7 = i.val / 128 := by decide +kernel
  exact hAll ⟨n, h⟩

theorem lowBits (n : Nat) : n &&& 127 = n % 128 := Nat.and_two_pow_sub_one_eq_mod n 7

theorem lowNibble (n : Nat) : n &&& 15 = n % 16 := Nat.and_two_pow_sub_one_eq_mod n 4

theorem wholeByte (n : Nat) (h : n < 256) : n &&& 255 = n := by
  rw [show (255 : Nat) = 2 ^ 8 - 1 from rfl, Nat.and_two_pow_sub_one_eq_mod]
  omega

variable (proto : WebSocketProto) (first second : UInt8) (rest : Bytes)

/-- The header object over the first bytes of the input. -/
theorem ofData_data :
    (WSHyBiFrameHeader.ofData proto (first :: second :: rest)).data =
      first :: second :: rest.take 12 := by
  simp [WSHyBiFrameHeader.ofData, maxHeaderBytes]

theorem read_fin :
    (WSHyBiFrameHeader.ofData proto (first :: second :: rest)).read 0 1 =
      some (first.toNat / 128) := by
  have hByte := first.toNat_lt
  simp [WSHyBiFrameHeader.read, ofData_data, highBit _ hByte]

theorem read_opcode :
    (WSHyBiFrameHeader.ofData proto (first :: second :: rest)).read 4 4 =
      some (first.toNat % 16) := by
  simp [WSHyBiFrameHeader.read, ofData_data, lowNibble]

theorem read_masked :
    (WSHyBiFrameHeader.ofData proto (first :: second :: rest)).read 8 1 =
      some (second.toNat / 128) := by
  have hByte := second.toNat_lt
  simp [WSHyBiFrameHeader.read, ofData_data, highBit _ hByte]

theorem read_length7 :
    (WSHyBiFrameHeader.ofData proto (first :: second :: rest)).read 9 7 =
      some (second.toNat % 128) := by
  simp [WSHyBiFrameHeader.read, ofData_data, lowBits]

/-- A byte behind the two fixed ones. -/
theorem read_byte (i : Nat) (hLength : i < rest.length) (hFits : i < 12) :
    (WSHyBiFrameHeader.ofData proto (first :: second :: rest)).read (16 + 8 * i) 8 =
      some (rest.getD i 0).toNat := by
  have hOffset : (16 + 8 * i) / 8 = i + 2 := by omega
  have hBit : (16 + 8 * i) % 8 = 0 := by omega
  have hGet : (rest.take 12)[i]? = some (rest.getD i 0) := by
    rw [List.getElem?_take_of_lt hFits, List.getD_eq_getElem?_getD]
    simp [hLength]
  simp [WSHyBiFrameHeader.read, hOffset, hBit, ofData_data, hGet, wholeByte _ (UInt8.toNat_lt _)]

theorem masked_eq :
    (WSHyBiFrameHeader.ofData proto (first :: second :: rest)).masked =
      some (decide (128 ≤ second.toNat)) := by
  have hByte := second.toNat_lt
  have hBit : (second.toNat / 128 != 0) = decide (128 ≤ second.toNat) := by
    rw [Bool.eq_iff_iff]
    simp only [bne_iff_ne, decide_eq_true_eq]
    omega
  simp only [WSHyBiFrameHeader.masked, read_masked, Option.map_some, hBit]

theorem payloadLengthLength_eq :
    (WSHyBiFrameHeader.ofData proto (first :: second :: rest)).payloadLengthLength =
      some (7 + 8 * extendedBytes (second.toNat % 128)) := by
  unfold WSHyBiFrameHeader.payloadLengthLength
  rw [read_length7]
  generalize second.toNat % 128 = length7
  simp only [Option.bind_eq_bind, Option.bind_some, extendedBytes]
  split
  · rfl
  · rfl
  · next h126 h127 => rw [if_neg h126, if_neg h127]; rfl

theorem maskingKeyLength_eq :
    (WSHyBiFrameHeader.ofData proto (first :: second :: rest)).maskingKeyLength =
      some (8 * keyBytes (decide (128 ≤ second.toNat))) := by
  unfold WSHyBiFrameHeader.maskingKeyLength
  rw [masked_eq]
  cases decide (128 ≤ second.toNat) <;> rfl

theorem headerLength_eq :
    (WSHyBiFrameHeader.ofData proto (first :: second :: rest)).headerLength =
      some (2 + (extendedBytes (second.toNat % 128) + keyBytes (decide (128 ≤ second.toNat)))) := by
  unfold WSHyBiFrameHeader.headerLength
  rw [payloadLengthLength_eq, maskingKeyLength_eq]
  simp only [Option.bind_eq_bind, Option.bind_some, Option.pure_def, Option.some.injEq]
  omega

/-- The completeness test looks at no byte that is missing, and agrees with the
layout although the accumulator keeps fourteen bytes only. -/
theorem isHeaderComplete_eq (data : Bytes) :
    (WSHyBiFrameHeader.ofData proto data).isHeaderComplete =
      some (decodeHeader proto data).isSome := by
  match data with
  | [] => rfl
  | [_] => rfl
  | first :: second :: rest =>
      have hFits := header_fits (second.toNat % 128) (decide (128 ≤ second.toNat))
      simp only [maxHeaderBytes] at hFits
      unfold WSHyBiFrameHeader.isHeaderComplete
      rw [headerLength_eq, ofData_data]
      simp only [List.length_cons, List.length_take, Option.bind_eq_bind, Option.bind_some,
        Option.pure_def, decodeHeader]
      rw [if_neg (by omega)]
      split
      · next hRest => simp only [Option.isSome_some, Option.some.injEq, decide_eq_true_eq]; omega
      · next hRest => simp only [Option.isSome_none, Option.some.injEq, decide_eq_false_iff_not]; omega

theorem read64_eq (count : Nat) (hCount : count ≤ 8) (hRest : count ≤ rest.length) :
    (WSHyBiFrameHeader.ofData proto (first :: second :: rest)).read64 16 (8 * count) =
      some (bigEndian (rest.take count)) := by
  have hWidth : 8 * count / 8 = count := by omega
  have hAligned : 8 * count % 8 = 0 := by omega
  have hTake : (rest.take 12).take count = rest.take count := by
    rw [List.take_take, min_eq_left (by omega)]
  have hBound : bigEndian (rest.take count) < 2 ^ 64 := by
    calc bigEndian (rest.take count) < 256 ^ (rest.take count).length := bigEndian_lt _
      _ ≤ 256 ^ 8 := Nat.pow_le_pow_right (by omega) (by simp; omega)
      _ = 2 ^ 64 := by norm_num
  unfold WSHyBiFrameHeader.read64
  simp only [ofData_data, hWidth, hAligned, List.length_cons, List.length_take]
  rw [if_pos (by simp), if_pos (by omega)]
  simp only [show 16 / 8 = 2 from rfl, List.drop_succ_cons, List.drop_zero, hTake, read64_fold,
    Nat.mod_eq_of_lt hBound]

theorem payloadLength_eq (hRest : extendedBytes (second.toNat % 128) ≤ rest.length) :
    (WSHyBiFrameHeader.ofData proto (first :: second :: rest)).payloadLength =
      some (if extendedBytes (second.toNat % 128) = 0 then second.toNat % 128
        else bigEndian (rest.take (extendedBytes (second.toNat % 128)))) := by
  unfold WSHyBiFrameHeader.payloadLength
  rw [read_length7]
  generalize second.toNat % 128 = length7 at hRest ⊢
  simp only [Option.bind_eq_bind, Option.bind_some]
  split
  · exact read64_eq proto first second rest 2 (by omega) hRest
  · exact read64_eq proto first second rest 8 (by omega) hRest
  · next h126 h127 =>
      have hShort : extendedBytes length7 = 0 := by
        unfold extendedBytes
        rw [if_neg h126, if_neg h127]
      simp [hShort]

/-- The four key bytes behind the length. -/
theorem maskingKey_eq (hMasked : 128 ≤ second.toNat)
    (hRest : extendedBytes (second.toNat % 128) + 4 ≤ rest.length) :
    (WSHyBiFrameHeader.ofData proto (first :: second :: rest)).maskingKey =
      some ((rest.drop (extendedBytes (second.toNat % 128))).take 4) := by
  have hExtended := extendedBytes_le (second.toNat % 128)
  unfold WSHyBiFrameHeader.maskingKey
  rw [masked_eq, payloadLengthLength_eq]
  generalize extendedBytes (second.toNat % 128) = extended at hRest hExtended ⊢
  have hRead : ∀ i, i < 4 →
      (WSHyBiFrameHeader.ofData proto (first :: second :: rest)).read
        (9 + (7 + 8 * extended) + 8 * i) 8 = some (rest.getD (extended + i) 0).toNat := by
    intro i hi
    rw [show 9 + (7 + 8 * extended) + 8 * i = 16 + 8 * (extended + i) by omega]
    exact read_byte proto first second rest (extended + i) (by omega) (by omega)
  have h0 := hRead 0 (by omega)
  have h1 := hRead 1 (by omega)
  have h2 := hRead 2 (by omega)
  have h3 := hRead 3 (by omega)
  simp only [Nat.mul_zero, Nat.add_zero, Nat.mul_one, show 8 * 2 = 16 from rfl,
    show 8 * 3 = 24 from rfl] at h0 h1 h2 h3
  simp only [hMasked, decide_true, Option.bind_eq_bind, Option.bind_some, if_true, h0, h1, h2, h3,
    Option.pure_def, Option.some.injEq]
  have hByte : ∀ i, (rest.getD i 0).toNat.toUInt8 = rest.getD i 0 := fun i =>
    UInt8.ofNat_toNat
  simp only [hByte]
  refine List.ext_getElem (by simp; omega) ?_
  intro i hLeft hRight
  simp only [List.length_cons, List.length_nil] at hLeft
  have hGet : rest.getD (extended + i) 0 = rest[extended + i] :=
    by simp [List.getD_eq_getElem?_getD, List.getElem?_eq_getElem (show extended + i < rest.length by omega)]
  simp only [List.getElem_take, List.getElem_drop, ← hGet]
  interval_cases i <;> rfl

end Fields

/-- A complete header has its first two bytes and what they announce. -/
theorem decodeHeader_cases {proto : WebSocketProto} {data rest : Bytes} {info : WSFrameHeaderInfo}
    (h : decodeHeader proto data = some (info, rest)) :
    ∃ first second tail, data = first :: second :: tail ∧
      extendedBytes (second.toNat % 128) + keyBytes (decide (128 ≤ second.toNat)) ≤ tail.length ∧
      info = {
        fin := proto.isFin (first.toNat / 128)
        opcode := proto.decodeOpcode (first.toNat % 16)
        masked := decide (128 ≤ second.toNat)
        maskingKey := (tail.drop (extendedBytes (second.toNat % 128))).take
          (keyBytes (decide (128 ≤ second.toNat)))
        hasLength := true
        payloadLength := if extendedBytes (second.toNat % 128) = 0 then second.toNat % 128
          else bigEndian (tail.take (extendedBytes (second.toNat % 128))) } ∧
      rest = tail.drop (extendedBytes (second.toNat % 128) +
        keyBytes (decide (128 ≤ second.toNat))) := by
  match data with
  | [] => simp [decodeHeader] at h
  | [_] => simp [decodeHeader] at h
  | first :: second :: tail =>
      simp only [decodeHeader, Option.ite_none_right_eq_some, Option.some.injEq, Prod.mk.injEq] at h
      obtain ⟨hFits, rfl, rfl⟩ := h
      exact ⟨first, second, tail, rfl, hFits, rfl, rfl⟩

/-- On a complete header every field is read without a failed assertion, and
the fields and the header length are those of the layout. -/
theorem info_eq {proto : WebSocketProto} {data rest : Bytes} {info : WSFrameHeaderInfo}
    (h : decodeHeader proto data = some (info, rest)) :
    (WSHyBiFrameHeader.ofData proto data).info = some info ∧
      (WSHyBiFrameHeader.ofData proto data).payloadLength = some info.payloadLength ∧
      (WSHyBiFrameHeader.ofData proto data).headerLength = some (data.length - rest.length) := by
  obtain ⟨first, second, tail, rfl, hRest, rfl, rfl⟩ := decodeHeader_cases h
  have hLength := payloadLength_eq proto first second tail (by omega)
  refine ⟨?_, hLength, ?_⟩
  · unfold WSHyBiFrameHeader.info WSHyBiFrameHeader.fin WSHyBiFrameHeader.opcode
    rw [read_fin, read_opcode, masked_eq, hLength]
    by_cases hMasked : 128 ≤ second.toNat
    · rw [maskingKey_eq proto first second tail hMasked (by simpa [hMasked, keyBytes] using hRest)]
      simp [hMasked, keyBytes, WSHyBiFrameHeader.ofData]
    · simp [hMasked, keyBytes, WSHyBiFrameHeader.ofData]
  · rw [headerLength_eq]
    simp only [List.length_cons, List.length_drop, Option.some.injEq]
    omega

/-- A header takes at least two bytes off the input. -/
theorem decodeHeader_length {proto : WebSocketProto} {data rest : Bytes}
    {info : WSFrameHeaderInfo} (h : decodeHeader proto data = some (info, rest)) :
    rest.length + 2 ≤ data.length := by
  obtain ⟨first, second, tail, rfl, -, -, rfl⟩ := decodeHeader_cases h
  simp

/-- Bytes behind a complete header do not change it. -/
theorem decodeHeader_append {proto : WebSocketProto} {data rest : Bytes}
    {info : WSFrameHeaderInfo} (more : Bytes) (h : decodeHeader proto data = some (info, rest)) :
    decodeHeader proto (data ++ more) = some (info, rest ++ more) := by
  obtain ⟨first, second, tail, rfl, hRest, rfl, rfl⟩ := decodeHeader_cases h
  have hKey := keyBytes_le (decide (128 ≤ second.toNat))
  simp only [List.cons_append, decodeHeader, List.length_append]
  rw [if_pos (by omega), List.drop_append_of_le_length (by omega),
    List.take_append_of_le_length (by simp; omega), List.take_append_of_le_length (by omega),
    List.drop_append_of_le_length (by omega)]

/-- The header is a prefix of the input, and that prefix alone decodes to it. -/
theorem decodeHeader_take {proto : WebSocketProto} {data rest : Bytes}
    {info : WSFrameHeaderInfo} (h : decodeHeader proto data = some (info, rest)) :
    data.drop (data.length - rest.length) = rest ∧
      decodeHeader proto (data.take (data.length - rest.length)) = some (info, []) := by
  obtain ⟨first, second, tail, rfl, hRest, rfl, rfl⟩ := decodeHeader_cases h
  have hLength : (first :: second :: tail).length -
      (tail.drop (extendedBytes (second.toNat % 128) +
        keyBytes (decide (128 ≤ second.toNat)))).length =
      extendedBytes (second.toNat % 128) + keyBytes (decide (128 ≤ second.toNat)) + 2 := by
    simp only [List.length_cons, List.length_drop]
    omega
  rw [hLength]
  refine ⟨by simp, ?_⟩
  simp only [List.take_succ_cons, decodeHeader, List.length_take]
  rw [if_pos (by omega), List.drop_take, List.take_take, List.take_take, List.drop_take]
  simp

/-- An incomplete header has fewer bytes than the accumulator holds. -/
theorem length_of_decodeHeader_none {proto : WebSocketProto} {data : Bytes}
    (h : decodeHeader proto data = none) : data.length < maxHeaderBytes := by
  match data with
  | [] => simp [maxHeaderBytes]
  | [_] => simp [maxHeaderBytes]
  | first :: second :: tail =>
      have hFits := header_fits (second.toNat % 128) (decide (128 ≤ second.toNat))
      simp only [decodeHeader] at h
      split at h
      · simp at h
      · simp only [List.length_cons]
        omega

end Httpuv.FrameLayout
