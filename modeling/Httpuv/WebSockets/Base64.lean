import Httpuv.Framing.Base64
import Httpuv.WebSockets.Handshake

/-! The vendored `b64encode`, which encodes the accept key and is called from R. -/
namespace Httpuv

open Framing

def cb64 : Bytes := ascii "ABCDEFGHIJKLMNOPQRSTUVWXYZabcdefghijklmnopqrstuvwxyz0123456789+/"

/-- Three bytes as four characters, of which those behind the last byte are padding.
The operands of the shifts are `int`. -/
def encodeblock (block : Bytes) (len : Nat) : Bytes :=
  let in0 := (block.getD 0 0).toNat
  let in1 := (block.getD 1 0).toNat
  let in2 := (block.getD 2 0).toNat
  [cb64.getD (in0 >>> 2) 0,
    cb64.getD (((in0 &&& 0x03) <<< 4) ||| ((in1 &&& 0xf0) >>> 4)) 0,
    if 1 < len then cb64.getD (((in1 &&& 0x0f) <<< 2) ||| ((in2 &&& 0xc0) >>> 6)) 0 else 61,
    if 2 < len then cb64.getD (in2 &&& 0x3f) 0 else 61]

/-- The inner loop: the block, the number of bytes in it, and what is left. -/
def fillBlock : Nat → Bytes → Bytes × Nat × Bytes
  | 0, input => ([], 0, input)
  | i + 1, byte :: input =>
      let (block, len, rest) := fillBlock i input
      (byte :: block, len + 1, rest)
  | i + 1, [] =>
      let (block, len, rest) := fillBlock i []
      (0 :: block, len, rest)

theorem length_fillBlock (i : Nat) (input : Bytes) :
    (fillBlock i input).2.2.length = input.length - i := by
  induction i generalizing input with
  | zero => rfl
  | succ i ih =>
      cases input with
      | nil => simpa [fillBlock] using ih []
      | cons byte input =>
          rw [List.length_cons, Nat.add_sub_add_right]
          exact ih input

/-- The outer loop. -/
def b64encodeFrom (databuf input : Bytes) : Bytes :=
  if input = [] then databuf
  else
    let filled := fillBlock 3 input
    b64encodeFrom
      (if filled.2.1 ≠ 0 then databuf ++ encodeblock filled.1 filled.2.1 else databuf) filled.2.2
termination_by input.length
decreasing_by
  have hSome : 0 < input.length := List.length_pos_of_ne_nil ‹input ≠ []›
  rw [length_fillBlock]
  omega

def b64encode (input : Bytes) : Bytes := b64encodeFrom [] input

theorem letter_eq (n : Nat) : Base64.letter n = cb64.getD n 0 := rfl

section Blocks

variable (a b c : UInt8)

/-- The four groups of six bits in three bytes. -/
theorem stream_block (rest : Bytes) : Base64.stream (a :: b :: c :: rest) =
    Base64.bits 6 (a.toNat >>> 2) ++ (Base64.bits 2 a.toNat ++ Base64.bits 4 (b.toNat >>> 4)) ++
      (Base64.bits 4 b.toNat ++ Base64.bits 2 (c.toNat >>> 6)) ++ Base64.bits 6 c.toNat ++
        Base64.stream rest := by
  have hFirst : Base64.bits 8 a.toNat = _ := @Base64.bits_add _ 6 2
  have hSecond : Base64.bits 8 b.toNat = _ := @Base64.bits_add _ 4 4
  have hThird : Base64.bits 8 c.toNat = _ := @Base64.bits_add _ 2 6
  simp only [Base64.stream, List.flatMap_cons, hFirst, hSecond, hThird, List.append_assoc]

theorem first_index : Base64.value (Base64.bits 6 (a.toNat >>> 2)) = a.toNat >>> 2 := by
  have hByte := a.toNat_lt
  apply Base64.value_bits
  rw [Nat.shiftRight_eq_div_pow]
  omega

theorem second_index : Base64.value (Base64.bits 2 a.toNat ++ Base64.bits 4 (b.toNat >>> 4)) =
    ((a.toNat &&& 0x03) <<< 4) ||| ((b.toNat &&& 0xf0) >>> 4) := by
  rw [Base64.value_bits_append, Nat.shiftRight_and_distrib]
  rfl

theorem third_index : Base64.value (Base64.bits 4 b.toNat ++ Base64.bits 2 (c.toNat >>> 6)) =
    ((b.toNat &&& 0x0f) <<< 2) ||| ((c.toNat &&& 0xc0) >>> 6) := by
  rw [Base64.value_bits_append, Nat.shiftRight_and_distrib]
  rfl

theorem fourth_index : Base64.value (Base64.bits 6 c.toNat) = c.toNat &&& 0x3f := by
  rw [Nat.and_two_pow_sub_one_eq_mod c.toNat 6, ← Base64.bits_mod,
    Base64.value_bits (Nat.mod_lt _ (Nat.two_pow_pos 6))]

/-- A whole block. -/
theorem encode_three : Base64.encode [a, b, c] = encodeblock [a, b, c] 3 := by
  have hFilled : Base64.filled (Base64.stream [a, b, c]) =
      [Base64.bits 6 (a.toNat >>> 2), Base64.bits 2 a.toNat ++ Base64.bits 4 (b.toNat >>> 4),
        Base64.bits 4 b.toNat ++ Base64.bits 2 (c.toNat >>> 6), Base64.bits 6 c.toNat].flatten := by
    rw [Base64.filled, Base64.length_stream, stream_block]
    simp [Base64.stream]
  rw [Base64.encode_eq, Base64.letters, hFilled, Base64.groups_flatten (by simp)]
  simp only [List.map_cons, List.map_nil, first_index, second_index, third_index, fourth_index]
  simp [encodeblock, letter_eq]

/-- The zeros that fill a block up are those that fill its last group up. -/
theorem encode_two : Base64.encode [a, b] = encodeblock [a, b, 0] 2 := by
  have hFilled : Base64.filled (Base64.stream [a, b]) =
      [Base64.bits 6 (a.toNat >>> 2), Base64.bits 2 a.toNat ++ Base64.bits 4 (b.toNat >>> 4),
        Base64.bits 4 b.toNat ++ Base64.bits 2 ((0 : UInt8).toNat >>> 6)].flatten := by
    have hFirst : Base64.bits 8 a.toNat = _ := @Base64.bits_add _ 6 2
    have hSecond : Base64.bits 8 b.toNat = _ := @Base64.bits_add _ 4 4
    have hZeros : Base64.bits 2 ((0 : UInt8).toNat >>> 6) = List.replicate 2 false := by decide
    rw [Base64.filled, Base64.length_stream, hZeros]
    simp [Base64.stream, hFirst, hSecond]
  rw [Base64.encode_eq, Base64.letters, hFilled, Base64.groups_flatten (by simp)]
  simp only [List.map_cons, List.map_nil, first_index, second_index, third_index]
  simp [encodeblock, letter_eq, Base64.pad]

theorem encode_one : Base64.encode [a] = encodeblock [a, 0, 0] 1 := by
  have hFilled : Base64.filled (Base64.stream [a]) =
      [Base64.bits 6 (a.toNat >>> 2),
        Base64.bits 2 a.toNat ++ Base64.bits 4 ((0 : UInt8).toNat >>> 4)].flatten := by
    have hFirst : Base64.bits 8 a.toNat = _ := @Base64.bits_add _ 6 2
    have hZeros : Base64.bits 4 ((0 : UInt8).toNat >>> 4) = List.replicate 4 false := by decide
    rw [Base64.filled, Base64.length_stream, hZeros]
    simp [Base64.stream, hFirst]
  rw [Base64.encode_eq, Base64.letters, hFilled, Base64.groups_flatten (by simp)]
  simp only [List.map_cons, List.map_nil, first_index, second_index]
  simp [encodeblock, letter_eq, Base64.pad]

end Blocks

/-- One turn of the outer loop. -/
theorem b64encodeFrom_cons (databuf : Bytes) (byte : UInt8) (input : Bytes) :
    b64encodeFrom databuf (byte :: input) =
      let filled := fillBlock 3 (byte :: input)
      b64encodeFrom (databuf ++ encodeblock filled.1 filled.2.1) filled.2.2 := by
  rw [b64encodeFrom, if_neg (List.cons_ne_nil byte input)]
  rfl

theorem b64encodeFrom_eq (databuf input : Bytes) :
    b64encodeFrom databuf input = databuf ++ Base64.encode input := by
  induction hLength : input.length using Nat.strongRecOn generalizing databuf input with
  | ind length ih =>
      rcases input with _ | ⟨a, _ | ⟨b, _ | ⟨c, rest⟩⟩⟩
      · rw [b64encodeFrom, if_pos rfl]
        exact (List.append_nil databuf).symm
      · rw [b64encodeFrom_cons, encode_one]
        simp [fillBlock, b64encodeFrom]
      · rw [b64encodeFrom_cons, encode_two]
        simp [fillBlock, b64encodeFrom]
      · have hShort : rest.length < length := by
          rw [← hLength]
          simp only [List.length_cons]
          omega
        have hBlock : 3 ∣ [a, b, c].length := ⟨1, rfl⟩
        have hSplit : Base64.encode (a :: b :: c :: rest) = encodeblock [a, b, c] 3 ++
            Base64.encode rest := by
          rw [← encode_three, ← Base64.encode_append hBlock]
          rfl
        rw [b64encodeFrom_cons, hSplit, ← List.append_assoc]
        exact ih rest.length hShort _ rest rfl

/-- **The encoding is the one of RFC 4648**, and can be read back. -/
theorem b64encode_spec (x : Bytes) :
    b64encode x = Base64.encode x ∧ (b64encode x).length = 4 * (x.length ⌈/⌉ 3) ∧
      (∃ text, b64encode x = text ++ List.replicate ((3 - x.length % 3) % 3) Base64.pad ∧
        Base64.pad ∉ text) ∧
      Base64.decode (b64encode x) = some x ∧ ∀ y, b64encode x = b64encode y → x = y := by
  have hEncode : ∀ input, b64encode input = Base64.encode input := by
    intro input
    rw [b64encode, b64encodeFrom_eq, List.nil_append]
  refine ⟨hEncode x, ?_, ⟨_, (hEncode x).trans Base64.encode_eq, Base64.pad_not_mem_letters⟩, ?_, ?_⟩
  · rw [hEncode, Base64.length_encode]
  · rw [hEncode, Base64.decode_encode]
  · intro y hSame
    rw [hEncode, hEncode] at hSame
    exact Base64.encode_injective hSame

example : b64encode (sampleDigests.sha1 []) = sampleDigests.b64encode [] := by
  rw [b64encode, b64encodeFrom_eq]
  decide +kernel

end Httpuv
