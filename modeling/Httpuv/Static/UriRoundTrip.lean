import Httpuv.Framing.FixedWidth
import Httpuv.Static.Uri

/-! `doDecodeURI` behind `doEncodeURI`. -/
namespace Httpuv

open Framing.Numeral

/-- The escape sequence of a byte, in upper case. -/
def escapeSequence (c : UInt8) : Bytes := [37, digitByte (c.toNat / 16), digitByte (c.toNat % 16)]

theorem hexPadded_byte (c : UInt8) : 37 :: hexPadded 2 c.toNat = escapeSequence c := by
  have hByte : c.toNat < 16 ^ 2 := c.toNat_lt
  have hPadded : hexPadded 2 c.toNat = fixed 16 2 c.toNat :=
    replicate_append_format (by decide) (by decide) hByte
  have hFirst : c.toNat / 16 % 16 = c.toNat / 16 := Nat.mod_eq_of_lt (by omega)
  rw [hPadded, escapeSequence, fixed, fixed, fixed, List.nil_append, hFirst]
  rfl

theorem hexToInt_digitByte {digit : Nat} (h : digit < 16) : hexToInt (digitByte digit) = digit := by
  have hAll : ∀ i : Fin 16, hexToInt (digitByte i.val) = (i.val : Int) := by decide
  exact hAll ⟨digit, h⟩

section Decoding

variable {c : UInt8} (rest : Bytes) (component : Bool)

/-- A byte that starts no escape sequence is copied wherever it stands. -/
theorem doDecodeURI_cons (h : c ≠ 37) :
    doDecodeURI (c :: rest) component = c :: doDecodeURI rest component := by
  rcases rest with _ | ⟨hi, _ | ⟨lo, rest⟩⟩
  · rfl
  · rfl
  · rw [doDecodeURI, if_neg h]

/-- An escape sequence is decoded with anything behind it. -/
theorem doDecodeURI_escapeSequence (c : UInt8) :
    doDecodeURI (escapeSequence c ++ rest) component =
      (if !component && isReservedUrlChar c then escapeSequence c else [c]) ++
        doDecodeURI rest component := by
  have hByte : c.toNat < 256 := c.toNat_lt
  have hHi := hexToInt_digitByte (show c.toNat / 16 < 16 by omega)
  have hLo := hexToInt_digitByte (show c.toNat % 16 < 16 by omega)
  have hValue : (((c.toNat / 16 : Nat) : Int) * 16 + ((c.toNat % 16 : Nat) : Int)).toNat.toUInt8 = c := by
    have hSum : (((c.toNat / 16 : Nat) : Int) * 16 + ((c.toNat % 16 : Nat) : Int)).toNat = c.toNat := by
      omega
    rw [hSum]
    exact UInt8.ofNat_toNat
  rw [escapeSequence, List.cons_append, List.cons_append, List.cons_append, List.nil_append,
    doDecodeURI, if_pos rfl, hHi, hLo, if_neg (by omega), hValue]
  dsimp only
  split_ifs <;> rfl

end Decoding

section Encoding

variable {c : UInt8}

/-- The characters that are not reserved and stand for themselves. -/
def isUnreservedUrlChar (c : UInt8) : Bool :=
  decide (97 ≤ c ∧ c ≤ 122) || decide (65 ≤ c ∧ c ≤ 90) || decide (48 ≤ c ∧ c ≤ 57) ||
    (ascii "-_.!~*'()").contains c

theorem reserved_cases (h : isReservedUrlChar c = true) :
    ¬ (97 ≤ c ∧ c ≤ 122) ∧ ¬ (65 ≤ c ∧ c ≤ 90) ∧ ¬ (48 ≤ c ∧ c ≤ 57) := by
  simp only [isReservedUrlChar, List.contains_eq_mem, List.mem_cons, List.not_mem_nil, or_false,
    decide_eq_true_eq] at h
  rcases h with rfl | rfl | rfl | rfl | rfl | rfl | rfl | rfl | rfl | rfl <;> decide

theorem needsEscape_eq (c : UInt8) (r : Bool) :
    needsEscape c r = if isReservedUrlChar c then r else !isUnreservedUrlChar c := by
  by_cases hReserved : isReservedUrlChar c = true
  · obtain ⟨hLower, hUpper, hDigit⟩ := reserved_cases hReserved
    rw [needsEscape, if_neg hLower, if_neg hUpper, if_neg hDigit, if_pos hReserved,
      if_pos hReserved]
  · rw [needsEscape, isUnreservedUrlChar, if_neg hReserved, if_neg hReserved]
    split_ifs with hLower hUpper hDigit
    · simp [hLower]
    · simp [hUpper]
    · simp [hDigit]
    · simp [hLower, hUpper, hDigit]

theorem percent_needsEscape (r : Bool) : needsEscape 37 r = true := by
  cases r <;> decide

/-- What encoding and then decoding makes of a string. -/
theorem doDecodeURI_doEncodeURI (s : Bytes) (r component : Bool) :
    doDecodeURI (doEncodeURI s r) component =
      s.flatMap (fun c =>
        if r && (!component && isReservedUrlChar c) then escapeSequence c else [c]) := by
  induction s with
  | nil => rfl
  | cons c rest ih =>
      have hEscape := needsEscape_eq c r
      rw [doEncodeURI, List.flatMap_cons, ← ih]
      cases hNeeds : needsEscape c r with
      | false =>
          have hPlain : c ≠ 37 := by
            rintro rfl
            rw [percent_needsEscape] at hNeeds
            cases hNeeds
          have hCopied : (r && (!component && isReservedUrlChar c)) = false := by
            cases hReserved : isReservedUrlChar c with
            | false => rw [Bool.and_false, Bool.and_false]
            | true =>
                rw [hNeeds, hReserved, if_pos rfl] at hEscape
                rw [← hEscape, Bool.false_and]
          rw [hCopied]
          exact doDecodeURI_cons _ component hPlain
      | true =>
          have hSame : (r && (!component && isReservedUrlChar c)) =
              (!component && isReservedUrlChar c) := by
            cases hReserved : isReservedUrlChar c with
            | false => rw [Bool.and_false, Bool.and_false]
            | true =>
                rw [hNeeds, hReserved, if_pos rfl] at hEscape
                rw [← hEscape, Bool.true_and]
          rw [hSame, hexPadded_byte]
          exact doDecodeURI_escapeSequence _ component c

/-- The texts that encoding may produce. -/
inductive Encoded (r : Bool) : Bytes → Prop where
  | nil : Encoded r []
  | unreserved {c : UInt8} {rest : Bytes} (hChar : isUnreservedUrlChar c = true)
      (hRest : Encoded r rest) : Encoded r (c :: rest)
  | reserved {c : UInt8} {rest : Bytes} (hKept : r = false) (hChar : isReservedUrlChar c = true)
      (hRest : Encoded r rest) : Encoded r (c :: rest)
  | escape {hi lo : UInt8} {rest : Bytes} (hHi : hi ∈ ascii "0123456789ABCDEF")
      (hLo : lo ∈ ascii "0123456789ABCDEF") (hRest : Encoded r rest) :
      Encoded r (37 :: hi :: lo :: rest)

theorem digitByte_mem {digit : Nat} (h : digit < 16) :
    digitByte digit ∈ ascii "0123456789ABCDEF" := by
  have hAll : ∀ i : Fin 16, digitByte i.val ∈ ascii "0123456789ABCDEF" := by decide
  exact hAll ⟨digit, h⟩

theorem encoded_doEncodeURI (s : Bytes) (r : Bool) : Encoded r (doEncodeURI s r) := by
  induction s with
  | nil => exact Encoded.nil
  | cons c rest ih =>
      have hEscape := needsEscape_eq c r
      have hByte : c.toNat < 256 := c.toNat_lt
      rw [doEncodeURI]
      cases hNeeds : needsEscape c r with
      | true =>
          rw [hexPadded_byte]
          exact Encoded.escape (digitByte_mem (by omega)) (digitByte_mem (by omega)) ih
      | false =>
          rw [hNeeds] at hEscape
          cases hReserved : isReservedUrlChar c with
          | true =>
              rw [hReserved, if_pos rfl] at hEscape
              exact Encoded.reserved hEscape.symm hReserved ih
          | false =>
              rw [hReserved, if_neg Bool.false_ne_true] at hEscape
              exact Encoded.unreserved (by simpa using hEscape.symm) ih

/-- **Encoded strings are decoded**: as components in full, else but for what has been
encoded of the reserved characters. -/
theorem encoded_strings_decode (s : Bytes) :
    (∀ r, doDecodeURI (doEncodeURI s r) true = s) ∧
      doDecodeURI (doEncodeURI s false) false = s ∧
      doDecodeURI (doEncodeURI s true) false =
        s.flatMap (fun c => if isReservedUrlChar c then escapeSequence c else [c]) ∧
      ∀ r, Encoded r (doEncodeURI s r) := by
  refine ⟨fun r => ?_, ?_, ?_, encoded_doEncodeURI s⟩
  · simp [doDecodeURI_doEncodeURI]
  · simp [doDecodeURI_doEncodeURI]
  · simp [doDecodeURI_doEncodeURI]

example : doEncodeURI (ascii "a b/%") true = ascii "a%20b%2F%25" := by decide

end Encoding

end Httpuv
