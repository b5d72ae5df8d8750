import Httpuv.Constants
import Httpuv.Framing.Numeral
import Mathlib.Data.List.TakeWhile

/-! Percent-encoding, and strings as C functions see them. -/
namespace Httpuv

/-- Any of `;,/?:@&=+$`. -/
def isReservedUrlChar (c : UInt8) : Bool := [59, 44, 47, 63, 58, 64, 38, 61, 43, 36].contains c

def needsEscape (c : UInt8) (encodeReserved : Bool) : Bool :=
  if 97 ≤ c ∧ c ≤ 122 then false
  else if 65 ≤ c ∧ c ≤ 90 then false
  else if 48 ≤ c ∧ c ≤ 57 then false
  else if isReservedUrlChar c then encodeReserved
  else !(ascii "-_.!~*'()").contains c

/-- `<<` on an `unsigned int` with `std::hex`, `std::uppercase`, `setw(width)` and
`setfill('0')` -/
def hexPadded (width n : Nat) : Bytes :=
  let digits := Framing.Numeral.format 16 n
  List.replicate (width - digits.length) 48 ++ digits

def doEncodeURI (value : Bytes) (encodeReserved : Bool) : Bytes :=
  match value with
  | [] => []
  | c :: rest =>
      (if !needsEscape c encodeReserved then [c] else 37 :: hexPadded 2 c.toNat) ++
        doEncodeURI rest encodeReserved

/-- The value of a hexadecimal digit, or -1. -/
def hexToInt (c : UInt8) : Int :=
  if 48 ≤ c ∧ c ≤ 57 then c.toNat - 48
  else if 65 ≤ c ∧ c ≤ 70 then c.toNat - 55
  else if 97 ≤ c ∧ c ≤ 102 then c.toNat - 87
  else -1

/-- An invalid escape sequence is copied as a whole. -/
def doDecodeURI (value : Bytes) (component : Bool) : Bytes :=
  match value with
  | [] => []
  | [first] => [first]
  | [first, second] => [first, second]
  | first :: hi :: lo :: rest =>
      if first = 37 then
        let iHi := hexToInt hi
        let iLo := hexToInt lo
        if iHi < 0 ∨ iLo < 0 then 37 :: hi :: lo :: doDecodeURI rest component
        else
          let c := (iHi * 16 + iLo).toNat.toUInt8
          if !component && isReservedUrlChar c then 37 :: hi :: lo :: doDecodeURI rest component
          else c :: doDecodeURI rest component
      else first :: doDecodeURI (hi :: lo :: rest) component

/-- What a C function sees of a string. -/
def cString (text : Bytes) : Bytes := text.takeWhile (· ≠ 0)

section CString

variable {text : Bytes}

theorem cString_of_not_mem (hText : 0 ∉ text) : cString text = text := by
  rw [cString, List.takeWhile_eq_self_iff]
  intro byte hMem
  rw [decide_eq_true_iff]
  rintro rfl
  exact hText hMem

/-- In front of the first NUL a string is seen as a whole. -/
theorem cString_append (hText : 0 ∉ text) (rest : Bytes) :
    cString (text ++ rest) = text ++ cString rest := by
  apply List.takeWhile_append_of_pos
  intro byte hMem
  rw [decide_eq_true_iff]
  rintro rfl
  exact hText hMem

/-- Behind a NUL nothing is seen. -/
theorem cString_append_of_mem (hText : 0 ∈ text) (rest : Bytes) :
    cString (text ++ rest) = cString text := by
  obtain ⟨before, after, rfl, hBefore⟩ := List.eq_append_cons_of_mem hText
  have hEnd : ∀ later : Bytes, cString (before ++ 0 :: later) = before := by
    intro later
    rw [cString_append hBefore]
    simp [cString]
  rw [List.append_assoc, List.cons_append, hEnd, hEnd]

theorem cString_isPrefix (text : Bytes) : cString text <+: text := List.takeWhile_prefix _

end CString

end Httpuv
