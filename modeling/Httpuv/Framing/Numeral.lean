import Mathlib.Tactic

/-! Positional numerals in ASCII, in a base up to sixteen. -/
namespace Framing.Numeral

/-- The digits of a number, the most significant one first. -/
def digits (base : Nat) : Nat → Nat → List Nat
  | 0, _ => []
  | fuel + 1, n => if n < base then [n] else digits base fuel (n / base) ++ [n % base]

/-- Digits above nine are upper-case letters. -/
def digitByte (digit : Nat) : UInt8 :=
  if digit < 10 then (48 + digit).toUInt8 else (55 + digit).toUInt8

/-- Letters are accepted in either case. -/
def byteDigit (byte : UInt8) : Option Nat :=
  if 48 ≤ byte ∧ byte ≤ 57 then some (byte.toNat - 48)
  else if 65 ≤ byte ∧ byte ≤ 70 then some (byte.toNat - 55)
  else if 97 ≤ byte ∧ byte ≤ 102 then some (byte.toNat - 87)
  else none

def format (base n : Nat) : List UInt8 := (digits base (n + 1) n).map digitByte

def accumulate (base : Nat) : Nat → List UInt8 → Option Nat
  | value, [] => some value
  | value, byte :: rest => do
      let digit ← byteDigit byte
      if digit < base then accumulate base (value * base + digit) rest else none

/-- A numeral has at least one digit. -/
def parse (base : Nat) (bytes : List UInt8) : Option Nat :=
  if bytes = [] then none else accumulate base 0 bytes

theorem byteDigit_digitByte (digit : Nat) (h : digit < 16) :
    byteDigit (digitByte digit) = some digit := by
  have hAll : ∀ i : Fin 16, byteDigit (digitByte i.val) = some i.val := by decide
  exact hAll ⟨digit, h⟩

theorem accumulate_append (base value : Nat) (before after : List UInt8) :
    accumulate base value (before ++ after) =
      (accumulate base value before).bind (fun middle => accumulate base middle after) := by
  induction before generalizing value with
  | nil => rfl
  | cons byte before ih =>
      simp only [List.cons_append, accumulate]
      cases hDigit : byteDigit byte with
      | none => rfl
      | some digit =>
          simp only [Option.bind_eq_bind, Option.bind_some]
          split_ifs
          · exact ih _
          · rfl

theorem accumulate_digits {base : Nat} (hLow : 2 ≤ base) (hHigh : base ≤ 16) (fuel n : Nat)
    (hFuel : n < fuel) : accumulate base 0 ((digits base fuel n).map digitByte) = some n := by
  induction fuel generalizing n with
  | zero => omega
  | succ fuel ih =>
      by_cases hSmall : n < base
      · simp [digits, hSmall, accumulate, byteDigit_digitByte n (by omega)]
      · have hQuotient : n / base < fuel := by
          have hLess := Nat.div_lt_self (show 0 < n by omega) (show 1 < base by omega)
          omega
        have hDigit := Nat.mod_lt n (show 0 < base by omega)
        have hValue : n / base * base + n % base = n := by
          rw [Nat.mul_comm]
          exact Nat.div_add_mod n base
        simp only [digits, if_neg hSmall, List.map_append, accumulate_append, ih _ hQuotient,
          Option.bind_some, List.map_cons, List.map_nil, accumulate,
          byteDigit_digitByte _ (show n % base < 16 by omega), Option.bind_eq_bind, if_pos hDigit,
          hValue]

theorem digits_ne_nil (base fuel n : Nat) : digits base (fuel + 1) n ≠ [] := by
  unfold digits
  split_ifs <;> simp

/-- Writing and reading back. -/
theorem parse_format {base : Nat} (hLow : 2 ≤ base) (hHigh : base ≤ 16) (n : Nat) :
    parse base (format base n) = some n := by
  unfold parse format
  rw [if_neg (by simp [digits_ne_nil])]
  exact accumulate_digits hLow hHigh (n + 1) n (Nat.lt_succ_self n)

theorem mem_digits {base fuel n digit : Nat} (hBase : 0 < base)
    (h : digit ∈ digits base fuel n) : digit < base := by
  induction fuel generalizing n with
  | zero => simp [digits] at h
  | succ fuel ih =>
      unfold digits at h
      split_ifs at h with hSmall
      · simp only [List.mem_singleton] at h
        omega
      · rcases List.mem_append.1 h with h | h
        · exact ih h
        · simp only [List.mem_singleton] at h
          rw [h]
          exact Nat.mod_lt n hBase

/-- A numeral holds nothing but digits. -/
theorem byteDigit_of_mem_format {base n : Nat} (hLow : 0 < base) (hHigh : base ≤ 16)
    {byte : UInt8} (h : byte ∈ format base n) : (byteDigit byte).isSome := by
  obtain ⟨digit, hDigit, rfl⟩ := List.mem_map.1 h
  have hLess := mem_digits hLow hDigit
  rw [byteDigit_digitByte digit (by omega)]
  rfl

theorem format_ne_nil (base n : Nat) : format base n ≠ [] := by
  simp [format, digits_ne_nil]

end Framing.Numeral
