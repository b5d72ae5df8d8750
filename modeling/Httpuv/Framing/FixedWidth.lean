import Httpuv.Framing.Numeral

/-! Numerals of a fixed width, with zeros in front. -/
namespace Framing.Numeral

variable {base : Nat}

/-- The last digits of a number, as many as the width. -/
def fixed (base : Nat) : Nat → Nat → List UInt8
  | 0, _ => []
  | width + 1, n => fixed base width (n / base) ++ [digitByte (n % base)]

@[simp]
theorem length_fixed (width n : Nat) : (fixed base width n).length = width := by
  induction width generalizing n with
  | zero => rfl
  | succ width ih => rw [fixed, List.length_append, ih, List.length_singleton]

theorem fixed_zero (hBase : 0 < base) (width : Nat) :
    fixed base width 0 = List.replicate width (digitByte 0) := by
  induction width with
  | zero => rfl
  | succ width ih =>
      rw [fixed, Nat.zero_div, ih, Nat.mod_eq_of_lt hBase, List.replicate_succ']

/-- The first digit of a numeral. -/
theorem fixed_cons (width n : Nat) (h : n < base ^ (width + 1)) :
    fixed base (width + 1) n =
      digitByte (n / base ^ width) :: fixed base width (n % base ^ width) := by
  induction width generalizing n with
  | zero =>
      rw [Nat.zero_add, Nat.pow_one] at h
      simp [fixed, Nat.mod_eq_of_lt h]
  | succ width ih =>
      have hLess : n / base < base ^ (width + 1) :=
        Nat.div_lt_of_lt_mul (by rwa [← Nat.pow_succ'])
      have hQuotient : n % base ^ (width + 1) / base = n / base % base ^ width := by
        rw [Nat.pow_succ', Nat.mod_mul_right_div_self]
      have hDigit : n % base ^ (width + 1) % base = n % base :=
        Nat.mod_mod_of_dvd _ (dvd_pow_self base (Nat.succ_ne_zero width))
      rw [fixed, ih _ hLess, Nat.div_div_eq_div_mul, ← Nat.pow_succ', fixed, hQuotient, hDigit]
      rfl

/-- A numeral with one more digit in front. -/
theorem fixed_digit {width digit n : Nat} (hDigit : digit < base) (h : n < base ^ width) :
    digit * base ^ width + n < base ^ (width + 1) ∧
      fixed base (width + 1) (digit * base ^ width + n) = digitByte digit :: fixed base width n := by
  have hPower : 0 < base ^ width := Nat.pow_pos (by omega)
  have hLess : digit * base ^ width + n < base ^ (width + 1) :=
    calc digit * base ^ width + n < digit * base ^ width + base ^ width := by omega
      _ = (digit + 1) * base ^ width := (Nat.succ_mul _ _).symm
      _ ≤ base * base ^ width := Nat.mul_le_mul_right _ hDigit
      _ = base ^ (width + 1) := (Nat.pow_succ').symm
  refine ⟨hLess, ?_⟩
  rw [fixed_cons width _ hLess, Nat.mul_comm, Nat.mul_add_div hPower, Nat.div_eq_of_lt h,
    Nat.mul_add_mod, Nat.mod_eq_of_lt h, Nat.add_zero]

/-- A number is its first digit and the rest. -/
theorem exists_digit {width m : Nat} (h : m < base ^ (width + 1)) :
    ∃ digit < base, ∃ n < base ^ width, m = digit * base ^ width + n := by
  have hBase : 0 < base := by
    by_contra hNone
    obtain rfl : base = 0 := by omega
    simp at h
  refine ⟨m / base ^ width, Nat.div_lt_of_lt_mul (by rwa [← Nat.pow_succ]), m % base ^ width,
    Nat.mod_lt _ (Nat.pow_pos hBase), ?_⟩
  rw [Nat.mul_comm]
  exact (Nat.div_add_mod m _).symm

theorem digits_fuel {fuel more n : Nat} (hBase : 2 ≤ base) (hFuel : n < fuel) (hMore : n < more) :
    digits base fuel n = digits base more n := by
  induction fuel generalizing more n with
  | zero => omega
  | succ fuel ih =>
      obtain ⟨more, rfl⟩ := Nat.exists_eq_add_of_le' (Nat.one_le_of_lt hMore)
      unfold digits
      split_ifs with hSmall
      · rfl
      · have hLess := Nat.div_lt_self (show 0 < n by omega) (show 1 < base by omega)
        have hSame : digits base fuel (n / base) = digits base more (n / base) :=
          ih (by omega) (by omega)
        rw [hSame]

/-- A number is written behind its quotient. -/
theorem format_div {n : Nat} (hBase : 2 ≤ base) (h : base ≤ n) :
    format base n = format base (n / base) ++ [digitByte (n % base)] := by
  have hLess := Nat.div_lt_self (show 0 < n by omega) (show 1 < base by omega)
  have hFuel : digits base n (n / base) = digits base (n / base + 1) (n / base) :=
    digits_fuel hBase hLess (Nat.lt_succ_self _)
  unfold format
  rw [digits, if_neg (by omega), hFuel, List.map_append]
  rfl

theorem format_of_lt {n : Nat} (h : n < base) : format base n = [digitByte n] := by
  unfold format
  rw [digits, if_pos h]
  rfl

/-- Zeros in front of a numeral fill it up. -/
theorem replicate_append_format {width n : Nat} (hBase : 2 ≤ base) (hWidth : 0 < width)
    (h : n < base ^ width) :
    List.replicate (width - (format base n).length) (digitByte 0) ++ format base n =
      fixed base width n := by
  induction width generalizing n with
  | zero => omega
  | succ width ih =>
      by_cases hSmall : n < base
      · rw [format_of_lt hSmall, fixed, Nat.div_eq_of_lt hSmall, Nat.mod_eq_of_lt hSmall,
          fixed_zero (by omega), List.length_singleton, Nat.add_sub_cancel]
      · have hPositive : 0 < width := by
          by_contra hNone
          obtain rfl : width = 0 := by omega
          simp at h
          omega
        have hLess : n / base < base ^ width := Nat.div_lt_of_lt_mul (by rwa [← Nat.pow_succ'])
        rw [format_div hBase (by omega), fixed, ← ih hPositive hLess, List.length_append,
          List.length_singleton, Nat.add_sub_add_right, List.append_assoc]

end Framing.Numeral
