import Httpuv.Constants
import Httpuv.Framing.Message

/-! `http_date_string`: the date format of HTTP headers. -/
namespace Httpuv

/-- `struct tm` as `gmtime_r` fills it in. -/
structure Tm where
  tm_sec : Nat
  tm_min : Nat
  tm_hour : Nat
  tm_mday : Nat
  tm_mon : Nat
  tm_year : Int
  tm_wday : Nat
  deriving DecidableEq, Repr

/-- The first of January 1970. -/
def Tm.epoch : Tm :=
  { tm_sec := 0, tm_min := 0, tm_hour := 0, tm_mday := 1, tm_mon := 0, tm_year := 70, tm_wday := 4 }

def dayName : Nat → Option Bytes
  | 0 => some (ascii "Sun")
  | 1 => some (ascii "Mon")
  | 2 => some (ascii "Tue")
  | 3 => some (ascii "Wed")
  | 4 => some (ascii "Thu")
  | 5 => some (ascii "Fri")
  | 6 => some (ascii "Sat")
  | _ => none

def monthName : Nat → Option Bytes
  | 0 => some (ascii "Jan")
  | 1 => some (ascii "Feb")
  | 2 => some (ascii "Mar")
  | 3 => some (ascii "Apr")
  | 4 => some (ascii "May")
  | 5 => some (ascii "Jun")
  | 6 => some (ascii "Jul")
  | 7 => some (ascii "Aug")
  | 8 => some (ascii "Sep")
  | 9 => some (ascii "Oct")
  | 10 => some (ascii "Nov")
  | 11 => some (ascii "Dec")
  | _ => none

/-- `<<` on an `int`. -/
def formatInt (n : Int) : Bytes :=
  (if n < 0 then [45] else []) ++ Framing.Numeral.format 10 n.natAbs

/-- `%0<width>d` -/
def formatPadded (width : Nat) (n : Int) : Bytes :=
  let sign := if n < 0 then [45] else []
  let digits := Framing.Numeral.format 10 n.natAbs
  sign ++ List.replicate (width - sign.length - digits.length) 48 ++ digits

/-- The result of `snprintf` is cut at its buffer of fifty bytes. -/
def httpDateString (timeptr : Tm) : Bytes :=
  match dayName timeptr.tm_wday, monthName timeptr.tm_mon with
  | some day_name, some month_name =>
      (day_name ++ ascii ", " ++ formatPadded 2 timeptr.tm_mday ++ ascii " " ++ month_name ++
        ascii " " ++ formatPadded 4 (timeptr.tm_year + 1900) ++ ascii " " ++
        formatPadded 2 timeptr.tm_hour ++ ascii ":" ++ formatPadded 2 timeptr.tm_min ++ ascii ":" ++
        formatPadded 2 timeptr.tm_sec ++ ascii " GMT").take 49
  | _, _ => []

section Control

variable {byte : UInt8}

theorem control_format (hByte : byte < 32 ∨ byte = 127) (n : Nat) :
    byte ∉ Framing.Numeral.format 10 n := by
  intro hMem
  have hDigit := Framing.Numeral.byteDigit_of_mem_format (by decide) (by decide) hMem
  have hNone : Framing.Numeral.byteDigit byte = none := by
    have hOutside : byte.toNat < 32 ∨ byte.toNat = 127 :=
      hByte.imp id fun hDelete => by rw [hDelete]; rfl
    simp only [Framing.Numeral.byteDigit, UInt8.le_iff_toNat_le, UInt8.toNat_ofNat]
    rw [if_neg (by omega), if_neg (by omega), if_neg (by omega)]
  rw [hNone] at hDigit
  cases hDigit

theorem control_literal (hByte : byte < 32 ∨ byte = 127) {text : Bytes}
    (hText : text.all (fun other => decide (32 ≤ other ∧ other ≠ 127)) = true) : byte ∉ text := by
  intro hMem
  have hVisible : 32 ≤ byte ∧ byte ≠ 127 := by simpa using List.all_eq_true.1 hText byte hMem
  rcases hByte with hLess | hDelete
  · have hSmall : byte.toNat < 32 := hLess
    have hLarge : 32 ≤ byte.toNat := hVisible.1
    omega
  · exact hVisible.2 hDelete

theorem control_formatInt (hByte : byte < 32 ∨ byte = 127) (n : Int) : byte ∉ formatInt n := by
  simp only [formatInt, List.mem_append, not_or]
  refine ⟨control_literal hByte ?_, control_format hByte _⟩
  split_ifs <;> decide

theorem control_formatPadded (hByte : byte < 32 ∨ byte = 127) (width : Nat) (n : Int) :
    byte ∉ formatPadded width n := by
  simp only [formatPadded, List.mem_append, not_or]
  refine ⟨⟨control_literal hByte ?_, ?_⟩, control_format hByte _⟩
  · split_ifs <;> decide
  · exact control_literal hByte (by simp)

theorem control_dayName (hByte : byte < 32 ∨ byte = 127) {day : Nat} {name : Bytes}
    (h : dayName day = some name) : byte ∉ name := by
  apply control_literal hByte
  unfold dayName at h
  split at h <;> simp only [Option.some.injEq, reduceCtorEq] at h <;> subst h <;> decide

theorem control_monthName (hByte : byte < 32 ∨ byte = 127) {month : Nat}
    {name : Bytes} (h : monthName month = some name) : byte ∉ name := by
  apply control_literal hByte
  unfold monthName at h
  split at h <;> simp only [Option.some.injEq, reduceCtorEq] at h <;> subst h <;> decide

/-- A date fits on one header line. -/
theorem control_httpDateString (hByte : byte < 32 ∨ byte = 127) (timeptr : Tm) :
    byte ∉ httpDateString timeptr := by
  unfold httpDateString
  split
  · next day_name month_name hDay hMonth =>
      intro hMem
      have hMem := List.mem_of_mem_take hMem
      have hDay := control_dayName hByte hDay
      have hMonth := control_monthName hByte hMonth
      have hComma : byte ∉ ascii ", " := control_literal hByte (by decide)
      have hBlank : byte ∉ ascii " " := control_literal hByte (by decide)
      have hColon : byte ∉ ascii ":" := control_literal hByte (by decide)
      have hZone : byte ∉ ascii " GMT" := control_literal hByte (by decide)
      have hPadded := control_formatPadded hByte
      simp only [List.mem_append, hDay, hMonth, hComma, hBlank, hColon, hZone, hPadded,
        or_self] at hMem
  · simp

end Control

end Httpuv
