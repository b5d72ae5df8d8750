import Httpuv.Framing.FixedWidth
import Httpuv.Static.ParseDate

/-! The text of a date: what is read is what `http_date_string` writes. -/
namespace Httpuv

open Framing.Numeral

section Reading

variable {input rest : Bytes}

/-- `str_read_char` takes one character, and only the one that is asked for. At the
end of the text there is nothing to take. -/
theorem readChar_eq_some {c : UInt8} : readChar c input = some rest ↔ input = c :: rest := by
  cases input with
  | nil => simp [readChar]
  | cons first input =>
      simp only [readChar, Option.ite_none_right_eq_some, Option.some.injEq, List.cons.injEq]

theorem toNat_digitByte {digit : Nat} (h : digit < 10) : (digitByte digit).toNat = 48 + digit := by
  rw [digitByte, if_pos h]
  exact Nat.mod_eq_of_lt (by omega)

/-- What is refused is what is not a digit. The two bounds that `str_read_int` tests
are the bytes of `0` and `9`, and between them there are exactly the ten digits. -/
theorem digit_or_refused (c : UInt8) :
    (c < 48 ∨ 57 < c) ∨ ∃ digit < 10, c = digitByte digit := by
  simp only [UInt8.lt_iff_toNat_lt, UInt8.toNat_ofNat]
  by_cases hDigit : c.toNat < 48 ∨ 57 < c.toNat
  · exact Or.inl hDigit
  · refine Or.inr ⟨c.toNat - 48, by omega, UInt8.toNat_inj.1 ?_⟩
    rw [toNat_digitByte (by omega)]
    omega

theorem not_refused {digit : Nat} (h : digit < 10) :
    ¬ (digitByte digit < 48 ∨ 57 < digitByte digit) := by
  simp only [UInt8.lt_iff_toNat_lt, UInt8.toNat_ofNat, toNat_digitByte h]
  omega

/-- The digits are read from the left: `tmp` is what has been read so far, and each
digit multiplies it by ten. The induction is on the number of digits that are left,
for every `tmp` at once. -/
theorem str_read_int_go_eq_some {tmp digits value : Nat} :
    str_read_int.go tmp input digits = some (value, rest) ↔
      ∃ n < 10 ^ digits, value = tmp * 10 ^ digits + n ∧ input = fixed 10 digits n ++ rest := by
  induction digits generalizing tmp input with
  | zero =>
      simp only [str_read_int.go, Option.some.injEq, Prod.mk.injEq, Nat.pow_zero, Nat.lt_one_iff,
        exists_eq_left, Nat.mul_one, Nat.add_zero, fixed, List.nil_append]
      exact ⟨fun h => ⟨h.1.symm, h.2⟩, fun h => ⟨h.1.symm, h.2⟩⟩
  | succ digits ih =>
      constructor
      · intro h
        cases input with
        | nil => cases h
        | cons c input =>
            rw [str_read_int.go] at h
            rcases digit_or_refused c with hRefused | ⟨digit, hDigit, rfl⟩
            · rw [if_pos hRefused] at h
              cases h
            · rw [if_neg (not_refused hDigit), toNat_digitByte hDigit,
                Nat.add_sub_cancel_left, ih] at h
              obtain ⟨n, hLess, rfl, rfl⟩ := h
              obtain ⟨hLarger, hText⟩ := fixed_digit hDigit hLess
              exact ⟨digit * 10 ^ digits + n, hLarger, by ring, by rw [hText, List.cons_append]⟩
      · rintro ⟨m, hLarger, rfl, rfl⟩
        obtain ⟨digit, hDigit, n, hLess, rfl⟩ := exists_digit hLarger
        rw [(fixed_digit hDigit hLess).2, List.cons_append, str_read_int.go,
          if_neg (not_refused hDigit), toNat_digitByte hDigit, Nat.add_sub_cancel_left, ih]
        exact ⟨n, hLess, by ring, rfl⟩

/-- A number of a given width is read from exactly the text with that many digits.
A width of zero reads nothing at all. -/
theorem str_read_int_eq_some {digits value : Nat} (hDigits : 0 < digits) :
    str_read_int input digits = some (value, rest) ↔
      value < 10 ^ digits ∧ input = fixed 10 digits value ++ rest := by
  obtain ⟨before, rfl⟩ := Nat.exists_eq_add_of_le' hDigits
  rw [str_read_int, str_read_int_go_eq_some]
  constructor
  · rintro ⟨n, hLess, rfl, hText⟩
    rw [Nat.zero_mul, Nat.zero_add]
    exact ⟨hLess, hText⟩
  · rintro ⟨hLess, hText⟩
    exact ⟨value, hLess, by rw [Nat.zero_mul, Nat.zero_add], hText⟩

/-- A name is found at its position. That names are distinct makes the position the
first one; that they hold no NUL is why the copy into the buffer keeps them whole.
Something has to follow the name, or the text counts as too short. -/
theorem str_read_lookup_eq_some {bytes pos : Nat} {values : List Bytes} (hBytes : 0 < bytes)
    (hValues : ∀ value ∈ values, value.length = bytes ∧ 0 ∉ value) (hNodup : values.Nodup) :
    str_read_lookup input bytes values = some (pos, rest) ↔
      ∃ value, values[pos]? = some value ∧ input = value ++ rest ∧ rest ≠ [] := by
  have hFind : ∀ {buf : Bytes},
      values.findIdx? (· == buf) = some pos ↔ values[pos]? = some buf := by
    intro buf
    rw [List.findIdx?_eq_some_iff_getElem]
    constructor
    · rintro ⟨hLess, hSame, -⟩
      rw [List.getElem?_eq_getElem hLess, beq_iff_eq.1 hSame]
    · intro hGet
      obtain ⟨hLess, rfl⟩ := List.getElem?_eq_some_iff.1 hGet
      refine ⟨hLess, beq_self_eq_true _, fun other hOther => ?_⟩
      simp only [beq_iff_eq]
      intro hSame
      exact absurd (hNodup.getElem_inj_iff.1 hSame) (Nat.ne_of_lt hOther)
  unfold str_read_lookup
  dsimp only
  constructor
  · intro h
    split_ifs at h with hNone
    rw [not_or] at hNone
    obtain ⟨found, hFound, hSame⟩ := Option.map_eq_some_iff.1 h
    obtain ⟨rfl, rfl⟩ := Prod.mk.inj hSame
    have hGet := hFind.1 hFound
    have hLength := (hValues _ (List.mem_of_getElem? hGet)).1
    have hWhole : (input.take bytes).takeWhile (· ≠ 0) = input.take bytes := by
      apply (List.takeWhile_prefix _).eq_of_length_le
      rw [hLength]
      exact List.length_take_le _ _
    rw [hWhole] at hNone hGet hLength ⊢
    have hTail : input.drop (input.take bytes).length = input.drop bytes := by rw [hLength]
    refine ⟨input.take bytes, hGet, ?_, ?_⟩
    · rw [hTail, List.take_append_drop]
    · intro hEnd
      apply hNone.2
      rw [hTail] at hEnd
      conv_rhs => rw [← List.take_append_drop bytes input, hEnd, List.append_nil]
  · rintro ⟨value, hGet, rfl, hRest⟩
    obtain ⟨hLength, hNul⟩ := hValues value (List.mem_of_getElem? hGet)
    have hTake : (value ++ rest).take bytes = value := by rw [← hLength, List.take_left]
    have hBuf : ((value ++ rest).take bytes).takeWhile (· ≠ 0) = value := by
      rw [hTake, List.takeWhile_eq_self_iff]
      intro byte hMem
      simp only [ne_eq, decide_not, Bool.not_eq_true', decide_eq_false_iff_not]
      rintro rfl
      exact hNul hMem
    rw [hBuf, if_neg, hFind.2 hGet, Option.map_some, List.drop_left]
    rintro (rfl | hSame)
    · simp at hLength
      omega
    · exact hRest (List.append_cancel_left (hSame.symm.trans (List.append_nil value).symm))

end Reading

section Names

/-- The table that dates are read with and the one they are written with name the
days in the same order. -/
theorem days_of_week_getElem? (day : Nat) : days_of_week[day]? = dayName day := by
  rcases day with _ | _ | _ | _ | _ | _ | _ | day <;> rfl

theorem months_getElem? (month : Nat) : months[month]? = monthName month := by
  rcases month with _ | _ | _ | _ | _ | _ | _ | _ | _ | _ | _ | _ | month <;> rfl

theorem exists_dayName {day : Nat} (h : day < 7) : ∃ name, dayName day = some name := by
  rw [← days_of_week_getElem?]
  exact ⟨_, List.getElem?_eq_getElem h⟩

theorem exists_monthName {month : Nat} (h : month < 12) : ∃ name, monthName month = some name := by
  rw [← months_getElem?]
  exact ⟨_, List.getElem?_eq_getElem h⟩

theorem dayName_lt {day : Nat} {name : Bytes} (h : dayName day = some name) : day < 7 := by
  rw [← days_of_week_getElem?] at h
  exact (List.getElem?_eq_some_iff.1 h).1

theorem monthName_lt {month : Nat} {name : Bytes} (h : monthName month = some name) :
    month < 12 := by
  rw [← months_getElem?] at h
  exact (List.getElem?_eq_some_iff.1 h).1

theorem days_of_week_values : ∀ value ∈ days_of_week, value.length = 3 ∧ 0 ∉ value := by
  simp [days_of_week, ascii]

theorem months_values : ∀ value ∈ months, value.length = 3 ∧ 0 ∉ value := by
  simp [months, ascii]

theorem length_dayName {day : Nat} {name : Bytes} (h : dayName day = some name) :
    name.length = 3 := by
  rw [← days_of_week_getElem?] at h
  exact (days_of_week_values name (List.mem_of_getElem? h)).1

theorem length_monthName {month : Nat} {name : Bytes} (h : monthName month = some name) :
    name.length = 3 := by
  rw [← months_getElem?] at h
  exact (months_values name (List.mem_of_getElem? h)).1

variable {input rest : Bytes}

/-- Reading the day of the week undoes `dayName`. Nothing is read off the other
fields, so that a wrong day for a date is accepted. -/
theorem read_dayName {day : Nat} :
    str_read_lookup input 3 days_of_week = some (day, rest) ↔
      ∃ name, dayName day = some name ∧ input = name ++ rest ∧ rest ≠ [] := by
  rw [← days_of_week_getElem?]
  exact str_read_lookup_eq_some (by decide) days_of_week_values (by decide)

theorem read_monthName {month : Nat} :
    str_read_lookup input 3 months = some (month, rest) ↔
      ∃ name, monthName month = some name ∧ input = name ++ rest ∧ rest ≠ [] := by
  rw [← months_getElem?]
  exact str_read_lookup_eq_some (by decide) months_values (by decide)

end Names

/-- The fields but for the year fit their places in the text: two digits for the
numbers, and a name for the day of the week and the month. That the hour is below 24,
or that the month has such a day, is not asked for. -/
structure Tm.Narrow (t : Tm) : Prop where
  wday : t.tm_wday < 7
  mon : t.tm_mon < 12
  mday : t.tm_mday < 100
  hour : t.tm_hour < 100
  min : t.tm_min < 100
  sec : t.tm_sec < 100

/-- Fields that are written in four digits for the year too, which count from 1900
as `struct tm` does. -/
structure Tm.Fits (t : Tm) : Prop extends t.Narrow where
  year_nonneg : 0 ≤ t.tm_year + 1900
  year_le : t.tm_year + 1900 ≤ 9999

/-- A text with the places of a date. The bytes between the places are the comma,
blanks and colons of the format of `http_date_string`, and `GMT` stands at the end. -/
def layout (day : Bytes) (mday : Nat) (month year : Bytes) (hour min sec : Nat) : Bytes :=
  day ++ 44 :: 32 :: (fixed 10 2 mday ++ 32 :: (month ++ 32 :: (year ++ 32 ::
    (fixed 10 2 hour ++ 58 :: (fixed 10 2 min ++ 58 :: (fixed 10 2 sec ++ [32, 71, 77, 84]))))))

/-- What is read has the places of a date, and its fields fit them. Each of the
eighteen reads is undone in its turn, from the left. -/
theorem readTm_eq_some {date : Bytes} {t : Tm} (h : readTm date = some t) :
    t.Fits ∧ ∃ day month, dayName t.tm_wday = some day ∧ monthName t.tm_mon = some month ∧
      date = layout day t.tm_mday month (fixed 10 4 (t.tm_year + 1900).toNat)
        t.tm_hour t.tm_min t.tm_sec := by
  unfold readTm at h
  obtain ⟨⟨wday, date₁⟩, hWday, h⟩ := Option.bind_eq_some_iff.1 h
  obtain ⟨date₂, hComma, h⟩ := Option.bind_eq_some_iff.1 h
  obtain ⟨date₃, hBlank₁, h⟩ := Option.bind_eq_some_iff.1 h
  obtain ⟨⟨mday, date₄⟩, hMday, h⟩ := Option.bind_eq_some_iff.1 h
  obtain ⟨date₅, hBlank₂, h⟩ := Option.bind_eq_some_iff.1 h
  obtain ⟨⟨mon, date₆⟩, hMon, h⟩ := Option.bind_eq_some_iff.1 h
  obtain ⟨date₇, hBlank₃, h⟩ := Option.bind_eq_some_iff.1 h
  obtain ⟨⟨year, date₈⟩, hYear, h⟩ := Option.bind_eq_some_iff.1 h
  obtain ⟨date₉, hBlank₄, h⟩ := Option.bind_eq_some_iff.1 h
  obtain ⟨⟨hour, date₁₀⟩, hHour, h⟩ := Option.bind_eq_some_iff.1 h
  obtain ⟨date₁₁, hColon₁, h⟩ := Option.bind_eq_some_iff.1 h
  obtain ⟨⟨min, date₁₂⟩, hMin, h⟩ := Option.bind_eq_some_iff.1 h
  obtain ⟨date₁₃, hColon₂, h⟩ := Option.bind_eq_some_iff.1 h
  obtain ⟨⟨sec, date₁₄⟩, hSec, h⟩ := Option.bind_eq_some_iff.1 h
  obtain ⟨date₁₅, hBlank₅, h⟩ := Option.bind_eq_some_iff.1 h
  obtain ⟨date₁₆, hG, h⟩ := Option.bind_eq_some_iff.1 h
  obtain ⟨date₁₇, hM, h⟩ := Option.bind_eq_some_iff.1 h
  obtain ⟨date₁₈, hT, h⟩ := Option.bind_eq_some_iff.1 h
  split_ifs at h with hEnd
  obtain rfl := Option.some.inj h
  subst hEnd
  rw [read_dayName] at hWday
  rw [read_monthName] at hMon
  rw [readChar_eq_some] at hComma hBlank₁ hBlank₂ hBlank₃ hBlank₄ hBlank₅ hColon₁ hColon₂ hG hM hT
  rw [str_read_int_eq_some (by decide)] at hMday hYear hHour hMin hSec
  obtain ⟨day, hDay, rfl, -⟩ := hWday
  obtain ⟨month, hMonth, rfl, -⟩ := hMon
  obtain ⟨hMdayLess, rfl⟩ := hMday
  obtain ⟨hYearLess, rfl⟩ := hYear
  obtain ⟨hHourLess, rfl⟩ := hHour
  obtain ⟨hMinLess, rfl⟩ := hMin
  obtain ⟨hSecLess, rfl⟩ := hSec
  have hFits : Tm.Fits
      { tm_sec := sec, tm_min := min, tm_hour := hour, tm_mday := mday, tm_mon := mon,
        tm_year := (year : Int) - 1900, tm_wday := wday } :=
    { wday := dayName_lt hDay, mon := monthName_lt hMonth, mday := hMdayLess, hour := hHourLess,
      min := hMinLess, sec := hSecLess
      year_nonneg := by dsimp only; omega
      year_le := by dsimp only; omega }
  refine ⟨hFits, day, month, hDay, hMonth, ?_⟩
  have hSame : ((year : Int) - 1900 + 1900).toNat = year := by omega
  rw [hSame, hComma, hBlank₁, hBlank₂, hBlank₃, hBlank₄, hColon₁, hColon₂, hBlank₅, hG, hM, hT]
  rfl

/-- What has the places of a date is read. The fields come back as they are, the
year after the 1900 that has been added for the text is taken off again. -/
theorem readTm_layout {t : Tm} {day month : Bytes} (hFits : t.Fits)
    (hDay : dayName t.tm_wday = some day) (hMonth : monthName t.tm_mon = some month) :
    readTm (layout day t.tm_mday month (fixed 10 4 (t.tm_year + 1900).toNat)
      t.tm_hour t.tm_min t.tm_sec) = some t := by
  have hYear : (t.tm_year + 1900).toNat < 10 ^ 4 := by
    have := hFits.year_le
    omega
  have hValue : (((t.tm_year + 1900).toNat : Nat) : Int) - 1900 = t.tm_year := by
    have := hFits.year_nonneg
    omega
  unfold layout readTm
  refine Option.bind_eq_some_iff.2 ⟨_, read_dayName.2 ⟨day, hDay, rfl, by simp⟩, ?_⟩
  refine Option.bind_eq_some_iff.2 ⟨_, readChar_eq_some.2 rfl, ?_⟩
  refine Option.bind_eq_some_iff.2 ⟨_, readChar_eq_some.2 rfl, ?_⟩
  refine Option.bind_eq_some_iff.2 ⟨_, (str_read_int_eq_some (by decide)).2 ⟨hFits.mday, rfl⟩, ?_⟩
  refine Option.bind_eq_some_iff.2 ⟨_, readChar_eq_some.2 rfl, ?_⟩
  refine Option.bind_eq_some_iff.2 ⟨_, read_monthName.2 ⟨month, hMonth, rfl, by simp⟩, ?_⟩
  refine Option.bind_eq_some_iff.2 ⟨_, readChar_eq_some.2 rfl, ?_⟩
  refine Option.bind_eq_some_iff.2 ⟨_, (str_read_int_eq_some (by decide)).2 ⟨hYear, rfl⟩, ?_⟩
  refine Option.bind_eq_some_iff.2 ⟨_, readChar_eq_some.2 rfl, ?_⟩
  refine Option.bind_eq_some_iff.2 ⟨_, (str_read_int_eq_some (by decide)).2 ⟨hFits.hour, rfl⟩, ?_⟩
  refine Option.bind_eq_some_iff.2 ⟨_, readChar_eq_some.2 rfl, ?_⟩
  refine Option.bind_eq_some_iff.2 ⟨_, (str_read_int_eq_some (by decide)).2 ⟨hFits.min, rfl⟩, ?_⟩
  refine Option.bind_eq_some_iff.2 ⟨_, readChar_eq_some.2 rfl, ?_⟩
  refine Option.bind_eq_some_iff.2 ⟨_, (str_read_int_eq_some (by decide)).2 ⟨hFits.sec, rfl⟩, ?_⟩
  rw [hValue]
  rfl

section Writing

/-- Padding with zeros gives the fixed width, as long as the number is not too long
for it. -/
theorem formatPadded_eq_fixed {width n : Nat} (hWidth : 0 < width) (h : n < 10 ^ width) :
    formatPadded width n = fixed 10 width n := by
  have hNonneg : ¬ (n : Int) < 0 := by omega
  simp only [formatPadded, if_neg hNonneg, List.nil_append, List.length_nil, Nat.sub_zero,
    Int.natAbs_natCast]
  exact replicate_append_format (by decide) hWidth h

/-- Zeros in front do not change the value, and neither does a number that is longer
than the width: `printf` then writes all its digits. -/
theorem accumulate_formatPadded {width : Nat} {n : Int} (h : 0 ≤ n) :
    accumulate 10 0 (formatPadded width n) = some n.natAbs := by
  have hZeros : ∀ count : Nat, accumulate 10 0 (List.replicate count 48) = some 0 := by
    intro count
    induction count with
    | zero => rfl
    | succ count ih => exact ih
  simp only [formatPadded, if_neg (Int.not_lt.2 h), List.nil_append, accumulate_append, hZeros,
    Option.bind_some]
  exact accumulate_digits (by decide) (by decide) _ _ (Nat.lt_succ_self _)

/-- Padded numbers can be told apart. A negative one has a sign in front, which no
digit matches. -/
theorem eq_of_formatPadded {width : Nat} {n other : Int} (h : 0 ≤ n)
    (hSame : formatPadded width n = formatPadded width other) : n = other := by
  have hValue : accumulate 10 0 (formatPadded width n) = some n.natAbs := accumulate_formatPadded h
  rw [hSame] at hValue
  by_cases hNegative : other < 0
  · rw [formatPadded, if_pos hNegative] at hValue
    cases hValue
  · rw [accumulate_formatPadded (Int.not_lt.1 hNegative)] at hValue
    have := Option.some.inj hValue
    omega

variable {t : Tm} {day month : Bytes}

/-- The places but for the year take 25 bytes, so the length of a text tells how
long its year is. -/
theorem length_layout (hDay : day.length = 3) (hMonth : month.length = 3) (year : Bytes)
    (mday hour min sec : Nat) :
    (layout day mday month year hour min sec).length = year.length + 25 := by
  simp only [layout, List.length_append, List.length_cons, List.length_nil, length_fixed, hDay,
    hMonth]
  omega

/-- The year stands behind twelve bytes, whatever the other fields are. -/
theorem year_layout (hDay : day.length = 3) (hMonth : month.length = 3) (year : Bytes)
    (mday hour min sec : Nat) :
    ((layout day mday month year hour min sec).drop 12).take year.length = year := by
  obtain ⟨a, b, c, rfl⟩ := List.length_eq_three.1 hDay
  obtain ⟨d, e, f, rfl⟩ := List.length_eq_three.1 hMonth
  simp [layout, fixed]

/-- What is written has the places of a date. The buffer holds 49 bytes and the NUL,
which is where a long year is cut off. -/
theorem Tm.Narrow.httpDateString_eq (h : t.Narrow) (hDay : dayName t.tm_wday = some day)
    (hMonth : monthName t.tm_mon = some month) :
    httpDateString t = (layout day t.tm_mday month (formatPadded 4 (t.tm_year + 1900))
      t.tm_hour t.tm_min t.tm_sec).take 49 := by
  have hPadded : ∀ n : Nat, n < 100 → formatPadded 2 n = fixed 10 2 n :=
    fun n hLess => formatPadded_eq_fixed (by decide) hLess
  rw [httpDateString, hDay, hMonth]
  simp only [hPadded _ h.mday, hPadded _ h.hour, hPadded _ h.min, hPadded _ h.sec, layout, ascii]
  simp

theorem Tm.Fits.formatPadded_year (h : t.Fits) :
    formatPadded 4 (t.tm_year + 1900) = fixed 10 4 (t.tm_year + 1900).toNat := by
  have hNonneg := h.year_nonneg
  have hLess := h.year_le
  rw [← formatPadded_eq_fixed (by decide) (by omega), Int.toNat_of_nonneg hNonneg]

/-- With four digits for the year nothing is cut off, and the text is in the form
that `parse_http_date` reads. -/
theorem Tm.Fits.httpDateString_eq (h : t.Fits) (hDay : dayName t.tm_wday = some day)
    (hMonth : monthName t.tm_mon = some month) :
    httpDateString t = layout day t.tm_mday month (fixed 10 4 (t.tm_year + 1900).toNat)
      t.tm_hour t.tm_min t.tm_sec := by
  have hLength := length_layout (length_dayName hDay) (length_monthName hMonth)
    (fixed 10 4 (t.tm_year + 1900).toNat) t.tm_mday t.tm_hour t.tm_min t.tm_sec
  rw [length_fixed] at hLength
  rw [h.toNarrow.httpDateString_eq hDay hMonth, h.formatPadded_year,
    List.take_of_length_le (by omega)]

/-- **What is read is what is written** for fields that fit: no other text leads to
these fields, and the text of any other fields is not read as these. -/
theorem readTm_iff {date : Bytes} : readTm date = some t ↔ t.Fits ∧ date = httpDateString t := by
  constructor
  · intro h
    obtain ⟨hFits, day, month, hDay, hMonth, rfl⟩ := readTm_eq_some h
    exact ⟨hFits, (hFits.httpDateString_eq hDay hMonth).symm⟩
  · rintro ⟨hFits, rfl⟩
    obtain ⟨day, hDay⟩ := exists_dayName hFits.wday
    obtain ⟨month, hMonth⟩ := exists_monthName hFits.mon
    rw [hFits.httpDateString_eq hDay hMonth]
    exact readTm_layout hFits hDay hMonth

theorem Tm.Fits.length_httpDateString (h : t.Fits) : (httpDateString t).length = 29 := by
  obtain ⟨day, hDay⟩ := exists_dayName h.wday
  obtain ⟨month, hMonth⟩ := exists_monthName h.mon
  rw [h.httpDateString_eq hDay hMonth,
    length_layout (length_dayName hDay) (length_monthName hMonth), length_fixed]

/-- The text tells the fields, also from those whose year does not fit. Equal texts
are equally long, so the other year is four digits too, or three with a sign; the
sign is ruled out by the digits that stand in its place. -/
theorem Tm.Fits.eq_of_httpDateString {other : Tm} (h : t.Fits) (hOther : other.Narrow)
    (hSame : httpDateString t = httpDateString other) : t = other := by
  obtain ⟨day, hDay⟩ := exists_dayName hOther.wday
  obtain ⟨month, hMonth⟩ := exists_monthName hOther.mon
  have hLength := length_layout (length_dayName hDay) (length_monthName hMonth)
    (formatPadded 4 (other.tm_year + 1900)) other.tm_mday other.tm_hour other.tm_min other.tm_sec
  have hYear := year_layout (length_dayName hDay) (length_monthName hMonth)
    (formatPadded 4 (other.tm_year + 1900)) other.tm_mday other.tm_hour other.tm_min other.tm_sec
  have hText := hOther.httpDateString_eq hDay hMonth
  have hShort := congrArg List.length hText
  rw [← hSame, h.length_httpDateString, List.length_take] at hShort
  rw [List.take_of_length_le (by omega)] at hText
  obtain ⟨name, hName⟩ := exists_dayName h.wday
  obtain ⟨monthOf, hMonthOf⟩ := exists_monthName h.mon
  have hOwn := year_layout (length_dayName hName) (length_monthName hMonthOf)
    (fixed 10 4 (t.tm_year + 1900).toNat) t.tm_mday t.tm_hour t.tm_min t.tm_sec
  rw [← h.httpDateString_eq hName hMonthOf, hSame, hText, length_fixed] at hOwn
  have hFour : (formatPadded 4 (other.tm_year + 1900)).length = 4 := by omega
  rw [hFour, hOwn, ← h.formatPadded_year] at hYear
  have hYears := eq_of_formatPadded h.year_nonneg hYear
  have hFits : other.Fits :=
    { hOther with year_nonneg := hYears ▸ h.year_nonneg, year_le := hYears ▸ h.year_le }
  exact Option.some.inj ((readTm_iff.2 ⟨h, rfl⟩).symm.trans (readTm_iff.2 ⟨hFits, hSame⟩))

end Writing

end Httpuv
