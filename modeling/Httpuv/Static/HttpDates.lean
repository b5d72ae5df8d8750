import Httpuv.Static.DateText
import Httpuv.Static.FileResponses
import Httpuv.Time.Gregorian

/-! The dates of HTTP headers as instants: `parse_http_date_string` against
`http_date_string` in the Gregorian calendar. -/
namespace Httpuv

open Gregorian

/-- `gmtime_r` in the proleptic Gregorian calendar. -/
def gmtime_r (t : Int) : Tm :=
  let date := civil (t / 86400)
  let seconds := (t % 86400).toNat
  { tm_sec := seconds % 60
    tm_min := seconds / 60 % 60
    tm_hour := seconds / 3600
    tm_mday := date.day
    tm_mon := date.month - 1
    tm_year := date.year - 1900
    tm_wday := weekday (t / 86400) }

namespace Tm

variable (t : Tm)

/-- The instant that the fields come to when each is counted on from its start. -/
def instant : Int :=
  86400 * dayNumber (t.tm_year + 1900) (t.tm_mon + 1) t.tm_mday +
    (3600 * t.tm_hour + 60 * t.tm_min + t.tm_sec : Nat)

/-- The fields of a real day and of a time of this day. -/
structure Real : Prop where
  date : ∃ date : Date, t.tm_year + 1900 = date.year ∧ t.tm_mon + 1 = date.month ∧
    t.tm_mday = date.day ∧ t.tm_wday = weekday date.ordinal
  hour : t.tm_hour < 24
  min : t.tm_min < 60
  sec : t.tm_sec < 60

variable {t}

theorem Real.gmtime_r_instant (h : t.Real) : gmtime_r t.instant = t := by
  obtain ⟨date, hYear, hMonth, hDay, hWeekday⟩ := h.date
  have hHour := h.hour
  have hMin := h.min
  have hSec := h.sec
  have hInstant : t.instant =
      86400 * date.ordinal + (3600 * t.tm_hour + 60 * t.tm_min + t.tm_sec : Nat) := by
    rw [instant, hYear, hMonth, hDay]
    rfl
  have hDays : t.instant / 86400 = date.ordinal := by omega
  have hSeconds : (t.instant % 86400).toNat = 3600 * t.tm_hour + 60 * t.tm_min + t.tm_sec := by
    omega
  rw [gmtime_r, hDays, hSeconds, civil_ordinal]
  cases t
  simp only [Tm.mk.injEq]
  simp only at hYear hMonth hDay hWeekday hHour hMin hSec
  omega

end Tm

section Instants

variable (v : Int)

theorem real_gmtime_r : (gmtime_r v).Real where
  date := by
    have hMonth := (civil (v / 86400)).month_pos
    refine ⟨civil (v / 86400), ?_, ?_, rfl, ?_⟩
    · simp only [gmtime_r]
      omega
    · simp only [gmtime_r]
      omega
    · rw [ordinal_civil]
      rfl
  hour := by
    simp only [gmtime_r]
    omega
  min := Nat.mod_lt _ (by decide)
  sec := Nat.mod_lt _ (by decide)

theorem instant_gmtime_r : (gmtime_r v).instant = v := by
  have hMonth := Nat.sub_add_cancel (civil (v / 86400)).month_pos
  have hOrdinal := ordinal_civil (v / 86400)
  rw [Date.ordinal] at hOrdinal
  simp only [Tm.instant, gmtime_r, hMonth, Int.sub_add_cancel, hOrdinal]
  omega

theorem narrow_gmtime_r : (gmtime_r v).Narrow where
  wday := weekday_lt _
  mon := by
    have := (civil (v / 86400)).month_le
    simp only [gmtime_r]
    omega
  mday := by
    have hDay := (civil (v / 86400)).day_le
    have hMonth := monthLength_le (civil (v / 86400)).year (civil (v / 86400)).month
    simp only [gmtime_r]
    omega
  hour := Nat.lt_trans (real_gmtime_r v).hour (by decide)
  min := Nat.lt_trans (real_gmtime_r v).min (by decide)
  sec := Nat.lt_trans (real_gmtime_r v).sec (by decide)

end Instants

section DayCount

/-- Whole years, in eras of four hundred. -/
theorem days_of_years {y : Int} (h : 0 ≤ y) :
    y.tdiv 400 * 146097 + ((y - y.tdiv 400 * 400) * 365 + (y - y.tdiv 400 * 400).tdiv 4 -
      (y - y.tdiv 400 * 400).tdiv 100) = yearStart (y + 1) := by
  have hEra : y.tdiv 400 = y / 400 := Int.tdiv_eq_ediv_of_nonneg h
  have hNonneg : 0 ≤ y - y / 400 * 400 := by omega
  rw [hEra, Int.tdiv_eq_ediv_of_nonneg hNonneg, Int.tdiv_eq_ediv_of_nonneg hNonneg, yearStart]
  omega

/-- Months from March on have a pattern. -/
theorem monthStart_march (year : Int) {month : Nat} (hFrom : 3 ≤ month) (hTo : month ≤ 12) :
    monthStart year month + 306 = yearLength year + (153 * (month - 3) + 2) / 5 := by
  by_cases hLeap : IsLeap year <;>
    interval_cases month <;> simp [monthStart, monthLength, yearLength, hLeap]

theorem days_since_1970_march {year : Int} {month : Nat} (hYear : 0 ≤ year) (hFrom : 3 ≤ month)
    (hTo : month ≤ 12) (day : Nat) :
    days_since_1970 year month day = dayNumber year month day := by
  have hDays := days_of_years hYear
  have hStart := monthStart_march year hFrom hTo
  have hNext := yearStart_succ year
  have hEarly : ¬ (month : Int) ≤ 2 := by omega
  have hLate : (month : Int) > 2 := by omega
  have hMonths : (153 * ((month : Int) + -3) + 2).tdiv 5 = (153 * ((month : Int) + -3) + 2) / 5 :=
    Int.tdiv_eq_ediv_of_nonneg (by omega)
  have hEpoch : yearStart 1970 = 719162 := rfl
  simp only [days_since_1970, if_neg hEarly, if_pos hLate, hMonths, dayNumber, hEpoch]
  omega

/-- The first two months count as the last ones of the year before. -/
theorem days_since_1970_early {month : Nat} (hFrom : 1 ≤ month) (hTo : month ≤ 2) (year : Int)
    (day : Nat) :
    days_since_1970 year month day = (year - 1).tdiv 400 * 146097 +
      ((year - 1 - (year - 1).tdiv 400 * 400) * 365 +
        (year - 1 - (year - 1).tdiv 400 * 400).tdiv 4 -
        (year - 1 - (year - 1).tdiv 400 * 400).tdiv 100) +
      monthStart year month + day - 1 - yearStart 1970 := by
  have hEpoch : yearStart 1970 = 719162 := rfl
  have hMonth : (month : Int) ≤ 2 := by omega
  have hEarly : ¬ (month : Int) > 2 := by omega
  have hMonths : (153 * ((month : Int) + 9) + 2).tdiv 5 = 306 + monthStart year month := by
    interval_cases month <;> rfl
  simp only [days_since_1970, if_pos hMonth, if_neg hEarly, hMonths, hEpoch]
  omega

/-- The two months whose days are counted wrong: the division is truncated. -/
def Miscounted (year : Int) (month : Nat) : Prop := year = 0 ∧ month ≤ 2

instance (year : Int) (month : Nat) : Decidable (Miscounted year month) :=
  inferInstanceAs (Decidable (_ ∧ _))

theorem days_since_1970_eq {year : Int} {month : Nat} (hYear : 0 ≤ year) (hFrom : 1 ≤ month)
    (hTo : month ≤ 12) (day : Nat) :
    days_since_1970 year month day =
      dayNumber year month day + if Miscounted year month then 1 else 0 := by
  by_cases hMarch : 3 ≤ month
  · have hCounted : ¬ Miscounted year month := fun h => absurd h.2 (by omega)
    rw [days_since_1970_march hYear hMarch hTo, if_neg hCounted, Int.add_zero]
  · rw [days_since_1970_early hFrom (by omega)]
    by_cases hZero : year = 0
    · subst hZero
      have hMiscounted : Miscounted 0 month := ⟨rfl, by omega⟩
      have hYears : ((0 : Int) - 1).tdiv 400 * 146097 +
          ((0 - 1 - ((0 : Int) - 1).tdiv 400 * 400) * 365 +
            (0 - 1 - ((0 : Int) - 1).tdiv 400 * 400).tdiv 4 -
            (0 - 1 - ((0 : Int) - 1).tdiv 400 * 400).tdiv 100) = yearStart 0 + 1 := rfl
      rw [hYears, if_pos hMiscounted, dayNumber]
      omega
    · have hCounted : ¬ Miscounted year month := fun h => hZero h.1
      rw [days_of_years (by omega), Int.sub_add_cancel, if_neg hCounted, dayNumber, Int.add_zero]

theorem timegm2_eq {t : Tm} (h : t.Fits) :
    timegm2 t = t.instant + if Miscounted (t.tm_year + 1900) (t.tm_mon + 1) then 86400 else 0 := by
  have hDays := days_since_1970_eq h.year_nonneg (Nat.le_add_left 1 t.tm_mon) h.mon t.tm_mday
  rw [Nat.cast_add, Nat.cast_one] at hDays
  rw [timegm2, hDays, Tm.instant]
  split_ifs <;> omega

end DayCount

/-- 0001-01-01T00:00:00Z -/
def firstInstant : Int := -62135596800

/-- 9999-12-31T23:59:59Z -/
def lastInstant : Int := 253402300799

section RoundTrip

variable {v : Int}

theorem fits_gmtime_r (hFrom : firstInstant ≤ v) (hTo : v ≤ lastInstant) : (gmtime_r v).Fits := by
  unfold firstInstant at hFrom
  unfold lastInstant at hTo
  obtain ⟨hYear, hYearLe⟩ := year_civil (show -719162 ≤ v / 86400 by omega)
    (show v / 86400 ≤ 2932896 by omega)
  exact { narrow_gmtime_r v with
    year_nonneg := by simp only [gmtime_r]; omega
    year_le := by simp only [gmtime_r]; omega }

theorem parse_http_date_string_fits {t : Tm} (h : t.Fits) :
    parse_http_date_string (httpDateString t) = timegm2 t := by
  rw [parse_http_date_string, if_neg (not_not_intro h.length_httpDateString),
    readTm_iff.2 ⟨h, rfl⟩]

theorem parse_httpDateString (hFrom : firstInstant ≤ v) (hTo : v ≤ lastInstant) :
    parse_http_date_string (httpDateString (gmtime_r v)) = v := by
  have hFits := fits_gmtime_r hFrom hTo
  have hCounted : ¬ Miscounted ((gmtime_r v).tm_year + 1900) ((gmtime_r v).tm_mon + 1) := by
    intro h
    unfold firstInstant at hFrom
    unfold lastInstant at hTo
    have hYear := (year_civil (show -719162 ≤ v / 86400 by omega)
      (show v / 86400 ≤ 2932896 by omega)).1
    have hZero := h.1
    simp only [gmtime_r] at hZero
    omega
  rw [parse_http_date_string_fits hFits, timegm2_eq hFits, if_neg hCounted, instant_gmtime_r,
    Int.add_zero]

end RoundTrip

/-- **Dates are read back**, and a file is not sent again exactly if it has not changed
since the date of the client. -/
theorem dates_read_back (Descriptor : Type) [FileSystem Descriptor] [Calendar] [MimeMap] :
    (∀ t, firstInstant ≤ t → t ≤ lastInstant →
      parse_http_date_string (httpDateString (gmtime_r t)) = t) ∧
    ∀ (manager : StaticPathManager) (head : RequestHead) (sp : StaticPath) (subpath : Bytes)
      (source : FileDataSource Descriptor) (now : Tm)
      (response : HttpResponse (Body (FileDataSource Descriptor))) (c : Int),
      Opened manager (ascii "GET") head sp subpath source →
      (staticFileResponse manager (ascii "GET") head now :
        StaticAnswer (FileDataSource Descriptor)).result = .response response →
      head.headers.find (ascii "If-Modified-Since") = some (httpDateString (gmtime_r c)) →
      firstInstant ≤ c → c ≤ lastInstant → c ≠ 0 → source.getMtime ≠ 0 →
      (response.statusCode = 304 ↔ source.getMtime ≤ c) := by
  refine ⟨fun t => parse_httpDateString, ?_⟩
  intro manager head sp subpath source now response c hOpened hAnswer hDate hFrom hTo hNonzero hMtime
  obtain ⟨extra, content_type, -, hFile⟩ := forFile_of_fileResponse (hOpened.result hAnswer)
  have hValid : clientCacheIsValid head.headers source = true ↔ source.getMtime ≤ c := by
    rw [clientCacheIsValid, hDate]
    simp [parse_httpDateString hFrom hTo, hNonzero, hMtime]
  rw [hFile.statusCode, ← hValid]
  split_ifs with hUnchanged
  · exact iff_of_true rfl hUnchanged
  · exact iff_of_false (by decide) hUnchanged

/-- A file of the second that the client names. -/
theorem dates_read_back_file :
    let _ : FileSystem Bytes := sampleSite
    let _ : Calendar := ⟨gmtime_r⟩
    let _ : MimeMap := ⟨fun _ => []⟩
    let head := sampleHead (ascii "/a/f")
      [(ascii "If-Modified-Since", httpDateString (gmtime_r 1))]
    parse_http_date_string (httpDateString (gmtime_r 1445412480)) = 1445412480 ∧
      ∃ response : HttpResponse (Body (FileDataSource Bytes)),
        (staticFileResponse sampleStaticPaths (ascii "GET") head .epoch :
          StaticAnswer (FileDataSource Bytes)).result = .response response ∧
        response.statusCode = 304 := by
  intro files calendar mime head
  refine ⟨(dates_read_back Bytes).1 _ (by decide) (by decide), ?_⟩
  obtain ⟨response, hAnswer⟩ : ∃ response : HttpResponse (Body (FileDataSource Bytes)),
      (staticFileResponse sampleStaticPaths (ascii "GET") head .epoch :
        StaticAnswer (FileDataSource Bytes)).result = .response response := ⟨_, rfl⟩
  obtain ⟨sp, subpath, source, hOpened, hMtime⟩ : ∃ sp subpath, ∃ source : FileDataSource Bytes,
      Opened sampleStaticPaths (ascii "GET") head sp subpath source ∧ source.getMtime = 1 :=
    ⟨_, _, _, ⟨⟨rfl, rfl, rfl, rfl, Or.inl rfl, rfl, rfl⟩, rfl⟩, rfl⟩
  refine ⟨response, hAnswer, ?_⟩
  exact ((dates_read_back Bytes).2 _ _ _ _ _ _ _ 1 hOpened hAnswer rfl (by decide) (by decide)
    (by decide) (by rw [hMtime]; decide)).2 (by rw [hMtime])

section Malformed

variable {t : Tm}

theorem Miscounted.instant_lt (h : Miscounted (t.tm_year + 1900) (t.tm_mon + 1)) (hFits : t.Fits) :
    t.instant < -86400 := by
  have hMday := hFits.mday
  have hHour := hFits.hour
  have hMin := hFits.min
  have hSec := hFits.sec
  have hMonth : monthStart 0 (t.tm_mon + 1) ≤ 31 := monthStart_mono 0 (Nat.le_add_left _ _) h.2
  have hZero : yearStart 0 = -366 := rfl
  have hEpoch : yearStart 1970 = 719162 := rfl
  simp only [Tm.instant, dayNumber, h.1, hZero, hEpoch]
  omega

/-- A date that fits is read as what it says if and only if it is a real one that is
counted right, or comes to 0. -/
theorem timegm2_iff (hFits : t.Fits) :
    (timegm2 t ≠ 0 → httpDateString t = httpDateString (gmtime_r (timegm2 t))) ↔
      (t.Real ∧ ¬ Miscounted (t.tm_year + 1900) (t.tm_mon + 1)) ∨ t.instant = 0 := by
  have hRead := timegm2_eq hFits
  by_cases hMiscounted : Miscounted (t.tm_year + 1900) (t.tm_mon + 1)
  · have hEarly := hMiscounted.instant_lt hFits
    rw [if_pos hMiscounted] at hRead
    have hNonzero : timegm2 t ≠ 0 := by omega
    refine iff_of_false (fun hAll => ?_) ?_
    · have hSame := hFits.eq_of_httpDateString (narrow_gmtime_r _) (hAll hNonzero)
      have hInstant := instant_gmtime_r (timegm2 t)
      rw [← hSame] at hInstant
      omega
    · rintro (⟨-, hCounted⟩ | hZero)
      · exact hCounted hMiscounted
      · omega
  · rw [if_neg hMiscounted, Int.add_zero] at hRead
    rw [hRead]
    constructor
    · intro hAll
      by_cases hZero : t.instant = 0
      · exact Or.inr hZero
      · have hSame := hFits.eq_of_httpDateString (narrow_gmtime_r _) (hAll hZero)
        exact Or.inl ⟨hSame ▸ real_gmtime_r _, hMiscounted⟩
    · rintro (⟨hReal, -⟩ | hZero) hNonzero
      · rw [hReal.gmtime_r_instant]
      · exact absurd hZero hNonzero

/-- **What is read is a date of the format** if and only if the fields of a text with the
places of a date are those of a real instant outside of the two months that are counted
wrong, or come to 0. -/
theorem parse_http_date_string_iff (date : Bytes) :
    (parse_http_date_string date ≠ 0 →
        date = httpDateString (gmtime_r (parse_http_date_string date))) ↔
      ∀ t : Tm, t.Fits → date = httpDateString t →
        (t.Real ∧ ¬ Miscounted (t.tm_year + 1900) (t.tm_mon + 1)) ∨ t.instant = 0 := by
  constructor
  · rintro hAll t hFits rfl
    rw [parse_http_date_string_fits hFits] at hAll
    exact (timegm2_iff hFits).1 hAll
  · intro hAll hNonzero
    cases hRead : readTm date with
    | none =>
        have hZero : parse_http_date_string date = 0 := by
          rw [parse_http_date_string, hRead, ite_self]
        exact absurd hZero hNonzero
    | some t =>
        obtain ⟨hFits, rfl⟩ := readTm_iff.1 hRead
        rw [parse_http_date_string_fits hFits] at hNonzero ⊢
        exact (timegm2_iff hFits).2 (hAll t hFits rfl) hNonzero

/-- The 32nd of January is the first of February. -/
theorem malformed_date_read :
    ¬ (parse_http_date_string (ascii "Thu, 32 Jan 1970 00:00:00 GMT") ≠ 0 →
      ascii "Thu, 32 Jan 1970 00:00:00 GMT" =
        httpDateString (gmtime_r (parse_http_date_string (ascii "Thu, 32 Jan 1970 00:00:00 GMT")))) := by
  have hRead : parse_http_date_string (ascii "Thu, 32 Jan 1970 00:00:00 GMT") = 2678400 := by
    decide +kernel
  have hDate : httpDateString (gmtime_r 2678400) = ascii "Sun, 01 Feb 1970 00:00:00 GMT" := by
    decide +kernel
  rw [hRead, hDate]
  decide

end Malformed

end Httpuv
