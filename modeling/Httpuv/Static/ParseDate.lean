import Httpuv.Http.Date

/-! `parse_http_date_string`: the date format of HTTP headers read back. -/
namespace Httpuv

/-- The number of days from the first of January 1970. -/
def days_since_1970 (y m d : Int) : Int :=
  let y := if m ≤ 2 then y - 1 else y
  let era := y.tdiv 400
  let yoe := y - era * 400
  let doy := (153 * (m + (if m > 2 then -3 else 9)) + 2).tdiv 5 + d - 1
  let doe := yoe * 365 + yoe.tdiv 4 - yoe.tdiv 100 + doy
  era * 146097 + doe - 719468

/-- `timegm2` for a month from 0 to 11. -/
def timegm2 (t : Tm) : Int :=
  let days_since_epoch := days_since_1970 (t.tm_year + 1900) (t.tm_mon + 1) t.tm_mday
  60 * (60 * (24 * days_since_epoch + t.tm_hour) + t.tm_min) + t.tm_sec

/-- Exactly this number of digits. -/
def str_read_int (input : Bytes) : Nat → Option (Nat × Bytes)
  | 0 => none
  | digits + 1 => go 0 input (digits + 1)
where
  go (tmp : Nat) : Bytes → Nat → Option (Nat × Bytes)
    | input, 0 => some (tmp, input)
    | [], _ + 1 => none
    | c :: input, digits + 1 =>
        if c < 48 ∨ 57 < c then none else go (tmp * 10 + (c.toNat - 48)) input digits

/-- The position among the values of what `get` reads, which is at most this
number of bytes and stops at a NUL. -/
def str_read_lookup (input : Bytes) (bytes : Nat) (values : List Bytes) : Option (Nat × Bytes) :=
  let buf := (input.take bytes).takeWhile (· ≠ 0)
  if buf = [] ∨ buf = input then none
  else (values.findIdx? (· == buf)).map (fun pos => (pos, input.drop buf.length))

def months : List Bytes :=
  [ascii "Jan", ascii "Feb", ascii "Mar", ascii "Apr", ascii "May", ascii "Jun", ascii "Jul",
    ascii "Aug", ascii "Sep", ascii "Oct", ascii "Nov", ascii "Dec"]

def days_of_week : List Bytes :=
  [ascii "Sun", ascii "Mon", ascii "Tue", ascii "Wed", ascii "Thu", ascii "Fri", ascii "Sat"]

/-- One `get` whose result is compared. -/
def readChar (c : UInt8) : Bytes → Option Bytes
  | [] => none
  | first :: rest => if first = c then some rest else none

/-- The fields of a date in the order in which they are read. -/
def readTm (date : Bytes) : Option Tm := do
  let (tm_wday, date) ← str_read_lookup date 3 days_of_week
  let date ← readChar 44 date
  let date ← readChar 32 date
  let (tm_mday, date) ← str_read_int date 2
  let date ← readChar 32 date
  let (tm_mon, date) ← str_read_lookup date 3 months
  let date ← readChar 32 date
  let (year, date) ← str_read_int date 4
  let date ← readChar 32 date
  let (tm_hour, date) ← str_read_int date 2
  let date ← readChar 58 date
  let (tm_min, date) ← str_read_int date 2
  let date ← readChar 58 date
  let (tm_sec, date) ← str_read_int date 2
  let date ← readChar 32 date
  let date ← readChar 71 date
  let date ← readChar 77 date
  let date ← readChar 84 date
  if date = [] then
    return { tm_sec, tm_min, tm_hour, tm_mday, tm_mon, tm_year := (year : Int) - 1900, tm_wday }
  else none

/-- A malformed date gives 0. -/
def parse_http_date_string (date : Bytes) : Int :=
  if date.length ≠ 29 then 0
  else
    match readTm date with
    | some t => timegm2 t
    | none => 0

example : parse_http_date_string (ascii "Wed, 21 Oct 2015 07:28:00 GMT") = 1445412480 := by
  decide +kernel

end Httpuv
