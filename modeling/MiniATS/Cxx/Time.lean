import MiniATS.Cxx.Str

/-!
# `std::ctime`

The text of a calendar time in a time zone given by its offset from UTC in seconds:
weekday, month, day padded to two places, time of day and year, as in
`Wed Jun 10 09:00:00 2026`, and a line end.
-/

namespace MiniATS

namespace Str

/-- Two digits with a leading zero. -/
def twoDigits (n : Nat) : Str := if n < 10 then 48 :: ofNat n else ofNat n

/-- Year, month (from 0) and day of the month of a day counted from 1970-01-01, in the
proleptic Gregorian calendar: years run from March, eras have 400 years. -/
def civilFromDays (days : Int) : Int × Nat × Nat :=
  let z := days + 719468
  let era := z / 146097
  let doe := (z % 146097).toNat
  let yoe := (doe - doe / 1460 + doe / 36524 - doe / 146096) / 365
  let doy := doe - (365 * yoe + yoe / 4 - yoe / 100)
  let mp := (5 * doy + 2) / 153
  let day := doy - (153 * mp + 2) / 5 + 1
  let month := if mp < 10 then mp + 2 else mp - 10
  let year := (yoe : Int) + era * 400
  (if month ≤ 1 then year + 1 else year, month, day)

def weekdayNames : List String := ["Sun", "Mon", "Tue", "Wed", "Thu", "Fri", "Sat"]

def monthNames : List String :=
  ["Jan", "Feb", "Mar", "Apr", "May", "Jun", "Jul", "Aug", "Sep", "Oct", "Nov", "Dec"]

/-- `std::ctime`. -/
def ctime (utcOffset now : Int) : Str :=
  let local' := now + utcOffset
  let days := local' / 86400
  let seconds := (local' % 86400).toNat
  let (year, month, day) := civilFromDays days
  let weekday := ((days + 4) % 7).toNat
  str (weekdayNames.getD weekday "") ++ [32] ++ str (monthNames.getD month "") ++ [32] ++
    (if day < 10 then [32] else []) ++ ofNat day ++ [32] ++
    twoDigits (seconds / 3600) ++ [58] ++ twoDigits (seconds / 60 % 60) ++ [58] ++
    twoDigits (seconds % 60) ++ [32] ++
    (if year < 0 then [45] else []) ++ ofNat year.natAbs ++ [10]

end Str

end MiniATS
