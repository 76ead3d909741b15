import CannedReply.Decimal
import CannedReply.SysError
/-!
# HTTP dates

The date of a Unix time in the Gregorian calendar, and its text as response heads carry it.
-/

namespace CannedReply.HttpDate

/-- Why a time has no date text. -/
inductive Error where
  /-- The year has no four digits, or is not positive. -/
  | yearOutOfRange (year : Int)
  /-- The year does not fit a calendar record. -/
  | calendarOverflow
  /-- The time does not fit a 64-bit clock. -/
  | clockOverflow
  deriving DecidableEq, Repr

def Error.message : Error → String
  | yearOutOfRange year => "year " ++ toString year ++ " is out of range"
  | calendarOverflow => SysError.valueTooLarge.message
  | clockOverflow => "timestamp out of range for platform time_t"

structure Civil where
  year : Int
  /-- From 1. -/
  month : Nat
  /-- From 1. -/
  day : Nat
  /-- From Monday, which is 0. -/
  weekday : Nat
  deriving DecidableEq, Repr

/-- The date `days` days after 1 January 1970. Years start in March here, so that the leap day is
the last day of its year, and four centuries always have 146097 days. -/
def ofDays (days : Int) : Civil :=
  let shifted := days + 719468
  let era := shifted / 146097
  let dayOfEra := (shifted % 146097).toNat
  let yearOfEra := (dayOfEra - dayOfEra / 1460 + dayOfEra / 36524 - dayOfEra / 146096) / 365
  let dayOfYear := dayOfEra - (365 * yearOfEra + yearOfEra / 4 - yearOfEra / 100)
  let fromMarch := (5 * dayOfYear + 2) / 153
  let month := if fromMarch < 10 then fromMarch + 3 else fromMarch - 9
  { year := (yearOfEra : Int) + era * 400 + (if month ≤ 2 then 1 else 0)
    month
    day := dayOfYear - (153 * fromMarch + 2) / 5 + 1
    weekday := ((days + 3) % 7).toNat }

def weekdayNames : List String := ["Mon", "Tue", "Wed", "Thu", "Fri", "Sat", "Sun"]

def monthNames : List String :=
  ["Jan", "Feb", "Mar", "Apr", "May", "Jun", "Jul", "Aug", "Sep", "Oct", "Nov", "Dec"]

def padded (width n : Nat) : String := String.ofList (Decimal.padded width n)

def text (civil : Civil) (second : Nat) : String :=
  weekdayNames.getD civil.weekday "" ++ ", " ++ padded 2 civil.day ++ " " ++
    monthNames.getD (civil.month - 1) "" ++ " " ++ padded 4 civil.year.toNat ++ " " ++
    padded 2 (second / 3600) ++ ":" ++ padded 2 (second / 60 % 60) ++ ":" ++
    padded 2 (second % 60) ++ " GMT"

/-- The years a calendar record holds count from 1900 in 32 bits. -/
def fitsRecord (year : Int) : Bool := -0x80000000 ≤ year - 1900 && year - 1900 < 0x80000000

/-- The date text of a Unix time. -/
def ofUnix (time : Int) : Except Error String :=
  if time < -0x8000000000000000 || 0x8000000000000000 ≤ time then .error .clockOverflow
  else
    let civil := ofDays (time / 86400)
    if !fitsRecord civil.year then .error .calendarOverflow
    else if civil.year < 1 || 9999 < civil.year then
      .error (.yearOutOfRange (Int.bmod civil.year 0x100000000))
    else .ok (text civil (time % 86400).toNat)

end CannedReply.HttpDate
