import Shellbox.Text.Column

/-!
# The calendar

Points in time as dates of the Gregorian calendar in universal time. Only the years 1 to 9999 have
dates. The day number counts from the first of March of the year 0, so that a leap day comes last in
its year.

The system tells the time in 64 bits and the year, counted from 1900, in 32 bits; what is beyond
that is refused in other words than a year without dates.
-/

namespace Shellbox

open Text

/-- A date and a time of day. -/
structure Calendar where
  year : Int
  /-- From 1 to 12. -/
  month : Nat
  /-- From 1 to 31. -/
  day : Nat
  hour : Nat
  minute : Nat
  second : Nat
  /-- From 0 for Monday to 6 for Sunday. -/
  weekday : Nat
deriving DecidableEq, Repr

namespace Calendar

/-- The year, month and day of a day counted from the first of March of the year 0. -/
def ofMarchDay (d : Int) : Int × Nat × Nat :=
  let era := d / 146097
  let dayOfEra := (d % 146097).toNat
  let yearOfEra := (dayOfEra - dayOfEra / 1460 + dayOfEra / 36524 - dayOfEra / 146096) / 365
  let dayOfYear := dayOfEra - (365 * yearOfEra + yearOfEra / 4 - yearOfEra / 100)
  let m := (5 * dayOfYear + 2) / 153
  let day := dayOfYear - (153 * m + 2) / 5 + 1
  let month := if m < 10 then m + 3 else m - 9
  (era * 400 + yearOfEra + (if month ≤ 2 then 1 else 0), month, day)

def ofSeconds (t : Int) : Calendar :=
  let days := t / 86400
  let rest := (t % 86400).toNat
  let (year, month, day) := ofMarchDay (days + 719468)
  { year, month, day
    hour := rest / 3600
    minute := rest / 60 % 60
    second := rest % 60
    weekday := ((days + 3) % 7).toNat }

/-- Why a point in time has no date. -/
inductive Fault where
  /-- The time does not fit into 64 bits. -/
  | time
  /-- The year does not fit into 32 bits. -/
  | value
  | year (y : Int)
deriving DecidableEq, Repr

def Fault.message : Fault → String
  | .time => "timestamp out of range for platform time_t"
  | .value => "[Errno 75] Value too large for defined data type"
  | .year y => "year " ++ toString y ++ " is out of range"

/-- The number fits into a signed word of so many bits. -/
def fitsBits (bits : Nat) (n : Int) : Bool :=
  let bound := ((1 <<< (bits - 1) : Nat) : Int)
  n < bound && 0 ≤ n + bound

/-- A year as it is shown; one beyond 32 bits is counted from the other end. -/
def shownYear (y : Int) : Int := if fitsBits 32 y then y else y - 4294967296

def ofSeconds? (t : Int) : Except Fault Calendar :=
  let c := ofSeconds t
  if !fitsBits 64 t then .error .time
  else if !fitsBits 32 (c.year - 1900) then .error .value
  else if 1 ≤ c.year ∧ c.year ≤ 9999 then .ok c
  else .error (.year (shownYear c.year))

/-- The date of a point in time in local time, which is universal time. The day before is looked up
too, in case the clocks were changed in between, so it must have a date as well. -/
def ofLocalSeconds? (t : Int) : Except Fault Calendar :=
  match ofSeconds? t, ofSeconds? (t - 86400) with
  | .ok c, .ok _ => .ok c
  | .error f, _ => .error f
  | .ok _, .error f => .error f

def monthName (m : Nat) : String :=
  ["Jan", "Feb", "Mar", "Apr", "May", "Jun", "Jul", "Aug", "Sep", "Oct", "Nov", "Dec"].getD
    (m - 1) ""

def weekdayName (w : Nat) : String :=
  ["Mon", "Tue", "Wed", "Thu", "Fri", "Sat", "Sun"].getD w ""

def clockText (c : Calendar) : String := padZeros 2 c.hour ++ ":" ++ padZeros 2 c.minute

/-- Hour, minute and second. -/
def timeText (c : Calendar) : String := c.clockText ++ ":" ++ padZeros 2 c.second

/-- Month, day and time of day, as long listings show them. -/
def listingText (c : Calendar) : String :=
  monthName c.month ++ " " ++ padLeft 2 (toString c.day) ++ " " ++ c.clockText

def stampText (c : Calendar) : String :=
  toString c.year ++ "-" ++ padZeros 2 c.month ++ "-" ++ padZeros 2 c.day ++ " " ++
    c.timeText

/-- Weekday, date and time of day in universal time. -/
def fullText (c : Calendar) : String :=
  weekdayName c.weekday ++ " " ++ monthName c.month ++ " " ++ toString c.day ++ " " ++
    c.timeText ++ " UTC " ++ toString c.year

end Calendar

end Shellbox
