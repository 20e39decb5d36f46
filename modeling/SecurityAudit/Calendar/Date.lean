/-!
# Dates

Dates of the Gregorian calendar, extended to the years 1 to 9999, and their number: the days since
the first of January of the year 1, which has number 1.  Weeks begin on Monday, and the first week
of a year is the one that holds its first Thursday.
-/

namespace SecurityAudit.Calendar

/-- A day of the calendar. -/
structure Date where
  year : Nat
  month : Nat
  day : Nat
  deriving Repr, DecidableEq

/-- Every fourth year has a leap day, but of the centuries only every fourth. -/
def isLeap (year : Nat) : Bool :=
  year % 4 == 0 && (year % 100 != 0 || year % 400 == 0)

/-- The days of a month. -/
def monthDays (year month : Nat) : Nat :=
  match month with
  | 2 => if isLeap year then 29 else 28
  | 4 | 6 | 9 | 11 => 30
  | _ => 31

/-- The days before the first of January of a year. -/
def daysBeforeYear (year : Nat) : Nat :=
  let y := year - 1
  y * 365 + y / 4 - y / 100 + y / 400

/-- The days of a year before the first of a month. -/
def daysBeforeMonth (year : Nat) : (month : Nat) → Nat
  | 0 => 0
  | 1 => 0
  | month + 1 => daysBeforeMonth year month + monthDays year month

/-- The date exists in the calendar. -/
def Date.isValid (d : Date) : Bool :=
  1 ≤ d.year && d.year ≤ 9999 && 1 ≤ d.month && d.month ≤ 12 &&
    1 ≤ d.day && d.day ≤ monthDays d.year d.month

/-- The number of a day. -/
def Date.number (d : Date) : Nat :=
  daysBeforeYear d.year + daysBeforeMonth d.year d.month + d.day

/-- The month and the day of the month of day `n` (from zero) of a year, from `month` on. -/
def monthAndDay (year : Nat) : (fuel month n : Nat) → Nat × Nat
  | 0, month, n => (month, n + 1)
  | fuel + 1, month, n =>
    let size := monthDays year month
    if n < size then (month, n + 1) else monthAndDay year fuel (month + 1) (n - size)

/-- The date with a given number. -/
def Date.ofNumber (number : Nat) : Date :=
  let n := number - 1
  let n400 := n / 146097
  let n := n % 146097
  let n100 := min (n / 36524) 3
  let n := n - n100 * 36524
  let n4 := n / 1461
  let n := n % 1461
  let n1 := min (n / 365) 3
  let n := n - n1 * 365
  let year := n400 * 400 + n100 * 100 + n4 * 4 + n1 + 1
  let (month, day) := monthAndDay year 11 1 n
  { year, month, day }

/-- The day of the week: 0 is Monday. -/
def Date.weekday (d : Date) : Nat :=
  (d.number + 6) % 7

/-- The number of the Monday with which a year's first week begins; it may lie before the calendar.
-/
def firstMonday (year : Nat) : Int :=
  let first : Date := { year, month := 1, day := 1 }
  let monday : Int := first.number - first.weekday
  if 3 < first.weekday then monday + 7 else monday

/-- A year has 53 weeks when it begins on a Thursday, or on a Wednesday and is a leap year. -/
def weeksInYear (year : Nat) : Nat :=
  let weekday := (Date.mk year 1 1).weekday
  if weekday == 3 || (weekday == 2 && isLeap year) then 53 else 52

/-- The date of a day (1 is Monday) of a week of a year, if the calendar has it. -/
def Date.ofWeek? (year week day : Nat) : Option Date :=
  if 1 ≤ year && 1 ≤ week && week ≤ weeksInYear year && 1 ≤ day && day ≤ 7 then
    let number := firstMonday year + ((week : Int) - 1) * 7 + day - 1
    if 1 ≤ number then
      let d := Date.ofNumber number.toNat
      if d.isValid then some d else none
    else none
  else none

/-- A number in at least `width` digits. -/
def padded (width n : Nat) : String :=
  let digits := Nat.toDigits 10 n
  String.ofList (List.replicate (width - digits.length) '0' ++ digits)

/-- Year, month and day, joined by hyphens. -/
def Date.text (d : Date) : String :=
  padded 4 d.year ++ "-" ++ padded 2 d.month ++ "-" ++ padded 2 d.day

end SecurityAudit.Calendar
