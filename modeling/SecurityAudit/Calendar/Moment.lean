import SecurityAudit.Calendar.Date

/-!
# Moments

A moment is a reading of a calendar and a wall clock, in microseconds, with or without the clock's
distance from universal time.  Two moments that both know their distance can be subtracted; the
result depends on the instants alone.
-/

namespace SecurityAudit.Calendar

/-- A time of day or a length of time, in microseconds. -/
abbrev Micros := Int

/-- The microseconds of a second. -/
def second : Micros := 1000000

/-- The microseconds of a day. -/
def day : Micros := 86400 * second

/-- A reading of calendar and clock: the microseconds since the day before the first of January of
the year 1, and how far the clock is ahead of universal time. -/
structure Moment where
  wall : Micros
  offset : Option Micros
  deriving Repr, DecidableEq

namespace Moment

/-- The moment of a date and a time of day. -/
def ofDate (d : Date) (time : Micros) (offset : Option Micros) : Moment where
  wall := (d.number : Int) * Calendar.day + time
  offset := offset

/-- The same reading taken as universal time, if it does not say how far ahead its clock is. -/
def orUniversal (m : Moment) : Moment :=
  { m with offset := some (m.offset.getD 0) }

/-- The instant in universal time, for a clock whose distance is known. -/
def instant? (m : Moment) : Option Micros :=
  m.offset.map (m.wall - ·)

/-- The time from one moment to another, if both know their distance from universal time or both
do not. -/
def since? (m earlier : Moment) : Option Micros :=
  match m.offset, earlier.offset with
  | some a, some b => some ((m.wall - a) - (earlier.wall - b))
  | none, none => some (m.wall - earlier.wall)
  | _, _ => none

/-- The date on the calendar. -/
def date (m : Moment) : Date :=
  Date.ofNumber (m.wall / Calendar.day).toNat

/-- The time of day. -/
def time (m : Moment) : Micros :=
  m.wall % Calendar.day

end Moment

/-- Whole days in a length of time, toward the past. -/
def wholeDays (t : Micros) : Int :=
  Int.fdiv t day

/-- A time of day: hours, minutes and seconds, and the microseconds when there are any. -/
def timeText (time : Micros) : String :=
  let t := time.toNat
  let clock := padded 2 (t / 3600000000) ++ ":" ++ padded 2 (t / 60000000 % 60) ++ ":" ++
    padded 2 (t / 1000000 % 60)
  if t % 1000000 == 0 then clock else clock ++ "." ++ padded 6 (t % 1000000)

/-- A distance from universal time: a sign, hours and minutes, and what is left when there is
something left. -/
def offsetText (offset : Micros) : String :=
  let t := offset.natAbs
  let minutes := padded 2 (t / 3600000000) ++ ":" ++ padded 2 (t / 60000000 % 60)
  let seconds := if t % 60000000 == 0 then "" else ":" ++ padded 2 (t / 1000000 % 60)
  let micros := if t % 1000000 == 0 then "" else "." ++ padded 6 (t % 1000000)
  (if offset < 0 then "-" else "+") ++ minutes ++ seconds ++ micros

/-- Date and time joined by `separator`, then the distance from universal time if known. -/
def Moment.textWith (separator : String) (m : Moment) : String :=
  m.date.text ++ separator ++ timeText m.time ++ (m.offset.map offsetText).getD ""

/-- The text of a moment in reports. -/
def Moment.text (m : Moment) : String :=
  m.textWith "T"

end SecurityAudit.Calendar
