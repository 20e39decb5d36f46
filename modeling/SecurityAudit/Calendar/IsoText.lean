import SecurityAudit.Calendar.Moment

/-!
# Reading moments

A moment is written as a date, any one character, a time of day and a distance from universal time;
all after the date may be absent.  A date is given by month and day or by week and day, with
hyphens throughout or nowhere; a time has one to three two-digit fields, with colons throughout or
nowhere, and a decimal fraction of any length, of which six digits count.

The reader works on the bytes of the text.  Where the date ends is decided by its shape alone,
before any field is read.
-/

namespace SecurityAudit.Calendar

/-- The bytes of a text, and zero beyond its end. -/
structure Bytes where
  data : Array UInt8

namespace Bytes

/-- The byte at a position. -/
def byte (b : Bytes) (i : Nat) : Nat :=
  match b.data[i]? with
  | some value => value.toNat
  | none => 0

/-- An ASCII digit. -/
def isDigit (byte : Nat) : Bool :=
  48 ≤ byte && byte ≤ 57

/-- The number written by `count` digits from a position on. -/
def digits? (b : Bytes) (start : Nat) : (count : Nat) → Option Nat
  | 0 => some 0
  | count + 1 => do
    let high ← b.digits? start count
    let value := b.byte (start + count)
    if isDigit value then some (high * 10 + (value - 48)) else none

/-- The first position from `i` on, before `stop`, whose byte is not a digit. -/
def skipDigits (b : Bytes) (stop : Nat) : (fuel i : Nat) → Nat
  | 0, i => i
  | fuel + 1, i => if i < stop && isDigit (b.byte i) then b.skipDigits stop fuel (i + 1) else i

/-- Where the date ends in a text of `size` bytes, seven at least. -/
def dateEnd? (b : Bytes) (size : Nat) : Option Nat :=
  let hyphen := 45
  let week := 87
  if size == 7 then some 7
  else if b.byte 4 == hyphen then
    if b.byte 5 == week then
      if size > 8 && b.byte 8 == hyphen then
        if size == 9 then none
        else if size > 10 && isDigit (b.byte 10) then some 8
        else some 10
      else some 8
    else some 10
  else if b.byte 4 == week then
    let stop := b.skipDigits size size 7
    if stop < 9 then some stop
    else if stop % 2 == 0 then some 7
    else some 8
  else some 8

/-- The date at the start of a text, given where it ends. -/
def date? (b : Bytes) (stop : Nat) : Option Date := do
  let year ← b.digits? 0 4
  let hyphens := b.byte 4 == 45
  let i := if hyphens then 5 else 4
  if b.byte i == 87 then
    let week ← b.digits? (i + 1) 2
    let i := i + 3
    if i < stop then
      if hyphens && b.byte i != 45 then none
      else
        let day ← b.digits? (if hyphens then i + 1 else i) 1
        Date.ofWeek? year week day
    else Date.ofWeek? year week 1
  else
    let month ← b.digits? i 2
    let i := i + 2
    if hyphens && b.byte i != 45 then none
    else
      let day ← b.digits? (if hyphens then i + 1 else i) 2
      let d : Date := { year, month, day }
      if d.isValid then some d else none

/-- The fields of a clock: hours, minutes, seconds and microseconds, and whether the text goes on
after them. -/
structure Clock where
  hours : Nat := 0
  minutes : Nat := 0
  seconds : Nat := 0
  micros : Nat := 0
  more : Bool := false

/-- The clock with one more field: the first is the hours, the next the minutes, the last the
seconds. -/
def Clock.put (c : Clock) (field value : Nat) : Clock :=
  match field with
  | 0 => { c with hours := value }
  | 1 => { c with minutes := value }
  | _ => { c with seconds := value }

/-- The fraction of a second from position `i` on, in a text whose clock part ends at `stop`: six
digits at most are read, and the digits after them are passed over. -/
def fraction? (b : Bytes) (c : Clock) (i stop : Nat) : Option Clock := do
  let count := min (stop - i) 6
  let value ← b.digits? i count
  let stop := b.skipDigits b.data.size b.data.size (i + count)
  some { c with micros := value * Nat.pow 10 (6 - count), more := b.byte stop != 0 }

/-- The clock fields `field`, … from position `i` on, up to `stop`.  The separator after the hours
decides whether there are colons. -/
def clockFrom? (b : Bytes) (stop : Nat) : (left field i : Nat) → (colons : Bool) → Clock →
    Option Clock
  | 0, _, i, _, c => b.fraction? c i stop
  | left + 1, field, i, colons, c => do
    let value ← b.digits? i 2
    let c := c.put field value
    let separator := b.byte (i + 2)
    let colons := if field == 0 then separator == 58 else colons
    let i := i + 3
    if stop ≤ i then some { c with more := separator != 0 }
    else if colons && separator == 58 then b.clockFrom? stop left (field + 1) i colons c
    else if separator == 46 || separator == 44 then b.fraction? c i stop
    else if !colons then b.clockFrom? stop left (field + 1) (i - 1) colons c
    else none

/-- A clock between two positions. -/
def clock? (b : Bytes) (start stop : Nat) : Option Clock :=
  b.clockFrom? stop 3 0 start true {}

/-- The position of the sign or letter that begins the distance from universal time: the first
from `i` on, or `stop`. -/
def zoneStart (b : Bytes) (stop : Nat) : (fuel i : Nat) → Nat
  | 0, i => i
  | fuel + 1, i =>
    let value := b.byte i
    if value == 43 || value == 45 || value == 90 then i
    else if i + 1 < stop then b.zoneStart stop fuel (i + 1)
    else i + 1

/-- The time of day on a clock. -/
def Clock.time (c : Clock) : Micros :=
  (((c.hours * 60 + c.minutes) * 60 + c.seconds) * 1000000 + c.micros : Nat)

/-- The time of day from a position on, and the distance from universal time if there is one. -/
def time? (b : Bytes) (start : Nat) : Option (Micros × Option Micros) := do
  let stop := b.data.size
  let zone := b.zoneStart stop stop start
  let c ← b.clock? start zone
  let inDay := c.hours ≤ 23 && c.minutes ≤ 59 && c.seconds ≤ 59
  if !inDay then none
  else if zone == stop then
    if c.more then none else some (c.time, none)
  else if b.byte zone == 90 then
    if b.byte (zone + 1) == 0 then some (c.time, some 0) else none
  else
    let z ← b.clock? (zone + 1) stop
    let distance := if b.byte zone == 45 then -z.time else z.time
    if z.more || day ≤ distance || distance ≤ -day then none else some (c.time, some distance)

/-- The length in bytes of the character that begins with a byte. -/
def characterSize (byte : Nat) : Nat :=
  if byte < 128 then 1
  else if byte / 16 == 14 then 3
  else if byte / 16 == 15 then 4
  else 2

end Bytes

/-- Read a moment. -/
def Moment.parse? (s : String) : Option Moment :=
  if s.length < 7 then none
  else do
    let b : Bytes := ⟨s.toUTF8.data⟩
    let size := b.data.size
    let stop ← b.dateEnd? size
    let d ← b.date? stop
    if stop < size then
      let (time, offset) ← b.time? (stop + Bytes.characterSize (b.byte stop))
      some (Moment.ofDate d time offset)
    else some (Moment.ofDate d 0 none)

end SecurityAudit.Calendar
