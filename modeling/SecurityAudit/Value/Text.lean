import SecurityAudit.Text.Blank
import SecurityAudit.Text.Numeral
import SecurityAudit.Text.Quoted
import SecurityAudit.Decimal.Shortest
import SecurityAudit.Value.Basic

/-!
# The text of a value

How values appear in messages.  `plain` is the form in which a text is itself and a date is year,
month and day; `quoted` is the unambiguous form, in which a text stands between quotes and a date is
written as a call with its fields.  The items of lists and mappings are always quoted.

Both are told of any value, but a whole number of too many digits is not written out: whoever asks
for the text of a value with such a number in it is refused.  So what is made of the text of a value
asks for it by `asText`, and a problem whose message quotes a value is raised by `failAbout`.
-/

namespace SecurityAudit

/-- A number in messages. -/
def Number.shown : Number → String
  | .int n => toString n
  | .float x => Decimal.shownFloat x

namespace Calendar

/-- Fields between round brackets after the name of what they make up. -/
def call (name : String) (fields : List String) : String :=
  "datetime." ++ name ++ "(" ++ Text.join ", " fields ++ ")"

/-- The quoted form of a length of time, by days, seconds and microseconds that are not zero. -/
def quotedDuration (t : Micros) : String :=
  let days := wholeDays t
  let rest := (t - days * day).toNat
  let seconds := rest / 1000000
  let micros := rest % 1000000
  let fields :=
    (if days == 0 then [] else ["days=" ++ toString days]) ++
    (if seconds == 0 then [] else ["seconds=" ++ toString seconds]) ++
    (if micros == 0 then [] else ["microseconds=" ++ toString micros])
  call "timedelta" (if fields.isEmpty then ["0"] else fields)

/-- Hours and minutes of a time of day, then the seconds and the microseconds as far as needed. -/
def clockFields (time : Micros) : List String :=
  let t := time.toNat
  let seconds := t / 1000000 % 60
  let micros := t % 1000000
  [toString (t / 3600000000), toString (t / 60000000 % 60)] ++
    (if seconds == 0 && micros == 0 then [] else [toString seconds]) ++
    (if micros == 0 then [] else [toString micros])

/-- Year, month and day. -/
def Date.fields (d : Date) : List String :=
  [toString d.year, toString d.month, toString d.day]

/-- The quoted form of a moment. -/
def Moment.quoted (m : Moment) : String :=
  let zone := match m.offset with
    | none => []
    | some 0 => ["tzinfo=datetime.timezone.utc"]
    | some offset => ["tzinfo=" ++ call "timezone" [quotedDuration offset]]
  call "datetime" (m.date.fields ++ clockFields m.time ++ zone)

end Calendar

namespace Value

mutual

/-- The unambiguous form of a value. -/
def quoted : Value → String
  | .null => "None"
  | .bool b => if b then "True" else "False"
  | .int n => toString n
  | .float x => Decimal.shownFloat x
  | .text s => Text.quoted s
  | .broken front half rest => (RawText.broken front half rest).quoted
  | .date d => Calendar.call "date" d.fields
  | .time t => Calendar.call "time" (Calendar.clockFields t)
  | .moment m => m.quoted
  | .list items => "[" ++ Text.join ", " (quotedItems items) ++ "]"
  | .mapping entries => "\x7b" ++ Text.join ", " (quotedEntries entries) ++ "\x7d"

/-- The items of a list. -/
def quotedItems : List Value → List String
  | [] => []
  | v :: rest => quoted v :: quotedItems rest

/-- The entries of a mapping. -/
def quotedEntries : List (Value × Value) → List String
  | [] => []
  | (k, v) :: rest => (quoted k ++ ": " ++ quoted v) :: quotedEntries rest

end

/-- The plain form of a value. -/
def plain : Value → RawText
  | .text s => .sound s
  | .broken front half rest => .broken front half rest
  | .date d => .sound d.text
  | .time t => .sound (Calendar.timeText t)
  | .moment m => .sound (m.textWith " ")
  | v => .sound v.quoted

/-- The plain form of a value for a reader. -/
def shown (v : Value) : String :=
  v.plain.readable

mutual

/-- The value can be written out: no whole number in it has too many digits. -/
def isWritable : Value → Bool
  | .int n => n.natAbs < Nat.pow 10 Text.maxDigits
  | .list items => areWritable items
  | .mapping entries => haveWritable entries
  | _ => true

/-- All items of a list can be written out. -/
def areWritable : List Value → Bool
  | [] => true
  | v :: rest => isWritable v && areWritable rest

/-- All entries of a mapping can be written out. -/
def haveWritable : List (Value × Value) → Bool
  | [] => true
  | (k, v) :: rest => isWritable k && isWritable v && haveWritable rest

end

/-- The plain form of a value that can be written out. -/
def asText (v : Value) : Except Refusal RawText :=
  if v.isWritable then .ok v.plain else .error .badValue

@[simp] theorem asText_text (s : String) : (text s).asText = .ok (.sound s) := rfl

/-- The name of the kind of a value in messages. -/
def kindName : Value → String
  | .null => "NoneType"
  | .bool _ => "bool"
  | .int _ => "int"
  | .float _ => "float"
  | .text _ | .broken _ _ _ => "str"
  | .date _ => "date"
  | .time _ => "time"
  | .moment _ => "datetime"
  | .list _ => "list"
  | .mapping _ => "dict"

end Value

/-- Fail with a problem whose message quotes a value. -/
def failAbout {π α : Type} (v : Value) (p : π) : Except (Fault π) α :=
  if v.isWritable then fail p else refuse .badValue

@[simp] theorem failAbout_text {π α : Type} (s : String) (p : π) :
    (failAbout (.text s) p : Except (Fault π) α) = fail p := rfl

@[simp] theorem failAbout_ne_ok {π α : Type} (v : Value) (p : π) (a : α) :
    failAbout v p ≠ .ok a := by
  unfold failAbout
  split <;> exact nofun

end SecurityAudit
