import SecurityAudit.Text.Numeral
import SecurityAudit.Value.Basic
import SecurityAudit.Yaml.Cursor

/-!
# Plain scalars as values

A plain scalar may be a number, a truth value, null or a date; otherwise it is a text.  What it is
depends on its characters alone, and its shape decides before its value does: a text that looks like
a date must be one.
-/

namespace SecurityAudit.Yaml

/-- The words for truth values. -/
def truthWords : List (String × Bool) :=
  [("yes", true), ("Yes", true), ("YES", true), ("no", false), ("No", false), ("NO", false),
    ("true", true), ("True", true), ("TRUE", true), ("false", false), ("False", false),
    ("FALSE", false), ("on", true), ("On", true), ("ON", true), ("off", false), ("Off", false),
    ("OFF", false)]

/-- The words for null. -/
def nullWords : List String :=
  ["", "~", "null", "Null", "NULL"]

/-- The words for infinity after the sign. -/
def infinityWords : List String :=
  [".inf", ".Inf", ".INF"]

/-- The words for what is no number. -/
def noNumberWords : List String :=
  [".nan", ".NaN", ".NAN"]

/-- An underscore or a character of a kind. -/
def orUnderscore (p : Char → Bool) (c : Char) : Bool :=
  c == '_' || p c

/-- Take digits, the first of which is none of the underscores that may follow. -/
def takeLoose (p : Char → Bool) (cs : List Char) : Option (List Char × List Char) :=
  match cs with
  | c :: rest =>
    if p c then
      some (c :: rest.takeWhile (orUnderscore Text.isAsciiDigit),
        rest.dropWhile (orUnderscore Text.isAsciiDigit))
    else none
  | [] => none

/-- The values of digits, without the underscores between them. -/
def digitValues (cs : List Char) : List Nat :=
  cs.filterMap Text.hexValue?

/-- Take groups of a colon and a number below sixty. -/
def takeSixties : (fuel : Nat) → List Char → List Nat × List Char
  | 0, cs => ([], cs)
  | fuel + 1, ':' :: a :: b :: rest =>
    if '0' ≤ a && a ≤ '5' && Text.isAsciiDigit b then
      let (groups, left) := takeSixties fuel rest
      (Text.positional 10 (digitValues [a, b]) :: groups, left)
    else if Text.isAsciiDigit a then
      let (groups, left) := takeSixties fuel (b :: rest)
      (Text.positional 10 (digitValues [a]) :: groups, left)
    else ([], ':' :: a :: b :: rest)
  | _ + 1, [':', a] =>
    if Text.isAsciiDigit a then ([Text.positional 10 (digitValues [a])], []) else ([], [':', a])
  | _ + 1, cs => ([], cs)

/-- A whole number of a base, from digits that are not all underscores. -/
def based (base : Nat) (digits : List Char) : Outcome Int :=
  let values := digitValues digits
  if values.isEmpty then refuse .badValue else .ok (Text.positional base values)

/-- A whole number without its sign, if the characters have the shape of one. -/
def magnitude? (cs : List Char) : Option (Outcome Int) :=
  match cs with
  | '0' :: 'b' :: digits =>
    if !digits.isEmpty && digits.all (orUnderscore fun c => c == '0' || c == '1') then
      some (based 2 digits)
    else none
  | '0' :: 'x' :: digits =>
    if !digits.isEmpty && digits.all (orUnderscore fun c => (Text.hexValue? c).isSome) then
      some (based 16 digits)
    else none
  | '0' :: digits =>
    if digits.all (orUnderscore fun c => '0' ≤ c && c ≤ '7') then some (based 8 ('0' :: digits))
    else none
  | cs =>
    match takeLoose (fun c => '1' ≤ c && c ≤ '9') cs with
    | none => none
    | some (digits, rest) =>
      let values := digitValues digits
      let number : Outcome Int :=
        if Text.maxDigits < values.length then refuse .badValue
        else .ok (Text.positional 10 values)
      match takeSixties rest.length rest with
      | (groups, []) =>
        some (number.map fun n => groups.foldl (fun (n : Int) (group : Nat) => n * 60 + group) n)
      | _ => none

/-- A whole number, if the characters have the shape of one. -/
def wholeNumber? (cs : List Char) : Option (Outcome Int) :=
  let (negative, rest) := Text.takeSign cs
  (magnitude? rest).map fun n => n.map fun n => if negative then -n else n

/-- A number with a point, from its characters without underscores. -/
def pointed (cs : List Char) : Float :=
  (Text.parseDecimal? false (cs.filter (· != '_'))).getD 0.0

/-- The shape of what follows a point: digits, and an exponent with a sign. -/
def isFraction (cs : List Char) : Bool :=
  match cs.dropWhile (orUnderscore Text.isAsciiDigit) with
  | [] => true
  | e :: sign :: rest =>
    (e == 'e' || e == 'E') && (sign == '+' || sign == '-') && !rest.isEmpty &&
      rest.all Text.isAsciiDigit
  | _ => false

/-- A number in base sixty whose last place has a point: the places from the last to the first. -/
def sixtieths (places : List Float) : Float :=
  (places.foldl (fun (sum, base) place =>
    (sum + place * Float.ofNat base, base * 60)) ((0.0 : Float), 1)).1

/-- A number with a point and without its sign, if the characters have the shape of one. -/
def pointedMagnitude? (cs : List Char) : Option Float :=
  match takeLoose Text.isAsciiDigit cs with
  | none => none
  | some (_, '.' :: rest) => if isFraction rest then some (pointed cs) else none
  | some (whole, rest) =>
    match takeSixties rest.length rest with
    | ([], _) => none
    | (groups, '.' :: fraction) =>
      if fraction.all (orUnderscore Text.isAsciiDigit) then
        let last := pointed (toString (groups.getLast?.getD 0) |>.toList
          |>.append ('.' :: fraction))
        let others := groups.dropLast.reverse.map Float.ofNat
        some (sixtieths (last :: others ++ [pointed (whole ++ ['.'])]))
      else none
    | _ => none

/-- A floating-point number, if the characters have the shape of one. -/
def pointedNumber? (cs : List Char) : Option Float :=
  let (negative, rest) := Text.takeSign cs
  let sign (x : Float) : Float := if negative then -x else x
  if infinityWords.contains (String.ofList rest) then some (sign Decimal.infinity)
  else if noNumberWords.contains (String.ofList cs) then some Decimal.notANumber
  else
    match cs with
    | '.' :: d :: fraction =>
      if Text.isAsciiDigit d && isFraction (d :: fraction) then some (pointed cs) else none
    | _ => (pointedMagnitude? rest).map sign

/-- Take a number of one or two digits. -/
def takeShort (cs : List Char) : Option (Nat × List Char) :=
  let digits := (cs.take 2).takeWhile Text.isAsciiDigit
  if digits.isEmpty then none
  else some (Text.positional 10 (digitValues digits), cs.drop digits.length)

/-- Take a number of exactly some digits. -/
def takeExact (count : Nat) (cs : List Char) : Option (Nat × List Char) :=
  let digits := (cs.take count).takeWhile Text.isAsciiDigit
  if digits.length == count then
    some (Text.positional 10 (digitValues digits), cs.drop count)
  else none

/-- Take one character. -/
def takeChar (c : Char) (cs : List Char) : Option (List Char) :=
  if cs.head? == some c then some cs.tail else none

/-- Take what stands between a date and a time of day. -/
def takeGap (cs : List Char) : Option (List Char) :=
  match cs with
  | [] => none
  | c :: rest =>
    if c == 'T' || c == 't' then some rest
    else if isSpace c then some (cs.dropWhile isSpace)
    else none

/-- Take the fraction of a second: six of its digits count. -/
def takeMicros (cs : List Char) : Nat × List Char :=
  match cs with
  | '.' :: rest =>
    let digits := rest.takeWhile Text.isAsciiDigit
    let six := digitValues (digits.take 6)
    (Text.positional 10 six * Nat.pow 10 (6 - six.length), rest.drop digits.length)
  | _ => (0, cs)

/-- The distance from universal time at the end of a moment, in minutes: none when nothing is
said.  The outer option says whether the characters have the shape of one. -/
def zone? (cs : List Char) : Option (Option Int) :=
  if cs.isEmpty then some none
  else
    match cs.dropWhile isSpace with
    | ['Z'] => some (some 0)
    | sign :: rest =>
      if sign != '+' && sign != '-' then none
      else do
        let (hours, rest) ← takeShort rest
        let minutes ← if rest.isEmpty then some 0
          else do
            let (minutes, rest) ← takeExact 2 (← takeChar ':' rest)
            if rest.isEmpty then some minutes else none
        let size : Int := hours * 60 + minutes
        return some (if sign == '-' then -size else size)
    | [] => none

/-- A date as a value; the calendar must have it. -/
def dateValue (d : Calendar.Date) : Outcome Value :=
  if d.isValid then .ok (.date d) else refuse .badValue

/-- A moment as a value; the calendar and the clock must have it, and universal time must be less
than a day away. -/
def momentValue (d : Calendar.Date) (hour minute second micros : Nat) (zone : Option Int) :
    Outcome Value :=
  let inReach := zone.all fun minutes => minutes.natAbs < 1440
  if d.isValid && hour < 24 && minute < 60 && second < 60 && inReach then
    let seconds : Int := (hour * 60 + minute) * 60 + second
    .ok (.moment (.ofDate d (seconds * Calendar.second + micros)
      (zone.map fun minutes => minutes * 60 * Calendar.second)))
  else refuse .badValue

/-- A date, with or without a time of day, if the characters have the shape of one; month and day
may have one digit. -/
def timestamp? (cs : List Char) : Option (Outcome Value) := do
  let (year, rest) ← takeExact 4 cs
  let (month, rest) ← takeShort (← takeChar '-' rest)
  let (day, rest) ← takeShort (← takeChar '-' rest)
  let d : Calendar.Date := ⟨year, month, day⟩
  if rest.isEmpty then some (dateValue d)
  else
    let (hour, rest) ← takeShort (← takeGap rest)
    let (minute, rest) ← takeExact 2 (← takeChar ':' rest)
    let (second, rest) ← takeExact 2 (← takeChar ':' rest)
    let (micros, rest) := takeMicros rest
    let zone ← zone? rest
    return momentValue d hour minute second micros zone

/-- A plain date, with or without a time of day; without one, month and day have two digits. -/
def date? (cs : List Char) : Option (Outcome Value) :=
  if cs.all (fun c => Text.isAsciiDigit c || c == '-') && cs.length != 10 then none
  else timestamp? cs

/-- The value of a plain scalar.  A lone equals sign stands for nothing that could be a value. -/
def plainValue (text : String) : Outcome Value :=
  let cs := text.toList
  if nullWords.contains text then .ok .null
  else if text == "=" || text == "<<" then malformed
  else
    match truthWords.lookup text, pointedNumber? cs, wholeNumber? cs, date? cs with
    | some b, _, _, _ => .ok (.bool b)
    | none, some x, _, _ => .ok (.float x)
    | none, none, some n, _ => n.map .int
    | none, none, none, some v => v
    | none, none, none, none => .ok (.text text)

end SecurityAudit.Yaml
