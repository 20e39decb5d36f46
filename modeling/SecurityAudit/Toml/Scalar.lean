import SecurityAudit.Calendar.Moment
import SecurityAudit.Decimal.Binary64
import SecurityAudit.Text.Numeral
import SecurityAudit.Value.Basic

/-!
# TOML scalars

Strings, numbers, dates and times, and the parts of keys.  A reader takes its scalar off the front
of a text and leaves the rest; what the rest may be is for the statement to say.
-/

namespace SecurityAudit.Toml

/-- Why a document is not read. -/
inductive Problem where
  | malformed
  | tooManyDigits
  deriving Repr, DecidableEq, Inhabited

/-- A reader takes something off the front of a text. -/
abbrev Reader (α : Type) := List Char → Except Problem (α × List Char)

/-- What follows a word in front of a text. -/
def after? (word : String) (cs : List Char) : Option (List Char) :=
  if word.toList.isPrefixOf cs then some (cs.drop word.length) else none

/-- A blank within a line. -/
def isSpace (c : Char) : Bool :=
  c == ' ' || c == '\t'

/-- A blank or a line end. -/
def isSpaceOrNewline (c : Char) : Bool :=
  isSpace c || c == '\n'

/-- A control character that no string and no comment may hold. -/
def isControl (c : Char) : Bool :=
  (c.toNat < 32 && c != '\t') || c.toNat == 127

/-- A control character that a string of one or several lines may not hold. -/
def isIllegal (multiline : Bool) (c : Char) : Bool :=
  isControl c && !(multiline && c == '\n')

/-- A character of a bare key. -/
def isBare (c : Char) : Bool :=
  ('a' ≤ c && c ≤ 'z') || ('A' ≤ c && c ≤ 'Z') || Text.isAsciiDigit c || c == '-' || c == '_'

/-- The character of an escape of one letter. -/
def shortEscape? : Char → Option Char
  | 'b' => some '\x08'
  | 't' => some '\t'
  | 'n' => some '\n'
  | 'f' => some '\x0c'
  | 'r' => some '\r'
  | '"' => some '"'
  | '\\' => some '\\'
  | _ => none

/-- Read a character from `width` hexadecimal digits. -/
def readCode (width : Nat) : Reader Char := fun cs =>
  match (cs.take width).mapM Text.hexValue? with
  | none => .error .malformed
  | some digits =>
    let n := Text.positional 16 digits
    if digits.length == width && n.isValidChar then .ok (Char.ofNat n, cs.drop width)
    else .error .malformed

/-- What follows a backslash at the end of a line: the blanks and line ends after it count for
nothing.  None when the backslash does not end its line. -/
def continuation? (cs : List Char) : Option (List Char) :=
  match cs with
  | [] => none
  | c :: _ =>
    if !isSpaceOrNewline c then none
    else
      match cs.dropWhile isSpace with
      | [] => some []
      | '\n' :: rest => some (rest.dropWhile isSpaceOrNewline)
      | _ :: _ => none

/-- Read one escape after its backslash; a line continuation stands for no character. -/
def readEscape (multiline : Bool) : Reader (List Char) := fun cs =>
  match if multiline then continuation? cs else none with
  | some rest => .ok ([], rest)
  | none =>
    match cs with
    | 'u' :: rest => (readCode 4 rest).map fun (c, rest) => ([c], rest)
    | 'U' :: rest => (readCode 8 rest).map fun (c, rest) => ([c], rest)
    | c :: rest =>
      match shortEscape? c with
      | some char => .ok ([char], rest)
      | none => .error .malformed
    | [] => .error .malformed

/-- Read a string with escapes up to its closing quotes; `done` holds what has been read, last
character first, and `fuel` bounds the number of steps. -/
def readBasic (multiline : Bool) : (fuel : Nat) → (done : List Char) → Reader (List Char)
  | 0, _, _ => .error .malformed
  | fuel + 1, done, cs =>
    match cs with
    | [] => .error .malformed
    | '"' :: rest =>
      if !multiline then .ok (done.reverse, rest)
      else
        match after? "\"\"" rest with
        | some rest => .ok (done.reverse, rest)
        | none => readBasic multiline fuel ('"' :: done) rest
    | '\\' :: rest =>
      match readEscape multiline rest with
      | .ok (cs, rest) => readBasic multiline fuel (cs.reverse ++ done) rest
      | .error p => .error p
    | c :: rest =>
      if isIllegal multiline c then .error .malformed else readBasic multiline fuel (c :: done) rest

/-- Read a string without escapes up to its closing quotes. -/
def readLiteral (multiline : Bool) (done : List Char) : Reader (List Char)
  | [] => .error .malformed
  | '\'' :: rest =>
    if !multiline then .ok (done.reverse, rest)
    else
      match after? "''" rest with
      | some rest => .ok (done.reverse, rest)
      | none => readLiteral multiline ('\'' :: done) rest
  | c :: rest =>
    if isIllegal multiline c then .error .malformed else readLiteral multiline (c :: done) rest

/-- Up to two more quotes directly after the closing ones belong to a string of several lines. -/
def moreQuotes (quote : Char) (cs rest : List Char) : List Char × List Char :=
  let extra := (rest.takeWhile (· == quote)).take 2
  (cs ++ extra, rest.drop extra.length)

/-- Leave out a line end right after the opening quotes. -/
def dropNewline : List Char → List Char
  | '\n' :: rest => rest
  | cs => cs

/-- Read a string of one line. -/
def readLine : Reader (List Char) := fun cs =>
  match cs with
  | '"' :: rest => readBasic false (rest.length + 1) [] rest
  | '\'' :: rest => readLiteral false [] rest
  | _ => .error .malformed

/-- Read a string, if one begins here. -/
def readString? (cs : List Char) : Option (Except Problem (List Char × List Char)) :=
  match after? "\"\"\"" cs, after? "'''" cs with
  | some rest, _ =>
    let rest := dropNewline rest
    some ((readBasic true (rest.length + 1) [] rest).map fun (cs, rest) => moreQuotes '"' cs rest)
  | _, some rest =>
    some ((readLiteral true [] (dropNewline rest)).map fun (cs, rest) => moreQuotes '\'' cs rest)
  | none, none =>
    match cs with
    | c :: _ => if c == '"' || c == '\'' then some (readLine cs) else none
    | [] => none

/-- Read one part of a key. -/
def readKeyPart : Reader String := fun cs =>
  let bare := cs.takeWhile isBare
  if bare.isEmpty then (readLine cs).map fun (cs, rest) => (String.ofList cs, rest)
  else .ok (String.ofList bare, cs.drop bare.length)

/-- Read a key: parts with dots between them; `fuel` bounds their number. -/
def readKey : (fuel : Nat) → Reader (List String)
  | 0, _ => .error .malformed
  | fuel + 1, cs =>
    match readKeyPart cs with
    | .error p => .error p
    | .ok (part, rest) =>
      match rest.dropWhile isSpace with
      | '.' :: rest =>
        match readKey fuel (rest.dropWhile isSpace) with
        | .ok (parts, rest) => .ok (part :: parts, rest)
        | .error p => .error p
      | rest => .ok ([part], rest)

/-- Take a number of exactly `count` digits off the front. -/
def fixedNumber? (count : Nat) (cs : List Char) : Option (Nat × List Char) :=
  let ds := cs.take count
  if ds.length == count && ds.all Text.isAsciiDigit then
    some (Text.positional 10 (ds.map fun d => d.toNat - 48), cs.drop count)
  else none

/-- Take a number of two digits between bounds off the front. -/
def boundedNumber? (least greatest : Nat) (cs : List Char) : Option (Nat × List Char) :=
  (fixedNumber? 2 cs).bind fun (n, rest) =>
    if least ≤ n && n ≤ greatest then some (n, rest) else none

/-- Take a fraction of a second off the front: a point and digits, of which six count. -/
def micros (cs : List Char) : Nat × List Char :=
  match cs with
  | '.' :: rest =>
    let ds := rest.takeWhile Text.isAsciiDigit
    if ds.isEmpty then (0, cs)
    else
      let six := (ds.take 6).map fun d => d.toNat - 48
      (Text.positional 10 six * Nat.pow 10 (6 - six.length), rest.drop ds.length)
  | _ => (0, cs)

/-- Take a time of day off the front. -/
def time? (cs : List Char) : Option (Calendar.Micros × List Char) := do
  let (hour, rest) ← boundedNumber? 0 23 cs
  let rest ← after? ":" rest
  let (minute, rest) ← boundedNumber? 0 59 rest
  let rest ← after? ":" rest
  let (second, rest) ← boundedNumber? 0 59 rest
  let (fraction, rest) := micros rest
  let seconds : Int := (hour * 60 + minute) * 60 + second
  return (seconds * Calendar.second + fraction, rest)

/-- Take a distance from universal time off the front. -/
def offset? (cs : List Char) : Option (Calendar.Micros × List Char) :=
  match cs with
  | [] => none
  | c :: rest =>
    if c == 'Z' || c == 'z' then some (0, rest)
    else if c == '+' || c == '-' then do
      let (hour, rest) ← boundedNumber? 0 23 rest
      let rest ← after? ":" rest
      let (minute, rest) ← boundedNumber? 0 59 rest
      let size : Int := (hour * 60 + minute) * 60 * Calendar.second
      return (if c == '-' then -size else size, rest)
    else none

/-- Take a date off the front, by its shape. -/
def date? (cs : List Char) : Option (Calendar.Date × List Char) := do
  let (year, rest) ← fixedNumber? 4 cs
  let rest ← after? "-" rest
  let (month, rest) ← boundedNumber? 1 12 rest
  let rest ← after? "-" rest
  let (day, rest) ← boundedNumber? 1 31 rest
  return (⟨year, month, day⟩, rest)

/-- Take the time of day that follows a date off the front. -/
def timeAfterDate? (cs : List Char) : Option (Calendar.Micros × List Char) :=
  match cs with
  | [] => none
  | c :: rest => if c == 'T' || c == 't' || c == ' ' then time? rest else none

/-- Read a date, with or without a time, or a time of day, if one begins here. -/
def readDate? (cs : List Char) : Option (Except Problem (Value × List Char)) :=
  match date? cs with
  | some (date, rest) =>
    if !date.isValid then some (.error .malformed)
    else
      match timeAfterDate? rest with
      | none => some (.ok (.date date, rest))
      | some (time, rest) =>
        let found := offset? rest
        let rest := (found.map Prod.snd).getD rest
        some (.ok (.moment (.ofDate date time (found.map Prod.fst)), rest))
  | none => (time? cs).map fun (time, rest) => .ok (.time time, rest)

/-- The value of a digit of a base. -/
def digitOf? (base : Nat) (c : Char) : Option Nat :=
  (Text.hexValue? c).filter (· < base)

/-- Digits of a base with single underscores between them, and what comes after them. -/
def digitsOf (base : Nat) (after : Bool) : List Char → List Nat × List Char
  | [] => ([], [])
  | '_' :: c :: rest =>
    match if after then digitOf? base c else none with
    | some d =>
      let (ds, left) := digitsOf base true rest
      (d :: ds, left)
    | none => ([], '_' :: c :: rest)
  | c :: rest =>
    match digitOf? base c with
    | some d =>
      let (ds, left) := digitsOf base true rest
      (d :: ds, left)
    | none => ([], c :: rest)

/-- Read a whole number of another base than ten, if one begins here. -/
def based? (cs : List Char) : Option (Value × List Char) :=
  [("0x", 16), ("0b", 2), ("0o", 8)].findSome? fun (mark, base) =>
    (after? mark cs).bind fun rest =>
      match digitsOf base false rest with
      | ([], _) => none
      | (ds, rest) => some (.int (Text.positional base ds), rest)

/-- Take a fraction off the front. -/
def fraction? (cs : List Char) : Option (List Nat × List Char) :=
  (after? "." cs).bind fun rest =>
    match digitsOf 10 false rest with
    | ([], _) => none
    | found => some found

/-- Take an exponent off the front. -/
def exponent? (cs : List Char) : Option (Int × List Char) :=
  ((after? "e" cs).or (after? "E" cs)).bind fun rest =>
    let (negative, rest) := Text.takeSign rest
    match digitsOf 10 false rest with
    | ([], _) => none
    | (ds, rest) =>
      let n : Int := Text.positional 10 ds
      some (if negative then -n else n, rest)

/-- Read a number of base ten, if one begins here. -/
def decimal? (cs : List Char) : Option (Except Problem (Value × List Char)) :=
  let (negative, rest) := Text.takeSign cs
  let (whole, rest) : List Nat × List Char :=
    match rest with
    | '0' :: rest => ([0], rest)
    | rest => digitsOf 10 false rest
  if whole.isEmpty then none
  else
    let fraction := fraction? rest
    let (fractionDigits, rest) := fraction.getD ([], rest)
    let exponent := exponent? rest
    let (power, rest) := exponent.getD (0, rest)
    if fraction.isSome || exponent.isSome then
      some (.ok (.float (Decimal.nearest negative (Text.positional 10 (whole ++ fractionDigits))
        (power - fractionDigits.length)), rest))
    else if Text.maxDigits < whole.length then some (.error .tooManyDigits)
    else
      let n : Int := Text.positional 10 whole
      some (.ok (.int (if negative then -n else n), rest))

/-- The words that stand for values. -/
def words : List (String × Value) :=
  [("true", .bool true), ("false", .bool false),
    ("inf", .float Decimal.infinity), ("+inf", .float Decimal.infinity),
    ("-inf", .float (-Decimal.infinity)), ("nan", .float Decimal.notANumber),
    ("+nan", .float Decimal.notANumber), ("-nan", .float Decimal.notANumber)]

/-- Read a value that holds no others. -/
def readScalar : Reader Value := fun cs =>
  match readString? cs with
  | some (.ok (cs, rest)) => .ok (.text (String.ofList cs), rest)
  | some (.error p) => .error p
  | none =>
    match words.findSome? fun (word, v) => (after? word cs).map fun rest => (v, rest) with
    | some found => .ok found
    | none =>
      match (readDate? cs).or (((based? cs).map .ok).or (decimal? cs)) with
      | some found => found
      | none => .error .malformed

end SecurityAudit.Toml
