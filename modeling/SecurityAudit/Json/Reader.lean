import SecurityAudit.Decimal.Binary64
import SecurityAudit.Text.Digits
import SecurityAudit.Text.Numeral
import SecurityAudit.Value.Basic

/-!
# Reading JSON

A text is one JSON value with blanks around it.  Besides the numbers of the standard there are the
words `NaN`, `Infinity` and `-Infinity`.  When a key comes twice in an object, the later value takes
the place of the earlier one.  A whole number of too many digits is not malformed, but is refused
all the same.
-/

namespace SecurityAudit.Json

/-- Why a text is not read. -/
inductive Problem where
  | malformed
  | tooManyDigits
  deriving Repr, DecidableEq, Inhabited

/-- A reader takes something off the front of a text. -/
abbrev Reader (α : Type) := List Char → Except Problem (α × List Char)

/-- The characters that may stand between tokens. -/
def isSpace (c : Char) : Bool :=
  c == ' ' || c == '\t' || c == '\n' || c == '\r'

/-- Leave out blanks. -/
def skip (cs : List Char) : List Char :=
  cs.dropWhile isSpace

/-- The number of four hexadecimal digits. -/
def unit? (a b c d : Char) : Option Nat := do
  let a ← Text.hexValue? a
  let b ← Text.hexValue? b
  let c ← Text.hexValue? c
  let d ← Text.hexValue? d
  return ((a * 16 + b) * 16 + c) * 16 + d

/-- The character of an escape of one letter. -/
def shortEscape? : Char → Option Char
  | '"' => some '"'
  | '\\' => some '\\'
  | '/' => some '/'
  | 'b' => some '\x08'
  | 'f' => some '\x0c'
  | 'n' => some '\n'
  | 'r' => some '\r'
  | 't' => some '\t'
  | _ => none

/-- A code unit that only makes a character together with the one after it. -/
def isHighUnit (n : Nat) : Bool :=
  0xD800 ≤ n && n < 0xDC00

/-- A code unit that only makes a character together with the one before it. -/
def isLowUnit (n : Nat) : Bool :=
  0xDC00 ≤ n && n < 0xE000

/-- Read a string after its opening quote: half of a pair that stands alone is kept.  The number of
code points is bounded by `fuel`. -/
def readString : (fuel : Nat) → Reader (List CodePoint)
  | 0, _ => .error .malformed
  | _ + 1, [] => .error .malformed
  | _ + 1, '"' :: rest => .ok ([], rest)
  | fuel + 1, '\\' :: 'u' :: a :: b :: c :: d :: rest =>
    match unit? a b c d with
    | none => .error .malformed
    | some high =>
      let pair : Option (CodePoint × List Char) :=
        match rest with
        | '\\' :: 'u' :: e :: f :: g :: h :: rest =>
          match unit? e f g h with
          | some low =>
            if isHighUnit high && isLowUnit low then
              some (.char (Char.ofNat (0x10000 + (high - 0xD800) * 1024 + (low - 0xDC00))), rest)
            else none
          | none => none
        | _ => none
      let (point, rest) := pair.getD (.ofNat high, rest)
      match readString fuel rest with
      | .ok (points, rest) => .ok (point :: points, rest)
      | .error p => .error p
  | fuel + 1, '\\' :: c :: rest =>
    match shortEscape? c with
    | none => .error .malformed
    | some char =>
      match readString fuel rest with
      | .ok (points, rest) => .ok (.char char :: points, rest)
      | .error p => .error p
  | fuel + 1, c :: rest =>
    if c == '\\' || c.toNat < 32 then .error .malformed
    else
      match readString fuel rest with
      | .ok (points, rest) => .ok (.char c :: points, rest)
      | .error p => .error p

/-- Take ASCII digits off the front. -/
def digits (cs : List Char) : List Char × List Char :=
  (cs.takeWhile Text.isAsciiDigit, cs.dropWhile Text.isAsciiDigit)

/-- Take a whole number off the front: a zero, or digits of which the first is another one. -/
def takeWhole : List Char → List Char × List Char
  | '0' :: rest => (['0'], rest)
  | cs => digits cs

/-- The number that digits stand for. -/
def valueOf (ds : List Char) : Nat :=
  Text.positional 10 (ds.map fun d => d.toNat - 48)

/-- Take a fraction off the front: a point and a digit at least. -/
def fraction? : List Char → Option (List Char × List Char)
  | '.' :: rest =>
    match digits rest with
    | ([], _) => none
    | found => some found
  | _ => none

/-- Take an exponent off the front: a letter, possibly a sign, and a digit at least. -/
def exponent? : List Char → Option (Int × List Char)
  | c :: rest =>
    if c == 'e' || c == 'E' then
      let (negative, rest) := Text.takeSign rest
      match digits rest with
      | ([], _) => none
      | (ds, rest) =>
        let n : Int := valueOf ds
        some (if negative then -n else n, rest)
    else none
  | [] => none

/-- Read a number after its sign. -/
def readNumber (negative : Bool) : Reader Value := fun cs =>
  let (whole, rest) := takeWhole cs
  if whole.isEmpty then .error .malformed
  else
    let fraction := fraction? rest
    let (fractionDigits, rest) := fraction.getD ([], rest)
    let exponent := exponent? rest
    let (power, rest) := exponent.getD (0, rest)
    if fraction.isNone && exponent.isNone then
      if Text.maxDigits < whole.length then .error .tooManyDigits
      else
        let n : Int := valueOf whole
        .ok (.int (if negative then -n else n), rest)
    else
      .ok (.float (Decimal.nearest negative (valueOf (whole ++ fractionDigits))
        (power - fractionDigits.length)), rest)

/-- What follows a word in front of a text. -/
def after? (word : String) (cs : List Char) : Option (List Char) :=
  if word.toList.isPrefixOf cs then some (cs.drop word.length) else none

/-- The words that stand for values. -/
def words : List (String × Value) :=
  [("null", .null), ("true", .bool true), ("false", .bool false),
    ("NaN", .float Decimal.notANumber), ("Infinity", .float Decimal.infinity),
    ("-Infinity", .float (-Decimal.infinity))]

/-- Read a number or a word. -/
def readScalar : Reader Value := fun cs =>
  match words.findSome? fun (word, v) => (after? word cs).map fun rest => (v, rest) with
  | some found => .ok found
  | none =>
    match cs with
    | '-' :: rest => readNumber true rest
    | cs => readNumber false cs

mutual

/-- Read a value that begins with the first character; `fuel` bounds the number of tokens. -/
def readValue : (fuel : Nat) → Reader Value
  | 0, _ => .error .malformed
  | _ + 1, '"' :: rest =>
    match readString (rest.length + 1) rest with
    | .ok (points, rest) => .ok (.ofRaw (.ofPoints points), rest)
    | .error p => .error p
  | fuel + 1, '[' :: rest =>
    match skip rest with
    | ']' :: rest => .ok (.list [], rest)
    | rest => readItems fuel [] rest
  | fuel + 1, '\x7b' :: rest =>
    match skip rest with
    | '\x7d' :: rest => .ok (.mapping [], rest)
    | rest => readEntries fuel [] rest
  | _ + 1, cs => readScalar cs

/-- Read the items of a list after those in `done`, which holds the last of them first. -/
def readItems : (fuel : Nat) → (done : List Value) → Reader Value
  | 0, _, _ => .error .malformed
  | fuel + 1, done, cs =>
    match readValue fuel cs with
    | .error p => .error p
    | .ok (v, rest) =>
      match skip rest with
      | ',' :: rest => readItems fuel (v :: done) (skip rest)
      | ']' :: rest => .ok (.list (v :: done).reverse, rest)
      | _ => .error .malformed

/-- Read the entries of an object after those in `done`. -/
def readEntries : (fuel : Nat) → (done : List (Value × Value)) → Reader Value
  | 0, _, _ => .error .malformed
  | fuel + 1, done, '"' :: rest =>
    match readString (rest.length + 1) rest with
    | .error p => .error p
    | .ok (key, rest) =>
      match skip rest with
      | ':' :: rest =>
        match readValue fuel (skip rest) with
        | .error p => .error p
        | .ok (v, rest) =>
          let entries := putEntry done (.ofRaw (.ofPoints key)) v
          match skip rest with
          | ',' :: rest => readEntries fuel entries (skip rest)
          | '\x7d' :: rest => .ok (.mapping entries, rest)
          | _ => .error .malformed
      | _ => .error .malformed
  | _ + 1, _, _ => .error .malformed

end

/-- Read a text as one value. -/
def parse (text : String) : Except Problem Value :=
  let cs := skip text.toList
  match readValue (2 * cs.length + 2) cs with
  | .error p => .error p
  | .ok (v, rest) => if (skip rest).isEmpty then .ok v else .error .malformed

end SecurityAudit.Json
