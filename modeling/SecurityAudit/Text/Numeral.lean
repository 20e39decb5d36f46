import SecurityAudit.Text.Blank
import SecurityAudit.Text.Digits
import SecurityAudit.Decimal.Binary64

/-!
# Numbers written in texts

A number in a text may have blanks around it, a sign before it, digits of any script, and single
underscores between digits.  A whole number has at most 4300 digits.
-/

namespace SecurityAudit.Text

/-- Take a sign off the front: true means minus. -/
def takeSign : List Char → Bool × List Char
  | '-' :: rest => (true, rest)
  | '+' :: rest => (false, rest)
  | cs => (false, cs)

/-- A digit of any script as an ASCII digit; every other character as it is. -/
def asciiDigit (c : Char) : Char :=
  match digitValue? c with
  | some d => Char.ofNat (48 + d)
  | none => c

/-- Digits with single underscores between them, each underscore followed by a digit: their values
and what comes after them.  `after` says that the last character was a digit. -/
def takeDigits (after : Bool) : List Char → List Nat × List Char
  | [] => ([], [])
  | '_' :: c :: rest =>
    if after && isAsciiDigit c then
      let (ds, left) := takeDigits true rest
      ((c.toNat - 48) :: ds, left)
    else ([], '_' :: c :: rest)
  | c :: rest =>
    if isAsciiDigit c then
      let (ds, left) := takeDigits true rest
      ((c.toNat - 48) :: ds, left)
    else ([], c :: rest)

/-- The most digits of a whole number. -/
def maxDigits : Nat := 4300

/-- Read a whole number. -/
def parseInt? (s : String) : Option Int :=
  let (negative, cs) := takeSign ((trimChars s.toList).map asciiDigit)
  let (digits, rest) := takeDigits false cs
  if digits.isEmpty || !rest.isEmpty || maxDigits < digits.length then none
  else
    let n : Int := positional 10 digits
    some (if negative then -n else n)

/-- The exponent after the letter e, and what comes after it. -/
def takeExponent (cs : List Char) : Option (Int × List Char) :=
  match cs with
  | c :: rest =>
    if c == 'e' || c == 'E' then
      let (negative, rest) := takeSign rest
      let (digits, rest) := takeDigits false rest
      if digits.isEmpty then none
      else
        let n : Int := positional 10 digits
        some (if negative then -n else n, rest)
    else some (0, cs)
  | [] => some (0, [])

/-- Read a number in decimal notation without a sign: digits with at most one point, one digit at
least, and possibly an exponent. -/
def parseDecimal? (negative : Bool) (cs : List Char) : Option Float :=
  let (whole, rest) := takeDigits false cs
  let (fraction, rest) := match rest with
    | '.' :: rest => takeDigits false rest
    | rest => ([], rest)
  if whole.isEmpty && fraction.isEmpty then none
  else
    match takeExponent rest with
    | some (exponent, []) =>
      some (Decimal.nearest negative (positional 10 (whole ++ fraction))
        (exponent - fraction.length))
    | _ => none

/-- Read a floating-point number: decimal notation, an infinity, or no number. -/
def parseFloat? (s : String) : Option Float :=
  let (negative, cs) := takeSign ((trimChars s.toList).map asciiDigit)
  let name := String.ofList (cs.map Char.toLower)
  if name == "inf" || name == "infinity" then
    some (if negative then -Decimal.infinity else Decimal.infinity)
  else if name == "nan" then some Decimal.notANumber
  else parseDecimal? negative cs

end SecurityAudit.Text
