/-!
# The exact value of a binary floating-point number

A finite number is a sign, a mantissa and a power of two.  Rounding to integers, comparison and the
conversion to decimal digits all work on these three parts, in exact arithmetic.
-/

namespace SecurityAudit.Decimal

/-- What a floating-point number stands for: no number, an infinity, or `± mantissa · 2 ^ exponent`.
-/
inductive Exact where
  | nan
  | infinite (negative : Bool)
  | finite (negative : Bool) (mantissa : Nat) (exponent : Int)
  deriving Repr, DecidableEq

/-- The parts of a floating-point number, read from its bits. -/
def exact (x : Float) : Exact :=
  let bits : Nat := x.toBits.toNat
  let negative : Bool := bits / Nat.pow 2 63 == 1
  let biased : Nat := bits / Nat.pow 2 52 % 2048
  let fraction : Nat := bits % Nat.pow 2 52
  if biased == 2047 then
    if fraction == 0 then .infinite negative else .nan
  else if biased == 0 then .finite negative fraction (-1074)
  else .finite negative (fraction + Nat.pow 2 52) ((biased : Int) - 1075)

/-- Not a number. -/
def notANumber : Float := 0.0 / 0.0

/-- Positive infinity. -/
def infinity : Float := 1.0 / 0.0

/-- The integer part of a quotient `mantissa · 2 ^ exponent`, and whether nothing is cut off. -/
def truncate (mantissa : Nat) (exponent : Int) : Nat × Bool :=
  if 0 ≤ exponent then (mantissa * Nat.pow 2 exponent.toNat, true)
  else
    let d := Nat.pow 2 (-exponent).toNat
    (mantissa / d, mantissa % d == 0)

/-- The integer nearest to zero of those that bound the number, if it is finite. -/
def toward? (x : Float) : Option Int :=
  match exact x with
  | .finite negative m e =>
    let whole : Int := (truncate m e).1
    some (if negative then -whole else whole)
  | _ => none

/-- The least integer that is not below the number, if it is finite. -/
def ceiling? (x : Float) : Option Int :=
  match exact x with
  | .finite negative m e =>
    let (whole, even) := truncate m e
    some (if negative then -(whole : Int) else if even then whole else whole + 1)
  | _ => none

/-- A signed whole number: `± mantissa · 2 ^ exponent` in units of `2 ^ low`. -/
def inUnits (negative : Bool) (mantissa : Nat) (exponent low : Int) : Int :=
  let m : Int := (mantissa * Nat.pow 2 (exponent - low).toNat : Nat)
  if negative then -m else m

/-- The place of one number before another, compared exactly.  What is no number has no place. -/
def Exact.order? : Exact → Exact → Option Ordering
  | .nan, _ | _, .nan => none
  | .infinite s, .infinite t => some (compare t s)
  | .infinite s, .finite _ _ _ => some (if s then .lt else .gt)
  | .finite _ _ _, .infinite t => some (if t then .gt else .lt)
  | .finite s m e, .finite t n f =>
    let low := min e f
    some (compare (inUnits s m e low) (inUnits t n f low))

/-- The floating-point number nearest to `digits · 10 ^ exponent`, an infinity when there is none
that large. -/
def nearest (negative : Bool) (digits : Nat) (exponent : Int) : Float :=
  let size := (Nat.toDigits 10 digits).length + exponent
  let magnitude : Float :=
    if digits == 0 then 0.0
    else if 400 < size then infinity
    else if size < -400 then 0.0
    else if 0 ≤ exponent then Float.ofScientific (digits * Nat.pow 10 exponent.toNat) false 0
    else Float.ofScientific digits true (-exponent).toNat
  if negative then -magnitude else magnitude

end SecurityAudit.Decimal
