import SecurityAudit.Decimal.Binary64

/-!
# Fixed decimal places

A number rounded to a given number of decimal places: to the nearest, and from halfway to the even
neighbour.  The exact value of the number decides, so a half is a half only when the number stands
exactly in the middle.
-/

namespace SecurityAudit.Decimal

/-- The integer nearest to `n / d`; a half goes to the even neighbour. -/
def roundQuotient (n d : Nat) : Nat :=
  let q := n / d
  let r := n % d
  if 2 * r < d then q
  else if d < 2 * r then q + 1
  else if q % 2 == 0 then q else q + 1

/-- `mantissa · 2 ^ exponent` in units of `10 ^ -places`. -/
def roundedUnits (places mantissa : Nat) (exponent : Int) : Nat :=
  let scaled := mantissa * Nat.pow 10 places
  if 0 ≤ exponent then scaled * Nat.pow 2 exponent.toNat
  else roundQuotient scaled (Nat.pow 2 (-exponent).toNat)

/-- The bits in the mantissa of a floating-point number. -/
def mantissaBits : Nat := 53

/-- The mantissa and the exponent of the number nearest to `mantissa · 2 ^ exponent` among those
that have as many bits as a floating-point number; from halfway it is the one with the even
mantissa.
-/
def shortened (mantissa : Nat) (exponent : Int) : Nat × Int :=
  let excess := mantissa.log2 + 1 - mantissaBits
  (roundQuotient mantissa (Nat.pow 2 excess), exponent + excess)

/-- The digits of `units · 10 ^ -places`, with a point when there are places. -/
def fixedUnits (places units : Nat) : String :=
  let whole := toString (units / Nat.pow 10 places)
  if places == 0 then whole
  else
    let fraction := Nat.toDigits 10 (units % Nat.pow 10 places)
    whole ++ "." ++ String.ofList (List.replicate (places - fraction.length) '0' ++ fraction)

/-- The text of a number with a fixed number of decimal places. -/
def fixed (places : Nat) (x : Float) : String :=
  match exact x with
  | .nan => "nan"
  | .infinite negative => if negative then "-inf" else "inf"
  | .finite negative m e =>
    (if negative then "-" else "") ++ fixedUnits places (roundedUnits places m e)

/-- The number nearest to the number rounded to a fixed number of decimal places. -/
def roundTo (places : Nat) (x : Float) : Float :=
  match exact x with
  | .finite negative m e => nearest negative (roundedUnits places m e) (-(places : Int))
  | _ => x

end SecurityAudit.Decimal
