import SecurityAudit.Decimal.Binary64

/-!
# The fewest digits that read back

Every finite number is the nearest one to all the reals of an interval around it; the ends belong
to the interval when its mantissa is even.  Among the decimals in the interval those with the
fewest digits are taken, and of these the nearest.  Grids of one digit, two digits and so on are
tried in turn, each by the two neighbours of the number on it, in exact arithmetic.
-/

namespace SecurityAudit.Decimal

/-- The reals that round to a number `value / unit`: from `low / unit` to `high / unit`, ends
included when `closed`. -/
structure Interval where
  low : Nat
  value : Nat
  high : Nat
  unit : Nat
  closed : Bool

/-- The interval of `mantissa · 2 ^ exponent`.  Below a power of two the numbers lie twice as
close. -/
def Interval.of (mantissa : Nat) (exponent : Int) : Interval :=
  let up := Nat.pow 2 exponent.toNat
  let below := if mantissa == Nat.pow 2 52 && -1074 < exponent then 1 else 2
  { low := (4 * mantissa - below) * up
    value := 4 * mantissa * up
    high := (4 * mantissa + 2) * up
    unit := 4 * Nat.pow 2 (-exponent).toNat
    closed := mantissa % 2 == 0 }

/-- The number of digits of a natural number; zero has one. -/
def digitCount (n : Nat) : Nat :=
  (Nat.toDigits 10 n).length

/-- The exponent of the leading decimal digit of a positive number `value / unit`. -/
def Interval.leading (i : Interval) : Int :=
  if i.unit ≤ i.value then (digitCount (i.value / i.unit) : Int) - 1
  else
    let k := digitCount (i.unit / i.value)
    if i.unit == i.value * Nat.pow 10 (k - 1) then 1 - (k : Int) else -(k : Int)

/-- The number on the grid of multiples of `10 ^ place` that lies in the interval, nearest first:
the two neighbours of the value are tried. -/
def Interval.onGrid? (i : Interval) (place : Int) : Option Nat :=
  let scale := Nat.pow 10 (-place).toNat
  let step := i.unit * Nat.pow 10 place.toNat
  let value := i.value * scale
  let d := value / step
  let inside (k : Nat) : Bool :=
    let x := k * step
    if i.closed then i.low * scale ≤ x && x ≤ i.high * scale
    else i.low * scale < x && x < i.high * scale
  let below := value - d * step
  let above := (d + 1) * step - value
  let lowerFirst := below < above || (below == above && d % 2 == 0)
  match inside d, inside (d + 1) with
  | true, true => some (if lowerFirst then d else d + 1)
  | true, false => some d
  | false, true => some (d + 1)
  | false, false => none

/-- The first grid with a hit, from the one whose step is `10 ^ place` on; finer by one digit at
each of at most `fuel` steps. -/
def Interval.firstHit (i : Interval) : (fuel : Nat) → (place : Int) → Nat × Int
  | 0, place => (i.value / i.unit, place)
  | fuel + 1, place =>
    match i.onGrid? place with
    | some d => (d, place)
    | none => i.firstHit fuel (place - 1)

/-- A decimal `digits · 10 ^ place` without zeros at its end. -/
def dropZeros : (fuel : Nat) → Nat → Int → Nat × Int
  | 0, digits, place => (digits, place)
  | fuel + 1, digits, place =>
    if digits != 0 && digits % 10 == 0 then dropZeros fuel (digits / 10) (place + 1)
    else (digits, place)

/-- The shortest decimal `digits · 10 ^ place` that reads back as `mantissa · 2 ^ exponent`. -/
def shortest (mantissa : Nat) (exponent : Int) : Nat × Int :=
  if mantissa == 0 then (0, 0)
  else
    let i := Interval.of mantissa exponent
    let (digits, place) := i.firstHit 20 i.leading
    dropZeros 20 digits place

/-- The names of the values that have no digits. -/
structure SpecialNames where
  nan : String
  infinity : String

/-- Digits with a decimal point: positional while the leading digit stands between `10 ^ -4` and
`10 ^ 15`, else with an exponent of two digits or more. -/
def layout (digits : Nat) (place : Int) : String :=
  let ds := (Nat.toDigits 10 digits)
  let count : Int := ds.length
  let leading := place + count - 1
  if -4 ≤ leading && leading < 16 then
    if leading < 0 then
      String.ofList ('0' :: '.' :: List.replicate (-leading - 1).toNat '0' ++ ds)
    else if 0 ≤ place then
      String.ofList (ds ++ List.replicate place.toNat '0' ++ ['.', '0'])
    else
      let whole := (leading + 1).toNat
      String.ofList (ds.take whole ++ '.' :: ds.drop whole)
  else
    let rest := ds.drop 1
    let point := if rest.isEmpty then [] else '.' :: rest
    let size := Nat.toDigits 10 leading.natAbs
    let padded := if size.length < 2 then '0' :: size else size
    String.ofList (ds.take 1 ++ point ++ 'e' :: (if leading < 0 then '-' else '+') :: padded)

/-- The text of a floating-point number: the fewest digits that read back, always with a decimal
point or an exponent. -/
def floatText (names : SpecialNames) (x : Float) : String :=
  match exact x with
  | .nan => names.nan
  | .infinite negative => (if negative then "-" else "") ++ names.infinity
  | .finite negative m e =>
    let (digits, place) := shortest m e
    (if negative then "-" else "") ++ layout digits place

/-- The text of a floating-point number in messages. -/
def shownFloat (x : Float) : String :=
  floatText ⟨"nan", "inf"⟩ x

end SecurityAudit.Decimal
