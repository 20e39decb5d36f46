/-!
# Runs of code points

A property of characters is stored as the increasing list of the code points at which it changes:
it is false below the first, true from the first to the second, false from the second to the third,
and so on.  Membership is therefore the parity of the number of boundaries at or below a code
point, found by halving.
-/

namespace SecurityAudit.Text

/-- A set of characters given by the increasing code points at which membership changes. -/
structure Runs where
  bounds : Array Nat

namespace Runs

/-- The number of boundaries at or below `c` among positions `lo … lo + width`, where every
position below `lo` is at or below `c` and every position from `lo + width` on is above it.
`fuel` bounds the number of halvings. -/
def rankFrom (r : Runs) (c : Nat) : (fuel lo width : Nat) → Nat
  | 0, lo, _ => lo
  | _ + 1, lo, 0 => lo
  | fuel + 1, lo, width + 1 =>
    let half := (width + 1) / 2
    match r.bounds[lo + half]? with
    | some b =>
      if b ≤ c then r.rankFrom c fuel (lo + half + 1) (width - half)
      else r.rankFrom c fuel lo half
    | none => lo

/-- The number of boundaries at or below `c`. -/
def rank (r : Runs) (c : Nat) : Nat :=
  r.rankFrom c (r.bounds.size.log2 + 1) 0 r.bounds.size

/-- A code point belongs to the set when an odd number of boundaries lies at or below it. -/
def contains (r : Runs) (c : Nat) : Bool :=
  r.rank c % 2 == 1

end Runs

end SecurityAudit.Text
