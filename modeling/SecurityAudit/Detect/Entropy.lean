import SecurityAudit.Decimal.Binary64
import SecurityAudit.Rule.Basic

/-!
# Entropy

How random a text is: the Shannon entropy of its characters, in bits for each.  The characters are
taken in the order in which they first come, and their shares are summed in that order in
floating-point arithmetic.
-/

namespace SecurityAudit.Detect

/-- One more of a character, which is counted at the place where it first came. -/
def countOne (counts : List (Char × Nat)) (c : Char) : List (Char × Nat) :=
  match counts with
  | [] => [(c, 1)]
  | (d, n) :: rest => if d == c then (d, n + 1) :: rest else (d, n) :: countOne rest c

/-- The characters of a text in the order in which they first come, each with its number. -/
def counts (cs : List Char) : List (Char × Nat) :=
  cs.foldl countOne []

/-- The binary logarithm of a positive number: exact for powers of two. -/
def log2 (x : Float) : Float :=
  match Decimal.exact x with
  | .finite false m e =>
    let bits := m.log2
    if m == Nat.pow 2 bits then
      let power := (bits : Int) + e
      if power < 0 then -(Float.ofNat power.natAbs) else Float.ofNat power.natAbs
    else x.log2
  | _ => x.log2

/-- The share of a character that comes `k` times among `n`. -/
def share (n k : Nat) : Float :=
  let p := Float.ofNat k / Float.ofNat n
  p * log2 p

/-- The entropy of a text; that of the empty text is zero. -/
def entropy (cs : List Char) : Float :=
  if cs.isEmpty then 0.0
  else -((counts cs).foldl (fun sum e => sum + share cs.length e.2) 0.0)

/-- A secret that a pattern has found, with its entropy. -/
structure Candidate where
  value : List Char
  entropy : Float

/-- The matches of a secret pattern in a line that are random enough. -/
def candidates (p : SecretPattern) (line : List Char) : List Candidate :=
  ((Pattern.allMatches p.pattern line).map fun m =>
    let value := p.extract m line
    (⟨value, entropy value⟩ : Candidate)).filter fun c => p.entropyThreshold ≤ c.entropy

end SecurityAudit.Detect
