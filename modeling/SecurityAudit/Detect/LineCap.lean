import SecurityAudit.Refusal
import SecurityAudit.Value.Basic

/-!
# Long lines

No pattern is run on a line beyond a cap.  The cap is a setting and may be any value: only a whole
number can cut a line, and one below zero cuts from the end.
-/

namespace SecurityAudit.Detect

/-- The whole number at which a line can be cut. -/
def cutPoint? : Value → Option Int
  | .bool b => some (if b then 1 else 0)
  | .int n => some n
  | _ => none

/-- The first characters of a line; of a negative number, all but the last ones. -/
def firstChars (n : Int) (line : List Char) : List Char :=
  if 0 ≤ n then line.take n.toNat else line.take (line.length - n.natAbs)

/-- Cut a line. -/
def cut (cap : Value) (line : List Char) : Except Refusal (List Char) :=
  match cutPoint? cap with
  | some n => .ok (firstChars n line)
  | none => .error .wrongKind

/-- The length of a line as a number. -/
def lengthOf (line : List Char) : Number :=
  .int line.length

/-- Cut a line unless its length is known to be within the cap. -/
def cutUnlessWithin (cap : Value) (line : List Char) : Except Refusal (List Char) :=
  match cap.number? with
  | none => .error .wrongKind
  | some n =>
    if (lengthOf line).below n || (lengthOf line).same n then .ok line else cut cap line

/-- Cut a line if its length is known to be beyond the cap. -/
def cutIfBeyond (cap : Value) (line : List Char) : Except Refusal (List Char) :=
  match cap.number? with
  | none => .error .wrongKind
  | some n => if n.below (lengthOf line) then cut cap line else .ok line

end SecurityAudit.Detect
