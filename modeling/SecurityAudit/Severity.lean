import SecurityAudit.Refusal
import SecurityAudit.Value.Basic

/-!
# Severities

Five levels, from informational to critical.  Findings and thresholds carry a level by its label; a
label that names no level ranks lowest, next to informational.  A base score has a level by fixed
breakpoints.
-/

namespace SecurityAudit

/-- A level of severity. -/
inductive Severity where
  | informational
  | low
  | medium
  | high
  | critical
  deriving Repr, DecidableEq, Inhabited

namespace Severity

/-- The levels, the gravest first. -/
def levels : List Severity :=
  [.critical, .high, .medium, .low, .informational]

/-- The label of a level. -/
def label : Severity → String
  | .informational => "informational"
  | .low => "low"
  | .medium => "medium"
  | .high => "high"
  | .critical => "critical"

/-- The place of a level in the order of gravity. -/
def rank : Severity → Nat
  | .informational => 0
  | .low => 1
  | .medium => 2
  | .high => 3
  | .critical => 4

/-- The weight of a level in the risk score. -/
def weight : Severity → Nat
  | .informational => 0
  | .low => 1
  | .medium => 4
  | .high => 7
  | .critical => 10

/-- The level of a label. -/
def ofLabel? (label : String) : Option Severity :=
  levels.find? (·.label == label)

/-- The rank of a label; a label of no level has the lowest. -/
def rankOf (label : String) : Nat :=
  ((ofLabel? label).map rank).getD 0

/-- The rank that a value stands for when it is used as a label. -/
def rankOfValue (v : Value) : Except Refusal Nat :=
  match v with
  | .text label => .ok (rankOf label)
  | v => if v.isKey then .ok 0 else .error .wrongKind

/-- Whether a label ranks at or above another. -/
def atOrAbove (label threshold : String) : Bool :=
  rankOf threshold ≤ rankOf label

/-- The levels that a threshold can be set to, the lowest first. -/
def thresholds : List Severity :=
  [.low, .medium, .high, .critical]

/-- Whether a number is at least `x`. -/
def reaches (n : Number) (x : Float) : Bool :=
  (Number.float x).below n || (Number.float x).same n

/-- The level of a score between zero and ten. -/
def ofScore (score : Number) : Severity :=
  if reaches score 9.0 then .critical
  else if reaches score 7.0 then .high
  else if reaches score 4.0 then .medium
  else if reaches score 0.1 then .low
  else .informational

end Severity

end SecurityAudit
