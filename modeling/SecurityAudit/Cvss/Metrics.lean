import SecurityAudit.Text.Case
import SecurityAudit.Value.Basic

/-!
# Base metrics

The eight base metrics of a vulnerability.  Each has a few levels; a level has a word, used where
metrics are named one by one, and a token of one letter, used in vectors.
-/

namespace SecurityAudit.Cvss

/-- From where a vulnerability can be exploited. -/
inductive AttackVector where
  | network
  | adjacent
  | localAccess
  | physical
  deriving Repr, DecidableEq, Inhabited

/-- How hard an attack is, apart from access and privileges. -/
inductive AttackComplexity where
  | low
  | high
  deriving Repr, DecidableEq, Inhabited

/-- What an attacker must be allowed to do beforehand. -/
inductive Privileges where
  | none
  | low
  | high
  deriving Repr, DecidableEq, Inhabited

/-- Whether somebody else has to take part. -/
inductive Interaction where
  | none
  | required
  deriving Repr, DecidableEq, Inhabited

/-- Whether the attack reaches beyond the vulnerable component. -/
inductive Scope where
  | unchanged
  | changed
  deriving Repr, DecidableEq, Inhabited

/-- What is lost. -/
inductive Impact where
  | none
  | low
  | high
  deriving Repr, DecidableEq, Inhabited

/-- The names of the eight metrics. -/
inductive Metric where
  | attackVector
  | attackComplexity
  | privileges
  | interaction
  | scope
  | confidentiality
  | integrity
  | availability
  deriving Repr, DecidableEq, Inhabited

namespace Metric

/-- The metrics in the order of vectors. -/
def all : List Metric :=
  [.attackVector, .attackComplexity, .privileges, .interaction, .scope, .confidentiality,
    .integrity, .availability]

/-- The code of a metric in vectors. -/
def code : Metric → String
  | .attackVector => "AV"
  | .attackComplexity => "AC"
  | .privileges => "PR"
  | .interaction => "UI"
  | .scope => "S"
  | .confidentiality => "C"
  | .integrity => "I"
  | .availability => "A"

/-- The full name of a metric. -/
def name : Metric → String
  | .attackVector => "attack_vector"
  | .attackComplexity => "attack_complexity"
  | .privileges => "privileges_required"
  | .interaction => "user_interaction"
  | .scope => "scope"
  | .confidentiality => "confidentiality_impact"
  | .integrity => "integrity_impact"
  | .availability => "availability_impact"

/-- The metric of a code. -/
def ofCode? (code : String) : Option Metric :=
  all.find? (·.code == code)

end Metric

/-- A metric's levels, with their words and tokens. -/
class Level (α : Type) where
  levels : List α
  word : α → String
  token : α → String

namespace Level

/-- The level of a word. -/
def ofWord? {α : Type} [Level α] (w : String) : Option α :=
  levels.find? fun l : α => word l == w

/-- The level of a token. -/
def ofToken? {α : Type} [Level α] (t : String) : Option α :=
  levels.find? fun l : α => token l == t

end Level

instance : Level AttackVector where
  levels := [.network, .adjacent, .localAccess, .physical]
  word
    | .network => "network"
    | .adjacent => "adjacent"
    | .localAccess => "local"
    | .physical => "physical"
  token
    | .network => "N"
    | .adjacent => "A"
    | .localAccess => "L"
    | .physical => "P"

instance : Level AttackComplexity where
  levels := [.low, .high]
  word
    | .low => "low"
    | .high => "high"
  token
    | .low => "L"
    | .high => "H"

instance : Level Privileges where
  levels := [.none, .low, .high]
  word
    | .none => "none"
    | .low => "low"
    | .high => "high"
  token
    | .none => "N"
    | .low => "L"
    | .high => "H"

instance : Level Interaction where
  levels := [.none, .required]
  word
    | .none => "none"
    | .required => "required"
  token
    | .none => "N"
    | .required => "R"

instance : Level Scope where
  levels := [.unchanged, .changed]
  word
    | .unchanged => "unchanged"
    | .changed => "changed"
  token
    | .unchanged => "U"
    | .changed => "C"

instance : Level Impact where
  levels := [.none, .low, .high]
  word
    | .none => "none"
    | .low => "low"
    | .high => "high"
  token
    | .none => "N"
    | .low => "L"
    | .high => "H"

/-- The eight base metrics; what is not said is as exposed and as harmless as can be. -/
structure Metrics where
  attackVector : AttackVector := .network
  attackComplexity : AttackComplexity := .low
  privileges : Privileges := .none
  interaction : Interaction := .none
  scope : Scope := .unchanged
  confidentiality : Impact := .none
  integrity : Impact := .none
  availability : Impact := .none
  deriving Repr, DecidableEq, Inhabited

namespace Metrics

/-- The word of a metric's level. -/
def word (m : Metrics) : Metric → String
  | .attackVector => Level.word m.attackVector
  | .attackComplexity => Level.word m.attackComplexity
  | .privileges => Level.word m.privileges
  | .interaction => Level.word m.interaction
  | .scope => Level.word m.scope
  | .confidentiality => Level.word m.confidentiality
  | .integrity => Level.word m.integrity
  | .availability => Level.word m.availability

/-- The token of a metric's level. -/
def token (m : Metrics) : Metric → String
  | .attackVector => Level.token m.attackVector
  | .attackComplexity => Level.token m.attackComplexity
  | .privileges => Level.token m.privileges
  | .interaction => Level.token m.interaction
  | .scope => Level.token m.scope
  | .confidentiality => Level.token m.confidentiality
  | .integrity => Level.token m.integrity
  | .availability => Level.token m.availability

/-- Set one metric to the level that `find` yields for it, if it yields one. -/
def set? (m : Metrics) (find : {α : Type} → [Level α] → Option α) : Metric → Option Metrics
  | .attackVector => find.map fun l => { m with attackVector := l }
  | .attackComplexity => find.map fun l => { m with attackComplexity := l }
  | .privileges => find.map fun l => { m with privileges := l }
  | .interaction => find.map fun l => { m with interaction := l }
  | .scope => find.map fun l => { m with scope := l }
  | .confidentiality => find.map fun l => { m with confidentiality := l }
  | .integrity => find.map fun l => { m with integrity := l }
  | .availability => find.map fun l => { m with availability := l }

end Metrics

end SecurityAudit.Cvss
