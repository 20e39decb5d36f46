import SecurityAudit.Cvss.Metrics
import SecurityAudit.Decimal.Binary64
import SecurityAudit.Severity

/-!
# Base scores

The base score of a vulnerability, computed from its metrics in floating-point arithmetic:

    exploitability = 8.22 · vector · complexity · privileges · interaction
    loss           = 1 - (1 - confidentiality) (1 - integrity) (1 - availability)
    impact         = 6.42 · loss                                     scope unchanged
                   = 7.52 (loss - 0.029) - 3.25 (loss - 0.02)^15     scope changed

Without impact the score is zero; else it is the sum of impact and exploitability, by 1.08 greater
when the scope changes, and at most ten.  It is then raised to the next tenth by the plain ceiling
of ten times the sum.
-/

namespace SecurityAudit.Cvss

/-- The weight of an attack vector. -/
def AttackVector.weight : AttackVector → Float
  | .network => 0.85
  | .adjacent => 0.62
  | .localAccess => 0.55
  | .physical => 0.20

/-- The weight of an attack complexity. -/
def AttackComplexity.weight : AttackComplexity → Float
  | .low => 0.77
  | .high => 0.44

/-- The weight of required privileges, which depends on the scope. -/
def Privileges.weight (s : Scope) : Privileges → Float
  | .none => 0.85
  | .low => match s with
    | .unchanged => 0.62
    | .changed => 0.68
  | .high => match s with
    | .unchanged => 0.27
    | .changed => 0.50

/-- The weight of user interaction. -/
def Interaction.weight : Interaction → Float
  | .none => 0.85
  | .required => 0.62

/-- The weight of a loss. -/
def Impact.weight : Impact → Float
  | .none => 0.0
  | .low => 0.22
  | .high => 0.56

namespace Metrics

/-- How easily the vulnerability is exploited. -/
def exploitability (m : Metrics) : Float :=
  8.22 * m.attackVector.weight * m.attackComplexity.weight * m.privileges.weight m.scope *
    m.interaction.weight

/-- How much is lost, between zero and one. -/
def loss (m : Metrics) : Float :=
  1.0 - (1.0 - m.confidentiality.weight) * (1.0 - m.integrity.weight) *
    (1.0 - m.availability.weight)

/-- The fifteenth power. -/
def fifteenth (x : Float) : Float :=
  let x2 := x * x
  let x4 := x2 * x2
  let x8 := x4 * x4
  x8 * x4 * x2 * x

/-- The impact on what lies in scope. -/
def impact (m : Metrics) : Float :=
  match m.scope with
  | .unchanged => 6.42 * m.loss
  | .changed => 7.52 * (m.loss - 0.029) - 3.25 * fifteenth (m.loss - 0.02)

/-- The score before it is raised to a tenth. -/
def rawScore (m : Metrics) : Float :=
  let raised := match m.scope with
    | .unchanged => m.impact + m.exploitability
    | .changed => 1.08 * (m.impact + m.exploitability)
  if m.impact ≤ 0.0 then 0.0
  else if 10.0 < raised then 10.0
  else raised

/-- The score in tenths, at most a hundred. -/
def tenths (m : Metrics) : Nat :=
  min ((Decimal.ceiling? (m.rawScore * 10.0)).getD 0).toNat 100

end Metrics

/-- A base score with the metrics that it comes from. -/
structure Score where
  metrics : Metrics
  tenths : Nat
  deriving Repr, DecidableEq, Inhabited

namespace Score

/-- The score of metrics. -/
def ofMetrics (m : Metrics) : Score where
  metrics := m
  tenths := m.tenths

/-- A score as a number between zero and ten. -/
def value (s : Score) : Float :=
  s.tenths.toFloat / 10.0

/-- The severity of a score. -/
def severity (s : Score) : Severity :=
  Severity.ofScore (.float s.value)

end Score

end SecurityAudit.Cvss
