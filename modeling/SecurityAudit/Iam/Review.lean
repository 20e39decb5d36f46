import SecurityAudit.Decimal.Fixed
import SecurityAudit.Finding.Basic
import SecurityAudit.Glob
import SecurityAudit.Iam.Policy
import SecurityAudit.Refusal
import SecurityAudit.Text.Case

/-!
# Review of policies

A policy should grant no more than is needed.  A permission that allows an action with a star in it,
or any resource, grants too much; so does one that allows a dangerous action without a condition.  A
policy that has not been used for long should not be there at all.

What a granted action covers is decided by globs, in whatever letter case.
-/

namespace SecurityAudit.Iam

/-- The granted action covers an action. -/
def actionMatches (granted action : String) : Bool :=
  globMatches (Text.lower granted) (Text.lower action)

/-- The metrics of a grant of every action there is: whoever has it leaves the account. -/
def anyActionMetrics : Cvss.Metrics :=
  { privileges := .low, scope := .changed, confidentiality := .high, integrity := .high,
    availability := .high }

/-- The metrics of a grant of every action of a service. -/
def serviceActionMetrics : Cvss.Metrics :=
  { privileges := .low, confidentiality := .high, integrity := .high, availability := .high }

/-- The metrics of a grant on every resource. -/
def anyResourceMetrics : Cvss.Metrics :=
  { privileges := .low, confidentiality := .high, integrity := .low, availability := .low }

/-- The metrics of a policy that is not used: an insider with high privileges has to use it. -/
def staleMetrics : Cvss.Metrics :=
  { attackVector := .localAccess, attackComplexity := .high, privileges := .high,
    confidentiality := .high, integrity := .low }

/-- The metrics of a dangerous action without a condition. -/
def dangerousMetrics : Cvss.Metrics :=
  { privileges := .low, confidentiality := .high, integrity := .high }

/-- The advice that all findings about policies refer to. -/
def leastPrivilege : String :=
  "https://docs.aws.amazon.com/IAM/latest/UserGuide/best-practices.html#grant-least-privilege"

/-- What policies are reviewed with. -/
structure Review where
  dangerous : List Value
  staleAfter : Calendar.Micros
  now : Calendar.Moment

namespace Review

/-- The longest length of time, in days. -/
def maxDays : Int := 999999999

/-- A length of time, if it is not too long. -/
def bounded (t : Calendar.Micros) : Except Refusal Calendar.Micros :=
  let days := Calendar.wholeDays t
  if days < -maxDays || maxDays < days then .error .tooLarge else .ok t

/-- The microseconds of a part of a day, which is `mantissa · 2 ^ exponent` days.  They are
multiplied as floating-point numbers are, and then rounded. -/
def partOfDay (mantissa : Nat) (exponent : Int) : Nat :=
  let (m, e) := Decimal.shortened (mantissa * Calendar.day.toNat) exponent
  Decimal.roundedUnits 0 m e

/-- The microseconds of `mantissa · 2 ^ exponent` days: those of the whole days, and those of the
part of a day that is left. -/
def timeOf (mantissa : Nat) (exponent : Int) : Nat :=
  let whole := (Decimal.truncate mantissa exponent).1
  let part := mantissa % Nat.pow 2 (-exponent).toNat
  whole * Calendar.day.toNat + partOfDay part exponent

/-- The length of time of a number of days: whole days, and the rest to the nearest microsecond. -/
def ofDays (v : Value) : Except Refusal Calendar.Micros :=
  match v.number? with
  | none => .error .wrongKind
  | some (.int n) => bounded (n * Calendar.day)
  | some (.float x) =>
    match Decimal.exact x with
    | .nan => .error .badValue
    | .infinite _ => .error .tooLarge
    | .finite negative m e =>
      let time : Int := timeOf m e
      bounded (if negative then -time else time)

/-- The review that some dangerous actions and a number of days ask for. -/
def make (dangerous : List Value) (staleAfterDays : Value) (now : Calendar.Moment) :
    Except Refusal Review := do
  return { dangerous, staleAfter := ← ofDays staleAfterDays, now }

/-- The dangerous actions that a permission covers, in their order. -/
def dangerousMatches (r : Review) (p : Permission) : Except Refusal (List String) := do
  let actions ← r.dangerous.mapM fun v =>
    match v.text? with
    | some a => .ok a
    | none => .error .noOperation
  return actions.filter (actionMatches p.action)

/-- What is particular about a finding. -/
structure Remark where
  ruleId : String
  title : String
  description : String
  metrics : Cvss.Metrics
  evidence : String
  remediation : String
  cwe : String

/-- The finding of a remark about the policy in a place, under an id. -/
def findingAs (r : Review) (id file : String) (line : Nat) (m : Remark) : Finding :=
  let score := Cvss.Score.ofMetrics m.metrics
  { id
    ruleId := .text m.ruleId
    title := .text m.title
    description := .text m.description
    severity := score.severity.label
    category := Finding.policyCategory
    file
    line
    evidence := m.evidence
    remediation := .text m.remediation
    cvss := some score
    references := [.text leastPrivilege]
    cwe := some m.cwe
    cve := none
    entropy := none
    status := "open"
    detectedAt := r.now }

/-- The finding of a remark about a policy; line zero is for the policy as a whole. -/
def finding (r : Review) (policy : Policy) (line : Nat) (m : Remark) : Except Refusal Finding := do
  let id ← Finding.idOf m.ruleId policy.location (toString (line : Int))
  return r.findingAs id (← policy.location.encoded) line m

/-- The remark about a star in an action. -/
def wildcardAction (policy : Policy) (p : Permission) : Remark :=
  let full := Text.trim p.action == "*"
  { ruleId := "IAM_WILDCARD_ACTION"
    title := "Wildcard action granted"
    description := "Policy " ++ policy.name.quoted ++ " allows " ++ Text.quoted p.action ++
      if full then ", i.e. every action on every service." else ", every action of the service."
    metrics := if full then anyActionMetrics else serviceActionMetrics
    evidence := "allow " ++ p.action ++ " on " ++ p.resource
    remediation :=
      "Replace the wildcard with the explicit list of actions the principal needs."
    cwe := "CWE-269" }

/-- The remark about a grant on every resource. -/
def wildcardResource (policy : Policy) (p : Permission) : Remark where
  ruleId := "IAM_WILDCARD_RESOURCE"
  title := "Wildcard resource granted"
  description := "Policy " ++ policy.name.quoted ++ " applies " ++ Text.quoted p.action ++
    " to every resource."
  metrics := anyResourceMetrics
  evidence := "allow " ++ p.action ++ " on *"
  remediation :=
    "Scope the permission to specific resource identifiers (ARNs, resource paths)."
  cwe := "CWE-732"

/-- The most dangerous actions that a message names. -/
def maxNamed : Nat := 5

/-- Some dangerous actions in a message. -/
def namedActions (actions : List String) : String :=
  Text.join ", " (actions.take maxNamed) ++
    if maxNamed < actions.length then
      " (+" ++ toString (actions.length - maxNamed) ++ " more)"
    else ""

/-- The remark about dangerous actions without a condition. -/
def unconditioned (policy : Policy) (p : Permission) (actions : List String) : Remark where
  ruleId := "IAM_DANGEROUS_ACTION_UNCONDITIONED"
  title := "Privilege-escalation action without condition"
  description := "Policy " ++ policy.name.quoted ++ " grants " ++ Text.quoted p.action ++
    " with no condition; this covers " ++ namedActions actions ++
    ", which allow a principal to escalate its own privileges."
  metrics := dangerousMetrics
  evidence := "allow " ++ p.action ++ " on " ++ p.resource ++ " (no condition)"
  remediation := "Restrict the grant with conditions (MFA, source identity, resource tags, " ++
    "permission boundaries) or remove it."
  cwe := "CWE-269"

/-- The remark about a policy that has not been used for some time. -/
def stale (r : Review) (policy : Policy) (lastUsed : Calendar.Moment) (age : Calendar.Micros) :
    Remark where
  ruleId := "IAM_STALE_POLICY"
  title := "Unused policy"
  description := "Policy " ++ policy.name.quoted ++ " was last used " ++
    toString (Calendar.wholeDays age) ++ " days ago (threshold " ++
    toString (Calendar.wholeDays r.staleAfter) ++ " days)."
  metrics := staleMetrics
  evidence := "lastUsed " ++ lastUsed.text
  remediation := "Remove the policy or detach it from principals that no longer need it."
  cwe := "CWE-1188"

/-- The remarks about a permission. -/
def remarks (r : Review) (policy : Policy) (p : Permission) : Except Refusal (List Remark) := do
  if !p.allows then return []
  else
    let onAction := if p.action.toList.contains '*' then [wildcardAction policy p] else []
    let onResource := if Text.trim p.resource == "*" then [wildcardResource policy p] else []
    if p.hasCondition then return onAction ++ onResource
    else
      let actions ← r.dangerousMatches p
      let onDanger := if actions.isEmpty then [] else [unconditioned policy p actions]
      return onAction ++ onResource ++ onDanger

/-- The remark about the age of a policy, if it has one that is too great. -/
def ageRemark? (r : Review) (policy : Policy) : Except Refusal (Option Remark) :=
  match policy.lastUsed with
  | none => .ok none
  | some lastUsed =>
    match r.now.since? lastUsed with
    | none => .error .wrongKind
    | some age =>
      .ok (if age ≤ r.staleAfter then none else some (r.stale policy lastUsed age))

/-- The findings about a policy: permission by permission, and last the one about its age. -/
def run (r : Review) (policy : Policy) : Except Refusal (List Finding) := do
  let found ← policy.permissions.zipIdx.mapM fun (p, i) => do
    (← r.remarks policy p).mapM (r.finding policy (i + 1))
  let old ← r.ageRemark? policy
  return found.flatten ++ (← old.toList.mapM (r.finding policy 0))

end Review

end SecurityAudit.Iam
