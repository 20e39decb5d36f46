import SecurityAudit.Cvss.Score
import SecurityAudit.Glob
import SecurityAudit.Path
import SecurityAudit.Pattern.Search
import SecurityAudit.Refusal
import SecurityAudit.Rule.Category

/-!
# Rules

What an audit looks for in source files: rules, which describe vulnerabilities by a pattern, and
secret patterns, whose matches count only when they are random enough.

The texts of a rule come from documents and are kept as they come.
-/

namespace SecurityAudit

/-- A rule for vulnerabilities.  A rule with a window sees that many lines at a time. -/
structure Rule where
  id : Value
  name : Value
  description : Value
  category : Category
  cwe : String
  pattern : Pattern
  remediation : Value
  metrics : Cvss.Metrics
  references : List Value
  /-- The globs of the files that the rule is for; none when it is for all. -/
  filePatterns : Option (List Value)
  window : Nat
  window_pos : 1 ≤ window

namespace Rule

/-- The score of a rule. -/
def score (r : Rule) : Cvss.Score :=
  .ofMetrics r.metrics

/-- A glob of a rule matches the path or its last name. -/
def globFits (path : String) (glob : Value) : Except Refusal Bool :=
  match glob.text? with
  | none => .error .wrongKind
  | some g => .ok (globMatches g (Path.ofString path).name || globMatches g path)

/-- The first of some globs that fits decides; those after it are not looked at. -/
def anyFits (path : String) : List Value → Except Refusal Bool
  | [] => .ok false
  | glob :: rest => do
    if ← globFits path glob then return true else anyFits path rest

/-- Whether a rule is for the file of a path. -/
def appliesTo (r : Rule) (path : String) : Except Refusal Bool :=
  match r.filePatterns with
  | none | some [] => .ok true
  | some globs => anyFits path globs

end Rule

/-- How grave an exposed secret is. -/
inductive SecretSeverity where
  | critical
  | high
  | medium
  deriving Repr, DecidableEq, Inhabited

namespace SecretSeverity

/-- The level of severity. -/
def level : SecretSeverity → Severity
  | .critical => .critical
  | .high => .high
  | .medium => .medium

/-- The severity of a label. -/
def ofLabel? (label : String) : Option SecretSeverity :=
  [SecretSeverity.critical, .high, .medium].find? (·.level.label == label)

end SecretSeverity

/-- A pattern for secrets.  What counts as the secret is the group of that name, if it took part in
a match, else the whole match. -/
structure SecretPattern where
  id : Value
  name : Value
  description : Value
  pattern : Pattern
  severity : SecretSeverity
  entropyThreshold : Float

namespace SecretPattern

/-- What to do about an exposed secret. -/
def remediation : String :=
  "Revoke and rotate this credential, remove it from source control history, and load it from a " ++
    "secrets manager at runtime."

/-- The weakness that an exposed secret is. -/
def cwe : String := "CWE-798"

/-- The secret in a match. -/
def extract (p : SecretPattern) (m : Pattern.Match) (text : List Char) : List Char :=
  (m.named? p.pattern text "secret").getD (m.text text)

end SecretPattern

end SecurityAudit
