import SecurityAudit.Calendar.Moment
import SecurityAudit.Cvss.Score
import SecurityAudit.Cvss.Vector
import SecurityAudit.Decimal.Fixed
import SecurityAudit.Digest
import SecurityAudit.Value.Text

/-!
# Findings

A finding is one issue that an audit has found, at a line of a file or at a permission of a policy.
Its id is made from its rule and its place, so that the same issue has the same id in every audit.
-/

namespace SecurityAudit

/-- One issue. -/
structure Finding where
  id : String
  ruleId : Value
  title : Value
  description : Value
  severity : String
  category : String
  file : String
  line : Int
  evidence : String
  remediation : Value
  cvss : Option Cvss.Score
  references : List Value
  cwe : Option String
  cve : Option String
  entropy : Option Number
  status : String
  detectedAt : Calendar.Moment

namespace Finding

/-- The id of a finding: its rule and the start of a digest of rule, file and line, which are
separated by zeros. -/
def idText (rule file line : String) : String :=
  let zero := String.singleton (Char.ofNat 0)
  let text := rule ++ zero ++ file ++ zero ++ line
  rule ++ "-" ++ String.ofList ((Digest.hex text.toList).take 10)

/-- The id for texts as they come.  The digest is that of bytes, so there is none when one of the
texts cannot be encoded. -/
def idOf (rule file line : RawText) : Except Refusal String := do
  return idText (← rule.encoded) (← file.encoded) (← line.encoded)

@[simp] theorem idOf_sound (rule file line : String) :
    idOf (.sound rule) (.sound file) (.sound line) = .ok (idText rule file line) := rfl

/-- The category of exposed secrets. -/
def secretCategory : String := "secret_exposure"

/-- The category of policies that grant too much. -/
def policyCategory : String := "iam_misconfiguration"

/-- A number rounded to two decimal places; a whole number stays as it is. -/
def rounded : Number → Value
  | .int n => .int n
  | .float x => .float (Decimal.roundTo 2 x)

/-- A score as a document. -/
def scoreDocument (s : Cvss.Score) : Value :=
  .record [("score", .float s.value), ("vector", .text s.metrics.vector),
    ("severity", .text s.severity.label)]

/-- An entry for a text that says something. -/
def textEntry (key : String) : Option String → List (String × Value)
  | some s => if s.isEmpty then [] else [(key, .text s)]
  | none => []

/-- A finding as a document. -/
def document (f : Finding) : Value :=
  .record ([
    ("id", .text f.id),
    ("rule", f.ruleId),
    ("title", f.title),
    ("description", f.description),
    ("severity", .text f.severity),
    ("category", .text f.category),
    ("cvss", (f.cvss.map scoreDocument).getD .null),
    ("location", .record [("file", .text f.file), ("line", .int f.line)]),
    ("evidence", .text f.evidence),
    ("remediation", f.remediation),
    ("references", .list f.references)] ++
    textEntry "cwe" f.cwe ++ textEntry "cve" f.cve ++
    (match f.entropy with
      | some n => [("entropy", rounded n)]
      | none => []) ++
    [("status", .text f.status), ("detected_at", .text f.detectedAt.text)])

end Finding

end SecurityAudit
