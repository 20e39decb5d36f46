import SecurityAudit.Finding.Basic
import SecurityAudit.Suppression

/-!
# Reports

The result of an audit: the findings in their order, what they amount to, what ought to be done
about them, and what could not be scanned.
-/

namespace SecurityAudit

/-- A target that was left out, or something that went wrong without ending the audit. -/
structure Warning where
  kind : String
  target : RawText
  message : String
  deriving Repr, DecidableEq, Inhabited

/-- A warning as a document. -/
def Warning.document (w : Warning) : Value :=
  .record [("kind", .text w.kind), ("target", .ofRaw w.target), ("message", .text w.message)]

/-- How soon something ought to be done. -/
inductive Priority where
  | immediate
  | shortTerm
  | longTerm
  deriving Repr, DecidableEq, Inhabited

namespace Priority

/-- The label of a priority. -/
def label : Priority → String
  | .immediate => "immediate"
  | .shortTerm => "short_term"
  | .longTerm => "long_term"

/-- The place of a priority in the order of urgency. -/
def rank : Priority → Nat
  | .immediate => 0
  | .shortTerm => 1
  | .longTerm => 2

end Priority

/-- What ought to be done, and about which findings. -/
structure Recommendation where
  priority : Priority
  title : String
  description : String
  findingIds : List String
  deriving Repr, DecidableEq, Inhabited

/-- A recommendation as a document. -/
def Recommendation.document (r : Recommendation) : Value :=
  .record [("priority", .text r.priority.label), ("title", .text r.title),
    ("description", .text r.description), ("finding_ids", .texts r.findingIds)]

/-- A score between zero and ten with one decimal place. -/
structure RiskScore where
  tenths : Nat
  deriving Repr, DecidableEq, Inhabited

/-- A risk score as a number. -/
def RiskScore.value (s : RiskScore) : Float :=
  Float.ofNat s.tenths / 10.0

/-- A risk score in texts. -/
def RiskScore.text (s : RiskScore) : String :=
  Decimal.fixed 1 s.value

/-- What was scanned, and how the audit ended. -/
structure Coverage.Totals where
  files : Value := .int 0
  policies : Value := .int 0
  incomplete : Bool := false
  truncated : Bool := false
  deriving Inhabited

/-- The result of an audit. -/
structure Report where
  id : String
  scope : String
  summary : String
  findings : List Finding
  risk : RiskScore
  recommendations : List Recommendation
  generatedAt : Calendar.Moment
  severityCounts : List (String × Nat)
  rawCount : Nat
  warnings : List Warning
  skippedFiles : List String
  suppressed : List Suppression
  totals : Coverage.Totals
  duration : Number

namespace Report

/-- The findings at or above a level.  The level is looked at only when there are findings. -/
def findingsAtOrAbove (r : Report) (level : Value) : Except Refusal (List Finding) :=
  if r.findings.isEmpty then .ok []
  else do
    let rank ← Severity.rankOfValue level
    return r.findings.filter fun f => rank ≤ Severity.rankOf f.severity

/-- A number as a value. -/
def numberValue : Number → Value
  | .int n => .int n
  | .float x => .float x

/-- The entries of a report in its document. -/
def entries (r : Report) : List (String × Value) := [
  ("id", .text r.id),
  ("scope", .text r.scope),
  ("generated_at", .text r.generatedAt.text),
  ("executive_summary", .text r.summary),
  ("risk_score", .float r.risk.value),
  ("severity_counts", .record (r.severityCounts.map fun (label, n) => (label, .int n))),
  ("total_findings", .int r.findings.length),
  ("raw_finding_count", .int r.rawCount),
  ("incomplete", .bool r.totals.incomplete),
  ("truncated", .bool r.totals.truncated),
  ("scanned_files", r.totals.files),
  ("scanned_policies", r.totals.policies),
  ("duration_ms", numberValue r.duration),
  ("findings", .list (r.findings.map Finding.document)),
  ("recommendations", .list (r.recommendations.map Recommendation.document)),
  ("warnings", .list (r.warnings.map Warning.document)),
  ("skipped_files", .texts r.skippedFiles),
  ("suppressed", .list (r.suppressed.map Suppression.document))]

/-- A report as a document. -/
def document (r : Report) : Value :=
  .record r.entries

end Report

end SecurityAudit
