import SecurityAudit.Severity
import SecurityAudit.Value.Text

/-!
# Settings

What can be set for an audit, in five sections, and what holds when nothing is said.  The values
are those of the document that they come from; `Settings/Check` says which of them make sense.
-/

namespace SecurityAudit

namespace Settings

/-- What is scanned, and within which limits. -/
structure Scan where
  scanTypes : Value := .texts ["all"]
  severityThreshold : Value := .text "low"
  failOn : Value := .text "high"
  exclusions : Value := .list []
  maxFindings : Value := .null
  timeout : Value := .float 300.0
  workers : Value := .int 4
  maxLineLength : Value := .int 4096
  deriving Inhabited

/-- Which rules are in force, and where further ones lie. -/
structure Rules where
  enable : Value := .list []
  disable : Value := .list []
  customDir : Value := .text ".vulnaudit-rules"
  deriving Inhabited

/-- What marks lines and paths that hold no real secrets. -/
structure Secrets where
  skipMarkers : Value := .texts ["example", "placeholder", "dummy"]
  skipPathMarkers : Value := .texts ["test", "spec", "mock", "fixture"]
  deriving Inhabited

/-- How policies are judged. -/
structure Policies where
  staleAfterDays : Value := .int 90
  extraDangerousActions : Value := .list []
  deriving Inhabited

/-- How results are shown. -/
structure Output where
  format : Value := .text "terminal"
  showSummary : Value := .bool true
  deriving Inhabited

end Settings

/-- The settings of an audit. -/
structure Settings where
  version : String := "1.0"
  scan : Settings.Scan := {}
  rules : Settings.Rules := {}
  secrets : Settings.Secrets := {}
  iam : Settings.Policies := {}
  output : Settings.Output := {}
  deriving Inhabited

namespace Settings

/-- The kinds of scan that can be asked for. -/
def scanTypes : List String :=
  ["owasp", "secrets", "iam", "all"]

/-- The formats of results. -/
def formats : List String :=
  ["terminal", "json"]

/-- The settings as a document. -/
def document (s : Settings) : Value :=
  .record [
    ("version", .text s.version),
    ("scan", .record [
      ("scan_types", s.scan.scanTypes),
      ("severity_threshold", s.scan.severityThreshold),
      ("fail_on", s.scan.failOn),
      ("exclusions", s.scan.exclusions),
      ("max_findings", s.scan.maxFindings),
      ("timeout", s.scan.timeout),
      ("workers", s.scan.workers),
      ("max_line_length", s.scan.maxLineLength)]),
    ("rules", .record [
      ("enable", s.rules.enable),
      ("disable", s.rules.disable),
      ("custom_dir", s.rules.customDir)]),
    ("secrets", .record [
      ("skip_markers", s.secrets.skipMarkers),
      ("skip_path_markers", s.secrets.skipPathMarkers)]),
    ("iam", .record [
      ("stale_after_days", s.iam.staleAfterDays),
      ("extra_dangerous_actions", s.iam.extraDangerousActions)]),
    ("output", .record [
      ("format", s.output.format),
      ("show_summary", s.output.showSummary)])]

end Settings

end SecurityAudit
