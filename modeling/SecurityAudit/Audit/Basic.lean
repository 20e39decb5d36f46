import SecurityAudit.Detect.Secret
import SecurityAudit.Detect.Vulnerability
import SecurityAudit.Iam.Review
import SecurityAudit.Report.Aggregate
import SecurityAudit.Rule.Catalog
import SecurityAudit.Settings.Check

/-!
# Audits

An audit is put together from settings and a catalog.  The kinds of scan that the settings ask for
decide what runs on files, and whether policies are reviewed.
-/

namespace SecurityAudit

/-- What looks for findings in files. -/
inductive FileDetector where
  | vulnerabilities (rules : List Rule) (cap : Value)
  | secrets (scan : Detect.SecretScan)

namespace FileDetector

/-- The findings in a file. -/
def run (d : FileDetector) (now : Calendar.Moment) (f : SourceFile) :
    Except Refusal (List Finding) :=
  match d with
  | .vulnerabilities rules cap => Detect.vulnerabilities rules cap now f
  | .secrets scan => scan.run now f

end FileDetector

/-- An audit, ready to run. -/
structure Audit where
  settings : Settings
  threshold : String
  detectors : List FileDetector
  review : Option Iam.Review
  now : Calendar.Moment

namespace Audit

/-- What runs on files. -/
def detectorsFor (s : Settings) (c : Catalog) : Except Refusal (List FileDetector) := do
  let vulnerabilities :=
    if s.scan.enabled "owasp" then [FileDetector.vulnerabilities c.rules s.scan.maxLineLength]
    else []
  if s.scan.enabled "secrets" then
    return vulnerabilities ++ [.secrets (← Detect.SecretScan.ofSettings c.secrets s)]
  else return vulnerabilities

/-- How policies are reviewed, if they are. -/
def reviewFor (s : Settings) (c : Catalog) (now : Calendar.Moment) :
    Except Refusal (Option Iam.Review) := do
  if s.scan.enabled "iam" then
    return some (← Iam.Review.make c.actions s.iam.staleAfterDays now)
  else return none

/-- The audit of a catalog and settings that have been checked. -/
def assemble (s : Settings) (c : Catalog) (now : Calendar.Moment) : Except Refusal Audit := do
  let detectors ← detectorsFor s c
  let review ← reviewFor s c now
  match s.scan.severityThreshold.text? with
  | some threshold => return { settings := s, threshold, detectors, review, now }
  | none => throw .badValue

/-- The audit of a catalog and settings, which are checked first. -/
def ofSettings (s : Settings) (c : Catalog) (now : Calendar.Moment) : Settings.Checked Audit := do
  s.check
  allowing (assemble s c now)

end Audit

end SecurityAudit
