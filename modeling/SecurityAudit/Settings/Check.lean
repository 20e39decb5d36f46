import SecurityAudit.Refusal
import SecurityAudit.Settings.Problem

/-!
# Checking settings

Every setting that an audit depends on is checked, one after another; the first that makes no sense
is reported.  A value of a kind that cannot be compared at all is refused.
-/

namespace SecurityAudit.Settings

/-- The outcome of working with settings. -/
abbrev Checked (α : Type) := Except (Fault Problem) α

/-- A problem arises unless a condition holds. -/
def require (p : Problem) (condition : Bool) : Checked Unit :=
  if condition then .ok () else fail p

/-- A problem with a setting arises unless a condition holds. -/
def requireOf (v : Value) (p : Value → Problem) (condition : Bool) : Checked Unit :=
  if condition then .ok () else failAbout v (p v)

/-- The number that a setting is. -/
def number (v : Value) : Checked Number :=
  orRefuse .wrongKind v.number?

/-- The value is the label of a level that a threshold can be set to. -/
def isThreshold (v : Value) : Bool :=
  v.isAmong (Severity.thresholds.map fun l => .text l.label)

/-- The value is the name of a kind of scan. -/
def isScanType (v : Value) : Bool :=
  v.isAmong (scanTypes.map .text)

/-- Every kind of scan that is asked for exists, and one is asked for. -/
def checkScanTypes (v : Value) : Checked Unit := do
  require .noScanTypes v.holds
  let items ← orRefuse .wrongKind v.elements?
  match items.filter fun item => !isScanType item with
  | [] => .ok ()
  | unknown => fail (.unknownScanTypes (← orRefuse .wrongKind (unknown.mapM Value.text?)))

/-- A setting is a number of at least one. -/
def checkAtLeastOne (p : Problem) (v : Value) : Checked Unit := do
  let n ← number v
  require p !(n.below (.int 1))

/-- A setting is absent or passes a check. -/
def checkIfSet (check : Value → Checked Unit) : Value → Checked Unit
  | .null => .ok ()
  | v => check v

/-- A setting is a number above zero. -/
def checkPositive (p : Problem) (v : Value) : Checked Unit := do
  let n ← number v
  require p !(n.atMost 0)

/-- Check settings. -/
def check (s : Settings) : Checked Unit := do
  requireOf s.scan.severityThreshold .unknownThreshold (isThreshold s.scan.severityThreshold)
  requireOf s.scan.failOn .unknownFailLevel (isThreshold s.scan.failOn)
  checkScanTypes s.scan.scanTypes
  checkIfSet (checkAtLeastOne .maxFindingsTooSmall) s.scan.maxFindings
  checkIfSet (checkPositive .timeoutTooSmall) s.scan.timeout
  checkAtLeastOne .tooFewWorkers s.scan.workers
  checkAtLeastOne .linesTooShort s.scan.maxLineLength
  checkAtLeastOne .staleTooSoon s.iam.staleAfterDays
  requireOf s.output.format .unknownFormat (s.output.format.isAmong (formats.map .text))

/-- The kind of scan is asked for, by its name or with all others. -/
def Scan.enabled (s : Scan) (scanType : String) : Bool :=
  let items := s.scanTypes.elements?.getD []
  (Value.text "all").isAmong items || (Value.text scanType).isAmong items

end SecurityAudit.Settings
