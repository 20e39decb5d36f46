import SecurityAudit.Settings.Check
import SecurityAudit.Text.Case
import SecurityAudit.Text.Numeral

/-!
# Reading settings

Settings come from a document, section by section, and then from the environment, which goes
before the document.  Keys that nobody knows are left aside.
-/

namespace SecurityAudit.Settings

/-- A section of a document, empty if it is not there. -/
def sectionOf (doc : Value) (name : String) : Checked Value :=
  match doc.get? name with
  | none => .ok (.mapping [])
  | some (.mapping entries) => .ok (.mapping entries)
  | some _ => fail (.notATable name)

/-- A setting of a section, or what holds without it. -/
def pick (v : Value) (key : String) (default : Value) : Value :=
  (v.get? key).getD default

/-- Read the section on scanning. -/
def Scan.ofSection (v : Value) : Scan :=
  let d : Scan := {}
  { scanTypes := pick v "scan_types" d.scanTypes
    severityThreshold := pick v "severity_threshold" d.severityThreshold
    failOn := pick v "fail_on" d.failOn
    exclusions := pick v "exclusions" d.exclusions
    maxFindings := pick v "max_findings" d.maxFindings
    timeout := pick v "timeout" d.timeout
    workers := pick v "workers" d.workers
    maxLineLength := pick v "max_line_length" d.maxLineLength }

/-- Read the section on rules. -/
def Rules.ofSection (v : Value) : Rules :=
  let d : Rules := {}
  { enable := pick v "enable" d.enable
    disable := pick v "disable" d.disable
    customDir := pick v "custom_dir" d.customDir }

/-- Read the section on secrets. -/
def Secrets.ofSection (v : Value) : Secrets :=
  let d : Secrets := {}
  { skipMarkers := pick v "skip_markers" d.skipMarkers
    skipPathMarkers := pick v "skip_path_markers" d.skipPathMarkers }

/-- Read the section on policies. -/
def Policies.ofSection (v : Value) : Policies :=
  let d : Policies := {}
  { staleAfterDays := pick v "stale_after_days" d.staleAfterDays
    extraDangerousActions := pick v "extra_dangerous_actions" d.extraDangerousActions }

/-- Read the section on output. -/
def Output.ofSection (v : Value) : Output :=
  let d : Output := {}
  { format := pick v "format" d.format
    showSummary := pick v "show_summary" d.showSummary }

/-- Read settings from a document. -/
def ofDocument (doc : Value) : Checked Settings := do
  return {
    version := (← allowing (pick doc "version" (.text "1.0")).asText).readable
    scan := .ofSection (← sectionOf doc "scan")
    rules := .ofSection (← sectionOf doc "rules")
    secrets := .ofSection (← sectionOf doc "secrets")
    iam := .ofSection (← sectionOf doc "iam")
    output := .ofSection (← sectionOf doc "output") }

/-- The variables of an environment. -/
abbrev Environment := List (String × String)

/-- A variable that is set and not empty. -/
def nonEmpty? (env : Environment) (name : String) : Option String :=
  (env.lookup ("VULNAUDIT_" ++ name)).filter fun value => !value.isEmpty

/-- The items of a text with commas between them, trimmed, without those that are empty. -/
def listItems (value : String) : List String :=
  ((Text.split ',' value).map Text.trim).filter fun item => !item.isEmpty

/-- A list with further texts at its end. -/
def extended (v : Value) (more : List String) : Checked Value :=
  match v with
  | .list items => .ok (.list (items ++ more.map .text))
  | _ => refuse .noOperation

/-- Change settings by a variable, if it is set. -/
def overriding (env : Environment) (name : String) (change : Settings → String → Checked Settings)
    (s : Settings) : Checked Settings :=
  match nonEmpty? env name with
  | none => .ok s
  | some value => change s value

/-- The settings after the variables of an environment. -/
def withEnvironment (env : Environment) (s : Settings) : Checked Settings := do
  let s ← overriding env "SEVERITY_THRESHOLD" (fun s value =>
    .ok { s with scan.severityThreshold := .text (Text.lower (Text.trim value)) }) s
  let s ← overriding env "SCAN_TYPES" (fun s value =>
    .ok { s with scan.scanTypes := .texts ((listItems value).map Text.lower) }) s
  let s ← overriding env "EXCLUDE" (fun s value => do
    return { s with scan.exclusions := ← extended s.scan.exclusions (listItems value) }) s
  let s ← overriding env "MAX_FINDINGS" (fun s value =>
    match Text.parseInt? value with
    | some n => .ok { s with scan.maxFindings := .int n }
    | none => fail (.maxFindingsNotANumber value)) s
  let s ← overriding env "TIMEOUT" (fun s value =>
    match Text.parseFloat? value with
    | some x => .ok { s with scan.timeout := .float x }
    | none => fail (.timeoutNotANumber value)) s
  overriding env "FORMAT" (fun s value =>
    .ok (if formats.contains value then { s with output.format := .text value } else s)) s

end SecurityAudit.Settings
