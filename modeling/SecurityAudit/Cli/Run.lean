import SecurityAudit.Audit.Files
import SecurityAudit.Audit.Run
import SecurityAudit.Cli.Command
import SecurityAudit.Iam.Files
import SecurityAudit.Report.Terminal
import SecurityAudit.Rule.Builtin
import SecurityAudit.Settings.Load
import SecurityAudit.Settings.Template

/-!
# Running commands

What a command does at a workplace: what it prints, which file it writes, and the code with which it
ends.  A scan ends with 1 when it finds something at or above the level on which an audit fails, and
with 0 otherwise; settings and rules that are not accepted, and an audit that fails, end a command
with 2.

A value that is refused ends the program in the middle of a command.
-/

namespace SecurityAudit.Cli

/-- Where a command is run: the files below the working directory, the variables of the environment,
the moment, and what is particular about the run. -/
structure Workplace where
  tree : Tree
  environment : Settings.Environment := []
  now : Calendar.Moment
  occasion : Audit.Occasion

/-- How a command ends. -/
structure Ending where
  code : Nat
  printed : List Printed := []
  output : String := ""
  written : Option (Path × String) := none

namespace Ending

/-- The same end, with something printed before. -/
def after (e : Ending) (printed : List Printed) : Ending :=
  { e with printed := printed ++ e.printed }

/-- The files after a command, for files before it. -/
def filesAfter (e : Ending) (t : Tree) : Except Refusal Tree :=
  match e.written with
  | none => .ok t
  | some (path, text) =>
    match t.write path (Text.utf8Bytes text.toList) with
    | .ok t => .ok t
    | .error f => .error f.refusal

end Ending

/-- A line with a heading in red. -/
def complaint (heading message : String) : Printed :=
  .markup ("[bold red]" ++ heading ++ ":[/bold red] " ++ message)

/-- A faint line. -/
def remark (text : String) : Printed :=
  .markup ("[dim]" ++ text ++ "[/dim]")

/-- Why there is nothing to run a command with. -/
inductive Problem where
  | settings (p : Settings.Problem)
  | rules (p : Rule.Problem)
  deriving Inhabited

/-- The message of a problem. -/
def Problem.message : Problem → String
  | .settings p => p.message
  | .rules p => p.message

/-- An outcome whose problem is that of a command. -/
def lifted {π α : Type} (f : π → Problem) : Except (Fault π) α → Except (Fault Problem) α
  | .ok a => .ok a
  | .error e => .error (e.map f)

/-- Go on with what a command is run with; if there is a problem, say so and end. -/
def withPrepared {α : Type} (prepared : Except (Fault Problem) α)
    (next : α → Except Refusal Ending) : Except Refusal Ending :=
  match prepared with
  | .ok a => next a
  | .error (.problem p) =>
    .ok { code := 2, printed := [complaint "Config error" (Markup.escape p.message)] }
  | .error (.refused r) => .error r

/-- The root of the project that a path belongs to. -/
def rootOf (w : Workplace) (path : Path) : Except Refusal Path := do
  return if ← w.tree.hasDirectory path then path else path.parent

/-- The settings of a project. -/
def settingsOf (w : Workplace) (root : Path) (config : Option String) :
    Except (Fault Problem) Settings :=
  lifted .settings (Settings.load w.tree w.environment root config)

/-- The catalog of a project. -/
def catalogOf (w : Workplace) (root : Path) (s : Settings) : Except (Fault Problem) Catalog :=
  lifted .rules (Catalog.ofSettings s (some ⟨w.tree, root⟩))

/-- An option that is given and not empty. -/
def said (option : Option String) : Option String :=
  option.filter fun value => !value.isEmpty

/-- The settings of a scan: options go before what has been loaded, and exclusions come after it. -/
def ScanOptions.override (o : ScanOptions) (s : Settings) : Settings.Checked Settings := do
  let s := match said o.format with
    | some format => { s with output.format := .text format }
    | none => s
  let s := match said o.severity with
    | some level => { s with scan.severityThreshold := .text (Text.lower level) }
    | none => s
  let s := match said o.failOn with
    | some level => { s with scan.failOn := .text (Text.lower level) }
    | none => s
  let s :=
    if o.scanTypes.isEmpty then s
    else { s with scan.scanTypes := .texts (o.scanTypes.map Text.lower) }
  let exclusions ←
    if o.exclusions.isEmpty then .ok s.scan.exclusions
    else Settings.extended s.scan.exclusions o.exclusions
  let s := { s with scan.exclusions := exclusions }
  let s := match o.maxFindings with
    | some n => { s with scan.maxFindings := .int n }
    | none => s
  return match o.timeout with
    | some x => { s with scan.timeout := .float x }
    | none => s

/-- The settings and the catalog of a scan. -/
def prepareScan (w : Workplace) (o : ScanOptions) (root : Path) :
    Except (Fault Problem) (Settings × Catalog) := do
  let loaded ← settingsOf w root o.config
  let s ← lifted .settings (o.override loaded)
  lifted .settings s.check
  return (s, ← catalogOf w root s)

/-- What is said before a scan, when it is asked for. -/
def introduction (o : ScanOptions) (s : Settings) (c : Catalog) : List Printed :=
  if o.verbose || o.debug then
    [remark ("Rules loaded: " ++ toString c.rules.length),
      remark ("Secret patterns: " ++ toString c.secrets.length),
      remark ("Scan types: " ++
        Text.join ", " ((s.scan.scanTypes.elements?.getD []).map Value.shown))]
  else []

/-- What a scan looks at. -/
def requestOf (w : Workplace) (o : ScanOptions) : Except Refusal Audit.Request := do
  let path := Path.ofString o.path
  let collected ← Audit.collect w.tree path
  let loaded ← Iam.load w.tree (o.policies.map Path.ofString)
  return {
    files := collected.files.map fun (name, bytes) => (name, .bytes bytes)
    policies := loaded.documents.map .document
    scope := path.text
    warnings := collected.warnings ++ loaded.warnings }

/-- The report is shown on the terminal. -/
def isForTerminal (s : Settings) : Bool :=
  s.output.format.same (.text "terminal")

/-- The file that a scan writes its report to, and what it says then. -/
def written (w : Workplace) (o : ScanOptions) (text : String) :
    Except Refusal (Option (Path × String) × List Printed) :=
  match said o.output with
  | none => .ok (none, [])
  | some name =>
    let path := Path.ofString name
    match w.tree.write path (Text.utf8Bytes text.toList) with
    | .error e => .error e.refusal
    | .ok _ =>
      .ok (some (path, text), if o.verbose then [remark ("Report written to " ++ name)] else [])

/-- The code with which a scan ends. -/
def codeOf (r : Report) (failOn : Value) : Except Refusal Nat := do
  return if ← r.isBlocking failOn then 1 else 0

/-- The end of a scan that has a report. -/
def conclude (w : Workplace) (o : ScanOptions) (s : Settings) (r : Report) :
    Except Refusal Ending := do
  let failOn := s.scan.failOn
  let timing := if o.debug then [remark ("Scan duration: " ++ r.durationText ++ "ms")] else []
  let shown ← if isForTerminal s then r.shown failOn s.output.showSummary.holds else .ok []
  let output ← if isForTerminal s then .ok "" else (r.text failOn).map (· ++ "\n")
  let text ← if (said o.output).isSome then r.text failOn else .ok ""
  let (written, more) ← written w o text
  return { code := ← codeOf r failOn, printed := timing ++ shown ++ more, output, written }

/-- Run a scan with its settings and catalog. -/
def runPrepared (w : Workplace) (o : ScanOptions) (s : Settings) (c : Catalog) :
    Except Refusal Ending := do
  let request ← requestOf w o
  let audit ← Audit.assemble s c w.now
  match audit.run w.occasion request with
  | .ok report => conclude w o s report
  | .error (.problem p) =>
    return { code := 2, printed := [complaint "Scanner error" (Markup.escape p.message)] }
  | .error (.refused r) => .error r

/-- Run a scan. -/
def runScan (w : Workplace) (o : ScanOptions) : Except Refusal Ending := do
  let path := Path.ofString o.path
  if ← w.tree.exists_ path then
    withPrepared (prepareScan w o (← rootOf w path)) fun (s, c) =>
      (runPrepared w o s c).map (·.after (introduction o s c))
  else return { code := 2, printed := [complaint "Error" ("path not found: " ++ path.text)] }

/-- The row of a rule. -/
def ruleRow (r : Rule) : Except Refusal (List Cell) := do
  return [← Cell.ofValue r.id, .markup r.category.label, .markup (Decimal.fixed 1 r.score.value),
    .markup r.score.severity.label, .markup r.cwe]

/-- The table of the rules. -/
def ruleTable (c : Catalog) : Except Refusal Table := do
  return {
    title := "Rules (" ++ toString c.rules.length ++ ")"
    ruled := false
    columns := [
      { header := "ID", style := "cyan" },
      { header := "Category" },
      { header := "CVSS", justify := "right" },
      { header := "Severity" },
      { header := "CWE", style := "dim" }]
    rows := ← c.rules.mapM ruleRow }

/-- The row of a secret pattern. -/
def secretRow (p : SecretPattern) : Except Refusal (List Cell) := do
  return [← Cell.ofValue p.id, .markup p.severity.level.label,
    .markup (Decimal.fixed 1 p.entropyThreshold)]

/-- The table of the secret patterns. -/
def secretTable (c : Catalog) : Except Refusal Table := do
  return {
    title := "Secret patterns (" ++ toString c.secrets.length ++ ")"
    ruled := false
    columns := [
      { header := "ID", style := "cyan" },
      { header := "Severity" },
      { header := "Min entropy", justify := "right" }]
    rows := ← c.secrets.mapM secretRow }

/-- List the rules of a project. -/
def runRules (w : Workplace) (path : Path) (config : Option String) : Except Refusal Ending := do
  let root ← rootOf w path
  let prepared : Except (Fault Problem) Catalog := do
    catalogOf w root (← settingsOf w root config)
  withPrepared prepared fun c => do
    return { code := 0, printed := [.table (← ruleTable c), .table (← secretTable c)] }

/-- Write settings to start with into a directory, unless it has some. -/
def runInit (w : Workplace) (path : Path) : Except Refusal Ending := do
  let file := path.child Settings.fileName
  if ← w.tree.exists_ file then
    return {
      code := 1
      printed := [.markup ("[yellow]⚠[/yellow]  " ++ Settings.fileName ++ " already exists at " ++
        file.text)] }
  else
    match w.tree.write file (Text.utf8Bytes Settings.template.toList) with
    | .error e => throw e.refusal
    | .ok _ =>
      return {
        code := 0
        printed := [.markup ("[green]✓[/green] Created " ++ file.text)]
        written := some (file, Settings.template) }

/-- How the program is called. -/
def usage : String :=
  "Usage: " ++ programName ++ " [--version] scan [PATH] [OPTIONS] | rules [PATH] | init [PATH]\n"

/-- Run a command. -/
def runCommand (w : Workplace) : Command → Except Refusal Ending
  | .scan o => runScan w o
  | .rules path config => runRules w (.ofString path) config
  | .init path => runInit w (.ofString path)
  | .version => .ok { code := 0, output := programName ++ " " ++ programVersion ++ "\n" }
  | .help => .ok { code := 0, output := usage }

/-- Run a command line; one that is no command ends with 2. -/
def run (w : Workplace) (words : List String) : Except Refusal Ending :=
  match Command.ofWords? words with
  | some c => runCommand w c
  | none => .ok { code := 2 }

/-- The status with which the program exits: the code of a command that comes to its end, and one
when a value is refused, or when the terminal does not take what is shown.  The library for the
terminal is not modelled: `takes` says of which things it is able to make something.  Markup with a
closing tag that nothing opens, which the id of a rule can bring, is not among them. -/
def exitStatus (takes : Printed → Bool) : Except Refusal Ending → Nat
  | .ok e => if e.printed.all takes then e.code else 1
  | .error _ => 1

end SecurityAudit.Cli
