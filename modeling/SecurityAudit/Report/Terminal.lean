import SecurityAudit.Report.Text
import SecurityAudit.Text.Case

/-!
# Reports on a terminal

What is shown of a report: some sentences, a table of the findings, recommendations and warnings,
and whether the audit has failed.  A line is text with markup, in which square brackets have a
meaning; what comes from outside is escaped, or shown as it is.
-/

namespace SecurityAudit

/-- Text shown as it is, in one style. -/
structure Styled where
  text : String
  style : String
  deriving Repr, DecidableEq, Inhabited

/-- A cell of a table. -/
inductive Cell where
  | markup (text : String)
  | styled (s : Styled)
  deriving Repr, DecidableEq, Inhabited

/-- A column of a table. -/
structure Column where
  header : String
  justify : String := "left"
  style : String := ""
  width : Option Nat := none
  minWidth : Option Nat := none
  deriving Repr, DecidableEq, Inhabited

/-- A table. -/
structure Table where
  title : String
  ruled : Bool
  columns : List Column
  rows : List (List Cell)
  deriving Repr, DecidableEq, Inhabited

/-- Something that is shown. -/
inductive Printed where
  | markup (text : String)
  | styled (s : Styled)
  | table (t : Table)
  deriving Repr, DecidableEq, Inhabited

namespace Markup

/-- A character that may follow the opening bracket of a tag. -/
def startsTag (c : Char) : Bool :=
  ('a' ≤ c && c ≤ 'z') || c == '#' || c == '/' || c == '@'

/-- A tag after its opening bracket, up to the next closing one. -/
def tag? (cs : List Char) : Option (List Char × List Char) :=
  match cs with
  | [] => none
  | c :: rest =>
    if !startsTag c then none
    else
      let body := rest.takeWhile fun d => d != '[' && d != ']'
      match rest.drop body.length with
      | ']' :: left => some (c :: body ++ [']'], left)
      | _ => none

/-- Escape tags: the backslashes before one are doubled, and one more is added.  `fuel` bounds the
number of steps, `slashes` are the backslashes right before the text. -/
def escapeFrom : (fuel slashes : Nat) → List Char → List Char
  | 0, slashes, cs => List.replicate slashes '\\' ++ cs
  | _ + 1, slashes, [] => List.replicate slashes '\\'
  | fuel + 1, slashes, '\\' :: rest => escapeFrom fuel (slashes + 1) rest
  | fuel + 1, slashes, c :: rest =>
    match if c == '[' then tag? rest else none with
    | some (tag, left) =>
      List.replicate (2 * slashes + 1) '\\' ++ '[' :: tag ++ escapeFrom fuel 0 left
    | none => List.replicate slashes '\\' ++ c :: escapeFrom fuel 0 rest

/-- A lone backslash at the end would escape what comes after the text. -/
def closeEscape (cs : List Char) : List Char :=
  match cs.reverse with
  | '\\' :: '\\' :: _ => cs
  | '\\' :: _ => cs ++ ['\\']
  | _ => cs

/-- A text in which square brackets have no meaning. -/
def escape (s : String) : String :=
  let cs := s.toList
  String.ofList (closeEscape (escapeFrom (cs.length + 1) 0 cs))

/-- A control character that a terminal must not get: bell, backspace, vertical tab, form feed and
carriage return. -/
def isControl (c : Char) : Bool :=
  [7, 8, 11, 12, 13].contains c.toNat

/-- Text shown as it is, but for control characters. -/
def plain (s : String) (style : String) : Styled :=
  ⟨String.ofList (s.toList.filter fun c => !isControl c), style⟩

end Markup

namespace Cell

/-- A value in a cell: a text, or nothing.  What a text has in brackets is markup as anywhere else;
whether it is taken is up to the terminal. -/
def ofValue : Value → Except Refusal Cell
  | .text s => .ok (.markup s)
  | .null => .ok (.markup "")
  | _ => .error .notRenderable

end Cell

namespace Severity

/-- The style of a level. -/
def style : Severity → String
  | .critical => "bold white on red"
  | .high => "bold white on dark_orange"
  | .medium => "bold black on yellow"
  | .low => "bold black on bright_cyan"
  | .informational => "bold black on white"

/-- The sign of a level. -/
def icon : Severity → String
  | .critical => "🔴"
  | .high => "🟠"
  | .medium => "🟡"
  | .low => "🔵"
  | .informational => "⚪"

/-- The label of a severity in its colours. -/
def pill (label : String) : Styled :=
  let level := ofLabel? label
  Markup.plain (" " ++ (level.map icon).getD "" ++ " " ++ Text.upper label ++ " ")
    ((level.map style).getD "")

end Severity

/-- The label of a priority in its colours. -/
def Priority.banner : Priority → String
  | .immediate => "[bold red]IMMEDIATE[/bold red]"
  | .shortTerm => "[bold yellow]SHORT TERM[/bold yellow]"
  | .longTerm => "[bold cyan]LONG TERM[/bold cyan]"

namespace RiskScore

/-- The style of a risk score. -/
def style (s : RiskScore) : String :=
  if 7.0 ≤ s.value then "bold red"
  else if 4.0 ≤ s.value then "bold yellow"
  else "bold green"

end RiskScore

namespace Report

/-- A line with markup. -/
def line (s : String) : Printed :=
  .markup s

/-- An empty line. -/
def gap : Printed :=
  .markup ""

/-- The row of a finding. -/
def row (f : Finding) : Except Refusal (List Cell) := do
  let place := if 0 < f.line then f.file ++ ":" ++ toString f.line else f.file
  return [
    .styled (Severity.pill f.severity),
    .markup ((f.cvss.map fun s => Decimal.fixed 1 s.value).getD "-"),
    ← Cell.ofValue f.ruleId,
    .styled (Markup.plain place ""),
    .styled (Markup.plain f.evidence "")]

/-- The table of the findings. -/
def table (r : Report) : Except Refusal Table := do
  return {
    title := "Security Audit Findings"
    ruled := true
    columns := [
      { header := "Severity", justify := "center", width := some 18 },
      { header := "CVSS", justify := "right" },
      { header := "Rule", style := "cyan", minWidth := some 20 },
      { header := "Location", style := "magenta" },
      { header := "Evidence", minWidth := some 15 }]
    rows := ← r.findings.mapM row }

/-- What is shown of the findings. -/
def shownFindings (r : Report) : Except Refusal (List Printed) := do
  if r.findings.isEmpty then
    return [gap,
      line "[bold green]✅ No findings at or above the severity threshold.[/bold green]"]
  else return [gap, .table (← r.table)]

/-- What is shown of the recommendations. -/
def shownRecommendations (r : Report) : List Printed :=
  if r.recommendations.isEmpty then []
  else
    gap :: line "[bold]Recommendations[/bold]" :: r.recommendations.map fun rec =>
      line ("  " ++ rec.priority.banner ++ "  " ++ Markup.escape rec.title)

/-- What is shown of the warnings. -/
def shownWarnings (r : Report) : List Printed :=
  if r.warnings.isEmpty then []
  else
    gap :: line ("[yellow]⚠[/yellow]  " ++ toString r.warnings.length ++ " warning(s):") ::
      r.warnings.map fun w =>
        line ("  [dim]" ++ w.kind ++ "[/dim] " ++ Markup.escape w.target.readable ++ ": " ++
          Markup.escape w.message)

/-- A length of time in whole milliseconds. -/
def durationText (r : Report) : String :=
  match r.duration with
  | .int n => toString n
  | .float x => Decimal.fixed 0 x

/-- The figures of a report. -/
def shownFigures (r : Report) : List Printed :=
  let style := r.risk.style
  let counts := Severity.levels.map fun l =>
    l.label ++ "=" ++ toString ((r.severityCounts.lookup l.label).getD 0)
  [gap,
    line ("[dim]Risk score:[/dim]    [" ++ style ++ "]" ++ r.risk.text ++ "/10[/" ++ style ++ "]"),
    line ("[dim]Files scanned:[/dim] " ++ r.totals.files.shown),
    line ("[dim]Policies:[/dim]      " ++ r.totals.policies.shown),
    line ("[dim]Findings:[/dim]      " ++ toString r.findings.length ++ " (raw " ++
      toString r.rawCount ++ ")"),
    line ("[dim]By severity:[/dim]   " ++ Text.join "  " counts),
    line ("[dim]Suppressed:[/dim]    " ++ toString r.suppressed.length),
    line ("[dim]Skipped:[/dim]       " ++ toString r.skippedFiles.length),
    line ("[dim]Duration:[/dim]      " ++ r.durationText ++ "ms")]

/-- Whether the audit has failed. -/
def shownVerdict (r : Report) (failOn : Value) : Except Refusal (List Printed) := do
  let blocking ← r.findingsAtOrAbove failOn
  let verdict :=
    if !blocking.isEmpty then
      "[bold red]❌ FAILED — " ++ toString blocking.length ++ " finding(s) at or above '" ++
        failOn.shown ++ "'.[/bold red]"
    else if r.totals.incomplete then
      "[bold yellow]⚠️  Scan incomplete — timed out before all targets were scanned.[/bold yellow]"
    else "[bold green]✓ No findings at or above '" ++ failOn.shown ++ "'.[/bold green]"
  return [gap, line verdict]

/-- What is shown of a report. -/
def shown (r : Report) (failOn : Value) (withFigures : Bool) : Except Refusal (List Printed) := do
  let findings ← r.shownFindings
  let verdict ← r.shownVerdict failOn
  return gap :: .styled (Markup.plain r.summary "bold") ::
    findings ++ r.shownRecommendations ++ r.shownWarnings ++
    (if withFigures then r.shownFigures else []) ++ verdict

end Report

end SecurityAudit
