import SecurityAudit.Json.Writer
import SecurityAudit.Report.Basic

/-!
# Reports as JSON

The document that is given to other programs: the report, what wrote it, and whether it blocks, that
is, whether there are findings at or above the level on which an audit fails.
-/

namespace SecurityAudit

/-- The version of the program. -/
def programVersion : String := "0.1.0"

/-- The name of the program. -/
def programName : String := "vulnaudit"

/-- The version of the document's form. -/
def schemaVersion : String := "1.0"

namespace Report

/-- There are findings at or above a level. -/
def isBlocking (r : Report) (failOn : Value) : Except Refusal Bool := do
  return !(← r.findingsAtOrAbove failOn).isEmpty

/-- The document of a report. -/
def verdictDocument (r : Report) (failOn : Value) : Except Refusal Value := do
  let blocked ← r.isBlocking failOn
  return .record ([
    ("version", .text schemaVersion),
    ("tool", .record [("name", .text programName), ("version", .text programVersion)]),
    ("fail_on", failOn),
    ("blocked", .bool blocked)] ++ r.entries)

/-- The text of a report. -/
def text (r : Report) (failOn : Value) : Except Refusal String := do
  Json.write (← r.verdictDocument failOn)

end Report

end SecurityAudit
