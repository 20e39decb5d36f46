import SecurityAudit.Audit.Basic
import SecurityAudit.Audit.Budget
import SecurityAudit.Iam.Document

/-!
# Targets

What an audit looks at one by one: files, and after them policies.  A target is scanned, or it turns
out to be unfit to be scanned and is left with a warning.  Findings that a marker in the file covers
are put aside.

If scanning fails, the whole audit does; the problem names the target, and nothing of what it holds.
-/

namespace SecurityAudit

/-- A policy as it is given to an audit: as a document, or read already. -/
inductive PolicySource where
  | document (v : Value)
  | policy (p : Iam.Policy)

/-- The name of a policy in warnings: the one that it gives itself, or else its place among the
policies. -/
def PolicySource.label (index : Nat) : PolicySource → RawText
  | .policy p => p.name
  | .document v =>
    match Iam.nameOf? v with
    | some name => name.plain
    | none => ("policy[" ++ toString index ++ "]" : String)

/-- The name that a policy gives itself can be written out. -/
def PolicySource.canBeNamed : PolicySource → Bool
  | .policy _ => true
  | .document v => (Iam.nameOf? v).all Value.isWritable

/-- Something to be scanned. -/
inductive Target where
  | file (path : String) (content : Content)
  | policy (label : RawText) (source : PolicySource)

namespace Target

/-- The kind of a target in messages. -/
def kind : Target → String
  | .file _ _ => "file"
  | .policy _ _ => "policy"

/-- The name of a target in messages. -/
def label : Target → RawText
  | .file path _ => path
  | .policy label _ => label

end Target

/-- The findings about a target that stay, and the records of those that are suppressed. -/
structure Found where
  findings : List Finding := []
  suppressed : List Suppression := []

namespace Found

/-- What has been found, and then more. -/
def append (a b : Found) : Found where
  findings := a.findings ++ b.findings
  suppressed := a.suppressed ++ b.suppressed

/-- Put aside the findings that are covered. -/
def sift (cs : Coverings) : List Finding → Except Refusal Found
  | [] => .ok {}
  | f :: rest => do
    let record ← Suppression.check? cs f.ruleId f.file f.line
    let found ← sift cs rest
    match record with
    | some s => return { found with suppressed := s :: found.suppressed }
    | none => return { found with findings := f :: found.findings }

end Found

/-- How it went with a target. -/
inductive Outcome where
  /-- The target is scanned. -/
  | scanned (found : Found)
  /-- The target is unfit to be scanned. -/
  | left (w : Warning)
  /-- The time was over before the target was scanned. -/
  | timedOut

namespace Audit

/-- Why an audit ends without a report. -/
inductive Problem where
  | targetFailed (kind : String) (label : RawText) (r : Refusal)
  deriving Repr, DecidableEq, Inhabited

/-- The message of a problem. -/
def Problem.message : Problem → String
  | .targetFailed kind label r =>
    "Internal scanner error on " ++ kind ++ " " ++ label.quoted ++ ": " ++ r.name ++
      ". Matched values have been scrubbed from this error."

/-- The coverings of the lines of a file. -/
def coveringsOf (f : SourceFile) : Coverings :=
  Coverings.ofLines none (f.numbered.map fun (number, line) => ((number : Int), line))

/-- Run a detector on a file, unless the budget is exhausted; what it finds is admitted by the
budget. -/
def detect (a : Audit) (f : SourceFile) (cs : Coverings) (state : Found × Budget)
    (d : FileDetector) : Except Refusal (Found × Budget) := do
  let (found, budget) := state
  if budget.isExhausted then return (found, budget.noteSkip)
  else
    let more ← Found.sift cs (← d.run a.now f)
    let (admitted, budget) ← budget.accept more.findings
    return (found.append { more with findings := admitted }, budget)

/-- Run all detectors on a file. -/
def scanSource (a : Audit) (budget : Budget) (f : SourceFile) : Except Refusal (Found × Budget) :=
  a.detectors.foldlM (a.detect f (coveringsOf f)) ({}, budget)

/-- Scan a file. -/
def scanFile (a : Audit) (budget : Budget) (path : String) (content : Content) :
    Except Refusal (Outcome × Budget) :=
  match SourceFile.read .utf8 path content with
  | .error p => .ok (.left ⟨"source", path, p.message⟩, budget)
  | .ok f => do
    let (found, budget) ← a.scanSource budget f
    return (.scanned found, budget)

/-- Scan a policy. -/
def scanPolicy (a : Audit) (label : RawText) (source : PolicySource) : Except Refusal Outcome := do
  let policy : Iam.Reading Iam.Policy := match source with
    | .policy p => .ok p
    | .document v => Iam.Policy.ofDocument v
  match policy with
  | .error (.problem p) => return .left ⟨"policy", label, p.message⟩
  | .error (.refused r) => .error r
  | .ok p =>
    match a.review with
    | none => return .scanned {}
    | some review => return .scanned { findings := ← review.run p }

/-- Scan a target. -/
def scan (a : Audit) (budget : Budget) (t : Target) :
    Except (Fault Problem) (Outcome × Budget) :=
  let outcome := match t with
    | .file path content => a.scanFile budget path content
    | .policy label source => do return (← a.scanPolicy label source, budget)
  match outcome with
  | .ok result => .ok result
  | .error r => fail (.targetFailed t.kind t.label r)

end Audit

end SecurityAudit
