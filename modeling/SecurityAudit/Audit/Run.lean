import SecurityAudit.Audit.Exclusion
import SecurityAudit.Audit.Target

/-!
# Running an audit

The targets of an audit wait in a queue, the files first, and are taken by workers in turn.  A
target that is not scanned by the end keeps its worker: whatever comes after the last worker is
taken is not scanned, and neither are the targets that the workers are kept by.

What has become of every target makes the report.  One order of the work is modelled: all targets
that get a worker and do not keep it are scanned one after another, as they come in the queue.  A
single worker has no other order.  Several workers have, and when findings are limited the orders
may give different results; `Pool` has the steps of workers that share a budget, in all orders.

The targets that are given up when the time is over are taken to leave the budget alone from then
on, so that the report reads the budget once.
-/

namespace SecurityAudit

namespace Audit

/-- What an audit is asked to look at.  The paths of the files are texts that can be encoded: those
of other names are left out with the names (`Tree`). -/
structure Request where
  files : List (String × Content) := []
  policies : List PolicySource := []
  scope : String := "codebase"
  warnings : List Warning := []

/-- What is particular about one run of an audit: the id of the report, the time that it takes, and
the files on which the first detector is not done by the end. -/
structure Occasion where
  id : String
  duration : Number := .float 0.0
  slow : List String := []

/-- The targets in the queue, the files that are skipped, and warnings about the policies that are
not looked at. -/
structure Queue where
  targets : List Target := []
  skipped : List String := []
  warnings : List Warning := []

namespace Queue

/-- A queue, and what follows it. -/
def append (a b : Queue) : Queue where
  targets := a.targets ++ b.targets
  skipped := a.skipped ++ b.skipped
  warnings := a.warnings ++ b.warnings

/-- What becomes of a file before anything is scanned. -/
def ofFile (a : Audit) (path : String) (content : Content) : Except Refusal Queue := do
  if ← Exclusion.covers a.settings.scan.exclusions path then
    return { skipped := [path ++ " (excluded)"] }
  else if a.detectors.isEmpty then
    return { skipped := [path ++ " (no file scan types enabled)"] }
  else return { targets := [.file path content] }

/-- What becomes of a policy before anything is scanned. -/
def ofPolicy (a : Audit) (index : Nat) (source : PolicySource) : Queue :=
  let label := source.label index
  match a.review with
  | none => { warnings := [⟨"policy", label, "IAM scan type not enabled; policy not analyzed"⟩] }
  | some _ => { targets := [.policy label source] }

/-- The policies can be named: the names that they give themselves can be written out. -/
def checkNames (policies : List PolicySource) : Except Refusal Unit :=
  if policies.all PolicySource.canBeNamed then .ok () else .error .badValue

/-- The queue of a request. -/
def ofRequest (a : Audit) (r : Request) : Except Refusal Queue := do
  let files ← r.files.mapM fun (path, content) => ofFile a path content
  checkNames r.policies
  let policies := r.policies.zipIdx.map fun (source, i) => ofPolicy a i source
  return (files ++ policies).foldl append {}

end Queue

/-- The workers that are free, and the budget. -/
structure Resources where
  workers : Nat
  budget : Budget

/-- A target keeps its worker: a slow file that is read, if its first detector is run at all. -/
def keepsWorker (occasion : Occasion) (budget : Budget) : Target → Bool
  | .file path content =>
    occasion.slow.contains path && !budget.isExhausted &&
      (SourceFile.read .utf8 path content).isOk
  | .policy _ _ => false

/-- See to one target. -/
def attend (a : Audit) (occasion : Occasion) (r : Resources) (t : Target) :
    Except (Fault Problem) (Outcome × Resources) := do
  match r.workers with
  | 0 => return (.timedOut, r)
  | free + 1 =>
    if keepsWorker occasion r.budget t then return (.timedOut, { r with workers := free })
    else
      let (outcome, budget) ← a.scan r.budget t
      return (outcome, { r with budget })

/-- See to the targets in the queue. -/
def attendAll (a : Audit) (occasion : Occasion) (r : Resources) :
    List Target → Except (Fault Problem) (List (Target × Outcome) × Budget)
  | [] => .ok ([], r.budget)
  | t :: rest => do
    let (outcome, r) ← a.attend occasion r t
    let (outcomes, budget) ← attendAll a occasion r rest
    return ((t, outcome) :: outcomes, budget)

/-- The number of workers of a setting, at most `most`: the whole numbers below it count. -/
def workersOf (v : Value) (most : Nat) : Except Refusal Nat :=
  match v.number? with
  | none => .error .wrongKind
  | some n => .ok ((List.range most).takeWhile fun k => (Number.int (k : Nat)).below n).length

/-- The longest time that can be waited for, in seconds. -/
def longestWait : Int := 9223372036

/-- A number of seconds is too large to be added to the reading of a clock. -/
def isBeyondClock : Number → Bool
  | .int n => (Decimal.nearest (n < 0) n.natAbs 0).isInf
  | .float _ => false

/-- The targets can be waited for.  The first one is done by the time that the others are waited
for, so that it alone is waited for in any case. -/
def checkTimeout (timeout : Value) (targets : List Target) : Except Refusal Unit :=
  match timeout.number?, targets with
  | some t, _ :: others =>
    if isBeyondClock t || (!others.isEmpty && (Number.int longestWait).below t) then
      .error .tooLarge
    else .ok ()
  | _, _ => .ok ()

/-- The warning about a target that the time was over for. -/
def timeoutWarning (timeout : Value) (t : Target) : Warning where
  kind := "timeout"
  target := t.label
  message := t.kind ++ " not scanned before the " ++ timeout.shown ++ "s timeout"

/-- The warning about a budget that did not suffice. -/
def budgetWarning (scope : String) (limit : Value) : Warning where
  kind := "truncated"
  target := scope
  message := "max_findings=" ++ limit.shown ++ " reached; further files were not scanned"

/-- What has been found about a target, if it has been scanned. -/
def foundOf? : Target × Outcome → Option Found
  | (_, .scanned found) => some found
  | _ => none

/-- The warning about a target, if there is one. -/
def warningOf? (timeout : Value) : Target × Outcome → Option Warning
  | (_, .left w) => some w
  | (t, .timedOut) => some (timeoutWarning timeout t)
  | (_, .scanned _) => none

/-- A target has been scanned and is of a kind. -/
def isScanned (kind : String) : Target × Outcome → Bool
  | (t, .scanned _) => t.kind == kind
  | _ => false

/-- The time was over for a target. -/
def isTimedOut : Target × Outcome → Bool
  | (_, .timedOut) => true
  | _ => false

/-- The place of a warning before another. -/
def warningOrder (a b : Warning) : Ordering :=
  (compare a.kind b.kind).then ((compare a.target b.target).then (compare a.message b.message))

/-- What a report says besides its findings, after all targets have been seen to.  That the budget
did not suffice is said twice, by a warning and by an entry; both are read from the budget as it is
when the work ends. -/
def circumstances (a : Audit) (occasion : Occasion) (request : Request) (queue : Queue)
    (outcomes : List (Target × Outcome)) (budget : Budget) : Report.Circumstances :=
  let scan := a.settings.scan
  let atEnd := if budget.truncated then [budgetWarning request.scope scan.maxFindings] else []
  let warnings := request.warnings ++ queue.warnings ++
    outcomes.filterMap (warningOf? scan.timeout) ++ atEnd
  { id := occasion.id
    scope := request.scope
    now := a.now
    warnings := warnings.mergeSort fun v w => (warningOrder v w).isLE
    skippedFiles := queue.skipped
    suppressed := (outcomes.filterMap foundOf?).flatMap Found.suppressed
    totals := {
      files := .int (outcomes.countP (isScanned "file"))
      policies := .int (outcomes.countP (isScanned "policy"))
      incomplete := outcomes.any isTimedOut
      truncated := budget.truncated }
    duration := occasion.duration }

/-- Run an audit. -/
def run (a : Audit) (occasion : Occasion) (request : Request) :
    Except (Fault Problem) Report := do
  let queue ← allowing (Queue.ofRequest a request)
  let budget ← allowing (Budget.ofValue a.settings.scan.maxFindings)
  let workers ← allowing (workersOf a.settings.scan.workers queue.targets.length)
  allowing (checkTimeout a.settings.scan.timeout queue.targets)
  let (outcomes, budget) ← a.attendAll occasion ⟨workers, budget⟩ queue.targets
  let streams := (outcomes.filterMap foundOf?).map Found.findings
  allowing (Report.aggregate a.threshold streams
    (a.circumstances occasion request queue outcomes budget))

end Audit

end SecurityAudit
