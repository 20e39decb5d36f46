import SecurityAudit.Report.Basic

/-!
# Aggregation

How the findings of an audit become a report.  Those below the threshold are left out; the others
are put in order: by severity, the gravest first, then by file, line, rule and id.  Everything else
in a report about the findings follows from that list.

Rules can be compared only if their ids are of one kind.  Findings of the same severity on the same
line whose rules cannot be compared cannot be put in order.
-/

namespace SecurityAudit

namespace Finding

/-- The place of a finding before another, by severity, file and line. -/
def placeOrder (a b : Finding) : Ordering :=
  (compare (Severity.rankOf b.severity) (Severity.rankOf a.severity)).then
    ((compare a.file b.file).then (compare a.line b.line))

/-- A finding comes before another.  Of two in the same place, neither does when their rules have no
order. -/
def isBefore (a b : Finding) : Bool :=
  match placeOrder a b with
  | .lt => true
  | .gt => false
  | .eq =>
    match a.ruleId.order? b.ruleId with
    | some o => o.then (compare a.id b.id) == .lt
    | none => false

/-- Two findings can be asked which of them comes first. -/
def comparable (a b : Finding) : Bool :=
  placeOrder a b != .eq || a.ruleId.same b.ruleId || a.ruleId.isComparable b.ruleId

/-- Each finding and the next one can be asked which of them comes first. -/
def allComparable : List Finding → Bool
  | a :: b :: rest => comparable a b && allComparable (b :: rest)
  | _ => true

/-- Findings in order. -/
def sorted (fs : List Finding) : Except Refusal (List Finding) :=
  if allComparable (fs.mergeSort fun a b => (placeOrder a b).isLE) then
    .ok (fs.mergeSort fun a b => !isBefore b a)
  else .error .wrongKind

end Finding

namespace Report

/-- The findings at or above a threshold. -/
def kept (threshold : String) (fs : List Finding) : List Finding :=
  fs.filter fun f => Severity.atOrAbove f.severity threshold

/-- One more finding of a severity; a label that is no level comes after the levels. -/
def countLabel (counts : List (String × Nat)) (label : String) : List (String × Nat) :=
  match counts with
  | [] => [(label, 1)]
  | (l, n) :: rest => if l == label then (l, n + 1) :: rest else (l, n) :: countLabel rest label

/-- The number of findings of each severity, all levels included. -/
def countBySeverity (fs : List Finding) : List (String × Nat) :=
  (fs.map Finding.severity).foldl countLabel (Severity.levels.map fun l => (l.label, 0))

/-- The sum of some numbers. -/
def sumOf (ns : List Nat) : Nat :=
  ns.foldr (· + ·) 0

/-- The weight of a finding. -/
def weightOf (f : Finding) : Nat :=
  ((Severity.ofLabel? f.severity).map Severity.weight).getD 0

/-- The mean weight of findings to one decimal place, a half rounded up; zero for no findings. -/
def riskOf (fs : List Finding) : RiskScore :=
  let n := fs.length
  if n == 0 then ⟨0⟩ else ⟨(sumOf (fs.map weightOf) * 20 + n) / (2 * n)⟩

/-- The ids of findings. -/
def idsOf (fs : List Finding) : List String :=
  fs.map Finding.id

/-- A recommendation about some findings, if there are any. -/
def about (fs : List Finding) (make : Nat → List String → Recommendation) :
    List Recommendation :=
  if fs.isEmpty then [] else [make fs.length (idsOf fs)]

/-- The recommendation about critical findings. -/
def aboutCritical (n : Nat) (ids : List String) : Recommendation where
  priority := .immediate
  title := "Remediate " ++ toString n ++ " critical finding(s)"
  description := "Critical vulnerabilities are remotely exploitable or expose credentials; fix " ++
    "or mitigate them before the next release."
  findingIds := ids

/-- The recommendation about exposed secrets. -/
def aboutSecrets (n : Nat) (ids : List String) : Recommendation where
  priority := .immediate
  title := "Implement secrets management"
  description := toString n ++ " secret(s) found in source. Rotate them, purge them from " ++
    "history, and load credentials from a secrets manager or environment at runtime."
  findingIds := ids

/-- The recommendation about findings of high severity. -/
def aboutHigh (n : Nat) (ids : List String) : Recommendation where
  priority := .shortTerm
  title := "Address " ++ toString n ++ " high-severity finding(s)"
  description := "Schedule fixes for high-severity findings within the current cycle."
  findingIds := ids

/-- The recommendation that is always given. -/
def always : Recommendation where
  priority := .longTerm
  title := "Add continuous security scanning to CI/CD"
  description := "Run this audit on every pull request and block merges on new critical or high " ++
    "findings."
  findingIds := []

/-- What ought to be done about findings, the most urgent first. -/
def recommend (fs : List Finding) : List Recommendation :=
  about (fs.filter fun f => f.severity == "critical") aboutCritical ++
    about (fs.filter fun f => f.category == Finding.secretCategory) aboutSecrets ++
    about (fs.filter fun f => f.severity == "high") aboutHigh ++ [always]

/-- The number of findings of a label. -/
def countOf (counts : List (String × Nat)) (label : String) : Nat :=
  (counts.lookup label).getD 0

/-- A report in some sentences. -/
def summarise (scope : String) (counts : List (String × Nat)) (risk : RiskScore)
    (incomplete truncated : Bool) : String :=
  let total := sumOf (counts.map Prod.snd)
  let breakdown := Severity.levels.map fun l =>
    toString (countOf counts l.label) ++ " " ++ l.label
  let critical := countOf counts "critical"
  let onCritical :=
    if critical == 0 then "No critical vulnerabilities were identified."
    else if critical == 1 then "1 critical vulnerability requires immediate attention."
    else toString critical ++ " critical vulnerabilities require immediate attention."
  Text.join " " ([
    "Security audit of " ++ scope ++ " identified " ++ toString total ++ " finding(s): " ++
      Text.join ", " breakdown ++ ".",
    "Overall risk score: " ++ risk.text ++ "/10.",
    onCritical] ++
    (if incomplete then ["The scan timed out; results are incomplete."] else []) ++
    if truncated then ["The finding limit was reached; some files were not scanned."] else [])

/-- What a report says besides its findings. -/
structure Circumstances where
  id : String
  scope : String
  now : Calendar.Moment
  warnings : List Warning := []
  skippedFiles : List String := []
  suppressed : List Suppression := []
  totals : Coverage.Totals := {}
  duration : Number := .float 0.0

/-- The place of a suppression before another, by file and line. -/
def suppressionPlace (a b : Suppression) : Ordering :=
  (compare a.file b.file).then (compare a.line b.line)

/-- A suppression comes before another, by file, line and rule. -/
def isSuppressedBefore (a b : Suppression) : Bool :=
  (suppressionPlace a b).then ((a.rule.order? b.rule).getD .eq) == .lt

/-- Two suppressions can be asked which of them comes first. -/
def comparableSuppressions (a b : Suppression) : Bool :=
  suppressionPlace a b != .eq || a.rule.same b.rule || a.rule.isComparable b.rule

/-- Each suppression and the next one can be asked which of them comes first. -/
def allComparable : List Suppression → Bool
  | a :: b :: rest => comparableSuppressions a b && allComparable (b :: rest)
  | _ => true

/-- Suppressions in order. -/
def sortedSuppressions (ss : List Suppression) : Except Refusal (List Suppression) :=
  if allComparable (ss.mergeSort fun a b => (suppressionPlace a b).isLE) then
    .ok (ss.mergeSort fun a b => !isSuppressedBefore b a)
  else .error .wrongKind

/-- The report on streams of findings. -/
def aggregate (threshold : String) (streams : List (List Finding)) (c : Circumstances) :
    Except Refusal Report := do
  let merged := streams.flatten
  let findings ← Finding.sorted (kept threshold merged)
  let suppressed ← sortedSuppressions c.suppressed
  let counts := countBySeverity findings
  let risk := riskOf findings
  return {
    id := c.id
    scope := c.scope
    summary := summarise c.scope counts risk c.totals.incomplete c.totals.truncated
    findings
    risk
    recommendations := recommend findings
    generatedAt := c.now
    severityCounts := counts
    rawCount := merged.length
    warnings := c.warnings
    skippedFiles := c.skippedFiles.mergeSort
    suppressed
    totals := c.totals
    duration := c.duration }

/-- The threshold that a value is, if it is the label of a level. -/
def threshold? (v : Value) : Except (Fault Value) String :=
  if !v.isKey then refuse .wrongKind
  else
    match v.text?.filter fun label => (Severity.ofLabel? label).isSome with
    | some label => .ok label
    | none => failAbout v v

/-- The message about a threshold that is no level. -/
def unknownThreshold (v : Value) : String :=
  "Unknown severity threshold: " ++ v.quoted

end Report

end SecurityAudit
