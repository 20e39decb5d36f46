import SecurityAudit.Proofs.Outcome
import SecurityAudit.Report.Aggregate

/-!
# What a report is made of

A report is made when its findings and its suppressions can be put in order.  Putting them in order
loses none of them and adds none, so a report holds the findings that are kept, each as often as it
was found, and the suppressions, each as often as it was recorded.
-/

namespace SecurityAudit

/-- Findings can be put in order when each can be compared with the next one, in the order of their
places. -/
theorem Finding.sorted_eq_ok_iff {fs gs : List Finding} :
    Finding.sorted fs = .ok gs ↔
      allComparable (fs.mergeSort fun a b => (placeOrder a b).isLE) = true ∧
      (fs.mergeSort fun a b => !isBefore b a) = gs := by
  simp only [Finding.sorted]
  split <;> simp_all

/-- Putting findings in order keeps each of them. -/
theorem Finding.sorted_perm {fs gs : List Finding} (h : Finding.sorted fs = .ok gs) :
    gs.Perm fs := by
  obtain ⟨-, rfl⟩ := sorted_eq_ok_iff.mp h
  exact List.mergeSort_perm fs _

namespace Report

/-- Suppressions can be put in order when each can be compared with the next one, in the order of
their places. -/
theorem sortedSuppressions_eq_ok_iff {ss ts : List Suppression} :
    sortedSuppressions ss = .ok ts ↔
      allComparable (ss.mergeSort fun a b => (suppressionPlace a b).isLE) = true ∧
      (ss.mergeSort fun a b => !isSuppressedBefore b a) = ts := by
  simp only [sortedSuppressions]
  split <;> simp_all

/-- Putting suppressions in order keeps each of them. -/
theorem sortedSuppressions_perm {ss ts : List Suppression} (h : sortedSuppressions ss = .ok ts) :
    ts.Perm ss := by
  obtain ⟨-, rfl⟩ := sortedSuppressions_eq_ok_iff.mp h
  exact List.mergeSort_perm ss _

/-- The report on findings and suppressions that are in order, of so many that were found. -/
def ofSorted (c : Circumstances) (rawCount : Nat) (findings : List Finding)
    (suppressed : List Suppression) : Report where
  id := c.id
  scope := c.scope
  summary := summarise c.scope (countBySeverity findings) (riskOf findings) c.totals.incomplete
    c.totals.truncated
  findings := findings
  risk := riskOf findings
  recommendations := recommend findings
  generatedAt := c.now
  severityCounts := countBySeverity findings
  rawCount := rawCount
  warnings := c.warnings
  skippedFiles := c.skippedFiles.mergeSort
  suppressed := suppressed
  totals := c.totals
  duration := c.duration

/-- A report depends on its circumstances only so far: on what is warned about, what is skipped, in
whatever order, and the totals. -/
theorem ofSorted_congr {c c' : Circumstances} {rawCount : Nat} {findings : List Finding}
    {suppressed : List Suppression} (hscope : c'.scope = c.scope) (hnow : c'.now = c.now)
    (hwarnings : c'.warnings = c.warnings)
    (hskipped : c'.skippedFiles.mergeSort = c.skippedFiles.mergeSort)
    (htotals : c'.totals = c.totals) :
    ofSorted c' rawCount findings suppressed =
      { ofSorted c rawCount findings suppressed with id := c'.id, duration := c'.duration } := by
  simp only [ofSorted, hscope, hnow, hwarnings, hskipped, htotals]

/-- **How a report is made.**  It is the report on the findings that are kept and the suppressions,
if both can be put in order. -/
theorem aggregate_eq_ok_iff {threshold : String} {streams : List (List Finding)}
    {c : Circumstances} {report : Report} :
    aggregate threshold streams c = .ok report ↔
      ∃ findings suppressed,
        Finding.sorted (kept threshold streams.flatten) = .ok findings ∧
        sortedSuppressions c.suppressed = .ok suppressed ∧
        ofSorted c streams.flatten.length findings suppressed = report := by
  simp only [aggregate, bind_eq_ok_iff, pure_eq_ok_iff]
  constructor
  · rintro ⟨findings, hf, suppressed, hs, h⟩
    exact ⟨findings, suppressed, hf, hs, h⟩
  · rintro ⟨findings, suppressed, hf, hs, h⟩
    exact ⟨findings, hf, suppressed, hs, h⟩

/-- When other circumstances change every report in the same way, they change the report on some
streams of findings in that way. -/
theorem aggregate_map {c c' : Circumstances} {change : Report → Report}
    (hsuppressed : c'.suppressed = c.suppressed)
    (h : ∀ rawCount findings suppressed, ofSorted c' rawCount findings suppressed =
      change (ofSorted c rawCount findings suppressed))
    (threshold : String) (streams : List (List Finding)) :
    aggregate threshold streams c' = (aggregate threshold streams c).map change := by
  simp only [aggregate, hsuppressed]
  cases Finding.sorted (kept threshold streams.flatten) with
  | error r => rfl
  | ok findings =>
      cases sortedSuppressions c.suppressed with
      | error r => rfl
      | ok suppressed => exact congrArg Except.ok (h _ findings suppressed)

end Report

end SecurityAudit
