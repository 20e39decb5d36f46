import SecurityAudit.Proofs.Omission
import SecurityAudit.Proofs.SortWithin

/-!
# Raising the threshold

The findings of a report stand in the order of their severities, the gravest first.  Two readings
of a severity meet there: the order ranks it, and the threshold asks whether its rank is reached.
Both give a label that names no level the lowest rank.  So whatever the labels are, the findings
that reach a level stand at the front, and a higher threshold cuts off the end of the report.
-/

namespace SecurityAudit

namespace Finding

/-- The rank of a finding among the severities. -/
def rank (x : Finding) : Nat :=
  Severity.rankOf x.severity

/-- Rules that are texts are no floats. -/
theorem isNaN_of_texts {fs : List Finding} (h : ∀ x ∈ fs, ∃ id, x.ruleId = .text id) :
    ∀ x ∈ fs, x.ruleId.isNaN = false := by
  intro x hx
  obtain ⟨id, hid⟩ := h x hx
  rw [hid]
  rfl

/-- A finding that does not come after another is at least as grave. -/
theorem rank_le_of_isLE {a b : Finding}
    (h : (Arrangement.fullOrder placeOrder Finding.ruleId Finding.id a b).isLE = true) :
    b.rank ≤ a.rank := by
  have hplace : (placeOrder a b).isLE = true := Ordering.isLE_left_of_isLE_then h
  have hrank : (compare b.rank a.rank).isLE = true := Ordering.isLE_left_of_isLE_then hplace
  exact Nat.isLE_compare.mp hrank

/-- Of findings in order, none is graver than one before it. -/
theorem rank_pairwise_of_sorted {fs gs : List Finding}
    (hnumbers : ∀ x ∈ fs, x.ruleId.isNaN = false) (h : sorted fs = .ok gs) :
    gs.Pairwise fun a b => b.rank ≤ a.rank := by
  rw [sorted_eq_mergeSort hnumbers h]
  exact (Sorting.pairwise_mergeSort fs).imp rank_le_of_isLE

/-- **It is the same to leave findings out before they are put in order or after.** -/
theorem sorted_filter {fs gs : List Finding} (hnumbers : ∀ x ∈ fs, x.ruleId.isNaN = false)
    (h : sorted fs = .ok gs) (p : Finding → Bool) :
    sorted (fs.filter p) = .ok (gs.filter p) := by
  obtain ⟨some, hsome⟩ := exists_sorted_of_sublist (List.filter_sublist (p := p)) h
  have hfewer : ∀ x ∈ fs.filter p, x.ruleId.isNaN = false :=
    fun x hx => hnumbers x (List.mem_filter.mp hx).1
  rw [hsome, sorted_eq_mergeSort hfewer hsome, sorted_eq_mergeSort hnumbers h,
    Sorting.mergeSort_filter]

/-- A finding with nothing but what it is put in order by. -/
def plain (severity file : String) (line : Int) (rule id : String) : Finding where
  id := id
  ruleId := .text rule
  title := .null
  description := .null
  severity := severity
  category := "injection"
  file := file
  line := line
  evidence := ""
  remediation := .null
  cvss := none
  references := []
  cwe := none
  cve := none
  entropy := none
  status := "open"
  detectedAt := ⟨0, none⟩

end Finding

namespace Report

/-- Findings at or above a threshold are those of its rank or above. -/
theorem kept_eq (threshold : String) (fs : List Finding) :
    kept threshold fs = fs.filter fun x => Severity.rankOf threshold ≤ x.rank := rfl

/-- What is kept at a higher threshold is kept at a lower one, and more besides. -/
theorem kept_kept {s t : String} (hle : Severity.rankOf s ≤ Severity.rankOf t)
    (fs : List Finding) : kept t fs = kept t (kept s fs) := by
  simp only [kept_eq, List.filter_filter]
  refine List.filter_congr fun x _ => ?_
  by_cases ht : Severity.rankOf t ≤ x.rank
  · have hs := hle.trans ht
    simp [ht, hs]
  · simp [ht]

/-- What is kept of findings in order stands at their front. -/
theorem kept_prefix {fs : List Finding} (h : fs.Pairwise fun a b => b.rank ≤ a.rank)
    (threshold : String) : kept threshold fs <+: fs :=
  Sorting.filter_prefix_of_pairwise h (Severity.rankOf threshold)

/-- The findings at or above a level are those that a threshold at the level keeps. -/
theorem findingsAtOrAbove_text (r : Report) (level : String) :
    r.findingsAtOrAbove (.text level) = .ok (kept level r.findings) := by
  cases hfindings : r.findings with
  | nil =>
      rw [findingsAtOrAbove, hfindings]
      rfl
  | cons x fs =>
      rw [findingsAtOrAbove, hfindings]
      rfl

/-- Findings and suppressions whose rules are texts can be reported on at any threshold. -/
theorem exists_aggregate_of_texts {threshold : String} {streams : List (List Finding)}
    {c : Circumstances} (hrules : ∀ x ∈ streams.flatten, ∃ id, x.ruleId = .text id)
    (hsuppressed : ∀ s ∈ c.suppressed, ∃ id, s.rule = .text id) :
    ∃ report, aggregate threshold streams c = .ok report := by
  obtain ⟨findings, hfindings⟩ := Finding.exists_sorted_of_texts
    fun x (hx : x ∈ kept threshold streams.flatten) => hrules x (List.mem_filter.mp hx).1
  obtain ⟨suppressed, hsorted⟩ := exists_sortedSuppressions_of_texts hsuppressed
  exact ⟨_, aggregate_eq_ok_iff.mpr ⟨findings, suppressed, hfindings, hsorted, rfl⟩⟩

/-- **A higher threshold cuts off the end of a report.**  Let one threshold rank at or below another
one, and let no rule be a float that is no number.  Whatever labels the findings have for
severities, if there is a report at the lower threshold, there is one at the higher, its findings
are an initial segment, and as many were found.  The findings of the report that reach any one
level, such as the one at which a scan fails, are an initial segment as well.  If all rules are
texts, there is a report. -/
theorem aggregate_raise {s t : String} (hle : Severity.rankOf s ≤ Severity.rankOf t)
    {streams : List (List Finding)} (hnumbers : ∀ x ∈ streams.flatten, x.ruleId.isNaN = false)
    (c : Circumstances) :
    (∀ low, aggregate s streams c = .ok low →
      (∃ high, aggregate t streams c = .ok high ∧
        high.findings <+: low.findings ∧ high.rawCount = low.rawCount) ∧
      ∀ level, ∃ fs, low.findingsAtOrAbove (.text level) = .ok fs ∧ fs <+: low.findings) ∧
    ((∀ x ∈ streams.flatten, ∃ id, x.ruleId = .text id) →
      (∀ x ∈ c.suppressed, ∃ id, x.rule = .text id) →
      ∃ low, aggregate s streams c = .ok low) := by
  refine ⟨fun low hlow => ?_, exists_aggregate_of_texts⟩
  obtain ⟨findings, suppressed, hfindings, hsuppressed, rfl⟩ := aggregate_eq_ok_iff.mp hlow
  have hkept : ∀ x ∈ kept s streams.flatten, x.ruleId.isNaN = false :=
    fun x hx => hnumbers x (List.mem_filter.mp hx).1
  have hranks := Finding.rank_pairwise_of_sorted hkept hfindings
  constructor
  · -- What the higher threshold keeps is what it keeps of the findings at the lower one.
    have hhigh : Finding.sorted (kept t streams.flatten) = .ok (kept t findings) := by
      rw [kept_kept hle]
      exact Finding.sorted_filter hkept hfindings _
    exact ⟨_, aggregate_eq_ok_iff.mpr ⟨_, _, hhigh, hsuppressed, rfl⟩,
      kept_prefix hranks t, rfl⟩
  · intro level
    exact ⟨_, findingsAtOrAbove_text _ level, kept_prefix hranks level⟩

/-- A report of which nothing is known but its findings. -/
def unadorned : Circumstances where
  id := "1"
  scope := "all"
  now := ⟨0, none⟩

/-- Findings of four severities, one of which is no level. -/
def mixedStreams : List (List Finding) :=
  [[.plain "odd" "b.py" 1 "R1" "1", .plain "high" "b.py" 2 "R1" "2"],
    [.plain "critical" "c.py" 1 "R2" "3", .plain "low" "a.py" 9 "R2" "4"]]

/-- Of four findings the threshold `high` leaves the first two of those that `low` leaves; as many
are found. -/
theorem aggregate_raise_mixed :
    Severity.rankOf "low" ≤ Severity.rankOf "high" ∧
    ∃ low high,
      aggregate "low" mixedStreams unadorned = .ok low ∧
      aggregate "high" mixedStreams unadorned = .ok high ∧
      high.findings <+: low.findings ∧
      low.findings.map Finding.id = ["3", "2", "4"] ∧
      high.findings.length = 2 ∧ high.rawCount = low.rawCount := by
  have hle : Severity.rankOf "low" ≤ Severity.rankOf "high" := by decide
  have htexts : ∀ x ∈ mixedStreams.flatten, ∃ id, x.ruleId = .text id := by
    simp [mixedStreams, Finding.plain]
  obtain ⟨hraise, hexists⟩ := aggregate_raise hle (Finding.isNaN_of_texts htexts)
    unadorned
  obtain ⟨low, hlow⟩ := hexists htexts (List.forall_mem_nil _)
  obtain ⟨⟨high, hhigh, hprefix, hcount⟩, -⟩ := hraise low hlow
  have hsorted : ((aggregate "low" mixedStreams unadorned).toOption.any fun report =>
      report.findings.map Finding.id == ["3", "2", "4"]) = true := by
    simp only [aggregate, Finding.sorted, sortedSuppressions, Sorting.mergeSort_eq_sortWithin]
    decide +kernel
  have htwo : ((aggregate "high" mixedStreams unadorned).toOption.any fun report =>
      report.findings.length == 2) = true := by
    simp only [aggregate, Finding.sorted, sortedSuppressions, Sorting.mergeSort_eq_sortWithin]
    decide +kernel
  rw [hlow] at hsorted
  rw [hhigh] at htwo
  exact ⟨hle, low, high, hlow, hhigh, hprefix, eq_of_beq hsorted, eq_of_beq htwo, hcount⟩

end Report

end SecurityAudit
