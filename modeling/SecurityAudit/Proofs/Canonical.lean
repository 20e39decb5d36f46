import Mathlib.Data.String.Basic
import SecurityAudit.Proofs.Threshold

/-!
# One order for the same findings

Findings are compared by five things, one after another: the rank of the severity, the highest
first, the file, the line, the rule and the id.  If findings that agree in all five are equal, there
is one way only to put them in order.  A report depends on the findings through that one list and
through their number, so it is the same however the findings are mixed and however they are divided
into streams, and what is in order already stays as it is.

It is the rank that counts, not the severity itself: severities that name no level rank alike, and
findings that differ in them alone stay as they came (`exists_order_of_unknown_severities`).
-/

namespace SecurityAudit

/-- Labels of levels that have the same rank are the same. -/
theorem Severity.label_eq_of_rankOf_eq {l m : Severity}
    (h : Severity.rankOf l.label = Severity.rankOf m.label) : l.label = m.label := by
  cases l <;> cases m <;> first | rfl | exact absurd h (by decide)

namespace Finding

/-- The rules of all findings are keys, and none is a float that is no number. -/
def RulesOrdered (fs : List Finding) : Prop :=
  ∀ x ∈ fs, x.ruleId.isKey = true ∧ x.ruleId.isNaN = false

/-- Two findings agree in the five things by which they are compared.  Of a severity that is its
rank: of the labels of levels, each has a rank of its own, and the labels that name none all have
the lowest. -/
def Ties (a b : Finding) : Prop :=
  a.rank = b.rank ∧ a.file = b.file ∧ a.line = b.line ∧
    a.ruleId.order? b.ruleId = some .eq ∧ a.id = b.id

/-- A finding stands before another one or at the same place: the first of the five things in which
they differ comes first. -/
def StandsBefore (a b : Finding) : Prop :=
  b.rank < a.rank ∨ a.rank = b.rank ∧
    (a.file < b.file ∨ a.file = b.file ∧
      (a.line < b.line ∨ a.line = b.line ∧
        (a.ruleId.order? b.ruleId = some .lt ∨ a.ruleId.order? b.ruleId = some .eq ∧
          a.id ≤ b.id)))

theorem RulesOrdered.of_perm {as bs : List Finding} (h : RulesOrdered as) (hperm : as.Perm bs) :
    RulesOrdered bs :=
  fun x hx => h x (hperm.mem_iff.mpr hx)

theorem RulesOrdered.kept {as : List Finding} (h : RulesOrdered as) (threshold : String) :
    RulesOrdered (Report.kept threshold as) :=
  fun x hx => h x (List.mem_filter.mp hx).1

theorem RulesOrdered.isNaN {as : List Finding} (h : RulesOrdered as) :
    ∀ x ∈ as, x.ruleId.isNaN = false :=
  fun x hx => (h x hx).2

theorem rulesOrdered_of_texts {as : List Finding} (h : ∀ x ∈ as, ∃ id, x.ruleId = .text id) :
    RulesOrdered as := by
  intro x hx
  obtain ⟨id, hid⟩ := h x hx
  rw [hid]
  exact ⟨rfl, rfl⟩

/-- Where severities are levels and rules are texts, findings agree when their severities, files,
lines, rules and ids are the same. -/
theorem ties_iff_of_levels {a b : Finding} {l m : Severity} {r s : String}
    (hl : a.severity = l.label) (hm : b.severity = m.label) (hr : a.ruleId = .text r)
    (hs : b.ruleId = .text s) :
    Ties a b ↔ a.severity = b.severity ∧ a.file = b.file ∧ a.line = b.line ∧
      a.ruleId = b.ruleId ∧ a.id = b.id := by
  have hrank : a.rank = b.rank ↔ a.severity = b.severity := by
    constructor
    · intro h
      rw [rank, rank, hl, hm] at h
      rw [hl, hm]
      exact Severity.label_eq_of_rankOf_eq h
    · intro h
      rw [rank, rank, h]
  have hrule : a.ruleId.order? b.ruleId = some .eq ↔ a.ruleId = b.ruleId := by
    rw [hr, hs]
    simp [Value.order?]
  rw [Ties, hrank, hrule]

/-- Findings with nothing but what they are put in order by are equal if they agree. -/
theorem plain_eq_of_ties {l m : Severity} {file file' rule rule' id id' : String}
    {line line' : Int}
    (h : Ties (plain l.label file line rule id) (plain m.label file' line' rule' id')) :
    plain l.label file line rule id = plain m.label file' line' rule' id' := by
  obtain ⟨hseverity, hfile, hline, hrule, hid⟩ := (ties_iff_of_levels rfl rfl rfl rfl).mp h
  simp only [plain] at hseverity hfile hline hrule hid ⊢
  rw [hseverity, hfile, hline, hrule, hid]

/-- Findings in one place have the same rank, file and line. -/
theorem placeOrder_eq_eq_iff {a b : Finding} :
    placeOrder a b = .eq ↔ a.rank = b.rank ∧ a.file = b.file ∧ a.line = b.line := by
  simp only [placeOrder, Ordering.then_eq_eq, compare_eq_iff_eq]
  exact and_congr_left fun _ => eq_comm

/-- A finding comes before another in place when its rank is higher, or else its file comes first,
or else its line. -/
theorem placeOrder_eq_lt_iff {a b : Finding} :
    placeOrder a b = .lt ↔ b.rank < a.rank ∨ a.rank = b.rank ∧
      (a.file < b.file ∨ a.file = b.file ∧ a.line < b.line) := by
  simp only [placeOrder, Ordering.then_eq_lt, compare_lt_iff_lt, compare_eq_iff_eq]
  rw [eq_comm (a := Severity.rankOf b.severity)]
  rfl

/-- The order of findings, without the places. -/
theorem fullOrder_eq {a b : Finding} (ha : a.ruleId.isKey = true ∧ a.ruleId.isNaN = false)
    (hb : b.ruleId.isKey = true ∧ b.ruleId.isNaN = false)
    (hkind : placeOrder a b = .eq → a.ruleId.kind = b.ruleId.kind) :
    ∃ o, (placeOrder a b = .eq → a.ruleId.order? b.ruleId = some o) ∧
      Arrangement.fullOrder placeOrder Finding.ruleId Finding.id a b =
        (placeOrder a b).then (o.then (compare a.id b.id)) := by
  refine ⟨(compare a.ruleId.quantity b.ruleId.quantity).then
    (compare a.ruleId.spelling b.ruleId.spelling), fun hplace => ?_, ?_⟩
  · exact Value.order?_eq ha.2 hb.2 (hkind hplace) ha.1
  · simp only [Arrangement.fullOrder, compareLex, compareOn, Arrangement.tieOfKey, ha.1, hb.1,
      if_true, Ordering.then_assoc]

/-- Findings that tie in the order agree. -/
theorem ties_of_fullOrder {a b : Finding} (ha : a.ruleId.isKey = true ∧ a.ruleId.isNaN = false)
    (hb : b.ruleId.isKey = true ∧ b.ruleId.isNaN = false)
    (hkind : placeOrder a b = .eq → a.ruleId.kind = b.ruleId.kind)
    (h : Arrangement.fullOrder placeOrder Finding.ruleId Finding.id a b = .eq) : Ties a b := by
  obtain ⟨o, horder, hfull⟩ := fullOrder_eq ha hb hkind
  rw [hfull, Ordering.then_eq_eq, Ordering.then_eq_eq] at h
  obtain ⟨hplace, rfl, hid⟩ := h
  obtain ⟨hrank, hfile, hline⟩ := placeOrder_eq_eq_iff.mp hplace
  exact ⟨hrank, hfile, hline, horder hplace, compare_eq_iff_eq.mp hid⟩

/-- Findings that do not come after others in the order stand before them. -/
theorem standsBefore_of_fullOrder {a b : Finding}
    (ha : a.ruleId.isKey = true ∧ a.ruleId.isNaN = false)
    (hb : b.ruleId.isKey = true ∧ b.ruleId.isNaN = false)
    (hkind : placeOrder a b = .eq → a.ruleId.kind = b.ruleId.kind)
    (h : (Arrangement.fullOrder placeOrder Finding.ruleId Finding.id a b).isLE = true) :
    StandsBefore a b := by
  obtain ⟨o, horder, hfull⟩ := fullOrder_eq ha hb hkind
  rw [hfull] at h
  rcases Ordering.isLE_then_iff_or.mp h with hplace | ⟨hplace, h⟩
  · rcases placeOrder_eq_lt_iff.mp hplace with hrank | ⟨hrank, hfile | ⟨hfile, hline⟩⟩
    · exact .inl hrank
    · exact .inr ⟨hrank, .inl hfile⟩
    · exact .inr ⟨hrank, .inr ⟨hfile, .inl hline⟩⟩
  · obtain ⟨hrank, hfile, hline⟩ := placeOrder_eq_eq_iff.mp hplace
    refine .inr ⟨hrank, .inr ⟨hfile, .inr ⟨hline, ?_⟩⟩⟩
    rcases Ordering.isLE_then_iff_or.mp h with rfl | ⟨rfl, hid⟩
    · exact .inl (horder hplace)
    · exact .inr ⟨horder hplace, compare_le_iff_le.mp (Ordering.isLE_iff_ne_gt.mp hid)⟩

/-- Findings in one place that can be put in order have rules of one kind. -/
theorem kind_eq_of_sorted {as fs : List Finding} (h : sorted as = .ok fs) :
    ∀ a ∈ as, ∀ b ∈ as, placeOrder a b = .eq → a.ruleId.kind = b.ruleId.kind := by
  obtain ⟨hcomparable, -⟩ := sorted_eq_ok_iff.mp h
  exact Arrangement.kind_eq_of_chain (chain_of_allComparable hcomparable)

/-- Findings can be put in order if in each place their rules are keys of one kind. -/
theorem exists_sorted_of_kind_eq {as : List Finding} (hrules : RulesOrdered as)
    (hkinds : ∀ a ∈ as, ∀ b ∈ as, placeOrder a b = .eq → a.ruleId.kind = b.ruleId.kind) :
    ∃ fs, sorted as = .ok fs := by
  refine ⟨_, sorted_eq_ok_iff.mpr ⟨allComparable_iff.mpr ?_, rfl⟩⟩
  refine (List.pairwise_of_forall_mem_list fun a ha b hb hplace => ?_).isChain
  have ha := List.mem_mergeSort.mp ha
  have hb := List.mem_mergeSort.mp hb
  have hcomparable := Value.isComparable_of_kind_eq (hkinds a ha b hb hplace) (hrules a ha).1
  rw [Arrangement.Comparable, hcomparable, Bool.or_true]

/-- **Findings are put in one order**, if those that agree are equal: however they are mixed, the
result is the same. -/
theorem sorted_eq_of_perm {as bs fs : List Finding} (hrules : RulesOrdered as)
    (hties : ∀ a ∈ as, ∀ b ∈ as, Ties a b → a = b) (hperm : as.Perm bs)
    (h : sorted as = .ok fs) : sorted bs = .ok fs := by
  have hkinds := kind_eq_of_sorted h
  have hmem : ∀ b ∈ bs, b ∈ as := fun b hb => hperm.mem_iff.mpr hb
  obtain ⟨gs, hgs⟩ := exists_sorted_of_kind_eq (hrules.of_perm hperm)
    fun a ha b hb => hkinds a (hmem a ha) b (hmem b hb)
  have hequal : ∀ a ∈ as, ∀ b ∈ as,
      Arrangement.fullOrder placeOrder Finding.ruleId Finding.id a b = .eq → a = b := by
    intro a ha b hb htie
    exact hties a ha b hb
      (ties_of_fullOrder (hrules a ha) (hrules b hb) (hkinds a ha b hb) htie)
  rw [hgs, sorted_eq_mergeSort hrules.isNaN h,
    sorted_eq_mergeSort (hrules.of_perm hperm).isNaN hgs,
    Sorting.mergeSort_eq_of_perm_of_mem hequal hperm]

/-- Findings that cannot be put in order cannot be, however they are mixed. -/
theorem sorted_congr_of_perm {as bs : List Finding} (hrules : RulesOrdered as)
    (hties : ∀ a ∈ as, ∀ b ∈ as, Ties a b → a = b) (hperm : as.Perm bs) :
    sorted as = sorted bs := by
  cases has : sorted as with
  | ok fs => exact (sorted_eq_of_perm hrules hties hperm has).symm
  | error r =>
      cases hbs : sorted bs with
      | error r' =>
          -- There is one reason only why findings cannot be put in order.
          rw [sorted] at has hbs
          split at has <;> cases has
          split at hbs <;> cases hbs
          rfl
      | ok fs =>
          have hties' : ∀ a ∈ bs, ∀ b ∈ bs, Ties a b → a = b := by
            intro a ha b hb
            exact hties a (hperm.mem_iff.mpr ha) b (hperm.mem_iff.mpr hb)
          rw [sorted_eq_of_perm (hrules.of_perm hperm) hties' hperm.symm hbs] at has
          cases has

/-- Of findings in order, each stands before those that follow it. -/
theorem standsBefore_of_sorted {as fs : List Finding} (hrules : RulesOrdered as)
    (h : sorted as = .ok fs) : fs.Pairwise StandsBefore := by
  have hkinds := kind_eq_of_sorted h
  rw [sorted_eq_mergeSort hrules.isNaN h]
  refine (Sorting.pairwise_mergeSort as).imp_of_mem fun {a b} ha hb hle => ?_
  have ha := List.mem_mergeSort.mp ha
  have hb := List.mem_mergeSort.mp hb
  exact standsBefore_of_fullOrder (hrules a ha) (hrules b hb) (hkinds a ha b hb) hle

end Finding

namespace Report

/-- What is kept is kept again. -/
theorem kept_of_perm {threshold : String} {fs gs : List Finding}
    (h : gs.Perm (kept threshold fs)) : kept threshold gs = gs := by
  refine List.filter_eq_self.mpr fun x hx => ?_
  exact (List.mem_filter.mp (h.mem_iff.mp hx)).2

/-- **A report is canonical.**  Let two collections of streams hold the same findings, each as often
as the other, with rules that have an order, and let those at or above the threshold be equal if
they have the same rank, file, line, rule and id.  Then they give the same report.  Its findings
stand by rank, file, line, rule and id; they are those at or above the threshold, each as often
as it was found, and the number of all that were found is given.  When the findings of the report,
in streams of whatever kind, are put together again at the same threshold, there is a report with
the same findings, and so with the same counts, the same risk and the same recommendations.  If all
rules are texts, there is a report. -/
theorem aggregate_canonical {threshold : String} {streams streams' : List (List Finding)}
    (hperm : streams.flatten.Perm streams'.flatten)
    (hrules : Finding.RulesOrdered streams.flatten)
    (hties : ∀ a ∈ kept threshold streams.flatten, ∀ b ∈ kept threshold streams.flatten,
      a.Ties b → a = b) (c : Circumstances) :
    aggregate threshold streams c = aggregate threshold streams' c ∧
    (∀ report, aggregate threshold streams c = .ok report →
      report.findings.Pairwise Finding.StandsBefore ∧
      report.findings.Perm
        (streams.flatten.filter fun x => Severity.atOrAbove x.severity threshold) ∧
      report.rawCount = streams.flatten.length ∧
      ∀ again c', again.flatten.Perm report.findings →
        (∃ suppressed, sortedSuppressions c'.suppressed = .ok suppressed) →
        ∃ report', aggregate threshold again c' = .ok report' ∧
          report'.findings = report.findings ∧
          report'.severityCounts = report.severityCounts ∧
          report'.risk = report.risk ∧ report'.recommendations = report.recommendations) ∧
    ((∀ x ∈ streams.flatten, ∃ id, x.ruleId = .text id) →
      (∀ x ∈ c.suppressed, ∃ id, x.rule = .text id) →
      ∃ report, aggregate threshold streams c = .ok report) := by
  have hrulesKept := hrules.kept threshold
  have hkept : (kept threshold streams.flatten).Perm (kept threshold streams'.flatten) :=
    hperm.filter _
  refine ⟨?_, fun report h => ?_, exists_aggregate_of_texts⟩
  · simp only [aggregate]
    rw [Finding.sorted_congr_of_perm hrulesKept hties hkept, hperm.length_eq]
  · obtain ⟨findings, suppressed, hfindings, -, rfl⟩ := aggregate_eq_ok_iff.mp h
    have hsame : findings.Perm (kept threshold streams.flatten) := Finding.sorted_perm hfindings
    refine ⟨Finding.standsBefore_of_sorted hrulesKept hfindings, hsame, rfl, ?_⟩
    rintro again c' hagain ⟨suppressed', hsuppressed⟩
    -- Put in order again, the findings come out as they came out of all that were kept.
    have hsorted : Finding.sorted (kept threshold again.flatten) = .ok findings := by
      rw [kept_of_perm (hagain.trans hsame)]
      exact Finding.sorted_eq_of_perm hrulesKept hties (hagain.trans hsame).symm hfindings
    exact ⟨_, aggregate_eq_ok_iff.mpr ⟨findings, suppressed', hsorted, hsuppressed, rfl⟩,
      rfl, rfl, rfl, rfl⟩

/-- A finding that two streams hold, and another one. -/
def overlapping : List (List Finding) :=
  [[.plain Severity.low.label "a.py" 9 "R2" "1", .plain Severity.high.label "b.py" 2 "R1" "2"],
    [.plain Severity.low.label "a.py" 9 "R2" "1"]]

/-- The same findings in one stream. -/
def inOneStream : List (List Finding) :=
  [[.plain Severity.high.label "b.py" 2 "R1" "2", .plain Severity.low.label "a.py" 9 "R2" "1",
    .plain Severity.low.label "a.py" 9 "R2" "1"]]

/-- Three findings in two streams give the report that they give in one; the finding that was found
twice is in it twice. -/
theorem aggregate_canonical_overlapping :
    overlapping.flatten.Perm inOneStream.flatten ∧
    ∃ report, aggregate "low" overlapping unadorned = .ok report ∧
      aggregate "low" inOneStream unadorned = .ok report ∧
      report.findings.map Finding.id = ["2", "1", "1"] ∧ report.rawCount = 3 := by
  have hperm : overlapping.flatten.Perm inOneStream.flatten := List.Perm.swap _ _ _
  have htexts : ∀ x ∈ overlapping.flatten, ∃ id, x.ruleId = .text id := by
    simp [overlapping, Finding.plain]
  have hplain : ∀ x ∈ overlapping.flatten, ∃ (l : Severity) (file : String) (line : Int)
      (rule id : String), x = .plain l.label file line rule id := by
    intro x hx
    simp only [overlapping, List.flatten_cons, List.flatten_nil, List.append_nil, List.cons_append,
      List.nil_append, List.mem_cons, List.not_mem_nil, or_false] at hx
    rcases hx with rfl | rfl | rfl <;> exact ⟨_, _, _, _, _, rfl⟩
  have hties : ∀ a ∈ kept "low" overlapping.flatten, ∀ b ∈ kept "low" overlapping.flatten,
      a.Ties b → a = b := by
    intro a ha b hb h
    obtain ⟨_, _, _, _, _, rfl⟩ := hplain a (List.mem_filter.mp ha).1
    obtain ⟨_, _, _, _, _, rfl⟩ := hplain b (List.mem_filter.mp hb).1
    exact Finding.plain_eq_of_ties h
  obtain ⟨hsame, hreports, hexists⟩ := aggregate_canonical hperm
    (Finding.rulesOrdered_of_texts htexts) hties unadorned
  obtain ⟨report, hreport⟩ := hexists htexts (List.forall_mem_nil _)
  obtain ⟨-, -, hcount, -⟩ := hreports report hreport
  have hids : ((aggregate "low" overlapping unadorned).toOption.any fun report =>
      report.findings.map Finding.id == ["2", "1", "1"]) = true := by
    simp only [aggregate, Finding.sorted, sortedSuppressions, Sorting.mergeSort_eq_sortWithin]
    decide +kernel
  rw [hreport] at hids
  exact ⟨hperm, report, hreport, hsame ▸ hreport, eq_of_beq hids, hcount⟩

/-- Two findings in one place, with severities that name no level. -/
def unranked : List Finding :=
  [.plain "info" "a.py" 1 "R" "1", .plain "note" "a.py" 1 "R" "1"]

/-- **Equal severities are not enough.**  Findings that are equal if they have the same severity,
file, line, rule and id are put in different orders when their severities name no level. -/
theorem exists_order_of_unknown_severities :
    unranked.Perm unranked.reverse ∧
    (∀ a ∈ unranked, ∀ b ∈ unranked, a.severity = b.severity → a.file = b.file →
      a.line = b.line → a.ruleId = b.ruleId → a.id = b.id → a = b) ∧
    ∃ report report', aggregate "informational" [unranked] unadorned = .ok report ∧
      aggregate "informational" [unranked.reverse] unadorned = .ok report' ∧
      report.findings.map Finding.severity = ["info", "note"] ∧
      report'.findings.map Finding.severity = ["note", "info"] := by
  have horder (fs : List Finding) (labels : List String)
      (h : ((aggregate "informational" [fs] unadorned).toOption.any fun report =>
        report.findings.map Finding.severity == labels) = true) :
      ∃ report, aggregate "informational" [fs] unadorned = .ok report ∧
        report.findings.map Finding.severity = labels := by
    obtain ⟨report, hreport, hlabels⟩ := any_toOption_iff.mp h
    exact ⟨report, hreport, eq_of_beq hlabels⟩
  obtain ⟨report, hreport, hlabels⟩ := horder unranked ["info", "note"] (by
    simp only [aggregate, Finding.sorted, sortedSuppressions, Sorting.mergeSort_eq_sortWithin]
    decide +kernel)
  obtain ⟨report', hreport', hlabels'⟩ := horder unranked.reverse ["note", "info"] (by
    simp only [aggregate, Finding.sorted, sortedSuppressions, Sorting.mergeSort_eq_sortWithin]
    decide +kernel)
  refine ⟨List.Perm.swap _ _ _, ?_, report, report', hreport, hreport', hlabels, hlabels'⟩
  intro a ha b hb hseverity _ _ _ _
  simp only [unranked, List.mem_cons, List.not_mem_nil, or_false] at ha hb
  rcases ha with rfl | rfl <;> rcases hb with rfl | rfl
  · rfl
  · exact absurd hseverity (by decide)
  · exact absurd hseverity (by decide)
  · rfl

end Report

end SecurityAudit
