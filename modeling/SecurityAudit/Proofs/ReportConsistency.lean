import SecurityAudit.Proofs.Threshold

/-!
# The parts of a report agree

The counts, the recommendations and the summary of a report are made of its findings, each of them
on its own.  What they say can be compared: the counts add up to the number of findings; every
critical finding, every finding of high severity and every exposed secret is recommended for, and
nothing else is; and the summary says that there are no critical findings when there are none.

Counting goes over the findings one by one.  What holds of the counts so far, `Tallies`, is kept by
each further finding.
-/

namespace SecurityAudit

namespace Report

/-! ### Counts -/

/-- A finding is counted under its label, and under no other one. -/
theorem countOf_countLabel (counts : List (String × Nat)) (label l : String) :
    countOf (countLabel counts label) l = countOf counts l + if l = label then 1 else 0 := by
  induction counts with
  | nil =>
      by_cases hl : l = label
      · simp [countLabel, countOf, hl]
      · simp [countLabel, countOf, hl, List.lookup_cons, beq_eq_false_iff_ne.mpr hl]
  | cons entry rest ih =>
      obtain ⟨k, n⟩ := entry
      simp only [countOf, countLabel] at ih ⊢
      by_cases hk : k = label
      · subst hk
        by_cases hl : l = k
        · simp [hl]
        · simp [List.lookup_cons, beq_eq_false_iff_ne.mpr hl, hl]
      · rw [if_neg (by simpa using hk), List.lookup_cons, List.lookup_cons]
        cases hl : l == k with
        | false => exact ih
        | true =>
            have hne : l ≠ label := fun h => hk ((eq_of_beq hl).symm.trans h)
            simp [hne]

/-- Counting adds a label to those that have a count, if it has none. -/
theorem mem_labels_countLabel (counts : List (String × Nat)) (label l : String) :
    l ∈ (countLabel counts label).map Prod.fst ↔ l ∈ counts.map Prod.fst ∨ l = label := by
  induction counts with
  | nil => simp [countLabel]
  | cons entry rest ih =>
      obtain ⟨k, n⟩ := entry
      by_cases hk : k = label
      · subst hk
        simp only [countLabel, beq_self_eq_true, if_true, List.map_cons, List.mem_cons]
        tauto
      · rw [countLabel, if_neg (by simpa using hk), List.map_cons, List.mem_cons, ih,
          List.map_cons, List.mem_cons, or_assoc]

/-- Counting gives no label a second count. -/
theorem nodup_labels_countLabel {counts : List (String × Nat)}
    (h : (counts.map Prod.fst).Nodup) (label : String) :
    ((countLabel counts label).map Prod.fst).Nodup := by
  induction counts with
  | nil => simp [countLabel]
  | cons entry rest ih =>
      obtain ⟨k, n⟩ := entry
      obtain ⟨hfresh, hrest⟩ := List.nodup_cons.mp h
      by_cases hk : k = label
      · simpa [countLabel, hk] using h
      · rw [countLabel, if_neg (by simpa using hk), List.map_cons, List.nodup_cons,
          mem_labels_countLabel]
        exact ⟨fun hmem => hmem.elim hfresh hk, ih hrest⟩

/-- Counting a finding raises the sum of the counts by one. -/
theorem sum_countLabel (counts : List (String × Nat)) (label : String) :
    ((countLabel counts label).map Prod.snd).sum = (counts.map Prod.snd).sum + 1 := by
  induction counts with
  | nil => rfl
  | cons entry rest ih =>
      obtain ⟨k, n⟩ := entry
      by_cases hk : k = label
      · simp [countLabel, hk]
        omega
      · rw [countLabel, if_neg (by simpa using hk), List.map_cons, List.sum_cons, ih,
          List.map_cons, List.sum_cons]
        omega

/-- A label with one count only is looked up with that one. -/
theorem countOf_of_mem {counts : List (String × Nat)} (hdistinct : (counts.map Prod.fst).Nodup)
    {label : String} {n : Nat} (h : (label, n) ∈ counts) : countOf counts label = n := by
  induction counts with
  | nil => cases h
  | cons entry rest ih =>
      obtain ⟨k, m⟩ := entry
      obtain ⟨hfresh, hrest⟩ := List.nodup_cons.mp hdistinct
      rcases List.mem_cons.mp h with heq | hmem
      · cases heq
        simp [countOf]
      · have hne : label ≠ k := by
          rintro rfl
          exact hfresh (List.mem_map.mpr ⟨_, hmem, rfl⟩)
        rw [countOf, List.lookup_cons, beq_eq_false_iff_ne.mpr hne]
        exact ih hrest hmem

/-- Counts tell how many of some findings there are of each severity.  Every level has a count, and
so has every other label that a finding has; a label is counted once. -/
structure Tallies (counts : List (String × Nat)) (fs : List Finding) : Prop where
  distinct : (counts.map Prod.fst).Nodup
  labels : ∀ l, l ∈ counts.map Prod.fst ↔
    (∃ level : Severity, level.label = l) ∨ ∃ x ∈ fs, x.severity = l
  counted : ∀ l, countOf counts l = fs.countP fun x => x.severity == l
  total : (counts.map Prod.snd).sum = fs.length

namespace Tallies

variable {counts : List (String × Nat)} {fs : List Finding}

/-- Before any finding is counted, every level has the count zero. -/
theorem start : Tallies (Severity.levels.map fun l => (l.label, 0)) [] where
  distinct := by decide
  labels l := by
    constructor
    · intro h
      obtain ⟨entry, hentry, rfl⟩ := List.mem_map.mp h
      obtain ⟨level, -, rfl⟩ := List.mem_map.mp hentry
      exact .inl ⟨level, rfl⟩
    · rintro (⟨level, rfl⟩ | ⟨x, hx, -⟩)
      · cases level <;> decide
      · cases hx
  counted l := by
    simp only [countOf, Severity.levels, List.map_cons, List.map_nil, List.lookup_cons,
      List.lookup_nil, List.countP_nil]
    repeat' split
    all_goals rfl
  total := rfl

/-- **One more finding is counted.** -/
theorem countLabel (h : Tallies counts fs) (x : Finding) :
    Tallies (Report.countLabel counts x.severity) (fs ++ [x]) where
  distinct := nodup_labels_countLabel h.distinct x.severity
  labels l := by
    rw [mem_labels_countLabel, h.labels, or_assoc]
    simp [or_and_right, exists_or, eq_comm]
  counted l := by
    rw [countOf_countLabel, h.counted, List.countP_append, List.countP_singleton]
    simp only [beq_iff_eq, eq_comm (a := l)]
  total := by
    rw [sum_countLabel, h.total, List.length_append, List.length_singleton]

/-- An entry of the counts has the number of findings of its label. -/
theorem eq_countP_of_mem (h : Tallies counts fs) {label : String} {n : Nat}
    (hmem : (label, n) ∈ counts) : n = fs.countP fun x => x.severity == label :=
  (countOf_of_mem h.distinct hmem).symm.trans (h.counted label)

end Tallies

/-- What is counted of findings on top of others is what is counted of all of them. -/
theorem tallies_foldl {counts : List (String × Nat)} {before : List Finding}
    (h : Tallies counts before) (fs : List Finding) :
    Tallies ((fs.map Finding.severity).foldl countLabel counts) (before ++ fs) := by
  induction fs generalizing counts before with
  | nil => simpa using h
  | cons x fs ih =>
      have hnext := ih (h.countLabel x)
      rwa [List.append_assoc, List.singleton_append] at hnext

/-- **The counts of findings tell how many there are of each severity.** -/
theorem tallies_countBySeverity (fs : List Finding) : Tallies (countBySeverity fs) fs :=
  tallies_foldl Tallies.start fs

/-! ### Recommendations -/

/-- What a recommendation says about which findings, and how soon they ought to be seen to. -/
def outlineOf (y : Recommendation) : Priority × String × List String :=
  (y.priority, y.title, y.findingIds)

/-- Findings of one kind, which are recommended for together. -/
structure Subject where
  priority : Priority
  title : Nat → String
  concerns : Finding → Bool

namespace Subject

/-- The critical findings. -/
def critical : Subject where
  priority := .immediate
  title n := "Remediate " ++ toString n ++ " critical finding(s)"
  concerns x := x.severity == "critical"

/-- The exposed secrets, of whatever severity. -/
def secrets : Subject where
  priority := .immediate
  title _ := "Implement secrets management"
  concerns x := x.category == "secret_exposure"

/-- The findings of high severity. -/
def high : Subject where
  priority := .shortTerm
  title n := "Address " ++ toString n ++ " high-severity finding(s)"
  concerns x := x.severity == "high"

/-- The subjects, the most urgent first. -/
def all : List Subject :=
  [critical, secrets, high]

/-- What is recommended on a subject: it names the findings that it concerns, in their order. -/
def outline (s : Subject) (fs : List Finding) : Priority × String × List String :=
  (s.priority, s.title (fs.countP s.concerns), (fs.filter s.concerns).map Finding.id)

/-- The subject concerns one of some findings. -/
def arises (s : Subject) (fs : List Finding) : Bool :=
  fs.any s.concerns

/-- No subject is left for later than what is always recommended. -/
theorem priority_ne_longTerm : ∀ s ∈ all, s.priority ≠ .longTerm := by
  simp [all, critical, secrets, high]

/-- The subjects stand in the order of their urgency. -/
theorem all_pairwise : all.Pairwise fun s t => s.priority.rank ≤ t.priority.rank := by
  simp [all, critical, secrets, high, Priority.rank]

end Subject

/-- What is recommended about some findings: first on each subject that arises, and in the end that
the audit be repeated. -/
def outlines (fs : List Finding) : List (Priority × String × List String) :=
  ((Subject.all.filter (·.arises fs)).map (·.outline fs)) ++
    [(.longTerm, "Add continuous security scanning to CI/CD", [])]

/-- A recommendation is made on a subject when it arises. -/
theorem map_outlineOf_about (s : Subject) (make : Nat → List String → Recommendation)
    (hmake : ∀ n ids, outlineOf (make n ids) = (s.priority, s.title n, ids)) (fs : List Finding) :
    (about (fs.filter s.concerns) make).map outlineOf =
      ([s].filter (·.arises fs)).map (·.outline fs) := by
  have hempty : (fs.filter s.concerns).isEmpty = !s.arises fs := by
    rw [Bool.eq_iff_iff]
    simp [Subject.arises]
  rw [about, hempty]
  cases harises : s.arises fs with
  | false => simp [harises]
  | true => simp [harises, hmake, Subject.outline, idsOf, List.countP_eq_length_filter]

/-- **What is recommended is on the subjects that arise.** -/
theorem map_outlineOf_recommend (fs : List Finding) :
    (recommend fs).map outlineOf = outlines fs := by
  have hsplit : Subject.all.filter (·.arises fs) =
      [Subject.critical].filter (·.arises fs) ++ [Subject.secrets].filter (·.arises fs) ++
        [Subject.high].filter (·.arises fs) := by
    simp only [← List.filter_append]
    rfl
  simp only [outlines, hsplit, List.map_append, recommend, List.map_singleton]
  rw [← map_outlineOf_about .critical aboutCritical fun _ _ => rfl,
    ← map_outlineOf_about .secrets aboutSecrets fun _ _ => rfl,
    ← map_outlineOf_about .high aboutHigh fun _ _ => rfl]
  rfl

/-- A recommendation is on a subject that arises, or the one that is always made. -/
theorem mem_outlines_iff {fs : List Finding} {o : Priority × String × List String} :
    o ∈ outlines fs ↔ (∃ s ∈ Subject.all, s.arises fs = true ∧ s.outline fs = o) ∨
      o = (.longTerm, "Add continuous security scanning to CI/CD", []) := by
  simp [outlines, and_assoc]

/-- Nothing is less urgent than what is to be done in the long term. -/
theorem rank_le_longTerm (p : Priority) : p.rank ≤ Priority.longTerm.rank := by
  cases p <;> decide

/-- What is more urgent is recommended first. -/
theorem outlines_pairwise (fs : List Finding) :
    (outlines fs).Pairwise fun a b => a.1.rank ≤ b.1.rank := by
  rw [outlines, List.pairwise_append]
  refine ⟨?_, List.pairwise_singleton _ _, fun a _ b hb => ?_⟩
  · rw [List.pairwise_map]
    exact Subject.all_pairwise.sublist List.filter_sublist
  · rw [List.mem_singleton.mp hb]
    exact rank_le_longTerm a.1

/-- **More urgent recommendations come first.** -/
theorem recommend_pairwise (fs : List Finding) :
    (recommend fs).Pairwise fun a b => a.priority.rank ≤ b.priority.rank := by
  have h := outlines_pairwise fs
  rwa [← map_outlineOf_recommend, List.pairwise_map] at h

/-- A subject that arises concerns a finding. -/
theorem Subject.arises_iff {s : Subject} {fs : List Finding} :
    s.arises fs = true ↔ ∃ x ∈ fs, s.concerns x = true :=
  List.any_eq_true

/-- **The last recommendation is the only one for the long term, and the only one that names no
findings.** -/
theorem exists_recommend_eq_append (fs : List Finding) :
    ∃ before last, recommend fs = before ++ [last] ∧
      last.priority = .longTerm ∧ last.findingIds = [] ∧
      ∀ y ∈ before, y.priority ≠ .longTerm ∧ y.findingIds ≠ [] := by
  obtain ⟨before, lasts, happend, hbefore, hlasts⟩ :=
    List.map_eq_append_iff.mp (map_outlineOf_recommend fs)
  obtain ⟨last, rfl, hlast⟩ := List.map_eq_singleton_iff.mp hlasts
  refine ⟨before, last, happend, congrArg Prod.fst hlast, congrArg (·.2.2) hlast,
    fun y hy => ?_⟩
  have hmem : outlineOf y ∈ (Subject.all.filter (·.arises fs)).map (·.outline fs) :=
    hbefore ▸ List.mem_map_of_mem hy
  obtain ⟨s, hs, houtline⟩ := List.mem_map.mp hmem
  obtain ⟨hs, harises⟩ := List.mem_filter.mp hs
  have hpriority : s.priority = y.priority := congrArg Prod.fst houtline
  have hids : (fs.filter s.concerns).map Finding.id = y.findingIds := congrArg (·.2.2) houtline
  obtain ⟨x, hx, hconcerns⟩ := Subject.arises_iff.mp harises
  refine ⟨hpriority ▸ Subject.priority_ne_longTerm s hs, hids ▸ ?_⟩
  exact List.ne_nil_of_mem (List.mem_map_of_mem (List.mem_filter.mpr ⟨hx, hconcerns⟩))

/-- **What is recommended about a subject names every finding that the subject concerns.** -/
theorem exists_recommendation {fs : List Finding} {s : Subject} (hs : s ∈ Subject.all)
    {x : Finding} (hx : x ∈ fs) (hconcerns : s.concerns x = true) :
    ∃ y ∈ recommend fs, x.id ∈ y.findingIds := by
  have hmem : s.outline fs ∈ (recommend fs).map outlineOf := by
    rw [map_outlineOf_recommend, mem_outlines_iff]
    exact .inl ⟨s, hs, Subject.arises_iff.mpr ⟨x, hx, hconcerns⟩, rfl⟩
  obtain ⟨y, hy, houtline⟩ := List.mem_map.mp hmem
  have hids : y.findingIds = (fs.filter s.concerns).map Finding.id := congrArg (·.2.2) houtline
  exact ⟨y, hy, hids ▸ List.mem_map_of_mem (List.mem_filter.mpr ⟨hx, hconcerns⟩)⟩

/-- **What is recommended names findings only.** -/
theorem exists_finding_of_recommended {fs : List Finding} {y : Recommendation}
    (hy : y ∈ recommend fs) {id : String} (hid : id ∈ y.findingIds) :
    ∃ x ∈ fs, x.id = id := by
  have hmem : outlineOf y ∈ outlines fs := map_outlineOf_recommend fs ▸ List.mem_map_of_mem hy
  rcases mem_outlines_iff.mp hmem with ⟨s, -, -, houtline⟩ | halways
  · have hids : (fs.filter s.concerns).map Finding.id = y.findingIds := congrArg (·.2.2) houtline
    obtain ⟨x, hx, rfl⟩ := List.mem_map.mp (hids ▸ hid)
    exact ⟨x, (List.mem_filter.mp hx).1, rfl⟩
  · have hids : y.findingIds = [] := congrArg (·.2.2) halways
    rw [hids] at hid
    cases hid

/-! ### The summary -/

/-- The sentence that there are no critical findings. -/
def denial : String :=
  "No critical vulnerabilities were identified."

/-- The sentence about so many critical findings. -/
def criticalSentence (n : Nat) : String :=
  if n = 0 then denial
  else toString n ++
    if n = 1 then " critical vulnerability requires immediate attention."
    else " critical vulnerabilities require immediate attention."

/-- The first two sentences of a summary, on the findings of a report and on the risk. -/
def opening (r : Report) : String :=
  "Security audit of " ++ r.scope ++ " identified " ++ toString r.findings.length ++
    " finding(s): " ++
    Text.join ", " (Severity.levels.map fun l =>
      toString (r.findings.countP fun x => x.severity == l.label) ++ " " ++ l.label) ++ "." ++
    " " ++ ("Overall risk score: " ++ r.risk.text ++ "/10.") ++ " "

/-- The third sentence of a summary says that there are no critical findings. -/
def DeniesCritical (r : Report) : Prop :=
  ∃ closing, r.summary = r.opening ++ denial ++ closing

/-- Joined sentences begin with the first three. -/
theorem exists_join_eq_append (first second third : String) (rest : List String) :
    ∃ closing, Text.join " " (first :: second :: third :: rest) =
      first ++ " " ++ second ++ " " ++ third ++ closing := by
  cases rest with
  | nil => exact ⟨"", by simp [Text.join, String.append_assoc]⟩
  | cons fourth rest =>
      refine ⟨" " ++ Text.join " " (fourth :: rest), ?_⟩
      simp only [Text.join, String.intercalate_cons_cons, String.append_assoc]

/-- The sentence about critical findings, as it is chosen for a summary. -/
theorem criticalSentence_eq (n : Nat) :
    (if n == 0 then "No critical vulnerabilities were identified."
      else if n == 1 then "1 critical vulnerability requires immediate attention."
      else toString n ++ " critical vulnerabilities require immediate attention.") =
      criticalSentence n := by
  match n with
  | 0 => rfl
  | 1 => decide
  | n + 2 => simp [criticalSentence]

/-- A summary made of counts that tell of the findings begins with its opening and the sentence
about critical findings. -/
theorem exists_summary_eq {r : Report} (h : Tallies r.severityCounts r.findings)
    {incomplete truncated : Bool}
    (hsummary : r.summary = summarise r.scope r.severityCounts r.risk incomplete truncated) :
    ∃ closing, r.summary = r.opening ++
      criticalSentence (r.findings.countP fun x => x.severity == "critical") ++ closing := by
  have htotal : sumOf (r.severityCounts.map Prod.snd) = r.findings.length :=
    List.sum_eq_foldr.symm.trans h.total
  simp only [hsummary, summarise, htotal, h.counted, criticalSentence_eq]
  exact exists_join_eq_append _ _ _ _

/-- The sentence about one or more critical findings begins with a digit. -/
theorem exists_digit_criticalSentence {n : Nat} (hn : n ≠ 0) :
    ∃ c rest, (criticalSentence n).toList = c :: rest ∧ c.isDigit = true := by
  obtain ⟨c, digits, hdigits⟩ :=
    List.exists_cons_of_ne_nil (Nat.toDigits_ne_nil (n := n) (b := 10))
  have hdigit : c.isDigit = true :=
    Nat.isDigit_of_mem_toDigits (by decide) le_rfl (hdigits ▸ List.mem_cons_self)
  have hnumber : (toString n).toList = c :: digits := by
    simpa [toString] using hdigits
  rw [criticalSentence, if_neg hn, String.toList_append, hnumber]
  exact ⟨c, _, rfl, hdigit⟩

/-- The sentence that there are no critical findings begins with a letter. -/
theorem exists_toList_denial : ∃ rest, denial.toList = 'N' :: rest := by
  have hletter : denial = "N" ++ "o critical vulnerabilities were identified." := by decide
  rw [hletter, String.toList_append]
  exact ⟨_, rfl⟩

/-- **The third sentence says that there are no critical findings when their number is zero.** -/
theorem deniesCritical_iff {r : Report} {n : Nat} {closing : String}
    (h : r.summary = r.opening ++ criticalSentence n ++ closing) :
    r.DeniesCritical ↔ n = 0 := by
  constructor
  · rintro ⟨other, hother⟩
    by_contra hn
    obtain ⟨c, rest, hsentence, hdigit⟩ := exists_digit_criticalSentence hn
    obtain ⟨rest', hdenial⟩ := exists_toList_denial
    have htexts := congrArg String.toList (h.symm.trans hother)
    simp only [String.toList_append, List.append_assoc, List.append_cancel_left_eq, hsentence,
      hdenial, List.cons_append] at htexts
    have hletter : c = 'N' := (List.cons.inj htexts).1
    rw [hletter] at hdigit
    exact absurd hdigit (by decide)
  · rintro rfl
    exact ⟨closing, h⟩

/-! ### The report as a whole -/

theorem summary_ofSorted (c : Circumstances) (rawCount : Nat) (findings : List Finding)
    (suppressed : List Suppression) :
    (ofSorted c rawCount findings suppressed).summary =
      summarise c.scope (countBySeverity findings) (riskOf findings) c.totals.incomplete
        c.totals.truncated := by
  simp only [ofSorted]

/-- What a report says of its findings fits them, and one another.  `streams` is where the findings
come from. -/
structure Consistent (streams : List (List Finding)) (r : Report) : Prop where
  /-- The counts are those of the findings. -/
  counts : Tallies r.severityCounts r.findings
  /-- Each entry of the counts has the number of findings of its label. -/
  entries : ∀ label n, (label, n) ∈ r.severityCounts →
    n = r.findings.countP fun x => x.severity == label
  /-- The document gives the sum of the counts as the number of findings. -/
  total : r.document.get? "total_findings" = some (.int (r.severityCounts.map Prod.snd).sum)
  /-- As many were found as came, and no more are reported. -/
  raw : r.rawCount = (streams.map List.length).sum
  length_le : r.findings.length ≤ r.rawCount
  /-- What is recommended is on the subjects that arise, and names their findings. -/
  outlines : r.recommendations.map outlineOf = outlines r.findings
  urgency : r.recommendations.Pairwise fun a b => a.priority.rank ≤ b.priority.rank
  last : ∃ before last, r.recommendations = before ++ [last] ∧
    last.priority = .longTerm ∧ last.findingIds = [] ∧
    ∀ y ∈ before, y.priority ≠ .longTerm ∧ y.findingIds ≠ []
  /-- Every finding that a subject concerns is recommended for. -/
  covered : ∀ x ∈ r.findings,
    x.severity = "critical" ∨ x.category = "secret_exposure" ∨ x.severity = "high" →
    ∃ y ∈ r.recommendations, x.id ∈ y.findingIds
  /-- Nothing else is recommended for. -/
  known : ∀ y ∈ r.recommendations, ∀ id ∈ y.findingIds, ∃ x ∈ r.findings, x.id = id
  denies : r.DeniesCritical ↔ ∀ x ∈ r.findings, x.severity ≠ "critical"

/-- A finding that a subject concerns is recommended for. -/
theorem exists_recommendation_of_grave {fs : List Finding} {x : Finding} (hx : x ∈ fs)
    (hgrave : x.severity = "critical" ∨ x.category = "secret_exposure" ∨ x.severity = "high") :
    ∃ y ∈ recommend fs, x.id ∈ y.findingIds := by
  rcases hgrave with hcritical | hsecret | hhigh
  · have hs : Subject.critical ∈ Subject.all := by simp [Subject.all]
    exact exists_recommendation hs hx (beq_iff_eq.mpr hcritical)
  · have hs : Subject.secrets ∈ Subject.all := by simp [Subject.all]
    exact exists_recommendation hs hx (beq_iff_eq.mpr hsecret)
  · have hs : Subject.high ∈ Subject.all := by simp [Subject.all]
    exact exists_recommendation hs hx (beq_iff_eq.mpr hhigh)

/-- **The report on findings in order is consistent.** -/
theorem consistent_ofSorted {threshold : String} {streams : List (List Finding)}
    {findings : List Finding} (h : Finding.sorted (kept threshold streams.flatten) = .ok findings)
    (c : Circumstances) (suppressed : List Suppression) :
    Consistent streams (ofSorted c streams.flatten.length findings suppressed) where
  counts := tallies_countBySeverity findings
  entries _ _ := (tallies_countBySeverity findings).eq_countP_of_mem
  total := by
    have htotal := (tallies_countBySeverity findings).total
    simp only [ofSorted, htotal]
    rfl
  raw := List.length_flatten
  length_le := by
    have hperm := (Finding.sorted_perm h).length_eq
    exact hperm.trans_le (List.length_filter_le _ _)
  outlines := map_outlineOf_recommend findings
  urgency := recommend_pairwise findings
  last := exists_recommend_eq_append findings
  covered _ hx := exists_recommendation_of_grave hx
  known _ hy _ hid := exists_finding_of_recommended hy hid
  denies := by
    have hcounts : Tallies (ofSorted c streams.flatten.length findings suppressed).severityCounts
        findings := tallies_countBySeverity findings
    obtain ⟨closing, hclosing⟩ := exists_summary_eq hcounts
      (summary_ofSorted c streams.flatten.length findings suppressed)
    rw [deniesCritical_iff hclosing, List.countP_eq_zero]
    simp

/-- **The parts of a report agree.**  Whatever has been found, at whatever threshold, the counts of
a report tell of its findings and add up to their number, which is at most the number of those
found; the more urgent recommendations come first and the last one is for the long term; critical
findings, exposed secrets and findings of high severity are recommended for, each kind if there are
any, by their ids and in their order, and no others are; and the summary says that no critical
vulnerability was identified when no finding is critical.  There is a report if all rules are
texts. -/
theorem aggregate_consistent (threshold : String) (streams : List (List Finding))
    (c : Circumstances) :
    (∀ report, aggregate threshold streams c = .ok report → Consistent streams report) ∧
    ((∀ x ∈ streams.flatten, ∃ id, x.ruleId = .text id) →
      (∀ x ∈ c.suppressed, ∃ id, x.rule = .text id) →
      ∃ report, aggregate threshold streams c = .ok report) := by
  refine ⟨fun report hreport => ?_, exists_aggregate_of_texts⟩
  obtain ⟨findings, suppressed, hfindings, -, rfl⟩ := aggregate_eq_ok_iff.mp hreport
  exact consistent_ofSorted hfindings c suppressed

/-- A critical secret, a finding of high severity, one that is neither, and one of low severity. -/
def secretStreams : List (List Finding) :=
  [[.plain "high" "b.py" 2 "R1" "1", .plain "low" "b.py" 5 "R1" "2"],
    [{ Finding.plain "critical" "c.py" 1 "R2" "3" with category := "secret_exposure" },
      .plain "medium" "a.py" 9 "R2" "4"]]

/-- A finding that is critical and a secret is recommended for twice; one below the threshold is
found, but not reported. -/
theorem aggregate_consistent_secret :
    ∃ report, aggregate "medium" secretStreams unadorned = .ok report ∧
      Consistent secretStreams report ∧
      report.recommendations.map Recommendation.findingIds = [["3"], ["3"], ["1"], []] ∧
      report.findings.length = 3 ∧ report.rawCount = 4 ∧ ¬ report.DeniesCritical := by
  obtain ⟨hconsistent, hexists⟩ := aggregate_consistent "medium" secretStreams unadorned
  obtain ⟨report, hreport⟩ := hexists (by simp [secretStreams, Finding.plain])
    (List.forall_mem_nil _)
  have hagree := hconsistent report hreport
  have hthree : ((aggregate "medium" secretStreams unadorned).toOption.any fun report =>
      report.recommendations.map Recommendation.findingIds == [["3"], ["3"], ["1"], []] &&
        report.findings.length == 3 && report.findings.any (·.severity == "critical")) = true := by
    simp only [aggregate, Finding.sorted, sortedSuppressions, Sorting.mergeSort_eq_sortWithin]
    decide +kernel
  simp only [hreport, Except.toOption, Option.any_some, Bool.and_eq_true, beq_iff_eq,
    List.any_eq_true] at hthree
  obtain ⟨⟨hids, hlength⟩, x, hx, hcritical⟩ := hthree
  exact ⟨report, hreport, hagree, hids, hlength, hagree.raw,
    fun hdenies => hagree.denies.mp hdenies x hx hcritical⟩

end Report

end SecurityAudit
