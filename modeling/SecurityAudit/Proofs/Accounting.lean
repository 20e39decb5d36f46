import SecurityAudit.Proofs.Aggregate
import SecurityAudit.Proofs.Run

/-!
# Every file and every policy is accounted for

An audit that ends with a report says of each file and of each policy what has become of it, once.
A file is skipped, is scanned, cannot be read as text, or the time is over for it; a policy is
scanned, is left with a warning, or the time is over for it.  The report lists the first, counts the
second and warns about the others, and says nothing else about the targets.

`Fate` is what becomes of one of them.  What the queue and the outcomes say about a list of files or
policies is a tally of their fates (`Tally`); tallies are added, so it is enough to draw up that of
a single file and that of a single policy.
-/

namespace SecurityAudit.Audit

/-- What has become of a file or of a policy. -/
inductive Fate where
  /-- It is listed as skipped. -/
  | skipped (entry : String)
  /-- It is scanned. -/
  | scanned (found : Found)
  /-- It is left with a warning. -/
  | left (w : Warning)
  /-- The time was over for it, which is warned about. -/
  | timedOut (w : Warning)

namespace Fate

/-- The fate of a target with an outcome. -/
def ofOutcome (timeout : Value) (t : Target) : Outcome → Fate
  | .scanned found => .scanned found
  | .left w => .left w
  | .timedOut => .timedOut (timeoutWarning timeout t)

/-- The entry of what is skipped. -/
def entry? : Fate → Option String
  | .skipped entry => some entry
  | _ => none

/-- What has been found. -/
def found? : Fate → Option Found
  | .scanned found => some found
  | _ => none

/-- The warning. -/
def warning? : Fate → Option Warning
  | .left w | .timedOut w => some w
  | _ => none

/-- It is scanned. -/
def isScanned : Fate → Bool
  | .scanned _ => true
  | _ => false

/-- The time was over. -/
def isTimedOut : Fate → Bool
  | .timedOut _ => true
  | _ => false

end Fate

/-- A file is to be scanned: no exclusion is for it, and something looks for findings in files. -/
structure IsWanted (a : Audit) (path : String) : Prop where
  included : Exclusion.covers a.settings.scan.exclusions path = .ok false
  detected : a.detectors ≠ []

/-- The fates of a file. -/
inductive FileFate (a : Audit) : String × Content → Fate → Prop
  | excluded {path : String} {content : Content}
      (covered : Exclusion.covers a.settings.scan.exclusions path = .ok true) :
      FileFate a (path, content) (.skipped (path ++ " (excluded)"))
  | undetected {path : String} {content : Content}
      (included : Exclusion.covers a.settings.scan.exclusions path = .ok false)
      (undetected : a.detectors = []) :
      FileFate a (path, content) (.skipped (path ++ " (no file scan types enabled)"))
  | unreadable {path : String} {content : Content} {p : SourceFile.Problem}
      (wanted : IsWanted a path) (unread : SourceFile.read .utf8 path content = .error p) :
      FileFate a (path, content) (.left ⟨"source", path, p.message⟩)
  | scanned {path : String} {content : Content} {f : SourceFile} {found : Found}
      {before after : Budget}
      (wanted : IsWanted a path) (read : SourceFile.read .utf8 path content = .ok f)
      (scan : a.scanSource before f = .ok (found, after)) :
      FileFate a (path, content) (.scanned found)
  | timedOut {path : String} {content : Content} (wanted : IsWanted a path) :
      FileFate a (path, content)
        (.timedOut (timeoutWarning a.settings.scan.timeout (.file path content)))

/-- The fates of a policy with its place among the policies. -/
inductive PolicyFate (a : Audit) : PolicySource × Nat → Fate → Prop
  | unreviewed {source : PolicySource} {index : Nat} (unreviewed : a.review = none) :
      PolicyFate a (source, index) (.left
        ⟨"policy", source.label index, "IAM scan type not enabled; policy not analyzed"⟩)
  | unreadable {source : PolicySource} {index : Nat} {message : String}
      (reviewed : a.review ≠ none)
      (scan : a.scanPolicy (source.label index) source =
        .ok (.left ⟨"policy", source.label index, message⟩)) :
      PolicyFate a (source, index) (.left ⟨"policy", source.label index, message⟩)
  | scanned {source : PolicySource} {index : Nat} {found : Found} (reviewed : a.review ≠ none)
      (scan : a.scanPolicy (source.label index) source = .ok (.scanned found)) :
      PolicyFate a (source, index) (.scanned found)
  | timedOut {source : PolicySource} {index : Nat} (reviewed : a.review ≠ none) :
      PolicyFate a (source, index)
        (.timedOut (timeoutWarning a.settings.scan.timeout (.policy (source.label index) source)))

/-! ## Tallies -/

/-- A queue and the outcomes of its targets say what the fates of some files and some policies
say. -/
structure Tally (timeout : Value) (files policies : List Fate) (q : Queue)
    (outcomes : List (Target × Outcome)) : Prop where
  skipped : q.skipped.Perm ((files ++ policies).filterMap Fate.entry?)
  warnings : (q.warnings ++ outcomes.filterMap (warningOf? timeout)).Perm
    ((files ++ policies).filterMap Fate.warning?)
  found : (outcomes.filterMap foundOf?).Perm ((files ++ policies).filterMap Fate.found?)
  scanned_files : outcomes.countP (Audit.isScanned "file") = files.countP Fate.isScanned
  scanned_policies : outcomes.countP (Audit.isScanned "policy") = policies.countP Fate.isScanned
  timedOut : outcomes.any Audit.isTimedOut = (files ++ policies).any Fate.isTimedOut

/-- Two lists after two others, in another order. -/
theorem perm_interchange {α : Type} (as bs cs ds : List α) :
    ((as ++ bs) ++ (cs ++ ds)).Perm ((as ++ cs) ++ (bs ++ ds)) := by
  simp only [List.append_assoc]
  refine List.Perm.append_left as ?_
  simp only [← List.append_assoc]
  exact List.Perm.append_right ds List.perm_append_comm

/-- What is picked from two lists and then from two others is picked from all of them. -/
theorem filterMap_interchange {α β : Type} (f : α → Option β) (as bs cs ds : List α) :
    ((as ++ bs).filterMap f ++ (cs ++ ds).filterMap f).Perm
      (((as ++ cs) ++ (bs ++ ds)).filterMap f) := by
  rw [← List.filterMap_append]
  exact (perm_interchange as bs cs ds).filterMap f

namespace Tally

variable {timeout : Value}

/-- Nothing has to be said of nothing. -/
theorem nil : Tally timeout [] [] {} [] where
  skipped := .refl _
  warnings := .refl _
  found := .refl _
  scanned_files := rfl
  scanned_policies := rfl
  timedOut := rfl

/-- A file that is skipped has no target. -/
theorem ofSkipped (entry : String) :
    Tally timeout [.skipped entry] [] { skipped := [entry] } [] :=
  ⟨.refl _, .refl _, .refl _, rfl, rfl, rfl⟩

/-- A policy that is not reviewed has no target. -/
theorem ofUnreviewed (w : Warning) : Tally timeout [] [.left w] { warnings := [w] } [] :=
  ⟨.refl _, .refl _, .refl _, rfl, rfl, rfl⟩

/-- The outcome of a file says what its fate says. -/
theorem ofFile (path : String) (content : Content) (outcome : Outcome) :
    Tally timeout [Fate.ofOutcome timeout (.file path content) outcome] []
      { targets := [.file path content] } [(.file path content, outcome)] := by
  cases outcome <;> exact ⟨.refl _, .refl _, .refl _, rfl, rfl, rfl⟩

/-- The outcome of a policy says what its fate says. -/
theorem ofPolicy (label : RawText) (source : PolicySource) (outcome : Outcome) :
    Tally timeout [] [Fate.ofOutcome timeout (.policy label source) outcome]
      { targets := [.policy label source] } [(.policy label source, outcome)] := by
  cases outcome <;> exact ⟨.refl _, .refl _, .refl _, rfl, rfl, rfl⟩

/-- **Tallies are added.** -/
theorem append {files policies files' policies' : List Fate} {q q' : Queue}
    {outcomes outcomes' : List (Target × Outcome)} (h : Tally timeout files policies q outcomes)
    (h' : Tally timeout files' policies' q' outcomes') :
    Tally timeout (files ++ files') (policies ++ policies') (q.append q')
      (outcomes ++ outcomes') where
  skipped := (h.skipped.append h'.skipped).trans
    (filterMap_interchange _ files policies files' policies')
  warnings := by
    rw [List.filterMap_append]
    refine (perm_interchange q.warnings q'.warnings _ _).trans ?_
    refine (h.warnings.append h'.warnings).trans ?_
    exact filterMap_interchange _ files policies files' policies'
  found := by
    rw [List.filterMap_append]
    refine (h.found.append h'.found).trans ?_
    exact filterMap_interchange _ files policies files' policies'
  scanned_files := by
    rw [List.countP_append, List.countP_append, h.scanned_files, h'.scanned_files]
  scanned_policies := by
    rw [List.countP_append, List.countP_append, h.scanned_policies, h'.scanned_policies]
  timedOut := by
    have := h.timedOut
    have := h'.timedOut
    simp only [List.any_append] at *
    grind

end Tally

/-! ## One file, one policy -/

/-- A file is scanned as a target when it is scanned. -/
theorem scan_file_eq_ok_iff {a : Audit} {b : Budget} {path : String} {content : Content}
    {result : Outcome × Budget} :
    a.scan b (.file path content) = .ok result ↔ a.scanFile b path content = .ok result := by
  cases hscan : a.scanFile b path content with
  | ok _ => simp [scan, hscan]
  | error _ => simp [scan, hscan, fail]

/-- A policy is scanned as a target when it is scanned, which leaves the budget as it is. -/
theorem scan_policy_eq_ok_iff {a : Audit} {b b' : Budget} {label : RawText}
    {source : PolicySource} {outcome : Outcome} :
    a.scan b (.policy label source) = .ok (outcome, b') ↔
      a.scanPolicy label source = .ok outcome ∧ b' = b := by
  simp only [scan]
  cases hscan : a.scanPolicy label source with
  | ok o =>
      constructor
      · intro h
        cases h
        exact ⟨rfl, rfl⟩
      · rintro ⟨⟨⟩, rfl⟩
        rfl
  | error r =>
      constructor
      · intro h
        cases h
      · rintro ⟨⟨⟩, -⟩

/-- A file that is scanned without the whole audit failing is read and searched, or cannot be read
and is left with a warning. -/
theorem scanFile_cases {a : Audit} {before after : Budget} {path : String} {content : Content}
    {outcome : Outcome} (h : a.scan before (.file path content) = .ok (outcome, after)) :
    (∃ p, SourceFile.read .utf8 path content = .error p ∧
      outcome = .left ⟨"source", path, p.message⟩ ∧ after = before) ∨
    (∃ f found, SourceFile.read .utf8 path content = .ok f ∧
      a.scanSource before f = .ok (found, after) ∧ outcome = .scanned found) := by
  have hfile := scan_file_eq_ok_iff.mp h
  simp only [scanFile] at hfile
  cases hread : SourceFile.read .utf8 path content with
  | error p =>
      simp only [hread, Except.ok.injEq, Prod.mk.injEq] at hfile
      exact .inl ⟨p, rfl, hfile.1.symm, hfile.2.symm⟩
  | ok f =>
      simp only [hread, bind_eq_ok_iff, pure_eq_ok_iff, Prod.mk.injEq] at hfile
      obtain ⟨⟨found, budget⟩, hscan, houtcome, rfl⟩ := hfile
      exact .inr ⟨f, found, rfl, hscan, houtcome.symm⟩

/-- A policy that is scanned without the whole audit failing is reviewed, or cannot be read and is
left with a warning. -/
theorem scanPolicy_cases {a : Audit} {label : RawText} {source : PolicySource} {outcome : Outcome}
    (h : a.scanPolicy label source = .ok outcome) :
    (∃ message, outcome = .left ⟨"policy", label, message⟩) ∨
      ∃ found, outcome = .scanned found := by
  simp only [scanPolicy] at h
  split at h
  · rw [pure_eq_ok_iff] at h
    exact .inl ⟨_, h.symm⟩
  · cases h
  · split at h
    · rw [pure_eq_ok_iff] at h
      exact .inr ⟨_, h.symm⟩
    · simp only [bind_eq_ok_iff, pure_eq_ok_iff] at h
      obtain ⟨findings, -, rfl⟩ := h
      exact .inr ⟨_, rfl⟩

/-- What becomes of a file in the queue, and of its target if it has one, is one fate of the
file. -/
theorem exists_fileFate {a : Audit} {f : String × Content} {q : Queue}
    {outcomes : List (Target × Outcome)} (hq : Queue.ofFile a f.1 f.2 = .ok q)
    (htargets : outcomes.map Prod.fst = q.targets) (hattended : ∀ p ∈ outcomes, Attended a p) :
    ∃ fate, FileFate a f fate ∧ Tally a.settings.scan.timeout [fate] [] q outcomes := by
  obtain ⟨path, content⟩ := f
  simp only [Queue.ofFile, bind_eq_ok_iff] at hq
  obtain ⟨covered, hcovered, hq⟩ := hq
  cases covered with
  | true =>
      simp only [if_true, pure_eq_ok_iff] at hq
      subst hq
      obtain rfl := List.map_eq_nil_iff.mp htargets
      exact ⟨_, .excluded hcovered, .ofSkipped _⟩
  | false =>
      cases hdetectors : a.detectors with
      | nil =>
          simp only [hdetectors, List.isEmpty_nil, if_true, Bool.false_eq_true, if_false,
            pure_eq_ok_iff] at hq
          subst hq
          obtain rfl := List.map_eq_nil_iff.mp htargets
          exact ⟨_, .undetected hcovered hdetectors, .ofSkipped _⟩
      | cons d ds =>
          have hwanted : IsWanted a path := ⟨hcovered, by simp [hdetectors]⟩
          simp only [hdetectors, List.isEmpty_cons, Bool.false_eq_true, if_false,
            pure_eq_ok_iff] at hq
          subst hq
          obtain ⟨⟨t, outcome⟩, rfl, ht⟩ := List.map_eq_singleton_iff.mp htargets
          obtain rfl : t = .file path content := ht
          rcases hattended _ List.mem_cons_self with rfl | ⟨before, after, hscan⟩
          · exact ⟨_, .timedOut hwanted, .ofFile path content .timedOut⟩
          · rcases scanFile_cases hscan with ⟨p, hread, rfl, -⟩ | ⟨g, found, hread, hsource, rfl⟩
            · exact ⟨_, .unreadable hwanted hread, .ofFile path content (.left _)⟩
            · exact ⟨_, .scanned hwanted hread hsource, .ofFile path content (.scanned _)⟩

/-- What becomes of a policy in the queue, and of its target if it has one, is one fate of the
policy. -/
theorem exists_policyFate {a : Audit} {p : PolicySource × Nat}
    {outcomes : List (Target × Outcome)}
    (htargets : outcomes.map Prod.fst = (Queue.ofPolicy a p.2 p.1).targets)
    (hattended : ∀ p ∈ outcomes, Attended a p) :
    ∃ fate, PolicyFate a p fate ∧
      Tally a.settings.scan.timeout [] [fate] (Queue.ofPolicy a p.2 p.1) outcomes := by
  obtain ⟨source, index⟩ := p
  cases hreview : a.review with
  | none =>
      simp only [Queue.ofPolicy, hreview] at htargets ⊢
      obtain rfl := List.map_eq_nil_iff.mp htargets
      exact ⟨_, .unreviewed hreview, .ofUnreviewed _⟩
  | some review =>
      have hreviewed : a.review ≠ none := by simp [hreview]
      simp only [Queue.ofPolicy, hreview] at htargets ⊢
      obtain ⟨⟨t, outcome⟩, rfl, ht⟩ := List.map_eq_singleton_iff.mp htargets
      obtain rfl : t = .policy (source.label index) source := ht
      rcases hattended _ List.mem_cons_self with rfl | ⟨before, after, hscan⟩
      · exact ⟨_, .timedOut hreviewed, .ofPolicy _ source .timedOut⟩
      · have hpolicy := (scan_policy_eq_ok_iff.mp hscan).1
        rcases scanPolicy_cases hpolicy with ⟨message, rfl⟩ | ⟨found, rfl⟩
        · exact ⟨_, .unreadable hreviewed hpolicy, .ofPolicy _ source (.left _)⟩
        · exact ⟨_, .scanned hreviewed hpolicy, .ofPolicy _ source (.scanned _)⟩

/-! ## All files, all policies -/

/-- **The fates of all.**  If there is one fate for each item, with its queue and the outcomes of
the targets in it, there are fates for all items, with their queues one after another. -/
theorem exists_fates {ι : Type} {a : Audit} {fateOf : ι → Fate → Prop} {queueOf : ι → Queue → Prop}
    (tells : List Fate → Queue → List (Target × Outcome) → Prop) (hnil : tells [] {} [])
    (happend : ∀ fates fates' q q' outcomes outcomes', tells fates q outcomes →
      tells fates' q' outcomes' → tells (fates ++ fates') (q.append q') (outcomes ++ outcomes'))
    (hone : ∀ item q outcomes, queueOf item q → outcomes.map Prod.fst = q.targets →
      (∀ p ∈ outcomes, Attended a p) → ∃ fate, fateOf item fate ∧ tells [fate] q outcomes)
    {items : List ι} {qs : List Queue} {outcomes : List (Target × Outcome)}
    (hqs : List.Forall₂ queueOf items qs)
    (htargets : outcomes.map Prod.fst = (Queue.joined qs).targets)
    (hattended : ∀ p ∈ outcomes, Attended a p) :
    ∃ fates, List.Forall₂ fateOf items fates ∧ tells fates (Queue.joined qs) outcomes := by
  induction hqs generalizing outcomes with
  | nil =>
      obtain rfl := List.map_eq_nil_iff.mp htargets
      exact ⟨[], .nil, hnil⟩
  | @cons item q items qs hq hqs ih =>
      rw [Queue.joined_cons] at htargets ⊢
      obtain ⟨first, rest, rfl, hfirst, hrest⟩ := List.map_eq_append_iff.mp htargets
      obtain ⟨fate, hfate, htells⟩ :=
        hone _ _ _ hq hfirst fun p hp => hattended p (List.mem_append_left _ hp)
      obtain ⟨fates, hfates, htell⟩ :=
        ih hrest fun p hp => hattended p (List.mem_append_right _ hp)
      exact ⟨fate :: fates, .cons hfate hfates, happend _ _ _ _ _ _ htells htell⟩

/-- What the queue holds of some files, and the outcomes of the targets among them, is a fate of
each. -/
theorem exists_fileFates {a : Audit} {files : List (String × Content)} {qs : List Queue}
    {outcomes : List (Target × Outcome)}
    (hqs : List.Forall₂ (fun f q => Queue.ofFile a f.1 f.2 = .ok q) files qs)
    (htargets : outcomes.map Prod.fst = (Queue.joined qs).targets)
    (hattended : ∀ p ∈ outcomes, Attended a p) :
    ∃ fates, List.Forall₂ (FileFate a) files fates ∧
      Tally a.settings.scan.timeout fates [] (Queue.joined qs) outcomes := by
  refine exists_fates (Tally a.settings.scan.timeout · []) .nil ?_ ?_ hqs htargets hattended
  · intro _ _ _ _ _ _ h h'
    exact h.append h'
  · intro _ _ _ hq htargets hattended
    exact exists_fileFate hq htargets hattended

/-- What the queue holds of some policies, and the outcomes of the targets among them, is a fate of
each. -/
theorem exists_policyFates {a : Audit} {policies : List (PolicySource × Nat)}
    {outcomes : List (Target × Outcome)}
    (htargets : outcomes.map Prod.fst =
      (Queue.joined (policies.map fun p => Queue.ofPolicy a p.2 p.1)).targets)
    (hattended : ∀ p ∈ outcomes, Attended a p) :
    ∃ fates, List.Forall₂ (PolicyFate a) policies fates ∧
      Tally a.settings.scan.timeout [] fates
        (Queue.joined (policies.map fun p => Queue.ofPolicy a p.2 p.1)) outcomes := by
  have hqs : List.Forall₂ (fun p q => Queue.ofPolicy a p.2 p.1 = q) policies
      (policies.map fun p => Queue.ofPolicy a p.2 p.1) :=
    List.forall₂_map_right_iff.mpr (List.forall₂_same.mpr fun _ _ => rfl)
  refine exists_fates (Tally a.settings.scan.timeout []) .nil ?_ ?_ hqs htargets hattended
  · intro _ _ _ _ _ _ h h'
    exact h.append h'
  · rintro _ _ _ rfl htargets hattended
    exact exists_policyFate htargets hattended

/-- What a report says of the files and the policies of a request is what their fates say: those
that are skipped are listed, those that are scanned are counted, and the others are warned about;
besides, there is a warning when findings have been left out.  What is found comes from those that
are scanned. -/
structure Accounts (a : Audit) (request : Request) (report : Report) (files policies : List Fate) :
    Prop where
  files_fate : List.Forall₂ (FileFate a) request.files files
  policies_fate : List.Forall₂ (PolicyFate a) request.policies.zipIdx policies
  skipped : report.skippedFiles.Perm (files.filterMap Fate.entry?)
  scanned_files : report.totals.files = .int (files.countP Fate.isScanned)
  scanned_policies : report.totals.policies = .int (policies.countP Fate.isScanned)
  warnings : report.warnings.Perm
    (request.warnings ++ (files.filterMap Fate.warning? ++ policies.filterMap Fate.warning?) ++
      if report.totals.truncated then
        [budgetWarning request.scope a.settings.scan.maxFindings] else [])
  findings : report.findings.Perm (Report.kept a.threshold
    (((files ++ policies).filterMap Fate.found?).flatMap Found.findings))
  suppressed : report.suppressed.Perm
    (((files ++ policies).filterMap Fate.found?).flatMap Found.suppressed)
  incomplete : report.totals.incomplete = (files ++ policies).any Fate.isTimedOut

/-- No policy is listed as skipped. -/
theorem PolicyFate.not_skipped {a : Audit} {policies : List (PolicySource × Nat)}
    {fates : List Fate} (h : List.Forall₂ (PolicyFate a) policies fates) :
    fates.filterMap Fate.entry? = [] := by
  induction h with
  | nil => rfl
  | cons hfate _ ih => cases hfate <;> simpa [Fate.entry?] using ih

/-- **Any outcomes that the targets can have are accounted for**, in whatever order they have come
about and whatever has been left of the budget. -/
theorem accounts_of_outcomes {a : Audit} {occasion : Occasion} {request : Request} {queue : Queue}
    {outcomes : List (Target × Outcome)} {budget : Budget} {report : Report}
    (hqueue : Queue.ofRequest a request = .ok queue)
    (htargets : outcomes.map Prod.fst = queue.targets) (hattended : ∀ p ∈ outcomes, Attended a p)
    (hreport : a.reportOn occasion request queue outcomes budget = .ok report) :
    ∃ files policies, Accounts a request report files policies := by
  obtain ⟨qs, hqs, -, rfl⟩ := Queue.ofRequest_eq_ok_iff.mp hqueue
  obtain ⟨first, rest, rfl, hfirst, hrest⟩ := List.map_eq_append_iff.mp htargets
  obtain ⟨files, hfiles, htally⟩ :=
    exists_fileFates hqs hfirst fun p hp => hattended p (List.mem_append_left _ hp)
  obtain ⟨policies, hpolicies, htallies⟩ :=
    exists_policyFates hrest fun p hp => hattended p (List.mem_append_right _ hp)
  have hall := htally.append htallies
  simp only [List.nil_append, List.append_nil] at hall
  obtain ⟨findings, suppressed, hfindings, hsuppressed, rfl⟩ :=
    Report.aggregate_eq_ok_iff.mp hreport
  refine ⟨files, policies, hfiles, hpolicies, ?_, ?_, ?_, ?_, ?_, ?_, ?_⟩
  · refine (List.mergeSort_perm _ _).trans (hall.skipped.trans ?_)
    rw [List.filterMap_append, PolicyFate.not_skipped hpolicies, List.append_nil]
  · simp only [Report.ofSorted, circumstances, hall.scanned_files]
  · simp only [Report.ofSorted, circumstances, hall.scanned_policies]
  · refine (List.mergeSort_perm _ _).trans ?_
    refine List.Perm.append_right _ ?_
    rw [List.append_assoc, ← List.filterMap_append]
    exact List.Perm.append_left _ hall.warnings
  · refine (Finding.sorted_perm hfindings).trans (List.Perm.filter _ ?_)
    rw [← List.flatMap_def]
    exact hall.found.flatMap_right _
  · exact (Report.sortedSuppressions_perm hsuppressed).trans (hall.found.flatMap_right _)
  · exact hall.timedOut

/-- What a report of a run says of the files and the policies is what their fates say. -/
theorem accounts_of_run {a : Audit} {occasion : Occasion} {request : Request} {report : Report}
    (h : a.run occasion request = .ok report) :
    ∃ files policies, Accounts a request report files policies := by
  obtain ⟨queue, budget, workers, outcomes, after, hqueue, -, -, -, hall, hreport⟩ :=
    run_eq_ok_iff.mp h
  obtain ⟨htargets, hattended⟩ := attendAll_spec hall
  exact accounts_of_outcomes hqueue htargets hattended hreport

/-- **Every file is counted once**: as skipped, as scanned, by a warning about what it holds or by a
warning about the time. -/
theorem FileFate.length_eq {a : Audit} {files : List (String × Content)} {fates : List Fate}
    (h : List.Forall₂ (FileFate a) files fates) :
    files.length = (fates.filterMap Fate.entry?).length + fates.countP Fate.isScanned +
      (fates.filterMap Fate.warning?).countP (fun w => w.kind == "source") +
      (fates.filterMap Fate.warning?).countP (fun w => w.kind == "timeout") := by
  induction h with
  | nil => rfl
  | cons hfate _ ih =>
      cases hfate <;>
        simp [List.filterMap_cons, List.countP_cons, Fate.entry?, Fate.warning?,
          Fate.isScanned, timeoutWarning] <;>
        omega

/-- **Every policy is counted once**: as scanned, by a warning about the policy or by a warning
about the time. -/
theorem PolicyFate.length_eq {a : Audit} {policies : List (PolicySource × Nat)}
    {fates : List Fate} (h : List.Forall₂ (PolicyFate a) policies fates) :
    policies.length = fates.countP Fate.isScanned +
      (fates.filterMap Fate.warning?).countP (fun w => w.kind == "policy") +
      (fates.filterMap Fate.warning?).countP (fun w => w.kind == "timeout") := by
  induction h with
  | nil => rfl
  | cons hfate _ ih =>
      cases hfate <;>
        simp [List.filterMap_cons, List.countP_cons, Fate.warning?, Fate.isScanned,
          timeoutWarning] <;>
        omega

/-- A warning is about the time when the time was over, and not otherwise. -/
def Fate.TellsTime : Fate → Prop
  | .left w => w.kind ≠ "timeout"
  | .timedOut w => w.kind = "timeout"
  | _ => True

theorem FileFate.tellsTime {a : Audit} {files : List (String × Content)} {fates : List Fate}
    (h : List.Forall₂ (FileFate a) files fates) : ∀ fate ∈ fates, fate.TellsTime := by
  induction h with
  | nil => simp
  | cons hfate _ ih =>
      refine List.forall_mem_cons.mpr ⟨?_, ih⟩
      cases hfate <;> simp [Fate.TellsTime, timeoutWarning]

theorem PolicyFate.tellsTime {a : Audit} {policies : List (PolicySource × Nat)}
    {fates : List Fate} (h : List.Forall₂ (PolicyFate a) policies fates) :
    ∀ fate ∈ fates, fate.TellsTime := by
  induction h with
  | nil => simp
  | cons hfate _ ih =>
      refine List.forall_mem_cons.mpr ⟨?_, ih⟩
      cases hfate <;> simp [Fate.TellsTime, timeoutWarning]

/-- The time was over for something when there is a warning about it. -/
theorem any_isTimedOut_iff {fates : List Fate} (h : ∀ fate ∈ fates, fate.TellsTime) :
    fates.any Fate.isTimedOut = true ↔
      ∃ w ∈ fates.filterMap Fate.warning?, w.kind = "timeout" := by
  induction fates with
  | nil => simp
  | cons fate fates ih =>
      obtain ⟨hfate, hfates⟩ := List.forall_mem_cons.mp h
      have ih := ih hfates
      cases fate <;>
        simp_all [List.filterMap_cons, Fate.warning?, Fate.isTimedOut, Fate.TellsTime]

/-- **A report accounts for every file and every policy.**  Each of them has a fate of its own, and
the report says what the fates say.  So the files are as many as those that are listed as skipped,
those that are counted as scanned and those that are warned about, by what they hold or by the time;
the policies are as many as those that are counted as scanned and those that are warned about; and
the report is incomplete when one of the warnings of the run is about the time.  Targets that are
given up leave the budget alone from then on, as everywhere in this model of a run. -/
theorem run_accounts {a : Audit} {occasion : Occasion} {request : Request} {report : Report}
    (h : a.run occasion request = .ok report) :
    ∃ (files policies : List Fate) (scannedFiles scannedPolicies : Nat)
      (fileWarnings policyWarnings : List Warning),
      Accounts a request report files policies ∧
      report.totals.files = .int scannedFiles ∧
      report.totals.policies = .int scannedPolicies ∧
      fileWarnings = files.filterMap Fate.warning? ∧
      policyWarnings = policies.filterMap Fate.warning? ∧
      request.files.length = report.skippedFiles.length + scannedFiles +
        fileWarnings.countP (fun w => w.kind == "source") +
        fileWarnings.countP (fun w => w.kind == "timeout") ∧
      request.policies.length = scannedPolicies +
        policyWarnings.countP (fun w => w.kind == "policy") +
        policyWarnings.countP (fun w => w.kind == "timeout") ∧
      (report.totals.incomplete = true ↔
        ∃ w ∈ fileWarnings ++ policyWarnings, w.kind = "timeout") := by
  obtain ⟨files, policies, haccounts⟩ := accounts_of_run h
  have htime : ∀ fate ∈ files ++ policies, fate.TellsTime := by
    intro fate hfate
    rcases List.mem_append.mp hfate with hfate | hfate
    · exact FileFate.tellsTime haccounts.files_fate fate hfate
    · exact PolicyFate.tellsTime haccounts.policies_fate fate hfate
  refine ⟨files, policies, _, _, _, _, haccounts, haccounts.scanned_files,
    haccounts.scanned_policies, rfl, rfl, ?_, ?_, ?_⟩
  · rw [haccounts.skipped.length_eq]
    exact FileFate.length_eq haccounts.files_fate
  · rw [← List.length_zipIdx]
    exact PolicyFate.length_eq haccounts.policies_fate
  · rw [haccounts.incomplete, any_isTimedOut_iff htime, List.filterMap_append]

/-- One file is scanned, one is excluded, one is no text, and the time is over for one; the policy
cannot be read. -/
theorem run_accounts_mixed :
    let a : Audit := {
      settings := { scan := { exclusions := .texts ["build/*"] } }
      threshold := "low"
      detectors := [.vulnerabilities [] (.int 4096)]
      review := some { dangerous := [], staleAfter := 0, now := ⟨0, none⟩ }
      now := ⟨0, none⟩ }
    let request : Request := {
      files := [("a.py", .text ['a']), ("build/b.py", .text []), ("c.png", .bytes [0]),
        ("d.py", .text [])]
      policies := [.document .null] }
    ∃ report files policies, a.run { id := "1", slow := ["d.py"] } request = .ok report ∧
      Accounts a request report files policies ∧ report.totals.incomplete = true := by
  intro a request
  have hrun : ((a.run { id := "1", slow := ["d.py"] } request).toOption.any fun report =>
      report.totals.incomplete) = true := by
    decide +kernel
  obtain ⟨report, hreport, hincomplete⟩ := any_toOption_iff.mp hrun
  obtain ⟨files, policies, _, _, _, _, haccounts, -⟩ := run_accounts hreport
  exact ⟨report, files, policies, hreport, haccounts, hincomplete⟩

end SecurityAudit.Audit
