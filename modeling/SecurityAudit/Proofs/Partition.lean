import SecurityAudit.Proofs.Coverage
import SecurityAudit.Proofs.Disabling
import SecurityAudit.Proofs.Verdict
import SecurityAudit.Proofs.WellFormed

/-!
# What is found stays or is suppressed

The findings of the detectors in a file part ways once: those that the markers of the file cover
leave a record behind, all others stay as they are and are put together with those of the other
targets.  Nothing is lost between the two and nothing is told twice (`run_partitions`), so that the
number of findings before the threshold and the number of suppressions add up to what the detectors
and the review have found.
-/

namespace SecurityAudit

/-! ## One file -/

/-- A register covers a rule on a line of a file: it knows of a marker for the line, and the marker
is for the rule. -/
def Register.covers (r : Register) (file : String) (line : Int) (rule : Value) : Bool :=
  ((r.coverings file).find? line).any (·.marker.covers rule)

/-- The register that has taken note of all lines of a file, as they are. -/
def SourceFile.register (f : SourceFile) : Register :=
  Register.add [] f.path.readable (numberedFrom 0 f.lines)

/-- The markers of a file cover a finding in it. -/
def SourceFile.isSilenced (f : SourceFile) (x : Finding) : Bool :=
  f.register.covers f.path.readable x.line x.ruleId

/-- A record is about a finding: it has its rule, its file and its line. -/
structure Suppression.IsAbout (s : Suppression) (x : Finding) : Prop where
  rule : s.rule = x.ruleId
  file : s.file = x.file
  line : s.line = x.line

/-- A finding leaves a record when there is a marker for its line that is for its rule. -/
theorem Suppression.check?_spec {cs : Coverings} {x : Finding} {record : Option Suppression}
    (h : check? cs x.ruleId x.file x.line = .ok record) :
    record.isSome = (cs.find? x.line).any (·.marker.covers x.ruleId) ∧
      ∀ s, record = some s → s.IsAbout x := by
  cases record with
  | some s =>
      obtain ⟨c, hfind, hcovers, rfl⟩ := check?_eq_some_iff.mp h
      refine ⟨by simp [hfind, hcovers], ?_⟩
      rintro _ ⟨⟩
      exact ⟨rfl, rfl, rfl⟩
  | none =>
      refine ⟨?_, by simp⟩
      by_contra hcovered
      obtain ⟨c, hfind, hcovers⟩ := (Option.any_eq_true _ _).mp (by simpa using hcovered)
      cases h.symm.trans (check?_eq_some_iff.mpr ⟨c, hfind, hcovers, rfl⟩)

/-- What comes of some items goes with the items that it comes of. -/
theorem forall₂_filterMap {α β : Type} {f : α → Option β} {R : α → β → Prop} {as : List α}
    (h : ∀ a ∈ as, ∀ b, f a = some b → R a b) :
    List.Forall₂ R (as.filter fun a => (f a).isSome) (as.filterMap f) := by
  induction as with
  | nil => exact .nil
  | cons a as ih =>
      obtain ⟨ha, has⟩ := List.forall_mem_cons.mp h
      cases hb : f a with
      | none =>
          rw [List.filter_cons_of_neg (by simp [hb]), List.filterMap_cons_none hb]
          exact ih has
      | some b =>
          rw [List.filter_cons_of_pos (by simp [hb]), List.filterMap_cons_some hb]
          exact .cons (ha b hb) (ih has)

namespace SourceFile

/-- Findings in a file are divided by its markers: those that are not covered stay, unchanged and in
their order, and each of the others leaves one record. -/
structure Divides (f : SourceFile) (fs : List Finding) (found : Found) : Prop where
  inFile : ∀ x ∈ fs, x.file = f.path.readable
  kept : found.findings = fs.filter fun x => !f.isSilenced x
  recorded : List.Forall₂ (fun x s => s.IsAbout x) (fs.filter f.isSilenced) found.suppressed

variable {f : SourceFile} {fs gs : List Finding} {found more : Found}

/-- Of so many findings each stays or leaves a record. -/
theorem Divides.length_eq (h : f.Divides fs found) :
    found.findings.length + found.suppressed.length = fs.length := by
  rw [h.kept, ← h.recorded.length_eq, ← List.countP_eq_length_filter,
    ← List.countP_eq_length_filter, List.length_eq_countP_add_countP f.isSilenced, Nat.add_comm]
  simp only [Bool.not_eq_true, Bool.decide_eq_false]

theorem divides_nil : f.Divides [] {} where
  inFile := List.forall_mem_nil _
  kept := rfl
  recorded := .nil

/-- Findings are divided part by part. -/
theorem Divides.append (h : f.Divides fs found) (h' : f.Divides gs more) :
    f.Divides (fs ++ gs) (found.append more) where
  inFile := List.forall_mem_append.mpr ⟨h.inFile, h'.inFile⟩
  kept := by rw [Found.append, h.kept, h'.kept, List.filter_append]
  recorded := by
    rw [List.filter_append]
    exact List.rel_append h.recorded h'.recorded

/-- Findings are divided detector by detector. -/
theorem Divides.joined {fss : List (List Finding)} {finds : List Found}
    (h : List.Forall₂ f.Divides fss finds) : f.Divides fss.flatten (Found.joined finds) := by
  induction h with
  | nil => exact divides_nil
  | cons hfirst _ ih =>
      rw [List.flatten_cons, Found.joined_cons]
      exact hfirst.append ih

/-- **Putting aside what is covered divides the findings.** -/
theorem divides_of_sift (hfs : ∀ x ∈ fs, x.file = f.path.readable)
    (h : Found.sift (Audit.coveringsOf f) fs = .ok found) : f.Divides fs found := by
  obtain ⟨hchecked, rfl⟩ := Found.sift_eq_ok_iff.mp h
  have hsilenced : ∀ x ∈ fs,
      f.isSilenced x = (Suppression.recordOf (Audit.coveringsOf f) x).isSome := by
    intro x hx
    rw [(Suppression.check?_spec (hchecked x hx)).1, Audit.coveringsOf_eq f f.path.readable]
    rfl
  refine ⟨hfs, List.filter_congr fun x hx => ?_, ?_⟩
  · rw [hsilenced x hx, Option.not_isSome]
  · rw [List.filter_congr hsilenced]
    exact forall₂_filterMap fun x hx => (Suppression.check?_spec (hchecked x hx)).2

end SourceFile

namespace Audit

variable {a : Audit} {occasion : Occasion} {request : Request} {b : Budget}

/-! ## One target -/

/-- All that the detectors find in a file, or the review in a policy, before anything is put aside;
nothing in what cannot be read. -/
def producedIn (a : Audit) : Target → Except Refusal (List Finding)
  | .file path content =>
    match SourceFile.read .utf8 path content with
    | .error _ => .ok []
    | .ok f => (a.detectors.mapM (FileDetector.run · a.now f)).map List.flatten
  | .policy _ source =>
    match readPolicy source with
    | .error (.problem _) => .ok []
    | .error (.refused r) => .error r
    | .ok p =>
      match a.review with
      | none => .ok []
      | some review => review.run p

/-- How all that is found in a target goes with what has become of the target: the findings in a
file are divided by its markers, those about a policy all stay, and nothing is found in what cannot
be read. -/
inductive Parted : List Finding → Target × Outcome → Prop
  | file {path : String} {content : Content} {f : SourceFile} {fs : List Finding} {found : Found}
      (read : SourceFile.read .utf8 path content = .ok f) (divided : f.Divides fs found) :
      Parted fs (.file path content, .scanned found)
  | policy {label : RawText} {source : PolicySource} {fs : List Finding} :
      Parted fs (.policy label source, .scanned { findings := fs })
  | left {t : Target} {w : Warning} : Parted [] (t, .left w)

/-- What stays of a target and what is suppressed add up to what is found in it. -/
theorem Parted.length_eq {fs : List Finding} {p : Target × Outcome} (h : Parted fs p) :
    p.2.found.findings.length + p.2.found.suppressed.length = fs.length := by
  cases h with
  | file _ divided => exact divided.length_eq
  | policy => rfl
  | left => rfl

/-- What a detector finds in a file is divided by the markers of the file. -/
theorem exists_divided_of_sifted {f : SourceFile} {d : FileDetector} (hd : d ∈ a.detectors)
    {found : Found} (h : a.sifted f d = .ok found) :
    ∃ fs, d.run a.now f = .ok fs ∧ f.Divides fs found := by
  obtain ⟨fs, hfs, hsift⟩ := bind_eq_ok_iff.mp h
  exact ⟨fs, hfs, SourceFile.divides_of_sift (fun x hx => (inFile_of_mem hd hfs hx).file_eq) hsift⟩

/-- Without a limit, what is found in a file is divided by the markers of the file. -/
theorem exists_divided_of_scanSource (hb : b.limit = none) {f : SourceFile} {found : Found}
    {after : Budget} (h : a.scanSource b f = .ok (found, after)) :
    ∃ fss, a.detectors.mapM (FileDetector.run · a.now f) = .ok fss ∧
      f.Divides fss.flatten found := by
  rw [scanSource, detectAll_eq hb, map_eq_ok_iff] at h
  obtain ⟨finds, hfinds, heq⟩ := h
  obtain ⟨rfl, -⟩ := Prod.mk.inj heq
  have hsifted := (List.forall₂_and_left _ _).mpr ⟨fun d hd => hd, mapM_eq_ok_iff.mp hfinds⟩
  have hdivided : List.Forall₂ (fun d found => ∃ fs, FileDetector.run d a.now f = .ok fs ∧
      f.Divides fs found) a.detectors finds :=
    hsifted.imp fun d found h => exists_divided_of_sifted h.1 h.2
  obtain ⟨fss, hfss, hdivides⟩ := exists_mapM_of_forall₂ hdivided
  refine ⟨fss, hfss, ?_⟩
  rw [Found.nil_append]
  exact .joined hdivides

/-- Nothing that a review finds in a policy is put aside. -/
theorem exists_parted_of_scanPolicy {label : RawText} {source : PolicySource} {outcome : Outcome}
    (h : a.scanPolicy label source = .ok outcome) :
    ∃ fs, a.producedIn (.policy label source) = .ok fs ∧
      Parted fs (.policy label source, outcome) := by
  cases hread : readPolicy source with
  | error fault =>
      cases fault with
      | problem p =>
          obtain rfl := Except.ok.inj ((scanPolicy_of_problem hread).symm.trans h)
          exact ⟨[], by simp [producedIn, hread], .left⟩
      | refused r => cases (scanPolicy_of_refused hread).symm.trans h
  | ok p =>
      simp only [producedIn, hread]
      cases hreview : a.review with
      | none =>
          rw [scanPolicy_of_ok hread, hreview] at h
          obtain rfl := Except.ok.inj h
          exact ⟨[], rfl, .policy⟩
      | some review =>
          simp only [scanPolicy_of_ok hread, hreview, Option.toList_some, List.mapM_cons,
            List.mapM_nil, reviewed, map_eq_ok_iff, bind_eq_ok_iff, pure_eq_ok_iff] at h
          obtain ⟨_, ⟨_, ⟨fs, hfs, rfl⟩, _, rfl, rfl⟩, rfl⟩ := h
          rw [Found.joined_cons, Found.joined_nil, Found.append_nil]
          exact ⟨fs, hfs, .policy⟩

/-- **Scanning a target without a limit parts what is found in it.** -/
theorem exists_parted_of_scan (hb : b.limit = none) {t : Target} {outcome : Outcome}
    {after : Budget} (h : a.scan b t = .ok (outcome, after)) :
    ∃ fs, a.producedIn t = .ok fs ∧ Parted fs (t, outcome) := by
  cases t with
  | file path content =>
      obtain ⟨p, hread, rfl, -⟩ | ⟨f, found, hread, hsource, rfl⟩ := scanFile_cases h
      · exact ⟨[], by simp [producedIn, hread], .left⟩
      · obtain ⟨fss, hfss, hdivides⟩ := exists_divided_of_scanSource hb hsource
        exact ⟨fss.flatten, by simp [producedIn, hread, hfss, Except.map], .file hread hdivides⟩
  | policy label source => exact exists_parted_of_scanPolicy (scan_policy_eq_ok_iff.mp h).1

/-- Seeing to a target without a limit uses nothing up, and parts what is found in the target unless
the time is over for it. -/
theorem parted_of_attend (hb : b.limit = none) {workers : Nat} {t : Target} {outcome : Outcome}
    {r : Resources} (h : a.attend occasion ⟨workers, b⟩ t = .ok (outcome, r)) :
    r.budget = b ∧
      (outcome = .timedOut ∨ ∃ fs, a.producedIn t = .ok fs ∧ Parted fs (t, outcome)) := by
  cases workers with
  | zero =>
      obtain ⟨rfl, rfl⟩ := Prod.mk.inj (pure_eq_ok_iff.mp h)
      exact ⟨rfl, .inl rfl⟩
  | succ free =>
      rw [attend_of_no_limit hb] at h
      split at h
      · cases h
        exact ⟨rfl, .inl rfl⟩
      · obtain ⟨⟨scanned, after⟩, hscan, heq⟩ := map_eq_ok_iff.mp h
        obtain ⟨rfl, rfl⟩ := Prod.mk.inj heq
        exact ⟨rfl, .inr (exists_parted_of_scan hb hscan)⟩

/-! ## All targets -/

/-- **Seeing to all targets without a limit, and with time enough, parts what is found in each.** -/
theorem exists_parted_of_attendAll (hb : b.limit = none) {workers : Nat} {ts : List Target}
    {outcomes : List (Target × Outcome)} {after : Budget}
    (h : a.attendAll occasion ⟨workers, b⟩ ts = .ok (outcomes, after))
    (hdone : outcomes.any isTimedOut = false) :
    ∃ produced, ts.mapM a.producedIn = .ok produced ∧ List.Forall₂ Parted produced outcomes := by
  refine exists_mapM_of_forall₂ ?_
  induction ts generalizing workers outcomes with
  | nil =>
      cases h
      exact .nil
  | cons t ts ih =>
      simp only [attendAll, bind_eq_ok_iff, pure_eq_ok_iff] at h
      obtain ⟨⟨outcome, left, b'⟩, hfirst, ⟨rest, _⟩, hrest, heq⟩ := h
      obtain ⟨rfl, rfl⟩ := Prod.mk.inj heq
      -- The budget is the one from before, so that the others are seen to on it too.
      obtain ⟨rfl, hparted⟩ := parted_of_attend hb hfirst
      obtain ⟨hknown, hothers⟩ := Bool.or_eq_false_iff.mp hdone
      refine .cons (hparted.resolve_left ?_) (ih hrest hothers)
      rintro rfl
      cases hknown

/-- All that stays is what stays of each target. -/
theorem merged_eq (outcomes : List (Target × Outcome)) :
    merged outcomes = outcomes.flatMap fun p => p.2.found.findings := by
  have h := congrArg Found.findings (joined_map_found outcomes)
  rw [Found.joined, Found.joined, List.flatMap_map, List.flatMap_def] at h
  exact h.symm

/-- What stays and what is suppressed, of all targets, add up to what is found in them. -/
theorem length_eq_of_parted {produced : List (List Finding)} {outcomes : List (Target × Outcome)}
    (h : List.Forall₂ Parted produced outcomes) :
    (merged outcomes).length + (suppressedOf outcomes).length = produced.flatten.length := by
  rw [merged_eq, suppressedOf]
  induction h with
  | nil => rfl
  | cons hfirst _ ih =>
      have hlength := hfirst.length_eq
      simp only [List.flatMap_cons, List.flatten_cons, List.length_append]
      omega

/-- **What is found stays or is suppressed.**  Let findings not be limited, and let the time not be
over for any target.  Then the report is made of what becomes of the targets in the queue, and what
is found in each of them is parted:
* of the findings of the detectors in a file that is read, those that the markers of the file do not
  cover stay as they are and in their order, and each of the others leaves a record of its rule, its
  file and its line in place of itself;
* of the findings about a policy none is suppressed.

What stays is what the report is made from, and the records are those that it shows, so that the
findings that it counts and the suppressions that it shows add up to all that has been found. -/
theorem run_partitions (hlimit : a.settings.scan.maxFindings = .null) {report : Report}
    (hrun : a.run occasion request = .ok report) (hcomplete : report.totals.incomplete = false) :
    ∃ queue outcomes after produced,
      Queue.ofRequest a request = .ok queue ∧
      a.outcomesOf occasion request = .ok (outcomes, after) ∧
      a.reportOn occasion request queue outcomes after = .ok report ∧
      outcomes.map Prod.fst = queue.targets ∧
      queue.targets.mapM a.producedIn = .ok produced ∧
      List.Forall₂ Parted produced outcomes ∧
      report.rawCount = (merged outcomes).length ∧
      report.suppressed.Perm (suppressedOf outcomes) ∧
      report.rawCount + report.suppressed.length = produced.flatten.length := by
  obtain ⟨queue, outcomes, after, hqueue, houtcomes, hreport⟩ := run_eq_ok_iff_outcomesOf.mp hrun
  obtain ⟨queue', b, workers, hqueue', hb, -, -, hall⟩ := outcomesOf_eq_ok_iff.mp houtcomes
  obtain rfl := Except.ok.inj (hqueue.symm.trans hqueue')
  rw [hlimit] at hb
  obtain rfl := Except.ok.inj hb
  obtain ⟨htells, hincomplete⟩ := tells_of_reportOn hreport
  obtain ⟨produced, hproduced, hparted⟩ :=
    exists_parted_of_attendAll rfl hall (hincomplete.symm.trans hcomplete)
  have hraw : report.rawCount = (merged outcomes).length := by
    rw [htells.rawCount, merged_eq, Found.joined, List.flatMap_map]
  have hperm : report.suppressed.Perm (suppressedOf outcomes) := by
    rw [suppressedOf_eq]
    exact Report.sortedSuppressions_perm htells.suppressed
  refine ⟨queue, outcomes, after, produced, hqueue, houtcomes, hreport, (attendAll_spec hall).1,
    hproduced, hparted, hraw, hperm, ?_⟩
  rw [hraw, hperm.length_eq, length_eq_of_parted hparted]

/-- Two lines with something left to do, one of them with a marker, and a policy that grants
everything. -/
def Desk.marked : Request where
  files := [("page.py", .text "x = 1 # TODO\ny = 2 # TODO # nosec".toList)]
  policies := Desk.request.policies

/-- Of the two findings in the file one is suppressed; the three about the policy stay. -/
theorem run_partitions_desk :
    ∃ c a report,
      Catalog.ofSettings Desk.settings (some Desk.project) = .ok c ∧
      Audit.ofSettings Desk.settings c ⟨0, none⟩ = .ok a ∧
      a.run { id := "1" } Desk.marked = .ok report ∧
      report.rawCount = 4 ∧ report.suppressed.length = 1 ∧
      ∃ outcomes produced, List.Forall₂ Parted produced outcomes ∧
        report.suppressed.Perm (suppressedOf outcomes) ∧ produced.flatten.length = 5 := by
  have hsteps : ((Catalog.ofSettings Desk.settings (some Desk.project)).toOption.any fun c =>
      (Audit.ofSettings Desk.settings c ⟨0, none⟩).toOption.any fun a =>
        (a.run { id := "1" } Desk.marked).toOption.any fun report =>
          !report.totals.incomplete && report.rawCount == 4 &&
            report.suppressed.length == 1) = true := by
    simp only [Catalog.ofSettings, CatalogBuilder.prepare, CatalogBuilder.loadCustom,
      CatalogBuilder.loadDirectory, Audit.run, Report.aggregate, Finding.sorted,
      Report.sortedSuppressions, circumstances, Sorting.mergeSort_eq_sortWithin]
    decide +kernel
  obtain ⟨c, hcatalog, hsteps⟩ := any_toOption_iff.mp hsteps
  obtain ⟨a, haudit, hsteps⟩ := any_toOption_iff.mp hsteps
  obtain ⟨report, hrun, hsteps⟩ := any_toOption_iff.mp hsteps
  simp only [Bool.and_eq_true, Bool.not_eq_true', beq_iff_eq] at hsteps
  obtain ⟨⟨hcomplete, hraw⟩, hone⟩ := hsteps
  have hlimit : a.settings.scan.maxFindings = .null := by
    rw [(detectors_of_ofSettings haudit).1]
    rfl
  obtain ⟨_, outcomes, _, produced, -, -, -, -, -, hparted, -, hperm, hsum⟩ :=
    run_partitions hlimit hrun hcomplete
  rw [hraw, hone] at hsum
  exact ⟨c, a, report, hcatalog, haudit, hrun, hraw, hone, outcomes, produced, hparted, hperm,
    hsum.symm⟩

end Audit

end SecurityAudit
