import SecurityAudit.Proofs.Deadline

/-!
# Runs without a limit, target by target

Without a limit on findings, and with time enough, what is found in a target does not depend on
anything else, and a target in which nothing is looked for might as well be in the queue as not.  So
a run is described by what is found in each of the targets that a request may have, which depend on
nothing but the exclusions (`Audit.candidates`).
-/

namespace SecurityAudit

namespace Found

/-- Everything that has been found. -/
def joined (fs : List Found) : Found where
  findings := fs.flatMap findings
  suppressed := fs.flatMap suppressed

@[simp]
theorem joined_nil : joined [] = {} := rfl

@[simp]
theorem joined_cons (f : Found) (fs : List Found) : joined (f :: fs) = f.append (joined fs) := by
  simp [joined, append]

@[simp]
theorem append_nil (f : Found) : f.append {} = f := by
  simp [append]

@[simp]
theorem nil_append (f : Found) : append {} f = f := by
  simp [append]

theorem append_assoc (f g h : Found) : (f.append g).append h = f.append (g.append h) := by
  simp [append]

end Found

/-- What has been found about a target with an outcome. -/
def Outcome.found : Outcome → Found
  | .scanned found => found
  | _ => {}

namespace Audit

variable {a : Audit} {occasion : Occasion} {request : Request} {b : Budget}

/-! ## What is found in a target -/

/-- What a detector finds in a file, divided into what stays and what is suppressed. -/
def sifted (a : Audit) (f : SourceFile) (d : FileDetector) : Except Refusal Found := do
  Found.sift (coveringsOf f) (← d.run a.now f)

/-- Without a limit a detector adds what it finds. -/
theorem detect_eq (hb : b.limit = none) (f : SourceFile) (found : Found) (d : FileDetector) :
    a.detect f (coveringsOf f) (found, b) d =
      (a.sifted f d).map fun more => (found.append more, b) := by
  simp only [detect, Budget.not_isExhausted_of_no_limit hb, Bool.false_eq_true, if_false, sifted,
    Budget.accept_of_no_limit hb]
  cases d.run a.now f with
  | error r => rfl
  | ok fs =>
      simp only [bind, Except.bind]
      cases Found.sift (coveringsOf f) fs <;> rfl

/-- Without a limit the detectors add what they find, one after another. -/
theorem detectAll_eq (hb : b.limit = none) (f : SourceFile) (found : Found)
    (ds : List FileDetector) :
    ds.foldlM (a.detect f (coveringsOf f)) (found, b) =
      (ds.mapM (a.sifted f)).map fun mores => (found.append (Found.joined mores), b) := by
  induction ds generalizing found with
  | nil => simp [pure, Except.pure, Except.map]
  | cons d ds ih =>
      simp only [List.foldlM_cons, List.mapM_cons, detect_eq hb]
      cases a.sifted f d with
      | error r => rfl
      | ok more =>
          simp only [Except.map, bind, Except.bind, ih]
          cases ds.mapM (a.sifted f) with
          | error r => rfl
          | ok mores => simp [pure, Except.pure, Found.append_assoc]

/-- Something is looked for in a target. -/
def sees (a : Audit) : Target → Bool
  | .file _ _ => !a.detectors.isEmpty
  | .policy _ _ => a.review.isSome

/-- What is found in a target when there is no limit: nothing if nothing is looked for. -/
def foundIn (a : Audit) (t : Target) : Except (Fault Problem) Found :=
  if a.sees t then (a.scan { limit := none } t).map fun result => result.1.found else .ok {}

/-- A policy that is given to an audit, as it is read. -/
def readPolicy : PolicySource → Iam.Reading Iam.Policy
  | .policy p => .ok p
  | .document v => Iam.Policy.ofDocument v

/-- What a review finds in a policy. -/
def reviewed (p : Iam.Policy) (review : Iam.Review) : Except Refusal Found :=
  (review.run p).map fun fs => { findings := fs }

/-- What each detector finds in a file that can be read, or the review in a policy that can; nothing
is found in a policy that is refused. -/
def shares (a : Audit) : Target → List (Except Refusal Found)
  | .file path content =>
    match SourceFile.read .utf8 path content with
    | .error _ => []
    | .ok f => a.detectors.map (a.sifted f)
  | .policy _ source =>
    match readPolicy source with
    | .error (.problem _) => []
    | .error (.refused r) => a.review.toList.map fun _ => .error r
    | .ok p => a.review.toList.map (reviewed p)

/-- Without a limit, what is found in a file is what the detectors find, one after another. -/
theorem scanSource_eq (f : SourceFile) :
    a.scanSource { limit := none } f =
      (a.detectors.mapM (a.sifted f)).map fun finds => (Found.joined finds, { limit := none }) := by
  rw [scanSource, detectAll_eq rfl]
  simp only [Found.nil_append]

/-- A policy that cannot be read is left with a warning. -/
theorem scanPolicy_of_problem {label : RawText} {source : PolicySource} {p : Iam.Problem}
    (h : readPolicy source = .error (.problem p)) :
    a.scanPolicy label source = .ok (.left ⟨"policy", label, p.message⟩) := by
  cases source with
  | policy p => cases h
  | document v =>
      have hread : Iam.Policy.ofDocument v = .error (.problem p) := h
      simp only [scanPolicy, hread]
      rfl

/-- A policy that is refused is not scanned. -/
theorem scanPolicy_of_refused {label : RawText} {source : PolicySource} {r : Refusal}
    (h : readPolicy source = .error (.refused r)) : a.scanPolicy label source = .error r := by
  cases source with
  | policy p => cases h
  | document v =>
      have hread : Iam.Policy.ofDocument v = .error (.refused r) := h
      simp only [scanPolicy, hread]

/-- A policy that can be read is scanned by the review, if there is one. -/
theorem scanPolicy_of_ok {label : RawText} {source : PolicySource} {p : Iam.Policy}
    (h : readPolicy source = .ok p) :
    a.scanPolicy label source = (a.review.toList.mapM (reviewed p)).map fun finds =>
      .scanned (Found.joined finds) := by
  have hsame : a.scanPolicy label source = a.scanPolicy label (.policy p) := by
    cases source with
    | policy p =>
        cases h
        rfl
    | document v =>
        have hread : Iam.Policy.ofDocument v = .ok p := h
        simp only [scanPolicy, hread]
  rw [hsame]
  simp only [scanPolicy]
  cases a.review with
  | none => rfl
  | some review =>
      simp only [Option.toList_some, List.mapM_cons, List.mapM_nil, reviewed]
      cases review.run p <;> simp [Except.map, bind, Except.bind, pure, Except.pure]

/-- Nothing is looked for in a target without detectors or a review for it. -/
theorem shares_of_not_sees {t : Target} (h : a.sees t = false) : a.shares t = [] := by
  cases t with
  | file path content =>
      have hnone : a.detectors = [] := by simpa [sees] using h
      simp only [shares, hnone, List.map_nil]
      split <;> rfl
  | policy label source =>
      have hnone : a.review = none := by simpa [sees] using h
      simp only [shares, hnone, Option.toList_none, List.map_nil]
      split <;> rfl

/-- Nothing is found where nothing is looked for. -/
theorem foundIn_of_not_sees {t : Target} (h : a.sees t = false) : a.foundIn t = .ok {} := by
  rw [foundIn, h]
  rfl

theorem foundIn_of_sees {t : Target} (h : a.sees t = true) :
    a.foundIn t = (a.scan { limit := none } t).map fun result => result.1.found :=
  if_pos h

/-- What is found in a target is what is found share by share. -/
theorem foundIn_eq_ok_iff {t : Target} {found : Found} :
    a.foundIn t = .ok found ↔
      ∃ finds, (a.shares t).mapM id = .ok finds ∧ Found.joined finds = found := by
  obtain hsees | hsees := Bool.eq_false_or_eq_true (a.sees t)
  swap
  · simp [foundIn_of_not_sees hsees, shares_of_not_sees hsees, pure_eq_ok_iff]
  rw [foundIn_of_sees hsees, map_eq_ok_iff]
  cases t with
  | file path content =>
      simp only [scan_file_eq_ok_iff, scanFile, shares]
      cases SourceFile.read .utf8 path content with
      | error p => simp [Outcome.found, pure_eq_ok_iff]
      | ok f =>
          simp only [scanSource_eq, bind_eq_ok_iff, map_eq_ok_iff, pure_eq_ok_iff]
          constructor
          · rintro ⟨_, ⟨_, ⟨finds, hfinds, rfl⟩, rfl⟩, rfl⟩
            exact ⟨finds, by simpa using hfinds, rfl⟩
          · rintro ⟨finds, hfinds, rfl⟩
            exact ⟨_, ⟨_, ⟨finds, by simpa using hfinds, rfl⟩, rfl⟩, rfl⟩
  | policy label source =>
      have hscan (outcome : Outcome) : (∃ after, a.scan { limit := none } (.policy label source) =
          .ok (outcome, after)) ↔ a.scanPolicy label source = .ok outcome := by
        simp [scan_policy_eq_ok_iff]
      simp only [Prod.exists, exists_and_right, hscan, shares]
      cases hread : readPolicy source with
      | error e =>
          cases e with
          | problem p => simp [scanPolicy_of_problem hread, Outcome.found, pure_eq_ok_iff]
          | refused r =>
              obtain ⟨review, hreview⟩ := Option.isSome_iff_exists.mp hsees
              simp [scanPolicy_of_refused hread, hreview]
      | ok p => simp [scanPolicy_of_ok hread, map_eq_ok_iff, Outcome.found]

/-- What is found in some targets. -/
def foundAmong (a : Audit) (ts : List Target) : Except (Fault Problem) Found :=
  (ts.mapM a.foundIn).map Found.joined

@[simp]
theorem foundAmong_nil : a.foundAmong [] = .ok {} := rfl

theorem foundAmong_cons_eq_ok_iff {t : Target} {ts : List Target} {found : Found} :
    a.foundAmong (t :: ts) = .ok found ↔
      ∃ first rest, a.foundIn t = .ok first ∧ a.foundAmong ts = .ok rest ∧
        first.append rest = found := by
  simp only [foundAmong, List.mapM_cons, map_eq_ok_iff, bind_eq_ok_iff, pure_eq_ok_iff]
  constructor
  · rintro ⟨_, ⟨first, hfirst, rest, hrest, rfl⟩, rfl⟩
    exact ⟨first, _, hfirst, ⟨rest, hrest, rfl⟩, (Found.joined_cons _ _).symm⟩
  · rintro ⟨first, _, hfirst, ⟨rest, hrest, rfl⟩, rfl⟩
    exact ⟨_, ⟨first, hfirst, rest, hrest, rfl⟩, Found.joined_cons _ _⟩

/-- Targets in which nothing is looked for may be left out. -/
theorem foundAmong_filter_eq_ok_iff {ts : List Target} {found : Found} :
    a.foundAmong (ts.filter a.sees) = .ok found ↔ a.foundAmong ts = .ok found := by
  induction ts generalizing found with
  | nil => rfl
  | cons t ts ih =>
      cases hsees : a.sees t with
      | true =>
          rw [List.filter_cons_of_pos hsees, foundAmong_cons_eq_ok_iff, foundAmong_cons_eq_ok_iff]
          simp only [ih]
      | false =>
          rw [List.filter_cons_of_neg (by simp [hsees]), ih, foundAmong_cons_eq_ok_iff,
            foundIn_of_not_sees hsees]
          simp

/-! ## The targets that a request may have -/

/-- The target of a file that is not excluded. -/
def candidateOf (a : Audit) (file : String × Content) : Except Refusal (List Target) :=
  (Exclusion.covers a.settings.scan.exclusions file.1).map fun covered =>
    if covered then [] else [.file file.1 file.2]

/-- The targets that a request may have: the files that are not excluded, and the policies. -/
def candidates (a : Audit) (request : Request) : Except Refusal (List Target) := do
  let ofFiles ← request.files.mapM a.candidateOf
  Queue.checkNames request.policies
  return ofFiles.flatten ++ request.policies.zipIdx.map fun p => .policy (p.1.label p.2) p.1

/-- A file is in the queue if it is not excluded and something is looked for in it. -/
theorem targets_ofFile (f : String × Content) :
    (Queue.ofFile a f.1 f.2).map Queue.targets = (a.candidateOf f).map (List.filter a.sees) := by
  simp only [Queue.ofFile, candidateOf]
  cases Exclusion.covers a.settings.scan.exclusions f.1 with
  | error r => rfl
  | ok covered =>
      cases covered with
      | true => rfl
      | false =>
          cases hnone : a.detectors.isEmpty <;>
            simp [bind, Except.bind, pure, Except.pure, Except.map, sees, hnone]

/-- Policies are in the queue if they are looked at. -/
theorem targets_ofPolicies (policies : List (PolicySource × Nat)) :
    (policies.map fun p => Queue.ofPolicy a p.2 p.1).flatMap Queue.targets =
      (policies.map fun p => Target.policy (p.1.label p.2) p.1).filter a.sees := by
  induction policies with
  | nil => rfl
  | cons p policies ih =>
      rw [List.map_cons, List.flatMap_cons, ih, List.map_cons]
      cases hreview : a.review <;> simp [Queue.ofPolicy, sees, hreview]

/-- The targets in the queue are those in which something is looked for. -/
theorem targets_ofRequest (request : Request) :
    (Queue.ofRequest a request).map Queue.targets =
      (a.candidates request).map (List.filter a.sees) := by
  have hfiles : (request.files.mapM fun f => Queue.ofFile a f.1 f.2).map (List.map Queue.targets) =
      (request.files.mapM a.candidateOf).map (List.map (List.filter a.sees)) := by
    rw [map_mapM, map_mapM]
    simp only [targets_ofFile]
  rw [Queue.ofRequest_eq, candidates]
  cases hqs : request.files.mapM fun f => Queue.ofFile a f.1 f.2 with
  | error r =>
      rw [hqs] at hfiles
      cases hcs : request.files.mapM a.candidateOf <;> rw [hcs] at hfiles <;> cases hfiles
      rfl
  | ok qs =>
      rw [hqs] at hfiles
      cases hcs : request.files.mapM a.candidateOf with
      | error r =>
          rw [hcs] at hfiles
          cases hfiles
      | ok cs =>
          rw [hcs] at hfiles
          have hmap : qs.map Queue.targets = cs.map (List.filter a.sees) := Except.ok.inj hfiles
          cases Queue.checkNames request.policies with
          | error r => rfl
          | ok u =>
              simp only [bind, Except.bind, pure, Except.pure, Except.map, Queue.joined,
                List.flatMap_append, targets_ofPolicies, List.filter_append, List.filter_flatten,
                ← hmap, ← List.flatMap_def]

/-! ## Runs -/

/-- What a worker finds in a target in which something is looked for, when there is no limit. -/
theorem foundIn_eq_settle (free : Nat) {t : Target} (h : a.sees t = true) :
    a.foundIn t = (a.settle (free + 1) { limit := none } t).map fun p => p.2.found := by
  simp only [foundIn_of_sees h, settle, Nat.add_eq_zero_iff, Nat.one_ne_zero, and_false, if_false]
  cases a.scan { limit := none } t <;> rfl

/-- What workers find in some targets when there is no limit. -/
theorem foundAmong_filter_eq_settle {workers : Nat} {ts : List Target}
    (h : ts.filter a.sees = [] ∨ 0 < workers) :
    a.foundAmong (ts.filter a.sees) =
      ((ts.filter a.sees).mapM (a.settle workers { limit := none })).map fun outcomes =>
        Found.joined (outcomes.map fun p => p.2.found) := by
  obtain hnone | hpos := h
  · rw [hnone]
    rfl
  · obtain ⟨free, rfl⟩ : ∃ free, workers = free + 1 := ⟨workers - 1, by omega⟩
    rw [foundAmong, mapM_eq_map_of_mem fun t ht =>
      foundIn_eq_settle free (List.mem_filter.mp ht).2]
    cases (ts.filter a.sees).mapM (a.settle (free + 1) { limit := none }) <;> rfl

/-- What has been found is found in the targets that have been scanned. -/
theorem joined_map_found (outcomes : List (Target × Outcome)) :
    Found.joined (outcomes.map fun p => p.2.found) =
      Found.joined (outcomes.filterMap foundOf?) := by
  induction outcomes with
  | nil => rfl
  | cons p outcomes ih =>
      obtain ⟨t, outcome⟩ := p
      rw [List.map_cons, Found.joined_cons, ih, List.filterMap_cons]
      cases outcome with
      | scanned found => exact (Found.joined_cons _ _).symm
      | left w => exact Found.nil_append _
      | timedOut => exact Found.nil_append _

/-- A report tells what has been found. -/
structure Tells (a : Audit) (found : Found) (report : Report) : Prop where
  findings : Finding.sorted (Report.kept a.threshold found.findings) = .ok report.findings
  suppressed : Report.sortedSuppressions found.suppressed = .ok report.suppressed
  rawCount : report.rawCount = found.findings.length

/-- What has been found can be told in a report. -/
def CanTell (a : Audit) (found : Found) : Prop :=
  (∃ fs, Finding.sorted (Report.kept a.threshold found.findings) = .ok fs) ∧
    ∃ ss, Report.sortedSuppressions found.suppressed = .ok ss

/-- The report on some outcomes tells what has been found, and whether the time was over. -/
theorem tells_of_reportOn {queue : Queue} {outcomes : List (Target × Outcome)} {report : Report}
    (h : a.reportOn occasion request queue outcomes b = .ok report) :
    a.Tells (Found.joined (outcomes.map fun p => p.2.found)) report ∧
      report.totals.incomplete = outcomes.any isTimedOut := by
  obtain ⟨findings, suppressed, hfindings, hsuppressed, rfl⟩ := Report.aggregate_eq_ok_iff.mp h
  rw [← List.flatMap_def] at hfindings ⊢
  rw [joined_map_found]
  exact ⟨⟨hfindings, hsuppressed, rfl⟩, rfl⟩

/-- There is a report on some outcomes if what has been found can be told. -/
theorem exists_reportOn {queue : Queue} {outcomes : List (Target × Outcome)}
    (h : a.CanTell (Found.joined (outcomes.map fun p => p.2.found))) :
    ∃ report, a.reportOn occasion request queue outcomes b = .ok report := by
  rw [joined_map_found] at h
  obtain ⟨⟨findings, hfindings⟩, suppressed, hsuppressed⟩ := h
  refine ⟨_, Report.aggregate_eq_ok_iff.mpr ⟨findings, suppressed, ?_, hsuppressed, rfl⟩⟩
  rw [← List.flatMap_def]
  exact hfindings

/-- There are workers for some targets, if there are any, when the setting is above zero. -/
theorem exists_workers_iff {v : Value} {ts : List Target} :
    (∃ workers, workersOf v ts.length = .ok workers ∧ (ts = [] ∨ 0 < workers)) ↔
      ∃ n, v.number? = some n ∧ (ts = [] ∨ (Number.int (0 : Nat)).below n = true) := by
  simp only [workersOf]
  cases v.number? with
  | none => simp
  | some n =>
      cases ts with
      | nil => simp
      | cons t ts => simp [takeWhile_range_pos_iff]

/-- Some targets can be waited for, and if there are any, there are workers for them. -/
structure Manages (a : Audit) (ts : List Target) : Prop where
  workers : ∃ n, a.settings.scan.workers.number? = some n ∧
    (ts = [] ∨ (Number.int (0 : Nat)).below n = true)
  timeout : checkTimeout a.settings.scan.timeout ts = .ok ()

/-- Fewer targets are managed by an audit with the same workers and the same time. -/
theorem Manages.of_length_le {a' : Audit} {ts ts' : List Target} (h : a.Manages ts)
    (hworkers : a'.settings.scan.workers = a.settings.scan.workers)
    (htimeout : a'.settings.scan.timeout = a.settings.scan.timeout)
    (hle : ts'.length ≤ ts.length) : a'.Manages ts' where
  workers := by
    obtain ⟨n, hn, hsome⟩ := h.workers
    refine ⟨n, hworkers ▸ hn, hsome.imp_left ?_⟩
    rintro rfl
    exact List.eq_nil_of_length_eq_zero (Nat.le_zero.mp hle)
  timeout := htimeout ▸ checkTimeout_of_length_le h.timeout hle

variable (hlimit : a.settings.scan.maxFindings = .null) (hslow : occasion.slow = [])
include hlimit hslow

/-- **What a complete run consists of.**  When a run without a limit ends before the time is over,
the report tells what is found in the targets of the request. -/
theorem exists_found_of_run {report : Report} (hrun : a.run occasion request = .ok report)
    (hcomplete : report.totals.incomplete = false) :
    ∃ ts found, a.candidates request = .ok ts ∧ a.Manages (ts.filter a.sees) ∧
      a.foundAmong ts = .ok found ∧ a.Tells found report := by
  obtain ⟨queue, b, workers, outcomes, after, hqueue, hb, hworkers, htimeout, hall, hreport⟩ :=
    run_eq_ok_iff.mp hrun
  rw [hlimit] at hb
  cases hb
  have htargets := a.targets_ofRequest request
  rw [hqueue] at htargets
  obtain ⟨ts, hts, hsees⟩ := map_eq_ok_iff.mp htargets.symm
  obtain ⟨hsettled, rfl⟩ := (attendAll_eq_ok_iff hslow rfl).mp hall
  obtain ⟨htells, hincomplete⟩ := tells_of_reportOn hreport
  rw [hcomplete] at hincomplete
  rw [← hsees] at hworkers htimeout hsettled
  have hpos : ts.filter a.sees = [] ∨ 0 < workers := by
    refine or_iff_not_imp_right.mpr fun hnone => List.eq_nil_iff_forall_not_mem.mpr fun t ht => ?_
    obtain ⟨p, hp, hsettle⟩ := exists_of_forall₂_of_mem (mapM_eq_ok_iff.mp hsettled).flip ht
    rw [settle, if_pos (by omega)] at hsettle
    cases hsettle
    exact absurd hincomplete (by simpa using ⟨_, _, hp, rfl⟩)
  refine ⟨ts, _, hts, ⟨exists_workers_iff.mp ⟨workers, hworkers, hpos⟩, htimeout⟩, ?_, htells⟩
  rw [← foundAmong_filter_eq_ok_iff, foundAmong_filter_eq_settle hpos, hsettled]
  rfl

/-- **How a complete run comes about.**  When what is found in the targets of a request can be told,
and there are workers and time for all of them, there is a report that tells it. -/
theorem exists_run_of_found {ts : List Target} {found : Found}
    (hts : a.candidates request = .ok ts) (hmanages : a.Manages (ts.filter a.sees))
    (hfound : a.foundAmong ts = .ok found) (htell : a.CanTell found) :
    ∃ report, a.run occasion request = .ok report ∧ report.totals.incomplete = false ∧
      a.Tells found report := by
  obtain ⟨workers, hworkers, hpos⟩ := exists_workers_iff.mpr hmanages.workers
  have htimeout := hmanages.timeout
  have htargets := a.targets_ofRequest request
  rw [hts] at htargets
  obtain ⟨queue, hqueue, hsees⟩ := map_eq_ok_iff.mp htargets
  rw [← foundAmong_filter_eq_ok_iff, foundAmong_filter_eq_settle hpos, map_eq_ok_iff] at hfound
  obtain ⟨outcomes, hsettled, rfl⟩ := hfound
  rw [← hsees] at hworkers htimeout hsettled hpos
  obtain ⟨report, hreport⟩ := exists_reportOn htell
  obtain ⟨htells, hincomplete⟩ := tells_of_reportOn hreport
  refine ⟨report, run_eq_ok_iff.mpr ⟨queue, { limit := none }, workers, outcomes, _, hqueue, ?_,
    hworkers, htimeout, (attendAll_eq_ok_iff hslow rfl).mpr ⟨hsettled, rfl⟩, hreport⟩, ?_, htells⟩
  · rw [hlimit]
    rfl
  · rw [hincomplete, List.any_eq_false]
    intro p hp
    obtain ⟨t, ht, hsettle⟩ := exists_of_mem_mapM hsettled hp
    have hpos := hpos.resolve_left (List.ne_nil_of_mem ht)
    rw [settle, if_neg (by omega)] at hsettle
    obtain ⟨result, hscan, rfl⟩ := map_eq_ok_iff.mp hsettle
    simp [not_isTimedOut_of_scan hscan]

end Audit

end SecurityAudit
