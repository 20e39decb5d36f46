import SecurityAudit.Proofs.Unlimited

/-!
# A limit keeps the first findings

Two runs of an audit see to the same targets, one of them with a limit on findings and one without.
The run without a limit finds in each file what the detectors find there, one after another.  The
run with a limit leaves out detectors and cuts what they find, and still admits exactly the first
findings of the other run, as many as the limit allows (`outcomesOf_limited`).

What carries the proof is `Budget.Admitted`: it tells what a budget has admitted from all that the
other run has found so far.  Every turn of a detector takes it from what was found before to what
is found then, whether the detector is run, is cut or is left out.
-/

namespace SecurityAudit

namespace Budget

/-- What has been admitted of all that has been found so far: the first findings, as many as the
limit allows; and if that is not all of them, it has been noted. -/
structure Admitted {α : Type} (limit : Nat) (all admitted : List α) (b : Budget) : Prop where
  limit_eq : b.limit = some (.int limit)
  count_eq : b.count = admitted.length
  admitted_eq : admitted = all.take limit
  noted : limit < all.length → b.truncated = true

namespace Admitted

variable {α : Type} {limit : Nat} {all admitted : List α} {b : Budget}

/-- Of nothing, nothing has been admitted. -/
theorem nil (limit : Nat) : Admitted limit ([] : List α) [] { limit := some (.int limit) } where
  limit_eq := rfl
  count_eq := rfl
  admitted_eq := by simp
  noted := by simp

/-- As many findings have been counted as there are, or as the limit allows. -/
theorem count_eq_min (h : Admitted limit all admitted b) : b.count = min limit all.length := by
  rw [h.count_eq, h.admitted_eq, List.length_take]

/-- Offering more to the budget admits the first findings of what there is then. -/
theorem accept (h : Admitted limit all admitted b) (more : List α) :
    ∃ part b', b.accept more = .ok (part, b') ∧
      Admitted limit (all ++ more) (admitted ++ part) b' := by
  have hcount := h.count_eq_min
  refine ⟨_, _, accept_eq h.limit_eq more, h.limit_eq, ?_, ?_, fun hbeyond => ?_⟩
  · simp only [List.length_append, h.count_eq]
  · have hroom : limit - b.count = limit - all.length := by omega
    rw [List.take_append, ← h.admitted_eq, hroom]
  · -- Either there was too much before, or this offer is cut.
    by_cases hbefore : limit < all.length
    · simp [h.noted hbefore]
    · rw [List.length_append] at hbeyond
      have hcut : limit - b.count < more.length := by omega
      simp [hcut]

/-- When the budget is exhausted, more may be left out, if that is noted. -/
theorem skip (h : Admitted limit all admitted b) (hexhausted : b.isExhausted = true)
    (more : List α) : Admitted limit (all ++ more) admitted b.noteSkip where
  limit_eq := h.limit_eq
  count_eq := h.count_eq
  admitted_eq := by
    have hcount := h.count_eq_min
    have hfull := (isExhausted_iff h.limit_eq).mp hexhausted
    rw [List.take_append_of_le_length (by omega)]
    exact h.admitted_eq
  noted := fun _ => rfl

end Admitted

end Budget

namespace Audit

/-! ## What is found in a file -/

/-- What a detector finds in a file, without what is suppressed. -/
def unsuppressed (a : Audit) (f : SourceFile) (d : FileDetector) :
    Except Refusal (List Finding) := do
  let found ← Found.sift (coveringsOf f) (← d.run a.now f)
  return found.findings

/-- What is found in a file of a request: nothing if it is excluded or cannot be read, else what the
detectors find in it, one after another.  In an audit that is put together from settings and a
catalog, vulnerabilities come before secrets. -/
def findingsIn (a : Audit) (file : String × Content) : Except Refusal (List Finding) := do
  if ← Exclusion.covers a.settings.scan.exclusions file.1 then return []
  else
    match SourceFile.read .utf8 file.1 file.2 with
    | .error _ => return []
    | .ok f => return (← a.detectors.mapM (a.unsuppressed f)).flatten

variable {a : Audit} {f : SourceFile}

/-- Without a limit the detectors add what they find, one after another. -/
theorem detectAll_unlimited {ds : List FileDetector} {found found' : Found} {b b' : Budget}
    (hb : b.limit = none)
    (h : ds.foldlM (a.detect f (coveringsOf f)) (found, b) = .ok (found', b')) :
    ∃ mores, ds.mapM (a.unsuppressed f) = .ok mores ∧
      found'.findings = found.findings ++ mores.flatten := by
  have hfindings (d : FileDetector) : a.unsuppressed f d = (a.sifted f d).map Found.findings := by
    simp only [unsuppressed, sifted]
    cases d.run a.now f with
    | error r => rfl
    | ok fs => rfl
  rw [detectAll_eq hb, map_eq_ok_iff] at h
  obtain ⟨finds, hfinds, heq⟩ := h
  cases heq
  refine ⟨finds.map Found.findings, ?_, ?_⟩
  · rw [mapM_eq_map hfindings, hfinds]
    rfl
  · rw [Found.append, Found.joined, List.flatMap_def]

variable {limit : Nat} {all part : List Finding} {b : Budget}

/-- With a limit a detector adds what is admitted of what it finds. -/
theorem detect_limited {d : FileDetector} {more : List Finding}
    (h : a.unsuppressed f d = .ok more) (hb : b.Admitted limit all part) (kept : Found) :
    ∃ kept' b' added, a.detect f (coveringsOf f) (kept, b) d = .ok (kept', b') ∧
      kept'.findings = kept.findings ++ added ∧
      b'.Admitted limit (all ++ more) (part ++ added) := by
  cases hexhausted : b.isExhausted with
  | true =>
      refine ⟨kept, b.noteSkip, [], ?_, by simp, ?_⟩
      · simp [detect, hexhausted, pure_eq_ok_iff]
      · rw [List.append_nil]
        exact hb.skip hexhausted more
  | false =>
      simp only [unsuppressed, bind_eq_ok_iff, pure_eq_ok_iff] at h
      obtain ⟨fs, hfs, found, hfound, rfl⟩ := h
      obtain ⟨added, b', haccept, hadmitted⟩ := hb.accept found.findings
      refine ⟨kept.append { found with findings := added }, b', added, ?_, rfl, hadmitted⟩
      simp only [detect, hexhausted, Bool.false_eq_true, if_false, bind_eq_ok_iff,
        pure_eq_ok_iff]
      exact ⟨fs, hfs, found, hfound, (added, b'), haccept, rfl⟩

/-- With a limit the detectors add what is admitted of what they find, one after another. -/
theorem detectAll_limited {ds : List FileDetector} {mores : List (List Finding)}
    (h : ds.mapM (a.unsuppressed f) = .ok mores) (hb : b.Admitted limit all part)
    (kept : Found) :
    ∃ kept' b' added, ds.foldlM (a.detect f (coveringsOf f)) (kept, b) = .ok (kept', b') ∧
      kept'.findings = kept.findings ++ added ∧
      b'.Admitted limit (all ++ mores.flatten) (part ++ added) := by
  induction ds generalizing mores all part b kept with
  | nil =>
      simp only [List.mapM_nil, pure_eq_ok_iff] at h
      subst h
      exact ⟨kept, b, [], by simp [pure_eq_ok_iff], by simp, by simpa using hb⟩
  | cons d ds ih =>
      simp only [List.mapM_cons, bind_eq_ok_iff, pure_eq_ok_iff] at h
      obtain ⟨more, hmore, rest, hrest, rfl⟩ := h
      obtain ⟨middle, b₁, first, hfirst, hmiddle, hb₁⟩ := detect_limited hmore hb kept
      obtain ⟨kept', b', added, hothers, hkept, hb'⟩ := ih hrest hb₁ middle
      refine ⟨kept', b', first ++ added, ?_, ?_, ?_⟩
      · simp only [List.foldlM_cons, bind_eq_ok_iff]
        exact ⟨(middle, b₁), hfirst, hothers⟩
      · rw [hkept, hmiddle, List.append_assoc]
      · rw [List.flatten_cons, ← List.append_assoc, ← List.append_assoc]
        exact hb'

/-! ## What is found in the targets -/

/-- The findings in targets of a kind, in the order in which the targets were seen to. -/
def findingsOf (kind : String) (outcomes : List (Target × Outcome)) : List Finding :=
  ((outcomes.filter fun p => p.1.kind == kind).filterMap foundOf?).flatMap Found.findings

theorem findingsOf_append (kind : String) (ps qs : List (Target × Outcome)) :
    findingsOf kind (ps ++ qs) = findingsOf kind ps ++ findingsOf kind qs := by
  simp [findingsOf]

theorem findingsOf_cons (kind : String) (p : Target × Outcome) (ps : List (Target × Outcome)) :
    findingsOf kind (p :: ps) = findingsOf kind [p] ++ findingsOf kind ps :=
  findingsOf_append kind [p] ps

@[simp]
theorem findingsOf_scanned (path : String) (content : Content) (found : Found) :
    findingsOf "file" [(.file path content, .scanned found)] = found.findings := by
  simp [findingsOf, Target.kind, foundOf?]

@[simp]
theorem findingsOf_left (kind : String) (t : Target) (w : Warning) :
    findingsOf kind [(t, .left w)] = [] := by
  simp only [findingsOf, List.filter_cons, List.filter_nil]
  split <;> rfl

@[simp]
theorem findingsOf_policy_of_file (path : String) (content : Content) (outcome : Outcome) :
    findingsOf "policy" [(.file path content, outcome)] = [] := by
  simp [findingsOf, Target.kind]

@[simp]
theorem findingsOf_file_of_policy (label : RawText) (source : PolicySource) (outcome : Outcome) :
    findingsOf "file" [(.policy label source, outcome)] = [] := by
  simp [findingsOf, Target.kind]

/-- About targets of other kinds nothing is found that is of a kind. -/
theorem findingsOf_eq_nil {kind : String} {ps : List (Target × Outcome)}
    (h : ∀ p ∈ ps, p.1.kind ≠ kind) : findingsOf kind ps = [] := by
  have hnone : (ps.filter fun p => p.1.kind == kind) = [] := by
    simpa [List.filter_eq_nil_iff] using h
  rw [findingsOf, hnone]
  rfl

/-- About targets of one kind only what is found is of that kind. -/
theorem findingsOf_eq_all {kind : String} {ps : List (Target × Outcome)}
    (h : ∀ p ∈ ps, p.1.kind = kind) :
    findingsOf kind ps = (ps.filterMap foundOf?).flatMap Found.findings := by
  have hall : (ps.filter fun p => p.1.kind == kind) = ps := by
    simpa [List.filter_eq_self] using h
  rw [findingsOf, hall]

/-- **Scanning with a limit and without.**  What is found in a file without a limit is admitted as
far as the limit allows; what is found about a policy is the same. -/
theorem scan_limited {free after : Budget} (hfree : free.limit = none) {t : Target}
    {outcome : Outcome} (h : a.scan free t = .ok (outcome, after))
    (hb : b.Admitted limit all part) :
    ∃ outcome' b', a.scan b t = .ok (outcome', b') ∧
      findingsOf "policy" [(t, outcome')] = findingsOf "policy" [(t, outcome)] ∧
      b'.Admitted limit (all ++ findingsOf "file" [(t, outcome)])
        (part ++ findingsOf "file" [(t, outcome')]) := by
  cases t with
  | file path content =>
      rcases scanFile_cases h with ⟨p, hread, rfl, -⟩ | ⟨f, found, hread, hsource, rfl⟩
      · have hleft : a.scan b (.file path content) =
            .ok (.left ⟨"source", path, p.message⟩, b) := by
          rw [scan_file_eq_ok_iff, scanFile, hread]
        exact ⟨_, b, hleft, rfl, by simpa using hb⟩
      · obtain ⟨mores, hmores, hfound⟩ := detectAll_unlimited hfree hsource
        obtain ⟨kept, b', added, hkept, hadded, hb'⟩ := detectAll_limited hmores hb {}
        have hscanned : a.scan b (.file path content) = .ok (.scanned kept, b') := by
          simp only [scan_file_eq_ok_iff, scanFile, hread, bind_eq_ok_iff, pure_eq_ok_iff]
          exact ⟨(kept, b'), hkept, rfl⟩
        refine ⟨_, b', hscanned, by simp, ?_⟩
        rw [findingsOf_scanned, findingsOf_scanned, hfound, hadded]
        exact hb'
  | policy label source =>
      have hsame : a.scan b (.policy label source) = .ok (outcome, b) :=
        scan_policy_eq_ok_iff.mpr ⟨(scan_policy_eq_ok_iff.mp h).1, rfl⟩
      exact ⟨outcome, b, hsame, rfl, by simpa using hb⟩

variable {occasion : Occasion}

/-- **All targets with a limit and without.** -/
theorem attendAll_limited (hslow : occasion.slow = []) {free after : Budget}
    (hfree : free.limit = none) {ts : List Target} {whole : List (Target × Outcome)}
    (h : a.attendAll occasion ⟨1, free⟩ ts = .ok (whole, after))
    (hb : b.Admitted limit all part) :
    ∃ outcomes b', a.attendAll occasion ⟨1, b⟩ ts = .ok (outcomes, b') ∧
      findingsOf "policy" outcomes = findingsOf "policy" whole ∧
      b'.Admitted limit (all ++ findingsOf "file" whole) (part ++ findingsOf "file" outcomes) := by
  induction ts generalizing whole all part b with
  | nil =>
      simp only [attendAll, Except.ok.injEq, Prod.mk.injEq] at h
      obtain ⟨rfl, -⟩ := h
      exact ⟨[], b, rfl, rfl, by simpa [findingsOf] using hb⟩
  | cons t ts ih =>
      simp only [attendAll_cons_of_not_slow hslow 0, bind_eq_ok_iff, map_eq_ok_iff,
        Prod.mk.injEq] at h
      obtain ⟨⟨outcome, middle⟩, hscan, ⟨rest, _⟩, hrest, rfl, rfl⟩ := h
      obtain rfl := scan_budget hfree hscan
      obtain ⟨outcome', b₁, hfirst, hpolicy, hb₁⟩ := scan_limited hfree hscan hb
      obtain ⟨outcomes, b', hothers, hpolicies, hb'⟩ := ih hrest hb₁
      refine ⟨(t, outcome') :: outcomes, b', ?_, ?_, ?_⟩
      · simp only [attendAll_cons_of_not_slow hslow 0, bind_eq_ok_iff, map_eq_ok_iff]
        exact ⟨(outcome', b₁), hfirst, (outcomes, b'), hothers, rfl⟩
      · rw [findingsOf_cons _ (t, outcome'), findingsOf_cons _ (t, outcome), hpolicy, hpolicies]
      · rw [findingsOf_cons _ (t, outcome'), findingsOf_cons _ (t, outcome),
          ← List.append_assoc, ← List.append_assoc]
        exact hb'

/-! ## What is found without a limit -/

/-- Without a limit, what is found about the target of a file is what is found in the file. -/
theorem findingsIn_of_scan {free after : Budget} (hfree : free.limit = none) {path : String}
    {content : Content} {outcome : Outcome}
    (hcovered : Exclusion.covers a.settings.scan.exclusions path = .ok false)
    (h : a.scan free (.file path content) = .ok (outcome, after)) :
    a.findingsIn (path, content) =
      .ok (findingsOf "file" [(.file path content, outcome)]) := by
  simp only [findingsIn, bind_eq_ok_iff]
  refine ⟨false, hcovered, ?_⟩
  rcases scanFile_cases h with ⟨p, hread, rfl, -⟩ | ⟨f, found, hread, hsource, rfl⟩
  · simp only [hread, Bool.false_eq_true, if_false, pure_eq_ok_iff, findingsOf_left]
  · obtain ⟨mores, hmores, hfound⟩ := detectAll_unlimited hfree hsource
    simp only [hread, Bool.false_eq_true, if_false, bind_eq_ok_iff, pure_eq_ok_iff,
      findingsOf_scanned]
    exact ⟨mores, hmores, hfound.symm⟩

/-- Without a limit, what is found about a file in the queue is what is found in the file. -/
theorem findingsIn_of_ofFile (hslow : occasion.slow = []) {free after : Budget}
    (hfree : free.limit = none) {file : String × Content} {q : Queue}
    (hq : Queue.ofFile a file.1 file.2 = .ok q) {outcomes : List (Target × Outcome)}
    (h : a.attendAll occasion ⟨1, free⟩ q.targets = .ok (outcomes, after)) :
    a.findingsIn file = .ok (findingsOf "file" outcomes) := by
  have hnone : q.targets = [] → outcomes = [] := by
    intro htargets
    rw [htargets] at h
    cases h
    rfl
  simp only [Queue.ofFile, bind_eq_ok_iff] at hq
  obtain ⟨covered, hcovered, hq⟩ := hq
  cases covered with
  | true =>
      obtain rfl := pure_eq_ok_iff.mp hq
      obtain rfl := hnone rfl
      simp only [findingsIn, bind_eq_ok_iff]
      exact ⟨true, hcovered, rfl⟩
  | false =>
      cases hdetectors : a.detectors with
      | nil =>
          simp only [hdetectors, List.isEmpty_nil, Bool.false_eq_true, if_false, if_true,
            pure_eq_ok_iff] at hq
          subst hq
          obtain rfl := hnone rfl
          simp only [findingsIn, bind_eq_ok_iff]
          refine ⟨false, hcovered, ?_⟩
          cases hread : SourceFile.read .utf8 file.1 file.2 with
          | error p => rfl
          | ok f => simp [hdetectors, pure_eq_ok_iff, findingsOf]
      | cons d ds =>
          simp only [hdetectors, List.isEmpty_cons, Bool.false_eq_true, if_false,
            pure_eq_ok_iff] at hq
          subst hq
          rw [attendAll_cons_of_not_slow hslow 0] at h
          obtain ⟨⟨outcome, _⟩, hscan, h⟩ := bind_eq_ok_iff.mp h
          obtain ⟨_, hrest, h⟩ := map_eq_ok_iff.mp h
          cases hrest
          cases h
          exact findingsIn_of_scan hfree hcovered hscan

/-- Without a limit, what is found about the files in the queue is what is found in the files, one
after another. -/
theorem findingsIn_of_attendAll (hslow : occasion.slow = []) {free after : Budget}
    (hfree : free.limit = none) {files : List (String × Content)} {qs : List Queue}
    (hqs : List.Forall₂ (fun f q => Queue.ofFile a f.1 f.2 = .ok q) files qs)
    {outcomes : List (Target × Outcome)}
    (h : a.attendAll occasion ⟨1, free⟩ (Queue.joined qs).targets = .ok (outcomes, after)) :
    ∃ perFile, files.mapM a.findingsIn = .ok perFile ∧
      findingsOf "file" outcomes = perFile.flatten := by
  induction hqs generalizing outcomes with
  | nil =>
      cases h
      exact ⟨[], rfl, rfl⟩
  | cons hq _ ih =>
      simp only [Queue.joined_cons, Queue.append, attendAll_append hslow 0, bind_eq_ok_iff,
        map_eq_ok_iff, Prod.mk.injEq] at h
      obtain ⟨⟨first, middle⟩, hfirst, ⟨rest, _⟩, hrest, rfl, rfl⟩ := h
      obtain ⟨-, rfl⟩ := (attendAll_eq_ok_iff hslow hfree).mp hfirst
      obtain ⟨perFile, hperFile, hflatten⟩ := ih hrest
      have hfile := findingsIn_of_ofFile hslow hfree hq hfirst
      refine ⟨findingsOf "file" first :: perFile, ?_, ?_⟩
      · simp only [List.mapM_cons, bind_eq_ok_iff, pure_eq_ok_iff]
        exact ⟨_, hfile, perFile, hperFile, rfl⟩
      · rw [findingsOf_append, hflatten, List.flatten_cons]

/-- The targets that come from policies are policies. -/
theorem kind_of_mem_ofPolicies {policies : List (PolicySource × Nat)} :
    ∀ t ∈ (Queue.joined (policies.map fun p => Queue.ofPolicy a p.2 p.1)).targets,
      t.kind = "policy" := by
  intro t ht
  obtain ⟨q, hq, ht⟩ := List.mem_flatMap.mp ht
  obtain ⟨⟨source, index⟩, -, rfl⟩ := List.mem_map.mp hq
  cases hreview : a.review with
  | none => simp [Queue.ofPolicy, hreview] at ht
  | some review =>
      simp only [Queue.ofPolicy, hreview, List.mem_singleton] at ht
      rw [ht]
      rfl

/-- Files come before policies, and so does what is found about them. -/
theorem found_eq_append {files policies : List Target} {outcomes : List (Target × Outcome)}
    (htargets : outcomes.map Prod.fst = files ++ policies)
    (hfiles : ∀ t ∈ files, t.kind = "file") (hpolicies : ∀ t ∈ policies, t.kind = "policy") :
    (outcomes.filterMap foundOf?).flatMap Found.findings =
      findingsOf "file" outcomes ++ findingsOf "policy" outcomes := by
  obtain ⟨ofFiles, ofPolicies, rfl, rfl, rfl⟩ := List.map_eq_append_iff.mp htargets
  have hfile : ∀ p ∈ ofFiles, p.1.kind = "file" :=
    fun p hp => hfiles _ (List.mem_map_of_mem hp)
  have hpolicy : ∀ p ∈ ofPolicies, p.1.kind = "policy" :=
    fun p hp => hpolicies _ (List.mem_map_of_mem hp)
  have hnoPolicy : findingsOf "policy" ofFiles = [] :=
    findingsOf_eq_nil fun p hp => by simp [hfile p hp]
  have hnoFile : findingsOf "file" ofPolicies = [] :=
    findingsOf_eq_nil fun p hp => by simp [hpolicy p hp]
  rw [findingsOf_append, findingsOf_append, hnoPolicy, hnoFile, findingsOf_eq_all hfile,
    findingsOf_eq_all hpolicy]
  simp

/-- The targets that come from files are of their kind. -/
theorem kind_of_mem_ofFiles {files : List (String × Content)} {qs : List Queue}
    (h : List.Forall₂ (fun f q => Queue.ofFile a f.1 f.2 = .ok q) files qs) :
    ∀ t ∈ (Queue.joined qs).targets, t.kind = "file" := by
  intro t ht
  obtain ⟨path, content, rfl⟩ := exists_file_of_mem_targets h t ht
  rfl

variable {request : Request}

/-- Without a limit, what is found about the files of a request is what is found in them. -/
theorem findingsIn_of_ofRequest (hslow : occasion.slow = []) {free after : Budget}
    (hfree : free.limit = none) {queue : Queue} (hqueue : Queue.ofRequest a request = .ok queue)
    {outcomes : List (Target × Outcome)}
    (h : a.attendAll occasion ⟨1, free⟩ queue.targets = .ok (outcomes, after)) :
    ∃ perFile, request.files.mapM a.findingsIn = .ok perFile ∧
      findingsOf "file" outcomes = perFile.flatten := by
  obtain ⟨qs, hqs, -, rfl⟩ := Queue.ofRequest_eq_ok_iff.mp hqueue
  rw [Queue.append, attendAll_append hslow 0] at h
  obtain ⟨⟨first, middle⟩, hfirst, h⟩ := bind_eq_ok_iff.mp h
  obtain ⟨⟨rest, _⟩, hrest, heq⟩ := map_eq_ok_iff.mp h
  cases heq
  obtain ⟨perFile, hperFile, hflatten⟩ := findingsIn_of_attendAll hslow hfree hqs hfirst
  have hnone : findingsOf "file" rest = [] := by
    refine findingsOf_eq_nil fun p hp => ?_
    have hp : p.1 ∈ _ := (attendAll_spec hrest).1 ▸ List.mem_map_of_mem hp
    simp [kind_of_mem_ofPolicies _ hp]
  refine ⟨perFile, hperFile, ?_⟩
  rw [findingsOf_append, hflatten, hnone, List.append_nil]

/-- A report puts in order what has been found, the files first, and tells what has been noted. -/
theorem report_of_outcomesOf {outcomes : List (Target × Outcome)} {after : Budget}
    (h : a.outcomesOf occasion request = .ok (outcomes, after)) {report : Report}
    (hrun : a.run occasion request = .ok report) :
    report.totals.truncated = after.truncated ∧
      Finding.sorted (Report.kept a.threshold
        (findingsOf "file" outcomes ++ findingsOf "policy" outcomes)) = .ok report.findings := by
  obtain ⟨_, outcomes', after', hqueue', h', hreport⟩ := run_eq_ok_iff_outcomesOf.mp hrun
  cases h.symm.trans h'
  obtain ⟨findings, suppressed, hfindings, -, rfl⟩ := Report.aggregate_eq_ok_iff.mp hreport
  refine ⟨rfl, ?_⟩
  obtain ⟨queue, _, _, hqueue, -, -, -, hall⟩ := outcomesOf_eq_ok_iff.mp h
  obtain ⟨qs, hqs, -, rfl⟩ := Queue.ofRequest_eq_ok_iff.mp hqueue
  rw [← found_eq_append (attendAll_spec hall).1 (kind_of_mem_ofFiles hqs) kind_of_mem_ofPolicies,
    List.flatMap_def]
  exact hfindings

/-! ## The run with a limit and the run without -/

/-- The audit without a limit on findings. -/
def unlimited (a : Audit) : Audit :=
  { a with settings := { a.settings with scan := { a.settings.scan with maxFindings := .null } } }

/-- A limit makes no difference to what is in the queue. -/
theorem ofRequest_unlimited (a : Audit) (request : Request) :
    Queue.ofRequest a.unlimited request = Queue.ofRequest a request := rfl

/-- A limit makes a difference by the budget alone. -/
theorem attendAll_unlimited (a : Audit) (occasion : Occasion) (r : Resources) (ts : List Target) :
    a.unlimited.attendAll occasion r ts = a.attendAll occasion r ts := by
  induction ts generalizing r with
  | nil => rfl
  | cons t ts ih =>
      have hone : a.unlimited.attend occasion r t = a.attend occasion r t := rfl
      simp only [attendAll, ih, hone]

/-- **A limit keeps the first findings.**  Let an audit have a limit and one worker, and let no file
be slow.  If it comes to an end without the limit, it does with it.  Without the limit it finds in
the files what the detectors find in each, one file after another; with the limit it finds the first
of that, as many as the limit allows, and takes note if that is not all.  What it finds about the
policies is the same.  A report puts in order what has been found with the limit, and tells whether
note has been taken. -/
theorem outcomesOf_limited {limit : Nat} (hlimit : a.settings.scan.maxFindings = .int limit)
    (hworkers : a.settings.scan.workers = .int 1) (hslow : occasion.slow = [])
    {whole : List (Target × Outcome)} {free : Budget}
    (h : a.unlimited.outcomesOf occasion request = .ok (whole, free)) :
    ∃ outcomes after perFile,
      a.outcomesOf occasion request = .ok (outcomes, after) ∧
      request.files.mapM a.findingsIn = .ok perFile ∧
      findingsOf "file" whole = perFile.flatten ∧
      findingsOf "file" outcomes = (findingsOf "file" whole).take limit ∧
      findingsOf "policy" outcomes = findingsOf "policy" whole ∧
      (limit < (findingsOf "file" whole).length → after.truncated = true) ∧
      ∀ report, a.run occasion request = .ok report →
        report.totals.truncated = after.truncated ∧
        Finding.sorted (Report.kept a.threshold
          (findingsOf "file" outcomes ++ findingsOf "policy" outcomes)) =
            .ok report.findings := by
  obtain ⟨queue, budget, workers, hqueue, hbudget, hof, htimeout, hall⟩ :=
    outcomesOf_eq_ok_iff.mp h
  cases hbudget
  have hsome : workersOf a.settings.scan.workers 1 = .ok 1 := by
    rw [hworkers]
    decide
  -- Both runs see to the same queue with one worker.
  rw [ofRequest_unlimited] at hqueue
  rw [attendAll_unlimited, attendAll_of_workersOf hslow hsome hof] at hall
  obtain ⟨outcomes, after, hlimited, hpolicies, hadmitted⟩ :=
    attendAll_limited hslow rfl hall (Budget.Admitted.nil limit)
  have houtcomes : a.outcomesOf occasion request = .ok (outcomes, after) := by
    refine outcomesOf_eq_ok_iff.mpr
      ⟨queue, { limit := some (.int limit) }, workers, hqueue, ?_, hof, htimeout, ?_⟩
    · rw [hlimit]
      rfl
    · rwa [attendAll_of_workersOf hslow hsome hof]
  obtain ⟨perFile, hperFile, hflatten⟩ := findingsIn_of_ofRequest hslow rfl hqueue hall
  exact ⟨outcomes, after, perFile, houtcomes, hperFile, hflatten, hadmitted.admitted_eq,
    hpolicies, hadmitted.noted, fun report hrun => report_of_outcomesOf houtcomes hrun⟩

/-- The audit of the shelf with one worker and a limit. -/
def Shelf.limited (limit : Nat) : Audit :=
  { Shelf.audit [] with
    settings := { Shelf.settings with
      scan := { Shelf.settings.scan with workers := .int 1, maxFindings := .int limit } } }

/-- Of the five words on the shelf the first four are found, the last of them in a file with two. -/
theorem outcomesOf_limited_shelf :
    ∃ whole free outcomes after,
      (Shelf.limited 4).unlimited.outcomesOf { id := "1" } Shelf.request = .ok (whole, free) ∧
      (Shelf.limited 4).outcomesOf { id := "1" } Shelf.request = .ok (outcomes, after) ∧
      (findingsOf "file" whole).length = 5 ∧
      findingsOf "file" outcomes = (findingsOf "file" whole).take 4 ∧
      after.truncated = true := by
  have hwhole : (((Shelf.limited 4).unlimited.outcomesOf { id := "1" }
      Shelf.request).toOption.any fun result =>
        (findingsOf "file" result.1).length == 5) = true := by
    decide +kernel
  obtain ⟨⟨whole, free⟩, hrun, hfive⟩ := any_toOption_iff.mp hwhole
  have hfive : (findingsOf "file" whole).length = 5 := eq_of_beq hfive
  obtain ⟨outcomes, after, -, hlimited, -, -, hfirst, -, hnoted, -⟩ :=
    @outcomesOf_limited (Shelf.limited 4) { id := "1" } Shelf.request 4 rfl rfl rfl _ _ hrun
  exact ⟨whole, free, outcomes, after, hrun, hlimited, hfive, hfirst, hnoted (by omega)⟩

end Audit

end SecurityAudit
