import SecurityAudit.Proofs.Limit

/-!
# Which files are scanned

A report tells how many files were scanned.  It counts every file that is to be scanned and that
can be read, also when the limit on findings has been reached and the detectors are left out on it.
So the number is that of the files on which no detector is left out only if none is left out at all
(`run_counts_files`).

What is told of here is turns: every detector has one on every file that can be read, and in its
turn it is run or left out.  A turn depends on what the turns before it have left of the budget
(`Turns`).  Whether a detector is left out is known from how many findings were admitted before its
turn, and once one is left out, all are from then on.
-/

namespace SecurityAudit

section Steps

variable {σ ε α β : Type} {step : α → StateT σ (Except ε) β} {s s' : σ} {x : α} {xs xs' : List α}
  {ys ys' : List β}

/-- No steps leave the state as it is. -/
theorem run_mapM_nil : (([] : List α).mapM step).run s = .ok ([], s) := by
  rw [List.mapM_nil]
  rfl

/-- The first step is taken in the state that there is, and the others in the one that it leaves. -/
theorem run_mapM_cons : ((x :: xs).mapM step).run s = ((step x).run s >>= fun first =>
    ((xs.mapM step).run first.2).map fun rest => (first.1 :: rest.1, rest.2)) := by
  simp only [List.mapM_cons, StateT.run_bind, StateT.run_pure]
  cases (step x).run s with
  | error e => rfl
  | ok first =>
      simp only [bind, Except.bind]
      cases (xs.mapM step).run first.2 <;> rfl

theorem run_mapM_cons_eq_ok_iff : ((x :: xs).mapM step).run s = .ok (ys, s') ↔
    ∃ y middle rest, (step x).run s = .ok (y, middle) ∧
      (xs.mapM step).run middle = .ok (rest, s') ∧ y :: rest = ys := by
  simp only [run_mapM_cons, bind_eq_ok_iff, map_eq_ok_iff, Prod.exists, Prod.mk.injEq]
  constructor
  · rintro ⟨y, middle, hfirst, rest, _, hrest, rfl, rfl⟩
    exact ⟨y, middle, rest, hfirst, hrest, rfl⟩
  · rintro ⟨y, middle, rest, hfirst, hrest, rfl⟩
    exact ⟨y, middle, hfirst, rest, s', hrest, rfl, rfl⟩

/-- Steps one part after the other. -/
theorem run_mapM_append {middle : σ} (h : (xs.mapM step).run s = .ok (ys, middle))
    (h' : (xs'.mapM step).run middle = .ok (ys', s')) :
    ((xs ++ xs').mapM step).run s = .ok (ys ++ ys', s') := by
  induction xs generalizing s ys with
  | nil =>
      cases run_mapM_nil.symm.trans h
      exact h'
  | cons x xs ih =>
      obtain ⟨y, next, rest, hfirst, hrest, rfl⟩ := run_mapM_cons_eq_ok_iff.mp h
      exact run_mapM_cons_eq_ok_iff.mpr ⟨y, next, rest ++ ys', hfirst, ih hrest, rfl⟩

/-- What is picked from a list is what its head gives, and what is picked from the rest. -/
theorem filterMap_cons_eq_append (pick : α → Option β) (x : α) (xs : List α) :
    (x :: xs).filterMap pick = (pick x).toList ++ xs.filterMap pick := by
  rw [List.filterMap_cons]
  cases pick x <;> rfl

end Steps

namespace Budget

variable {α : Type} {b b' : Budget} {offered admitted : List α}

/-- What admitting findings does to a budget: it counts them if there is a limit. -/
theorem accept_spec (h : b.accept offered = .ok (admitted, b')) :
    b'.limit = b.limit ∧ (b.limit ≠ none → b'.count = b.count + admitted.length) ∧
      (b.truncated = true → b'.truncated = true) := by
  simp only [accept, bind_eq_ok_iff] at h
  obtain ⟨room, hroom, h⟩ := h
  cases room with
  | none =>
      have hfree : b.limit = none := by
        rw [Budget.room] at hroom
        split at hroom
        · assumption
        · cases hroom
        · split at hroom <;> cases hroom
      simp only [pure_eq_ok_iff, Prod.mk.injEq] at h
      obtain ⟨-, rfl⟩ := h
      exact ⟨rfl, fun hlimit => absurd hfree hlimit, id⟩
  | some n =>
      simp only [pure_eq_ok_iff, Prod.mk.injEq] at h
      obtain ⟨rfl, rfl⟩ := h
      exact ⟨rfl, fun _ => rfl, fun htruncated => by simp [htruncated]⟩

/-- A limit has been reached by a number of findings. -/
def IsReached (limit : Option Number) (n : Nat) : Prop :=
  limit.any (·.atMost n) = true

end Budget

namespace Audit

/-- The turn of a detector on a file: what it adds to what has been found, or nothing at all when it
is left out. -/
structure Turn where
  file : SourceFile
  detector : FileDetector
  found : Option Found

namespace Turn

/-- The detector is left out. -/
def isLeftOut (t : Turn) : Bool :=
  t.found.isNone

/-- The findings that are admitted in a turn. -/
def findings (t : Turn) : List Finding :=
  (t.found.getD {}).findings

end Turn

/-- Give a detector its turn on a file, with what is left of the budget. -/
def turn (a : Audit) (f : SourceFile) (d : FileDetector) : StateT Budget (Except Refusal) Turn :=
  fun b => (a.detect f (coveringsOf f) ({}, b) d).map fun result =>
    (⟨f, d, if b.isExhausted then none else some result.1⟩, result.2)

/-- Give all detectors their turns on a file. -/
def turnsOn (a : Audit) (f : SourceFile) : StateT Budget (Except Refusal) (List Turn) :=
  a.detectors.mapM (a.turn f)

/-- The source of a file of a request, if it is to be scanned and can be read. -/
def sourceOf? (a : Audit) (file : String × Content) : Option SourceFile :=
  match Exclusion.covers a.settings.scan.exclusions file.1 with
  | .ok false =>
    if a.detectors.isEmpty then none else (SourceFile.read .utf8 file.1 file.2).toOption
  | _ => none

/-- The sources of a request: the files that are to be scanned and can be read. -/
def sources (a : Audit) (request : Request) : List SourceFile :=
  request.files.filterMap a.sourceOf?

/-- The turns of all detectors on the sources of a request, source by source. -/
def scansOf (a : Audit) (request : Request) : Except Refusal (List (List Turn)) := do
  let budget ← Budget.ofValue a.settings.scan.maxFindings
  let (scans, _) ← ((a.sources request).mapM a.turnsOn).run budget
  return scans

/-- No detector is left out in the turns on a file. -/
def isComplete (scan : List Turn) : Bool :=
  scan.all fun t => !t.isLeftOut

variable {a : Audit} {f : SourceFile} {d : FileDetector} {b b' middle after : Budget} {t : Turn}
  {ts us : List Turn}

/-! ## Turn after turn -/

/-- A detector has its turn by being left out when the budget is exhausted, and by being run and
having its findings admitted when it is not. -/
theorem turn_cases (h : (a.turn f d).run b = .ok (t, after)) :
    (b.isExhausted = true ∧ t = ⟨f, d, none⟩ ∧ after = b.noteSkip) ∨
      (b.isExhausted = false ∧ ∃ more admitted, a.sifted f d = .ok more ∧
        b.accept more.findings = .ok (admitted, after) ∧
        t = ⟨f, d, some { more with findings := admitted }⟩) := by
  obtain ⟨result, hdetect, heq⟩ := map_eq_ok_iff.mp h
  simp only [detect] at hdetect
  cases hexhausted : b.isExhausted with
  | true =>
      simp only [hexhausted, if_true, pure_eq_ok_iff] at hdetect heq
      subst hdetect
      cases heq
      exact .inl ⟨rfl, rfl, rfl⟩
  | false =>
      simp only [hexhausted, Bool.false_eq_true, if_false, bind_eq_ok_iff, pure_eq_ok_iff]
        at hdetect heq
      obtain ⟨fs, hfs, more, hmore, ⟨admitted, middle⟩, haccept, rfl⟩ := hdetect
      cases heq
      rw [Found.nil_append]
      exact .inr ⟨rfl, more, admitted, bind_eq_ok_iff.mpr ⟨fs, hfs, hmore⟩, haccept, rfl⟩

/-- A detector adds to what has been found what it adds in its turn. -/
theorem detect_eq_turn (found : Found) :
    a.detect f (coveringsOf f) (found, b) d = ((a.turn f d).run b).map fun result =>
      (found.append (result.1.found.getD {}), result.2) := by
  simp only [turn, StateT.run, detect]
  cases b.isExhausted with
  | true => simp [pure, Except.pure, Except.map]
  | false =>
      simp only [Bool.false_eq_true, if_false, Found.nil_append]
      cases d.run a.now f with
      | error r => rfl
      | ok fs =>
          simp only [bind, Except.bind]
          cases Found.sift (coveringsOf f) fs with
          | error r => rfl
          | ok more =>
              simp only
              cases b.accept more.findings <;> rfl

/-- Scanning a file is giving all detectors their turns on it. -/
theorem scanSource_eq_turnsOn :
    a.scanSource b f = ((a.turnsOn f).run b).map fun result =>
      (Found.joined (result.1.map fun t => t.found.getD {}), result.2) := by
  have hall : ∀ (ds : List FileDetector) (found : Found) (b : Budget),
      ds.foldlM (a.detect f (coveringsOf f)) (found, b) =
        ((ds.mapM (a.turn f)).run b).map fun result =>
          (found.append (Found.joined (result.1.map fun t => t.found.getD {})), result.2) := by
    intro ds
    induction ds with
    | nil =>
        intro found b
        rw [run_mapM_nil]
        simp [pure, Except.pure, Except.map]
    | cons d ds ih =>
        intro found b
        rw [List.foldlM_cons, detect_eq_turn, run_mapM_cons]
        cases (a.turn f d).run b with
        | error r => rfl
        | ok first =>
            simp only [Except.map, bind, Except.bind, ih]
            cases (ds.mapM (a.turn f)).run first.2 with
            | error r => rfl
            | ok rest => simp [Found.append_assoc]
  rw [scanSource, hall]
  simp only [Found.nil_append]
  rfl

/-- Turns one after another, each with what the one before has left of the budget. -/
inductive Turns (a : Audit) : Budget → List Turn → Budget → Prop
  | nil (b : Budget) : Turns a b [] b
  | cons {f : SourceFile} {d : FileDetector} {b middle after : Budget} {t : Turn} {ts : List Turn}
      (first : (a.turn f d).run b = .ok (t, middle)) (rest : Turns a middle ts after) :
      Turns a b (t :: ts) after

namespace Turns

theorem append (h : Turns a b ts middle) (h' : Turns a middle us after) :
    Turns a b (ts ++ us) after := by
  induction h with
  | nil => exact h'
  | cons first _ ih => exact .cons first (ih h')

/-- What comes first of turns, and what comes after it. -/
theorem split (h : Turns a b (ts ++ us) after) :
    ∃ middle, Turns a b ts middle ∧ Turns a middle us after := by
  induction ts generalizing b with
  | nil => exact ⟨b, .nil b, h⟩
  | cons t ts ih =>
      cases h with
      | cons first rest =>
          obtain ⟨middle, hts, hus⟩ := ih rest
          exact ⟨middle, .cons first hts, hus⟩

/-- Turns leave the limit as it is, count what is admitted if there is a limit, and forget no
note. -/
theorem budget_spec (h : Turns a b ts after) :
    after.limit = b.limit ∧
      (b.limit ≠ none → after.count = b.count + (ts.flatMap Turn.findings).length) ∧
      (b.truncated = true → after.truncated = true) := by
  induction h with
  | nil => exact ⟨rfl, fun _ => rfl, id⟩
  | @cons f d b middle after t ts first _ ih =>
      obtain ⟨hlimit, hcount, htruncated⟩ := ih
      rw [List.flatMap_cons, List.length_append, ← Nat.add_assoc]
      rcases turn_cases first with ⟨-, rfl, rfl⟩ | ⟨-, more, admitted, -, haccept, rfl⟩
      · exact ⟨hlimit, hcount, fun _ => htruncated rfl⟩
      · obtain ⟨hlimit', hcount', htruncated'⟩ := Budget.accept_spec haccept
        refine ⟨hlimit.trans hlimit', fun hsome => ?_, fun h => htruncated (htruncated' h)⟩
        rw [hcount (hlimit' ▸ hsome), hcount' hsome]
        rfl

/-- When the budget is exhausted, all detectors are left out. -/
theorem isLeftOut_of_isExhausted (h : Turns a b ts after) (hexhausted : b.isExhausted = true) :
    ∀ t ∈ ts, t.isLeftOut = true := by
  induction h with
  | nil => simp
  | cons first _ ih =>
      rcases turn_cases first with ⟨-, rfl, rfl⟩ | ⟨hnot, -⟩
      · exact List.forall_mem_cons.mpr ⟨rfl, ih hexhausted⟩
      · cases hnot.symm.trans hexhausted

/-- A detector is left out when the budget is exhausted. -/
theorem isLeftOut_head_iff (h : Turns a b (t :: ts) after) :
    t.isLeftOut = true ↔ b.isExhausted = true := by
  cases h with
  | cons first _ =>
      rcases turn_cases first with ⟨hexhausted, rfl, -⟩ | ⟨hnot, _, _, -, -, rfl⟩
      · exact iff_of_true rfl hexhausted
      · simp [hnot, Turn.isLeftOut]

/-- Once a detector is left out, all are. -/
theorem isLeftOut_of_mem_tail (h : Turns a b (t :: ts) after) (hleft : t.isLeftOut = true) :
    ∀ u ∈ ts, u.isLeftOut = true :=
  (List.forall_mem_cons.mp
    (h.isLeftOut_of_isExhausted (h.isLeftOut_head_iff.mp hleft))).2

/-- When a detector is left out, it is noted. -/
theorem truncated_of_isLeftOut (h : Turns a b ts after) (hleft : ∃ t ∈ ts, t.isLeftOut = true) :
    after.truncated = true := by
  obtain ⟨t, ht, hleft⟩ := hleft
  obtain ⟨earlier, later, rfl⟩ := List.append_of_mem ht
  obtain ⟨middle, -, hrest⟩ := h.split
  cases hrest with
  | cons first rest =>
      rcases turn_cases first with ⟨-, -, rfl⟩ | ⟨-, _, _, -, -, rfl⟩
      · exact rest.budget_spec.2.2 rfl
      · cases hleft

/-- **When a detector is left out.**  In turns that begin with a budget of which nothing has been
spent, a detector is left out exactly when as many findings were admitted before its turn as the
limit allows. -/
theorem isLeftOut_iff (h : Turns a b (ts ++ t :: us) after) (hnew : b.count = 0) :
    t.isLeftOut = true ↔ Budget.IsReached b.limit (ts.flatMap Turn.findings).length := by
  obtain ⟨middle, hts, hrest⟩ := h.split
  obtain ⟨hlimit, hcount, -⟩ := hts.budget_spec
  rw [hrest.isLeftOut_head_iff, Budget.isExhausted, Budget.IsReached, hlimit]
  cases hnone : b.limit with
  | none => rfl
  | some limit =>
      rw [hcount (by simp [hnone]), hnew, Nat.zero_add]

end Turns

/-! ## The turns on some files -/

/-- The turns on a file are the detectors' in their order, one after another. -/
theorem turns_of_turnsOn (h : (a.turnsOn f).run b = .ok (ts, after)) :
    Turns a b ts after ∧
      ts.map (fun t => (t.file, t.detector)) = a.detectors.map fun d => (f, d) := by
  rw [turnsOn] at h
  generalize a.detectors = ds at h ⊢
  induction ds generalizing b ts with
  | nil =>
      cases run_mapM_nil.symm.trans h
      exact ⟨.nil _, rfl⟩
  | cons d ds ih =>
      obtain ⟨t, middle, rest, hfirst, hrest, rfl⟩ := run_mapM_cons_eq_ok_iff.mp h
      obtain ⟨hturns, hmap⟩ := ih hrest
      have hthis : (t.file, t.detector) = (f, d) := by
        rcases turn_cases hfirst with ⟨-, rfl, -⟩ | ⟨-, _, _, -, -, rfl⟩ <;> rfl
      exact ⟨.cons hfirst hturns, by rw [List.map_cons, List.map_cons, hmap, hthis]⟩

/-- The turns on files are those on the first of them, and then those on the others. -/
theorem turns_of_mapM {files : List SourceFile} {scans : List (List Turn)}
    (h : (files.mapM a.turnsOn).run b = .ok (scans, after)) :
    Turns a b scans.flatten after ∧
      scans.map (List.map fun t => (t.file, t.detector)) =
        files.map fun f => a.detectors.map fun d => (f, d) := by
  induction files generalizing b scans with
  | nil =>
      cases run_mapM_nil.symm.trans h
      exact ⟨.nil _, rfl⟩
  | cons f files ih =>
      obtain ⟨scan, middle, rest, hfirst, hrest, rfl⟩ := run_mapM_cons_eq_ok_iff.mp h
      obtain ⟨hturns, hmap⟩ := turns_of_turnsOn hfirst
      obtain ⟨hothers, hmaps⟩ := ih hrest
      exact ⟨hturns.append hothers, by rw [List.map_cons, List.map_cons, hmap, hmaps]⟩

/-- The source of a target: a file that can be read. -/
def source? : Target → Option SourceFile
  | .file path content => (SourceFile.read .utf8 path content).toOption
  | .policy _ _ => none

/-- What becomes of targets is told by the turns on the sources among them: these are the files that
count as scanned, and what is found in the files is what is admitted in the turns. -/
structure IsToldBy (a : Audit) (b : Budget) (sources : List SourceFile)
    (outcomes : List (Target × Outcome)) (after : Budget) (scans : List (List Turn)) : Prop where
  scans_eq : (sources.mapM a.turnsOn).run b = .ok (scans, after)
  scanned : outcomes.countP (isScanned "file") = scans.length
  findings : findingsOf "file" outcomes = scans.flatten.flatMap Turn.findings

/-- A target that is scanned is told by the turns on it, if it is a file that can be read. -/
theorem exists_isToldBy_of_scan {t : Target} {outcome : Outcome}
    (h : a.scan b t = .ok (outcome, after)) :
    ∃ scans, IsToldBy a b (source? t).toList [(t, outcome)] after scans := by
  cases t with
  | file path content =>
      rcases scanFile_cases h with ⟨p, hread, rfl, rfl⟩ | ⟨f, found, hread, hsource, rfl⟩
      · refine ⟨[], ?_, rfl, findingsOf_left _ _ _⟩
        rw [source?, hread]
        exact run_mapM_nil
      · rw [scanSource_eq_turnsOn, map_eq_ok_iff] at hsource
        obtain ⟨⟨ts, middle⟩, hturns, heq⟩ := hsource
        cases heq
        refine ⟨[ts], ?_, rfl, ?_⟩
        · have hsome : (source? (.file path content)).toList = [f] := by
            rw [source?, hread]
            rfl
          rw [hsome]
          exact run_mapM_cons_eq_ok_iff.mpr ⟨ts, middle, [], hturns, run_mapM_nil, rfl⟩
        · rw [findingsOf_scanned, Found.joined, List.flatMap_map, List.flatten_singleton]
          rfl
  | policy label source =>
      obtain ⟨-, rfl⟩ := scan_policy_eq_ok_iff.mp h
      refine ⟨[], run_mapM_nil, ?_, findingsOf_file_of_policy _ _ _⟩
      cases outcome <;> rfl

/-- What is told of some targets and of others is told of all of them. -/
theorem IsToldBy.append {sources sources' : List SourceFile}
    {outcomes outcomes' : List (Target × Outcome)} {scans scans' : List (List Turn)}
    (h : IsToldBy a b sources outcomes middle scans)
    (h' : IsToldBy a middle sources' outcomes' after scans') :
    IsToldBy a b (sources ++ sources') (outcomes ++ outcomes') after (scans ++ scans') where
  scans_eq := run_mapM_append h.scans_eq h'.scans_eq
  scanned := by rw [List.countP_append, h.scanned, h'.scanned, List.length_append]
  findings := by
    rw [findingsOf_append, h.findings, h'.findings, List.flatten_append, List.flatMap_append]

variable {occasion : Occasion} {request : Request} {report : Report}

/-- A target that is seen to and that the time is not over for is scanned. -/
theorem scan_of_attend {r r' : Resources} {t : Target} {outcome : Outcome}
    (h : a.attend occasion r t = .ok (outcome, r')) (hdone : isTimedOut (t, outcome) = false) :
    a.scan r.budget t = .ok (outcome, r'.budget) := by
  simp only [attend] at h
  split at h
  · cases h
    cases hdone
  · split at h
    · cases h
      cases hdone
    · obtain ⟨⟨_, _⟩, hscan, heq⟩ := bind_eq_ok_iff.mp h
      cases heq
      exact hscan

/-- Targets that are seen to, and for none of which the time is over, are told by the turns on the
sources among them. -/
theorem exists_isToldBy_of_attendAll {r : Resources} {ts : List Target}
    {outcomes : List (Target × Outcome)} (h : a.attendAll occasion r ts = .ok (outcomes, after))
    (hdone : outcomes.any isTimedOut = false) :
    ∃ scans, IsToldBy a r.budget (ts.filterMap source?) outcomes after scans := by
  induction ts generalizing r outcomes with
  | nil =>
      cases h
      exact ⟨[], run_mapM_nil, rfl, rfl⟩
  | cons t ts ih =>
      simp only [attendAll, bind_eq_ok_iff, pure_eq_ok_iff, Prod.mk.injEq] at h
      obtain ⟨⟨outcome, r'⟩, hfirst, ⟨rest, _⟩, hrest, rfl, rfl⟩ := h
      rw [List.any_cons, Bool.or_eq_false_iff] at hdone
      obtain ⟨scans, htold⟩ := exists_isToldBy_of_scan (scan_of_attend hfirst hdone.1)
      obtain ⟨scans', htold'⟩ := ih hrest hdone.2
      rw [filterMap_cons_eq_append]
      exact ⟨scans ++ scans', htold.append htold'⟩

/-- What the queue holds of a file is its source, if it has one. -/
theorem filterMap_source?_ofFile {file : String × Content} {q : Queue}
    (h : Queue.ofFile a file.1 file.2 = .ok q) :
    q.targets.filterMap source? = (a.sourceOf? file).toList := by
  simp only [Queue.ofFile, bind_eq_ok_iff] at h
  obtain ⟨covered, hcovered, h⟩ := h
  simp only [sourceOf?, hcovered]
  cases covered with
  | true =>
      cases h
      rfl
  | false =>
      cases hnone : a.detectors.isEmpty with
      | true =>
          rw [hnone] at h
          cases h
          rfl
      | false =>
          rw [hnone] at h
          cases h
          rw [filterMap_cons_eq_append]
          exact List.append_nil _

/-- The sources among the targets of a request are the sources of its files. -/
theorem filterMap_source?_ofRequest {queue : Queue} (h : Queue.ofRequest a request = .ok queue) :
    queue.targets.filterMap source? = a.sources request := by
  obtain ⟨qs, hqs, -, rfl⟩ := Queue.ofRequest_eq_ok_iff.mp h
  have hpolicies : ((Queue.joined (request.policies.zipIdx.map fun p =>
      Queue.ofPolicy a p.2 p.1)).targets).filterMap source? = [] := by
    refine List.filterMap_eq_nil_iff.mpr fun t ht => ?_
    have hkind := kind_of_mem_ofPolicies t ht
    cases t with
    | file path content => simp [Target.kind] at hkind
    | policy label source => rfl
  have hfiles : (Queue.joined qs).targets.filterMap source? = a.sources request := by
    rw [sources]
    clear h
    generalize request.files = files at hqs
    induction hqs with
    | nil => rfl
    | cons hq _ ih =>
        rw [Queue.joined_cons, Queue.append, List.filterMap_append, filterMap_source?_ofFile hq,
          filterMap_cons_eq_append, ih]
  rw [Queue.append, List.filterMap_append, hpolicies, hfiles, List.append_nil]

/-! ## What a report counts -/

/-- A number of findings reaches the limit of an audit. -/
def ReachesLimit (a : Audit) (n : Nat) : Prop :=
  Budget.IsReached a.settings.scan.maxFindings.number? n

/-- A budget begins with the limit of the settings, and with nothing spent. -/
theorem ofValue_spec {v : Value} (h : Budget.ofValue v = .ok b) :
    b.limit = v.number? ∧ b.count = 0 ∧ b.truncated = false := by
  simp only [Budget.ofValue] at h
  split at h
  · cases h
    exact ⟨rfl, rfl, rfl⟩
  · split at h
    · rename_i n hn
      cases h
      exact ⟨hn.symm, rfl, rfl⟩
    · cases h

/-- The turns on the sources of a request, and what the report on a complete run tells of them. -/
theorem exists_scansOf_of_run (hrun : a.run occasion request = .ok report)
    (hcomplete : report.totals.incomplete = false) :
    ∃ scans ofPolicies budget after, a.scansOf request = .ok scans ∧
      Budget.ofValue a.settings.scan.maxFindings = .ok budget ∧
      ((a.sources request).mapM a.turnsOn).run budget = .ok (scans, after) ∧
      report.totals.files = .int scans.length ∧ report.totals.truncated = after.truncated ∧
      Finding.sorted (Report.kept a.threshold (scans.flatten.flatMap Turn.findings ++ ofPolicies)) =
        .ok report.findings := by
  obtain ⟨queue, budget, workers, outcomes, after, hqueue, hbudget, hworkers, htimeout, hall,
    hreport⟩ := run_eq_ok_iff.mp hrun
  have houtcomes : a.outcomesOf occasion request = .ok (outcomes, after) :=
    outcomesOf_eq_ok_iff.mpr ⟨queue, budget, workers, hqueue, hbudget, hworkers, htimeout, hall⟩
  obtain ⟨htruncated, hsorted⟩ := report_of_outcomesOf houtcomes hrun
  obtain ⟨_, _, -, -, rfl⟩ := Report.aggregate_eq_ok_iff.mp hreport
  obtain ⟨scans, htold⟩ := exists_isToldBy_of_attendAll hall hcomplete
  have hscans := htold.scans_eq
  rw [filterMap_source?_ofRequest hqueue] at hscans
  refine ⟨scans, _, budget, after, ?_, hbudget, hscans, ?_, htruncated, htold.findings ▸ hsorted⟩
  · simp only [scansOf, bind_eq_ok_iff, pure_eq_ok_iff]
    exact ⟨budget, hbudget, (scans, after), hscans, rfl⟩
  · rw [← htold.scanned]
    rfl

/-- No detector is left out on any file exactly if the last turn of all is not one of a detector
that is left out. -/
theorem countP_isComplete_eq_iff {scans : List (List Turn)}
    (h : Turns a b scans.flatten after) :
    scans.countP isComplete = scans.length ↔
      ∀ earlier last, scans.flatten = earlier ++ [last] → last.isLeftOut = false := by
  have hall : scans.countP isComplete = scans.length ↔
      ∀ t ∈ scans.flatten, t.isLeftOut = false := by
    rw [List.countP_eq_length]
    simp only [isComplete, List.all_eq_true, Bool.not_eq_true', List.mem_flatten]
    exact ⟨fun h t ⟨scan, hscan, ht⟩ => h scan hscan t ht,
      fun h scan hscan t ht => h t ⟨scan, hscan, ht⟩⟩
  rw [hall]
  constructor
  · intro hnone earlier last heq
    exact hnone last (by simp [heq])
  · intro hlast t ht
    rw [Bool.eq_false_iff]
    intro hleft
    obtain ⟨earlier, later, heq⟩ := List.append_of_mem ht
    rw [heq] at h
    obtain ⟨middle, -, hrest⟩ := h.split
    rcases List.eq_nil_or_concat later with rfl | ⟨between, last, rfl⟩
    · cases (hlast earlier t heq).symm.trans hleft
    · have hlater := hrest.isLeftOut_of_mem_tail hleft last (by simp)
      rw [List.concat_eq_append] at heq
      cases (hlast (earlier ++ t :: between) last (by simp [heq])).symm.trans hlater

/-- **Which files a report counts as scanned.**  Let a run end before the time is over.  Every
detector has one turn on every file that is to be scanned and can be read, and it is left out
exactly when the findings that were admitted before reach the limit.  The report counts all these
files.  That is the number of the files on which no detector is left out exactly if the limit is not
reached before the last turn; so it is when the report says nothing of a limit. -/
theorem run_counts_files (hrun : a.run occasion request = .ok report)
    (hcomplete : report.totals.incomplete = false) :
    ∃ scans ofPolicies, a.scansOf request = .ok scans ∧
      scans.map (List.map fun t => (t.file, t.detector)) =
        (a.sources request).map (fun f => a.detectors.map fun d => (f, d)) ∧
      Finding.sorted (Report.kept a.threshold (scans.flatten.flatMap Turn.findings ++ ofPolicies)) =
        .ok report.findings ∧
      (∀ earlier t later, scans.flatten = earlier ++ t :: later →
        (t.isLeftOut = true ↔ a.ReachesLimit (earlier.flatMap Turn.findings).length)) ∧
      report.totals.files = .int (a.sources request).length ∧
      (report.totals.files = .int (scans.countP isComplete) ↔
        ∀ earlier last, scans.flatten = earlier ++ [last] →
          ¬ a.ReachesLimit (earlier.flatMap Turn.findings).length) ∧
      (report.totals.truncated = false →
        report.totals.files = .int (scans.countP isComplete)) := by
  obtain ⟨scans, ofPolicies, budget, after, hscans, hbudget, hturns, hfiles, htruncated, hsorted⟩ :=
    exists_scansOf_of_run hrun hcomplete
  obtain ⟨hlimit, hnew, -⟩ := ofValue_spec hbudget
  obtain ⟨hchain, hpairs⟩ := turns_of_mapM hturns
  have hrule : ∀ earlier t later, scans.flatten = earlier ++ t :: later →
      (t.isLeftOut = true ↔ a.ReachesLimit (earlier.flatMap Turn.findings).length) := by
    intro earlier t later heq
    rw [heq] at hchain
    rw [hchain.isLeftOut_iff hnew, hlimit, ReachesLimit]
  have hlength : scans.length = (a.sources request).length := by
    simpa using congrArg List.length hpairs
  have hcount : report.totals.files = .int (scans.countP isComplete) ↔
      scans.countP isComplete = scans.length := by
    rw [hfiles, Value.int.injEq, Int.natCast_inj, eq_comm]
  refine ⟨scans, ofPolicies, hscans, hpairs, hsorted, hrule, hlength ▸ hfiles, ?_, ?_⟩
  · rw [hcount, countP_isComplete_eq_iff hchain]
    refine forall_congr' fun earlier => forall_congr' fun last => imp_congr_right fun heq => ?_
    rw [← hrule earlier last [] heq, Bool.not_eq_true]
  · intro hquiet
    rw [hcount, countP_isComplete_eq_iff hchain]
    intro earlier last heq
    rw [Bool.eq_false_iff]
    intro hleft
    have hnoted := hchain.truncated_of_isLeftOut ⟨last, by simp [heq], hleft⟩
    cases hquiet.symm.trans (htruncated.trans hnoted)

/-- The files on which no detector is left out are known from where detectors are left out. -/
theorem countP_isComplete_eq {scans : List (List Turn)} {leftOut : List (List Bool)}
    (h : scans.map (List.map Turn.isLeftOut) = leftOut) :
    scans.countP isComplete = leftOut.countP fun scan => scan.all not := by
  rw [← h, List.countP_map]
  refine List.countP_congr fun scan _ => ?_
  simp [isComplete, List.all_map]

/-- With a limit of three the detectors are left out on the last file of the shelf, which is
counted. -/
theorem run_counts_files_shelf :
    ∃ report scans, (Shelf.limited 3).run { id := "1" } Shelf.request = .ok report ∧
      report.totals.incomplete = false ∧ (Shelf.limited 3).scansOf Shelf.request = .ok scans ∧
      report.totals.files = .int 4 ∧ report.totals.files ≠ .int (scans.countP isComplete) := by
  have hrun : (((Shelf.limited 3).run { id := "1" } Shelf.request).toOption.any fun report =>
      !report.totals.incomplete) = true := by
    simp only [Audit.run, Report.aggregate, Finding.sorted, Report.sortedSuppressions,
      circumstances, Sorting.mergeSort_eq_sortWithin]
    decide +kernel
  have hleft : (((Shelf.limited 3).scansOf Shelf.request).toOption.any fun scans =>
      scans.flatten.getLast?.any Turn.isLeftOut) = true := by
    decide +kernel
  obtain ⟨report, hreport, hcomplete⟩ := any_toOption_iff.mp hrun
  rw [Bool.not_eq_true'] at hcomplete
  obtain ⟨scans, _, hscans, -, -, hrule, hfiles, hcount, -⟩ := run_counts_files hreport hcomplete
  refine ⟨report, scans, hreport, hcomplete, hscans, hfiles, fun heq => ?_⟩
  -- The last detector is left out, so the limit is reached before its turn.
  obtain heq' | ⟨earlier, last, heq'⟩ := List.eq_nil_or_concat scans.flatten
  · simp [hscans, Except.toOption, heq'] at hleft
  · rw [List.concat_eq_append] at heq'
    have hlast : last.isLeftOut = true := by
      simpa [hscans, Except.toOption, heq'] using hleft
    exact hcount.mp heq earlier last heq' ((hrule earlier last [] heq').mp hlast)

/-- **Files are counted as scanned on which no detector is run.**  With a limit of one, all four
files of the shelf are counted, and the detector is run on one of them. -/
theorem exists_unscanned_file_counted :
    ∃ (s : Settings) (c : Catalog) (a : Audit) (request : Request) (report : Report)
      (scans : List (List Turn)),
      Audit.ofSettings s c a.now = .ok a ∧ a.run { id := "1" } request = .ok report ∧
      report.totals.incomplete = false ∧ a.scansOf request = .ok scans ∧
      report.totals.files = .int 4 ∧ scans.countP isComplete = 1 := by
  have hrun : (((Shelf.limited 1).run { id := "1" } Shelf.request).toOption.any fun report =>
      !report.totals.incomplete) = true := by
    simp only [Audit.run, Report.aggregate, Finding.sorted, Report.sortedSuppressions,
      circumstances, Sorting.mergeSort_eq_sortWithin]
    decide +kernel
  have hleft : (((Shelf.limited 1).scansOf Shelf.request).toOption.any fun scans =>
      scans.map (List.map Turn.isLeftOut) == [[false], [true], [true], [true]]) = true := by
    decide +kernel
  obtain ⟨report, hreport, hcomplete⟩ := any_toOption_iff.mp hrun
  rw [Bool.not_eq_true'] at hcomplete
  obtain ⟨scans, _, _, _, hscans, -, -, hfiles, -, -⟩ := exists_scansOf_of_run hreport hcomplete
  rw [hscans] at hleft
  have hleft : scans.map (List.map Turn.isLeftOut) = [[false], [true], [true], [true]] :=
    eq_of_beq hleft
  have hlength : scans.length = 4 := by simpa using congrArg List.length hleft
  rw [hlength] at hfiles
  exact ⟨(Shelf.limited 1).settings, Shelf.catalog [], Shelf.limited 1, Shelf.request, report,
    scans, rfl, hreport, hcomplete, hscans, hfiles, countP_isComplete_eq hleft⟩

end Audit

end SecurityAudit
