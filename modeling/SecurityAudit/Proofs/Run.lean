import SecurityAudit.Audit.Run
import SecurityAudit.Proofs.Outcome

/-!
# What a run of an audit consists of

A run fills a queue, draws up a budget, sees to the targets in the queue one after another and makes
a report of the outcomes.  Each part is described once here: what the queue of a request holds, what
the outcomes are, and which answers a run that ends with a report has had on the way.
-/

namespace SecurityAudit.Audit

namespace Queue

/-- Queues one after another. -/
def joined (qs : List Queue) : Queue where
  targets := qs.flatMap Queue.targets
  skipped := qs.flatMap Queue.skipped
  warnings := qs.flatMap Queue.warnings

@[simp]
theorem joined_nil : joined [] = {} := rfl

theorem joined_cons (q : Queue) (qs : List Queue) : joined (q :: qs) = q.append (joined qs) := by
  simp [joined, append]

theorem joined_append (qs rs : List Queue) :
    joined (qs ++ rs) = (joined qs).append (joined rs) := by
  simp [joined, append]

/-- Appending queues to a first one, each in turn, is appending all of them at once. -/
theorem foldl_append (q : Queue) (qs : List Queue) :
    qs.foldl append q = q.append (joined qs) := by
  induction qs generalizing q with
  | nil => simp [append]
  | cons r qs ih => simp [ih, joined_cons, append, List.append_assoc]

/-- The queue of a request has what becomes of each of its files, and after that what becomes of
each of its policies. -/
theorem ofRequest_eq (a : Audit) (r : Request) :
    ofRequest a r = do
      let qs ← r.files.mapM fun f => ofFile a f.1 f.2
      checkNames r.policies
      return joined (qs ++ r.policies.zipIdx.map fun p => ofPolicy a p.2 p.1) := by
  simp only [ofRequest, foldl_append]
  congr 1

theorem ofRequest_eq_ok_iff {a : Audit} {r : Request} {q : Queue} :
    ofRequest a r = .ok q ↔
      ∃ qs, List.Forall₂ (fun f q => ofFile a f.1 f.2 = .ok q) r.files qs ∧
        checkNames r.policies = .ok () ∧
        (joined qs).append (joined (r.policies.zipIdx.map fun p => ofPolicy a p.2 p.1)) = q := by
  simp only [ofRequest_eq, bind_eq_ok_iff, pure_eq_ok_iff, mapM_eq_ok_iff, joined_append]
  constructor
  · rintro ⟨qs, hqs, ⟨⟩, hnames, hq⟩
    exact ⟨qs, hqs, hnames, hq⟩
  · rintro ⟨qs, hqs, hnames, hq⟩
    exact ⟨qs, hqs, (), hnames, hq⟩

/-- Policies can be named when each of them can. -/
theorem checkNames_eq_ok_iff {policies : List PolicySource} :
    checkNames policies = .ok () ↔ ∀ p ∈ policies, p.canBeNamed = true := by
  simp [checkNames]

/-- What becomes of one more file is in the queue between what becomes of the files before it and
what becomes of those after it; or the queue cannot be filled, for the same reason. -/
theorem ofRequest_insert {a : Audit} {path : String} {content : Content} {q : Queue} (r : Request)
    (before after : List (String × Content)) (hfile : ofFile a path content = .ok q) :
    (∃ e, ofRequest a { r with files := before ++ after } = .error e ∧
      ofRequest a { r with files := before ++ (path, content) :: after } = .error e) ∨
    ∃ qs rs, ofRequest a { r with files := before ++ after } = .ok (joined (qs ++ rs)) ∧
      ofRequest a { r with files := before ++ (path, content) :: after } =
        .ok (joined (qs ++ q :: rs)) := by
  simp only [ofRequest_eq, List.mapM_append, List.mapM_cons, hfile]
  cases before.mapM fun f => ofFile a f.1 f.2 with
  | error e => exact .inl ⟨e, rfl, rfl⟩
  | ok xs =>
      cases after.mapM fun f => ofFile a f.1 f.2 with
      | error e => exact .inl ⟨e, rfl, rfl⟩
      | ok ys =>
          cases checkNames r.policies with
          | error e => exact .inl ⟨e, rfl, rfl⟩
          | ok u =>
              refine .inr ⟨xs, ys ++ r.policies.zipIdx.map fun p => ofPolicy a p.2 p.1, ?_⟩
              rw [← List.append_assoc, ← List.cons_append, ← List.append_assoc]
              exact ⟨rfl, rfl⟩

end Queue

/-- What can have become of a target: the time was over for it, or it has been scanned on some
budget. -/
def Attended (a : Audit) (p : Target × Outcome) : Prop :=
  p.2 = .timedOut ∨ ∃ before after, a.scan before p.1 = .ok (p.2, after)

/-- Seeing to a target gives an outcome that it can have. -/
theorem attended_of_attend {a : Audit} {occasion : Occasion} {r r' : Resources} {t : Target}
    {outcome : Outcome} (h : a.attend occasion r t = .ok (outcome, r')) :
    Attended a (t, outcome) := by
  simp only [attend] at h
  split at h
  · simp only [pure_eq_ok_iff, Prod.mk.injEq] at h
    exact .inl h.1.symm
  · split at h
    · simp only [pure_eq_ok_iff, Prod.mk.injEq] at h
      exact .inl h.1.symm
    · simp only [bind_eq_ok_iff, pure_eq_ok_iff, Prod.mk.injEq] at h
      obtain ⟨⟨scanned, budget⟩, hscan, rfl, -⟩ := h
      exact .inr ⟨_, _, hscan⟩

/-- Seeing to the targets in a queue gives each of them one outcome, and one that it can have. -/
theorem attendAll_spec {a : Audit} {occasion : Occasion} {r : Resources} {ts : List Target}
    {outcomes : List (Target × Outcome)} {budget : Budget}
    (h : a.attendAll occasion r ts = .ok (outcomes, budget)) :
    outcomes.map Prod.fst = ts ∧ ∀ p ∈ outcomes, Attended a p := by
  induction ts generalizing r outcomes budget with
  | nil =>
      simp only [attendAll, Except.ok.injEq, Prod.mk.injEq] at h
      obtain ⟨rfl, -⟩ := h
      simp
  | cons t ts ih =>
      simp only [attendAll, bind_eq_ok_iff, pure_eq_ok_iff, Prod.mk.injEq] at h
      obtain ⟨⟨outcome, r'⟩, hfirst, ⟨rest, budget'⟩, hrest, rfl, -⟩ := h
      obtain ⟨htargets, hattended⟩ := ih hrest
      refine ⟨by simp [htargets], ?_⟩
      intro p hp
      rcases List.mem_cons.mp hp with rfl | hp
      · exact attended_of_attend hfirst
      · exact hattended p hp

/-- What becomes of the targets in a queue depends on nothing about the occasion but the files that
are slow. -/
theorem attendAll_congr {a : Audit} {occasion occasion' : Occasion}
    (hslow : occasion'.slow = occasion.slow) (r : Resources) (ts : List Target) :
    a.attendAll occasion' r ts = a.attendAll occasion r ts := by
  have hkeeps : keepsWorker occasion' = keepsWorker occasion := by
    funext b t
    cases t <;> simp only [keepsWorker, hslow]
  have hattend : a.attend occasion' = a.attend occasion := by
    funext r t
    simp only [attend, hkeeps]
  induction ts generalizing r with
  | nil => rfl
  | cons t ts ih => simp only [attendAll, hattend, ih]

/-- The report on the outcomes of the targets in a queue. -/
def reportOn (a : Audit) (occasion : Occasion) (request : Request) (queue : Queue)
    (outcomes : List (Target × Outcome)) (budget : Budget) : Except Refusal Report :=
  Report.aggregate a.threshold ((outcomes.filterMap foundOf?).map Found.findings)
    (a.circumstances occasion request queue outcomes budget)

/-- **How a run ends with a report.**  The queue is filled, the budget is drawn up, the settings
give a number of workers and a time that can be waited for, every target is seen to, and the
outcomes make the report. -/
theorem run_eq_ok_iff {a : Audit} {occasion : Occasion} {request : Request} {report : Report} :
    a.run occasion request = .ok report ↔
      ∃ queue budget workers outcomes after,
        Queue.ofRequest a request = .ok queue ∧
        Budget.ofValue a.settings.scan.maxFindings = .ok budget ∧
        workersOf a.settings.scan.workers queue.targets.length = .ok workers ∧
        checkTimeout a.settings.scan.timeout queue.targets = .ok () ∧
        a.attendAll occasion ⟨workers, budget⟩ queue.targets = .ok (outcomes, after) ∧
        a.reportOn occasion request queue outcomes after = .ok report := by
  simp only [run, bind_eq_ok_iff, allowing_eq_ok_iff, reportOn]
  constructor
  · rintro ⟨queue, hq, budget, hb, workers, hw, ⟨⟩, ht, ⟨outcomes, after⟩, ho, h⟩
    exact ⟨queue, budget, workers, outcomes, after, hq, hb, hw, ht, ho, h⟩
  · rintro ⟨queue, budget, workers, outcomes, after, hq, hb, hw, ht, ho, h⟩
    exact ⟨queue, hq, budget, hb, workers, hw, (), ht, (outcomes, after), ho, h⟩

/-- What becomes of the targets of a request, and what is left of the budget then. -/
def outcomesOf (a : Audit) (occasion : Occasion) (request : Request) :
    Except (Fault Problem) (List (Target × Outcome) × Budget) := do
  let queue ← allowing (Queue.ofRequest a request)
  let budget ← allowing (Budget.ofValue a.settings.scan.maxFindings)
  let workers ← allowing (workersOf a.settings.scan.workers queue.targets.length)
  allowing (checkTimeout a.settings.scan.timeout queue.targets)
  a.attendAll occasion ⟨workers, budget⟩ queue.targets

theorem outcomesOf_eq_ok_iff {a : Audit} {occasion : Occasion} {request : Request}
    {outcomes : List (Target × Outcome)} {after : Budget} :
    a.outcomesOf occasion request = .ok (outcomes, after) ↔
      ∃ queue budget workers,
        Queue.ofRequest a request = .ok queue ∧
        Budget.ofValue a.settings.scan.maxFindings = .ok budget ∧
        workersOf a.settings.scan.workers queue.targets.length = .ok workers ∧
        checkTimeout a.settings.scan.timeout queue.targets = .ok () ∧
        a.attendAll occasion ⟨workers, budget⟩ queue.targets = .ok (outcomes, after) := by
  simp only [outcomesOf, bind_eq_ok_iff, allowing_eq_ok_iff]
  constructor
  · rintro ⟨queue, hq, budget, hb, workers, hw, ⟨⟩, ht, h⟩
    exact ⟨queue, budget, workers, hq, hb, hw, ht, h⟩
  · rintro ⟨queue, budget, workers, hq, hb, hw, ht, h⟩
    exact ⟨queue, hq, budget, hb, workers, hw, (), ht, h⟩

/-- The report of a run is that on what has become of the targets. -/
theorem run_eq_ok_iff_outcomesOf {a : Audit} {occasion : Occasion} {request : Request}
    {report : Report} :
    a.run occasion request = .ok report ↔
      ∃ queue outcomes after, Queue.ofRequest a request = .ok queue ∧
        a.outcomesOf occasion request = .ok (outcomes, after) ∧
        a.reportOn occasion request queue outcomes after = .ok report := by
  rw [run_eq_ok_iff]
  constructor
  · rintro ⟨queue, budget, workers, outcomes, after, hq, hb, hw, ht, ho, h⟩
    exact ⟨queue, outcomes, after, hq,
      outcomesOf_eq_ok_iff.mpr ⟨queue, budget, workers, hq, hb, hw, ht, ho⟩, h⟩
  · rintro ⟨queue, outcomes, after, hq, ho, h⟩
    obtain ⟨queue', budget, workers, hq', hb, hw, ht, ho⟩ := outcomesOf_eq_ok_iff.mp ho
    obtain rfl := Except.ok.inj (hq.symm.trans hq')
    exact ⟨queue, budget, workers, outcomes, after, hq, hb, hw, ht, ho, h⟩

/-- Some of the first numbers satisfy a condition one after another when zero does. -/
theorem takeWhile_range_pos_iff {p : Nat → Bool} (n : Nat) :
    0 < ((List.range (n + 1)).takeWhile p).length ↔ p 0 = true := by
  rw [List.range_succ_eq_map, List.takeWhile_cons]
  by_cases h : p 0 = true
  · simp [h]
  · simp [h]

/-- There are workers for some targets if there is one for a single target. -/
theorem workersOf_pos {v : Value} (hsome : workersOf v 1 = .ok 1) {most workers : Nat}
    (hmost : 0 < most) (h : workersOf v most = .ok workers) : 0 < workers := by
  obtain ⟨k, rfl⟩ : ∃ k, most = k + 1 := ⟨most - 1, by omega⟩
  simp only [workersOf] at hsome h
  cases hnumber : v.number? with
  | none =>
      rw [hnumber] at h
      cases h
  | some n =>
      simp only [hnumber, Except.ok.injEq] at hsome h
      have hzero := (takeWhile_range_pos_iff 0).mp (hsome ▸ Nat.one_pos)
      rw [← h]
      exact (takeWhile_range_pos_iff k).mpr hzero

/-- When no file is slow, seeing to a target with a worker is scanning it. -/
theorem attend_of_not_slow {a : Audit} {occasion : Occasion} (hslow : occasion.slow = [])
    (free : Nat) (b : Budget) (t : Target) :
    a.attend occasion ⟨free + 1, b⟩ t =
      (a.scan b t).map fun result => (result.1, ⟨free + 1, result.2⟩) := by
  have hkeeps : keepsWorker occasion b t = false := by
    cases t <;> simp [keepsWorker, hslow]
  simp only [attend, hkeeps, Bool.false_eq_true, if_false]
  cases a.scan b t <;> rfl

/-- When no file is slow, seeing to targets with a worker is scanning the first one and seeing to
the others. -/
theorem attendAll_cons_of_not_slow {a : Audit} {occasion : Occasion} (hslow : occasion.slow = [])
    (free : Nat) (b : Budget) (t : Target) (ts : List Target) :
    a.attendAll occasion ⟨free + 1, b⟩ (t :: ts) =
      (a.scan b t >>= fun result =>
        (a.attendAll occasion ⟨free + 1, result.2⟩ ts).map fun rest =>
          ((t, result.1) :: rest.1, rest.2)) := by
  simp only [attendAll, attend_of_not_slow hslow]
  cases a.scan b t with
  | error e => rfl
  | ok result => rfl

/-- When no file is slow, targets are seen to one part after the other. -/
theorem attendAll_append {a : Audit} {occasion : Occasion} (hslow : occasion.slow = [])
    (free : Nat) (b : Budget) (ts us : List Target) :
    a.attendAll occasion ⟨free + 1, b⟩ (ts ++ us) =
      (a.attendAll occasion ⟨free + 1, b⟩ ts >>= fun first =>
        (a.attendAll occasion ⟨free + 1, first.2⟩ us).map fun rest =>
          (first.1 ++ rest.1, rest.2)) := by
  induction ts generalizing b with
  | nil =>
      cases h : a.attendAll occasion ⟨free + 1, b⟩ us with
      | error e => simp [attendAll, h, bind, Except.bind, Except.map]
      | ok rest => simp [attendAll, h, bind, Except.bind, Except.map]
  | cons t ts ih =>
      rw [List.cons_append, attendAll_cons_of_not_slow hslow, attendAll_cons_of_not_slow hslow]
      cases a.scan b t with
      | error e => rfl
      | ok result =>
          simp only [bind, Except.bind, ih]
          cases a.attendAll occasion ⟨free + 1, result.2⟩ ts with
          | error e => rfl
          | ok first =>
              simp only [Except.map]
              cases a.attendAll occasion ⟨free + 1, first.2⟩ us <;> rfl

/-- When no file is slow, one worker sees to the targets as well as many do. -/
theorem attendAll_one_worker {a : Audit} {occasion : Occasion} (hslow : occasion.slow = [])
    (free : Nat) (b : Budget) (ts : List Target) :
    a.attendAll occasion ⟨free + 1, b⟩ ts = a.attendAll occasion ⟨1, b⟩ ts := by
  induction ts generalizing b with
  | nil => rfl
  | cons t ts ih =>
      rw [attendAll_cons_of_not_slow hslow, attendAll_cons_of_not_slow hslow 0]
      simp only [ih]

/-- When no file is slow and a single target gets a worker, one worker sees to all targets. -/
theorem attendAll_of_workersOf {a : Audit} {occasion : Occasion} (hslow : occasion.slow = [])
    {v : Value} (hsome : workersOf v 1 = .ok 1) {ts : List Target} {workers : Nat}
    (hworkers : workersOf v ts.length = .ok workers) (b : Budget) :
    a.attendAll occasion ⟨workers, b⟩ ts = a.attendAll occasion ⟨1, b⟩ ts := by
  cases ts with
  | nil => rfl
  | cons t ts =>
      have hpos := workersOf_pos hsome (Nat.succ_pos ts.length) hworkers
      obtain ⟨free, rfl⟩ : ∃ free, workers = free + 1 := ⟨workers - 1, by omega⟩
      exact attendAll_one_worker hslow free b (t :: ts)

end SecurityAudit.Audit
