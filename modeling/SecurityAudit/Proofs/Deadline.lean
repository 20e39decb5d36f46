import Mathlib.Logic.Relation
import SecurityAudit.Audit.Roster
import SecurityAudit.Proofs.Isolation

/-!
# What a deadline leaves undone

Whatever the order in which the workers take their steps, things stand the same way at the deadline.
A task that stalls takes a worker for good, so the tasks are taken up to the one that takes the last
worker, and of those the ones that do not stall are done (`byDeadline`).
-/

namespace SecurityAudit.Audit

/-! ## The course of the work -/

/-- Every task with whether it is done by the deadline, when some workers are left for them. -/
def byDeadline : Nat → List Task → List (Task × Bool)
  | 0, ts => ts.map fun t => (t, false)
  | _ + 1, [] => []
  | left + 1, t :: ts =>
    if t.stalls then (t, false) :: byDeadline left ts else (t, true) :: byDeadline (left + 1) ts

@[simp]
theorem byDeadline_nil (left : Nat) : byDeadline left [] = [] := by
  cases left <;> rfl

/-- As long as a worker is left, exactly the tasks that do not stall are done. -/
theorem byDeadline_append {left : Nat} {before : List Task} (h : before.countP Task.stalls < left)
    (after : List Task) :
    byDeadline left (before ++ after) = before.map (fun t => (t, !t.stalls)) ++
      byDeadline (left - before.countP Task.stalls) after := by
  induction before generalizing left with
  | nil => simp
  | cons t before ih =>
      obtain ⟨k, rfl⟩ : ∃ k, left = k + 1 := ⟨left - 1, by omega⟩
      cases hstalls : t.stalls with
      | true =>
          simp only [List.countP_cons, hstalls, if_true] at h
          have hk : k + 1 - (before.countP Task.stalls + 1) = k - before.countP Task.stalls := by
            omega
          simp only [List.cons_append, byDeadline, hstalls, if_true, List.map_cons,
            List.countP_cons, hk, ih (show before.countP Task.stalls < k by omega), Bool.not_true]
      | false =>
          simp only [List.countP_cons, hstalls, Bool.false_eq_true, if_false, Nat.add_zero] at h
          simp only [List.cons_append, byDeadline, hstalls, Bool.false_eq_true, if_false,
            List.map_cons, List.countP_cons, Nat.add_zero, ih h, Bool.not_false]

/-- With as many workers as there are tasks, or with more, it makes no difference how many there
are. -/
theorem byDeadline_eq_of_length_le {ts : List Task} {left left' : Nat} (h : ts.length ≤ left)
    (h' : ts.length ≤ left') : byDeadline left ts = byDeadline left' ts := by
  induction ts generalizing left left' with
  | nil => simp
  | cons t ts ih =>
      rw [List.length_cons] at h h'
      obtain ⟨k, rfl⟩ : ∃ k, left = k + 1 := ⟨left - 1, by omega⟩
      obtain ⟨k', rfl⟩ : ∃ k', left' = k' + 1 := ⟨left' - 1, by omega⟩
      simp only [byDeadline, ih (show ts.length ≤ k by omega) (show ts.length ≤ k' by omega),
        ih (show ts.length ≤ k + 1 by omega) (show ts.length ≤ k' + 1 by omega)]

/-- Every task is either done or not. -/
theorem map_fst_byDeadline (left : Nat) (ts : List Task) :
    (byDeadline left ts).map Prod.fst = ts := by
  induction ts generalizing left with
  | nil => simp
  | cons t ts ih =>
      cases left with
      | zero => simp [byDeadline, Function.comp_def]
      | succ left =>
          simp only [byDeadline]
          split <;> simp [ih]

/-- There is no use for more workers than there are tasks. -/
theorem byDeadline_min (workers : Nat) (ts : List Task) :
    byDeadline (min workers ts.length) ts = byDeadline workers ts := by
  rcases Nat.le_total workers ts.length with h | h
  · rw [Nat.min_eq_left h]
  · rw [Nat.min_eq_right h]
    exact byDeadline_eq_of_length_le (Nat.le_refl _) h

namespace Roster

/-- The number of tasks that have been taken and stall. -/
def stalled (r : Roster) : Nat :=
  r.started.countP fun p => p.1.stalls

/-- **What every step preserves.**  Only tasks that do not stall are done, no more tasks that stall
have been taken than there are workers, and what will be done by the deadline is what does not stall
of the tasks that have been taken, and what the other workers will see to. -/
structure Invariant (workers : Nat) (all : List Task) (r : Roster) : Prop where
  moves : ∀ p ∈ r.started, p.2 = true → p.1.stalls = false
  stalled_le : r.stalled ≤ workers
  forecast : byDeadline workers all = r.started.map (fun p => (p.1, !p.1.stalls)) ++
    byDeadline (workers - r.stalled) r.waiting

/-- Who has taken a task that stalls is busy. -/
theorem stalled_le_busy {r : Roster} (moves : ∀ p ∈ r.started, p.2 = true → p.1.stalls = false) :
    r.stalled ≤ r.busy := by
  refine List.countP_mono_left fun p hp hstalls => ?_
  cases hdone : p.2 with
  | false => rfl
  | true => rw [moves p hp hdone] at hstalls; cases hstalls

variable {workers : Nat} {all : List Task} {r r' : Roster}

theorem invariant_waiting (workers : Nat) (all : List Task) :
    Invariant workers all { waiting := all } where
  moves := by simp
  stalled_le := Nat.zero_le _
  forecast := by simp [stalled]

/-- Taking the first task that waits keeps the invariant. -/
theorem Invariant.start {t : Task} {waiting : List Task} (hi : Invariant workers all r)
    (next : r.waiting = t :: waiting) (free : r.busy < workers) :
    Invariant workers all { started := r.started ++ [(t, false)], waiting } := by
  have hbusy := stalled_le_busy hi.moves
  obtain ⟨k, hk⟩ : ∃ k, workers - r.stalled = k + 1 := ⟨workers - r.stalled - 1, by omega⟩
  have hforecast := hi.forecast
  rw [next, hk] at hforecast
  -- One worker less is left for the tasks that wait if this one stalls.
  have hstalled : stalled { started := r.started ++ [(t, false)], waiting } =
      r.stalled + if t.stalls then 1 else 0 := by
    simp [stalled]
  constructor
  · intro p hp hdone
    rcases List.mem_append.mp hp with hp | hp
    · exact hi.moves p hp hdone
    · rw [List.mem_singleton.mp hp] at hdone
      cases hdone
  · rw [hstalled]
    split <;> omega
  · rw [hstalled, hforecast]
    cases hstalls : t.stalls with
    | true =>
        have hleft : workers - (r.stalled + 1) = k := by omega
        simp [byDeadline, hstalls, hleft]
    | false => simp [byDeadline, hstalls, hk]

/-- Being done with a task that does not stall keeps the invariant. -/
theorem Invariant.finish {before after : List (Task × Bool)} {t : Task}
    (hi : Invariant workers all r) (on : r.started = before ++ (t, false) :: after)
    (moves : t.stalls = false) :
    Invariant workers all { r with started := before ++ (t, true) :: after } := by
  have hstalled : r.stalled = stalled { r with started := before ++ (t, true) :: after } := by
    simp only [stalled, on, List.countP_append, List.countP_cons]
  constructor
  · intro p hp hdone
    by_cases hpt : p = (t, true)
    · rw [hpt]
      exact moves
    · refine hi.moves p ?_ hdone
      rw [on]
      simp only [List.mem_append, List.mem_cons, hpt, false_or] at hp ⊢
      tauto
  · rw [← hstalled]
    exact hi.stalled_le
  · rw [← hstalled, hi.forecast, on]
    simp

theorem Invariant.step (hi : Invariant workers all r) (h : Step workers r r') :
    Invariant workers all r' := by
  cases h with
  | start next free => exact hi.start next free
  | finish on moves => exact hi.finish on moves

/-- Some course of the work on tasks leads to a roster. -/
def Reached (workers : Nat) (all : List Task) : Roster → Prop :=
  Relation.ReflTransGen (Step workers) { waiting := all }

theorem Reached.invariant (h : Reached workers all r) : Invariant workers all r := by
  induction h with
  | refl => exact invariant_waiting workers all
  | tail _ hstep ih => exact ih.step hstep

/-- **How things stand at the deadline** does not depend on the course of the work. -/
theorem Reached.tasks_eq (h : Reached workers all r) (hdeadline : AtDeadline workers r) :
    r.tasks = byDeadline workers all := by
  have hi := h.invariant
  have hdone : ∀ p ∈ r.started, p.2 = !p.1.stalls := by
    intro p hp
    cases hp2 : p.2 with
    | true => rw [hi.moves p hp hp2, Bool.not_false]
    | false => rw [hdeadline.stalled p hp hp2, Bool.not_true]
  have hstarted : r.started.map (fun p => (p.1, !p.1.stalls)) = r.started := by
    conv_rhs => rw [← List.map_id r.started]
    exact List.map_congr_left fun p hp => Prod.ext rfl (hdone p hp).symm
  have hbusy : r.stalled = r.busy := by
    refine List.countP_congr fun p hp => ?_
    rw [hdone p hp, Bool.not_not]
  have hwaiting : byDeadline (workers - r.stalled) r.waiting =
      r.waiting.map fun t => (t, false) := by
    rcases hdeadline.taken with hnone | hall
    · rw [hnone, byDeadline_nil, List.map_nil]
    · have hleft : workers - r.stalled = 0 := by omega
      rw [hleft, byDeadline]
  rw [hi.forecast, hstarted, hwaiting, tasks]

/-- A task that is done does not stall. -/
theorem Reached.moves (h : Reached workers all r) {p : Task × Bool} (hp : p ∈ r.tasks)
    (hdone : p.2 = true) : p.1.stalls = false := by
  rcases List.mem_append.mp hp with hp | hp
  · exact h.invariant.moves p hp hdone
  · obtain ⟨t, -, rfl⟩ := List.mem_map.mp hp
    cases hdone

/-- If a worker is left to the end, what is not done is what stalls. -/
theorem Reached.done_of_countP_lt (h : Reached workers all r) (hdeadline : AtDeadline workers r)
    (hcount : all.countP Task.stalls < workers) :
    r.completed = all.filter (fun t => !t.stalls) ∧ r.pending = all.filter Task.stalls := by
  have htasks := byDeadline_append hcount []
  rw [List.append_nil, byDeadline_nil, List.append_nil, ← h.tasks_eq hdeadline] at htasks
  constructor
  · simp [completed, htasks, List.filter_map, Function.comp_def]
  · simp [pending, htasks, List.filter_map, Function.comp_def]

/-- If a task takes the last worker for good, nothing after it is done. -/
theorem Reached.done_of_last (h : Reached workers all r) (hdeadline : AtDeadline workers r)
    {before after : List Task} {t : Task} (hall : all = before ++ t :: after)
    (hstalls : t.stalls = true) (hlast : before.countP Task.stalls + 1 = workers) :
    r.completed = before.filter (fun t => !t.stalls) ∧
      r.pending = before.filter Task.stalls ++ t :: after := by
  have hleft : workers - before.countP Task.stalls = 1 := by omega
  have htasks : r.tasks = before.map (fun t => (t, !t.stalls)) ++
      (t :: after).map fun t => (t, false) := by
    rw [h.tasks_eq hdeadline, hall, byDeadline_append (by omega), hleft]
    simp [byDeadline, hstalls]
  constructor
  · simp [completed, htasks, List.filter_map, Function.comp_def]
  · simp [pending, htasks, List.filter_map, Function.comp_def]

/-- Some course of the work comes to the deadline. -/
theorem exists_atDeadline (workers : Nat) (all : List Task) :
    ∃ r, Reached workers all r ∧ AtDeadline workers r := by
  -- From where the workers are busy only with tasks that stall, the first one that waits is taken
  -- and, unless it stalls too, is done before anything else happens.
  suffices h : ∀ (waiting : List Task) (started : List (Task × Bool)),
      (∀ p ∈ started, p.2 = false → p.1.stalls = true) →
        Reached workers all { started, waiting } →
          ∃ r, Reached workers all r ∧ AtDeadline workers r from
    h all [] (by simp) .refl
  intro waiting
  induction waiting with
  | nil => exact fun started hstalled hreached => ⟨_, hreached, hstalled, .inl rfl⟩
  | cons t waiting ih =>
      intro started hstalled hreached
      by_cases hfree : busy { started, waiting := t :: waiting } < workers
      · have htaken := hreached.tail (.start rfl hfree)
        cases hstalls : t.stalls with
        | true =>
            refine ih _ (fun p hp hdone => ?_) htaken
            rcases List.mem_append.mp hp with hp | hp
            · exact hstalled p hp hdone
            · rw [List.mem_singleton.mp hp]
              exact hstalls
        | false =>
            refine ih _ (fun p hp hdone => ?_) (htaken.tail (.finish rfl hstalls))
            rcases List.mem_append.mp hp with hp | hp
            · exact hstalled p hp hdone
            · rw [List.mem_singleton.mp hp] at hdone
              cases hdone
      · exact ⟨_, hreached, hstalled, .inr (Nat.le_of_not_lt hfree)⟩

end Roster

/-! ## The outcomes -/

variable {a : Audit} {occasion : Occasion} {request : Request}

/-- With one worker more a target that keeps it is not seen to, and any other one is settled. -/
theorem attend_of_no_limit {b : Budget} (hb : b.limit = none) (free : Nat) (t : Target) :
    a.attend occasion ⟨free + 1, b⟩ t =
      if keepsWorker occasion b t then .ok (.timedOut, ⟨free, b⟩)
      else (a.scan b t).map fun result => (result.1, ⟨free + 1, b⟩) := by
  simp only [attend]
  split
  · rfl
  · cases hscan : a.scan b t with
    | error e => rfl
    | ok result =>
        obtain ⟨outcome, after⟩ := result
        obtain rfl := scan_budget hb hscan
        rfl

/-- When no worker is left the time is over for every target. -/
theorem attendAll_no_worker {b : Budget} (ts : List Target) :
    a.attendAll occasion ⟨0, b⟩ ts = .ok (ts.map fun t => (t, .timedOut), b) := by
  induction ts with
  | nil => rfl
  | cons t ts ih =>
      simp only [attendAll, attend, pure_bind, ih]
      rfl

/-- The time is over for tasks that are not done. -/
theorem mapM_outcomeAt_pending (b : Budget) (ts : List Task) :
    (ts.map fun t => (t, false)).mapM (a.outcomeAt b) =
      .ok (ts.map fun t => (t.target, .timedOut)) := by
  induction ts with
  | nil => rfl
  | cons t ts ih =>
      simp only [List.map_cons, List.mapM_cons, ih, outcomeAt]
      rfl

/-- **Seeing to the targets one after another** leaves the outcomes that they have at the
deadline. -/
theorem attendAll_eq_outcomesAt {b : Budget} (hb : b.limit = none) {ts : List Task}
    (hstalls : ∀ t ∈ ts, t.stalls = keepsWorker occasion b t.target) (workers : Nat) :
    a.attendAll occasion ⟨workers, b⟩ (ts.map Task.target) =
      ((byDeadline workers ts).mapM (a.outcomeAt b)).map fun outcomes => (outcomes, b) := by
  induction ts generalizing workers with
  | nil =>
      rw [byDeadline_nil]
      rfl
  | cons t ts ih =>
      have hrest := fun left => ih (fun u hu => hstalls u (List.mem_cons_of_mem t hu)) left
      have ht := hstalls t List.mem_cons_self
      cases workers with
      | zero =>
          rw [attendAll_no_worker, byDeadline, mapM_outcomeAt_pending, List.map_map]
          rfl
      | succ left =>
          simp only [List.map_cons, attendAll, attend_of_no_limit hb, ← ht, byDeadline]
          cases t.stalls with
          | true =>
              simp only [if_true, List.mapM_cons, outcomeAt, bind, Except.bind, hrest]
              cases (byDeadline left ts).mapM (a.outcomeAt b) <;> rfl
          | false =>
              simp only [Bool.false_eq_true, if_false, List.mapM_cons, outcomeAt]
              cases a.scan b t.target with
              | error e => rfl
              | ok result =>
                  simp only [Except.map, bind, Except.bind, hrest]
                  cases (byDeadline (left + 1) ts).mapM (a.outcomeAt b) <;> rfl

/-- What comes of scanning a target is known before the time is over. -/
theorem not_isTimedOut_of_scan {b b' : Budget} {t : Target} {outcome : Outcome}
    (h : a.scan b t = .ok (outcome, b')) : isTimedOut (t, outcome) = false := by
  cases t with
  | file path content =>
      obtain ⟨_, _, rfl, -⟩ | ⟨_, _, _, _, rfl⟩ := scanFile_cases h <;> rfl
  | policy label source =>
      obtain ⟨_, rfl⟩ | ⟨_, rfl⟩ := scanPolicy_cases (scan_policy_eq_ok_iff.mp h).1 <;> rfl

/-- Of the outcomes at the deadline, those of the tasks that are done are told apart by the time not
being over. -/
theorem filter_outcomesAt {b : Budget} {ts : List (Task × Bool)}
    {outcomes : List (Target × Outcome)} (h : ts.mapM (a.outcomeAt b) = .ok outcomes) :
    (ts.filter Prod.snd).mapM (a.outcomeAt b) =
        .ok (outcomes.filter fun p => !isTimedOut p) ∧
      outcomes.filter isTimedOut =
        (ts.filter fun p => !p.2).map fun p => (p.1.target, .timedOut) := by
  rw [mapM_eq_ok_iff] at h
  induction h with
  | nil => exact ⟨rfl, rfl⟩
  | @cons p q _ _ hfirst _ ih =>
      obtain ⟨hdone, hpending⟩ := ih
      obtain ⟨t, done⟩ := p
      cases done with
      | true =>
          obtain ⟨⟨outcome, after⟩, hscan, rfl⟩ := map_eq_ok_iff.mp hfirst
          have hknown := not_isTimedOut_of_scan hscan
          simp only [List.filter_cons, hknown, Bool.not_false, Bool.not_true, if_true,
            Bool.false_eq_true, if_false, List.mapM_cons, hdone, hfirst, hpending]
          exact ⟨rfl, trivial⟩
      | false =>
          obtain rfl := Except.ok.inj hfirst
          have hover : isTimedOut (t.target, .timedOut) = true := rfl
          simp only [List.filter_cons, hover, Bool.not_false, Bool.not_true, if_true,
            Bool.false_eq_true, if_false, hdone, hpending, List.map_cons]
          exact ⟨trivial, trivial⟩

/-! ## The tasks of a request -/

/-- A file stalls only if it is to be scanned and can be read. -/
structure CanStall (a : Audit) (file : String × Content) : Prop where
  wanted : IsWanted a file.1
  readable : ∃ f, SourceFile.read .utf8 file.1 file.2 = .ok f

variable {marked : List ((String × Content) × Bool)}

/-- The tasks of a request, some files of which are marked as stalling. -/
def tasksOf (a : Audit) (marked : List ((String × Content) × Bool))
    (policies : List PolicySource) : List Task :=
  tasksOfFiles a marked ++ tasksOfPolicies a policies

/-- The targets of a file: the file itself if it is to be scanned, and none if it is not. -/
theorem isWanted_of_mem_targets {path : String} {content : Content} {q : Queue}
    (h : Queue.ofFile a path content = .ok q) {t : Target} (ht : t ∈ q.targets) :
    IsWanted a path := by
  simp only [Queue.ofFile, bind_eq_ok_iff] at h
  obtain ⟨covered, hcovered, h⟩ := h
  cases covered with
  | true =>
      obtain rfl := pure_eq_ok_iff.mp h
      cases ht
  | false =>
      refine ⟨hcovered, fun hnone => ?_⟩
      rw [hnone] at h
      obtain rfl := pure_eq_ok_iff.mp h
      cases ht

theorem tasksOf_nil (marked : List ((String × Content) × Bool)) :
    tasksOf a marked [] = tasksOfFiles a marked :=
  List.append_nil _

/-- A file that is to be scanned is a task. -/
theorem tasksOfFiles_cons_of_isWanted {f : (String × Content) × Bool} (h : IsWanted a f.1.1) :
    tasksOfFiles a (f :: marked) = ⟨.file f.1.1 f.1.2, f.2⟩ :: tasksOfFiles a marked := by
  simp [tasksOfFiles, ofFile_of_isWanted h, Except.toOption]

theorem tasksOfFiles_append (marked marked' : List ((String × Content) × Bool)) :
    tasksOfFiles a (marked ++ marked') = tasksOfFiles a marked ++ tasksOfFiles a marked' :=
  List.flatMap_append

/-- The tasks of the files that do not stall are the tasks that do not stall. -/
theorem tasksOfFiles_filter (marked : List ((String × Content) × Bool)) :
    tasksOfFiles a (marked.filter fun f => !f.2) =
      (tasksOfFiles a marked).filter fun t => !t.stalls := by
  simp only [tasksOfFiles, List.filter_flatMap, List.filter_map, Function.comp_def]
  induction marked with
  | nil => rfl
  | cons f marked ih =>
      cases hf : f.2 <;> simp [hf, ih]

/-- Every file that stalls is a task, and no other task does. -/
theorem filter_stalls_tasksOfFiles (h : ∀ f ∈ marked, f.2 = true → CanStall a f.1) :
    (tasksOfFiles a marked).filter Task.stalls =
      (marked.filter Prod.snd).map fun f => ⟨.file f.1.1 f.1.2, true⟩ := by
  induction marked with
  | nil => rfl
  | cons f marked ih =>
      have ih := ih fun g hg => h g (List.mem_cons_of_mem f hg)
      cases hf : f.2 with
      | true =>
          rw [tasksOfFiles_cons_of_isWanted (h f List.mem_cons_self hf).wanted]
          simp [hf, ih]
      | false =>
          simp only [tasksOfFiles, List.flatMap_cons, hf] at ih ⊢
          simp [hf, ih]

theorem filter_stalls_tasksOfPolicies (policies : List PolicySource) :
    (tasksOfPolicies a policies).filter Task.stalls = [] := by
  rw [tasksOfPolicies, List.filter_map, List.map_eq_nil_iff, List.filter_eq_nil_iff]
  simp

/-- As many tasks stall as files do. -/
theorem countP_stalls_tasksOf (h : ∀ f ∈ marked, f.2 = true → CanStall a f.1)
    (policies : List PolicySource) :
    (tasksOf a marked policies).countP Task.stalls = marked.countP Prod.snd := by
  rw [tasksOf, List.countP_eq_length_filter, List.filter_append, filter_stalls_tasksOfFiles h,
    filter_stalls_tasksOfPolicies, List.append_nil, List.length_map, ← List.countP_eq_length_filter]

/-- The tasks of the request without the files that stall are the tasks that do not stall. -/
theorem tasksOf_filter (marked : List ((String × Content) × Bool))
    (policies : List PolicySource) :
    tasksOf a (marked.filter fun f => !f.2) policies =
      (tasksOf a marked policies).filter fun t => !t.stalls := by
  have hpolicies : (tasksOfPolicies a policies).filter (fun t => !t.stalls) =
      tasksOfPolicies a policies := by
    refine List.filter_eq_self.mpr fun t ht => ?_
    obtain ⟨_, -, rfl⟩ := List.mem_map.mp ht
    rfl
  rw [tasksOf, tasksOf, List.filter_append, tasksOfFiles_filter, hpolicies]

/-- The tasks of the request are the targets in its queue. -/
theorem map_target_tasksOf {queue : Queue} (hfiles : marked.map Prod.fst = request.files)
    (hqueue : Queue.ofRequest a request = .ok queue) :
    (tasksOf a marked request.policies).map Task.target = queue.targets := by
  obtain ⟨qs, hqs, -, rfl⟩ := Queue.ofRequest_eq_ok_iff.mp hqueue
  have hofFiles : (tasksOfFiles a marked).map Task.target = (Queue.joined qs).targets := by
    rw [← hfiles, List.forall₂_map_left_iff] at hqs
    clear hfiles hqueue
    induction hqs with
    | nil => rfl
    | cons hq _ ih =>
        rw [Queue.joined_cons, Queue.append, ← ih]
        simp [tasksOfFiles, hq, Except.toOption, Function.comp_def]
  have hofPolicies : (tasksOfPolicies a request.policies).map Task.target =
      (Queue.joined (request.policies.zipIdx.map fun p => Queue.ofPolicy a p.2 p.1)).targets := by
    simp [tasksOfPolicies, Queue.joined, List.flatMap_map, Function.comp_def]
  rw [tasksOf, List.map_append, hofFiles, hofPolicies, Queue.append]

/-- What is warned about before anything is scanned are policies. -/
theorem kind_of_mem_warnings {queue : Queue} (hqueue : Queue.ofRequest a request = .ok queue)
    {w : Warning} (hw : w ∈ queue.warnings) : w.kind = "policy" := by
  obtain ⟨qs, hqs, -, rfl⟩ := Queue.ofRequest_eq_ok_iff.mp hqueue
  rcases List.mem_append.mp hw with hw | hw
  · obtain ⟨q, hq, hw⟩ := List.mem_flatMap.mp hw
    obtain ⟨f, -, hq⟩ := exists_of_forall₂_of_mem hqs hq
    obtain ⟨entry, rfl⟩ | rfl := ofFile_cases hq <;> cases hw
  · obtain ⟨q, hq, hw⟩ := List.mem_flatMap.mp hw
    obtain ⟨p, -, rfl⟩ := List.mem_map.mp hq
    simp only [Queue.ofPolicy] at hw
    split at hw
    · rw [List.mem_singleton.mp hw]
    · cases hw

/-- Some of the files and policies can be put in a queue if all of them can. -/
theorem exists_ofRequest {queue : Queue} (hqueue : Queue.ofRequest a request = .ok queue)
    {request' : Request} (hfiles : ∀ f ∈ request'.files, f ∈ request.files)
    (hpolicies : ∀ p ∈ request'.policies, p ∈ request.policies) :
    ∃ queue', Queue.ofRequest a request' = .ok queue' := by
  obtain ⟨qs, hqs, hnames, -⟩ := Queue.ofRequest_eq_ok_iff.mp hqueue
  have hnames' : Queue.checkNames request'.policies = .ok () :=
    Queue.checkNames_eq_ok_iff.mpr fun p hp =>
      Queue.checkNames_eq_ok_iff.mp hnames p (hpolicies p hp)
  obtain ⟨qs', hqs'⟩ : ∃ qs', request'.files.mapM (fun f => Queue.ofFile a f.1 f.2) = .ok qs' := by
    refine exists_mapM fun f hf => ?_
    obtain ⟨q, -, hq⟩ := exists_of_forall₂_of_mem hqs.flip (hfiles f hf)
    exact ⟨q, hq⟩
  exact ⟨_, Queue.ofRequest_eq_ok_iff.mpr ⟨qs', mapM_eq_ok_iff.mp hqs', hnames', rfl⟩⟩

/-- Targets can be waited for when the clock goes as far as the time given for them, and when it is
not too long to be waited for the second one. -/
theorem checkTimeout_eq_ok_iff {timeout : Value} {ts : List Target} :
    checkTimeout timeout ts = .ok () ↔ ∀ t, timeout.number? = some t → ts ≠ [] →
      isBeyondClock t = false ∧ (1 < ts.length → (Number.int longestWait).below t = false) := by
  simp only [checkTimeout]
  cases timeout.number? with
  | none => simp
  | some t =>
      cases ts with
      | nil => simp
      | cons first others => cases others <;> simp

/-- Fewer targets can be waited for if more can. -/
theorem checkTimeout_of_length_le {timeout : Value} {ts ts' : List Target}
    (h : checkTimeout timeout ts = .ok ()) (hle : ts'.length ≤ ts.length) :
    checkTimeout timeout ts' = .ok () := by
  rw [checkTimeout_eq_ok_iff] at *
  intro t ht hne
  have hpos := List.length_pos_iff.mpr hne
  obtain ⟨hclock, hwait⟩ := h t ht (List.length_pos_iff.mp (hpos.trans_le hle))
  exact ⟨hclock, fun hmany => hwait (hmany.trans_le hle)⟩

/-! ## The report at the deadline -/

/-- The settings give so many workers, though no more than there are targets. -/
def HasWorkers (a : Audit) (workers : Nat) : Prop :=
  ∀ most, workersOf a.settings.scan.workers most = .ok (min workers most)

/-- A run on a request, some files of which are marked as stalling, ends with a report at the
deadline, when things stand as the roster says. -/
def EndsAt (a : Audit) (workers : Nat) (occasion : Occasion) (request : Request)
    (marked : List ((String × Content) × Bool)) (r : Roster) (report : Report) : Prop :=
  ∃ queue budget outcomes,
    Queue.ofRequest a request = .ok queue ∧
    Budget.ofValue a.settings.scan.maxFindings = .ok budget ∧
    checkTimeout a.settings.scan.timeout queue.targets = .ok () ∧
    r.Reached workers (tasksOf a marked request.policies) ∧ r.AtDeadline workers ∧
    r.tasks.mapM (a.outcomeAt budget) = .ok outcomes ∧
    a.reportOn occasion request queue outcomes budget = .ok report

/-- The deadline comes after some course of the work. -/
theorem EndsAt.reached {workers : Nat} {r : Roster} {report : Report}
    (h : EndsAt a workers occasion request marked r report) :
    r.Reached workers (tasksOf a marked request.policies) ∧ r.AtDeadline workers := by
  obtain ⟨_, _, _, -, -, -, hreached, hdeadline, -⟩ := h
  exact ⟨hreached, hdeadline⟩

/-- Two reports agree on what has been scanned and on what has been found. -/
structure ScansAlike (report report' : Report) : Prop where
  findings : report.findings = report'.findings
  suppressed : report.suppressed = report'.suppressed
  files : report.totals.files = report'.totals.files
  policies : report.totals.policies = report'.totals.policies

variable {workers : Nat}

/-- The first numbers below a bound are as many as the bound says, if there are so many numbers. -/
theorem takeWhile_range_lt (bound most : Nat) :
    (List.range most).takeWhile (fun k => decide (k < bound)) = List.range (min bound most) := by
  induction most with
  | zero => simp
  | succ most ih =>
      rw [List.range_succ, List.takeWhile_append, ih]
      rcases Nat.lt_or_ge most bound with h | h
      · have hmin : min bound most = most := by omega
        have hmin' : min bound (most + 1) = most + 1 := by omega
        rw [hmin, hmin', List.range_succ]
        simp [h]
      · have hmin : min bound (most + 1) = min bound most := by omega
        simp only [List.length_range, hmin, List.takeWhile_cons, Nat.not_lt.mpr h, decide_false,
          Bool.false_eq_true, if_false, List.append_nil]
        split
        next heq => rw [heq]
        next => rfl

/-- A whole number of workers is so many workers. -/
theorem hasWorkers_of_int (h : a.settings.scan.workers = .int workers) : HasWorkers a workers := by
  intro most
  have hbelow (k : Nat) : (Number.int k).below (.int workers) = decide (k < workers) := by
    rw [Number.below, Number.order?_int]
    rcases Nat.lt_trichotomy k workers with hk | hk | hk
    · simp [hk, Int.compare_eq_lt.mpr (Int.ofNat_lt.mpr hk)]
    · simp [hk]
    · simp [Nat.not_lt.mpr (Nat.le_of_lt hk), Int.compare_eq_gt.mpr (Int.ofNat_lt.mpr hk)]
  simp only [workersOf, h, Value.number?, hbelow, takeWhile_range_lt, List.length_range]

/-- The tasks that keep their workers are those that stall, if the slow files are. -/
theorem stalls_eq_keepsWorker {b : Budget} (hb : b.limit = none)
    (hslow : ∀ f ∈ marked, f.2 = true ↔ f.1.1 ∈ occasion.slow ∧ CanStall a f.1)
    {policies : List PolicySource} {t : Task} (ht : t ∈ tasksOf a marked policies) :
    t.stalls = keepsWorker occasion b t.target := by
  rcases List.mem_append.mp ht with ht | ht
  · obtain ⟨f, hf, ht⟩ := List.mem_flatMap.mp ht
    obtain ⟨target, htarget, rfl⟩ := List.mem_map.mp ht
    cases hq : Queue.ofFile a f.1.1 f.1.2 with
    | error r =>
        rw [hq] at htarget
        cases htarget
    | ok q =>
        rw [hq] at htarget
        have hwanted := isWanted_of_mem_targets hq htarget
        obtain rfl : target = .file f.1.1 f.1.2 := by
          obtain ⟨_, rfl⟩ | rfl := ofFile_cases hq
          · cases htarget
          · exact List.mem_singleton.mp htarget
        have hkeeps : keepsWorker occasion b (.file f.1.1 f.1.2) = true ↔
            f.1.1 ∈ occasion.slow ∧ CanStall a f.1 := by
          simp only [keepsWorker, Budget.not_isExhausted_of_no_limit hb, Bool.not_false,
            Bool.and_true, Bool.and_eq_true, List.contains_iff_mem]
          refine and_congr_right fun _ => ⟨fun h => ⟨hwanted, ?_⟩, fun h => ?_⟩
          · cases hread : SourceFile.read .utf8 f.1.1 f.1.2 with
            | error p =>
                rw [hread] at h
                cases h
            | ok file => exact ⟨file, rfl⟩
          · obtain ⟨file, hread⟩ := h.readable
            rw [hread]
            rfl
        rw [Bool.eq_iff_iff, hslow f hf, hkeeps]
  · obtain ⟨target, htarget, rfl⟩ := List.mem_map.mp ht
    obtain ⟨p, -, htarget⟩ := List.mem_flatMap.mp htarget
    simp only [Queue.ofPolicy] at htarget
    split at htarget
    · cases htarget
    · rw [List.mem_singleton.mp htarget]
      rfl

/-- A run sees to its targets as workers do by the deadline. -/
theorem run_eq_ok_iff_endsAt (hlimit : a.settings.scan.maxFindings = .null)
    (hworkers : HasWorkers a workers) (hfiles : marked.map Prod.fst = request.files)
    (hslow : ∀ f ∈ marked, f.2 = true ↔ f.1.1 ∈ occasion.slow ∧ CanStall a f.1)
    {report : Report} :
    a.run occasion request = .ok report ↔
      ∃ r, EndsAt a workers occasion request marked r report := by
  -- Both sides see to the same targets, on a budget without a limit.
  have houtcomes {queue : Queue} {b : Budget} {left : Nat}
      (hqueue : Queue.ofRequest a request = .ok queue)
      (hb : Budget.ofValue a.settings.scan.maxFindings = .ok b)
      (hleft : workersOf a.settings.scan.workers queue.targets.length = .ok left) :
      a.attendAll occasion ⟨left, b⟩ queue.targets =
        ((byDeadline workers (tasksOf a marked request.policies)).mapM (a.outcomeAt b)).map
          fun outcomes => (outcomes, b) := by
    have hunlimited : b.limit = none := by
      rw [hlimit] at hb
      cases hb
      rfl
    have htargets := map_target_tasksOf hfiles hqueue
    obtain rfl := Except.ok.inj ((hworkers _).symm.trans hleft)
    rw [← htargets, List.length_map, attendAll_eq_outcomesAt hunlimited
      (fun t ht => stalls_eq_keepsWorker hunlimited hslow ht), byDeadline_min]
  rw [run_eq_ok_iff]
  constructor
  · rintro ⟨queue, b, left, outcomes, after, hqueue, hb, hleft, htimeout, hall, hreport⟩
    rw [houtcomes hqueue hb hleft, map_eq_ok_iff] at hall
    obtain ⟨_, hmap, heq⟩ := hall
    obtain ⟨rfl, rfl⟩ := Prod.mk.inj heq
    obtain ⟨r, hreached, hdeadline⟩ :=
      Roster.exists_atDeadline workers (tasksOf a marked request.policies)
    rw [← hreached.tasks_eq hdeadline] at hmap
    exact ⟨r, queue, b, _, hqueue, hb, htimeout, hreached, hdeadline, hmap, hreport⟩
  · rintro ⟨r, queue, b, outcomes, hqueue, hb, htimeout, hreached, hdeadline, hmap, hreport⟩
    refine ⟨queue, b, _, outcomes, b, hqueue, hb, hworkers _, htimeout, ?_, hreport⟩
    rw [houtcomes hqueue hb (hworkers _), ← hreached.tasks_eq hdeadline, hmap]
    rfl

/-- Nothing is found, scanned or suppressed in a target that the time is over for. -/
theorem exists_reportOn_done {occasion' : Occasion} {request' : Request} {queue queue' : Queue}
    {outcomes : List (Target × Outcome)} {b b' : Budget} {report : Report}
    (h : a.reportOn occasion request queue outcomes b = .ok report) :
    ∃ report', a.reportOn occasion' request' queue' (outcomes.filter fun p => !isTimedOut p) b' =
        .ok report' ∧ ScansAlike report report' := by
  have hfound : (outcomes.filter fun p => !isTimedOut p).filterMap foundOf? =
      outcomes.filterMap foundOf? := by
    rw [List.filterMap_filter]
    refine List.filterMap_congr fun p _ => ?_
    obtain ⟨t, outcome⟩ := p
    cases outcome <;> rfl
  have hscanned (kind : String) : (outcomes.filter fun p => !isTimedOut p).countP
      (isScanned kind) = outcomes.countP (isScanned kind) := by
    rw [List.countP_filter]
    refine List.countP_congr fun p _ => ?_
    obtain ⟨t, outcome⟩ := p
    cases outcome <;> simp [isScanned, isTimedOut]
  obtain ⟨findings, suppressed, hfindings, hsuppressed, rfl⟩ := Report.aggregate_eq_ok_iff.mp h
  refine ⟨_, Report.aggregate_eq_ok_iff.mpr ⟨findings, suppressed, ?_, ?_, rfl⟩, ?_⟩
  · rw [hfound]
    exact hfindings
  · simp only [circumstances, hfound]
    exact hsuppressed
  · constructor
    · rfl
    · rfl
    · simp only [Report.ofSorted, circumstances, hscanned]
    · simp only [Report.ofSorted, circumstances, hscanned]

/-- The tasks that are done can be seen to on their own: a run that has no other targets, in which
no file is slow, reports the same scans. -/
theorem EndsAt.exists_run {r : Roster} {report : Report}
    (hlimit : a.settings.scan.maxFindings = .null) (hworkers : HasWorkers a workers)
    (hpos : 0 < workers) (h : EndsAt a workers occasion request marked r report)
    (hmarked : marked.map Prod.fst = request.files)
    {request' : Request} (hfiles : ∀ f ∈ request'.files, f ∈ request.files)
    (hpolicies : ∀ p ∈ request'.policies, p ∈ request.policies)
    {marked' : List ((String × Content) × Bool)} (hmarked' : marked'.map Prod.fst = request'.files)
    (hcompleted : r.completed = tasksOf a marked' request'.policies) :
    ∃ report', a.run { occasion with slow := [] } request' = .ok report' ∧
      ScansAlike report report' := by
  obtain ⟨queue, b, outcomes, hqueue, hb, htimeout, hreached, hdeadline, hmap, hreport⟩ := h
  have hunlimited : b.limit = none := by
    rw [hlimit] at hb
    cases hb
    rfl
  obtain ⟨queue', hqueue'⟩ := exists_ofRequest hqueue hfiles hpolicies
  have htargets := map_target_tasksOf hmarked hqueue
  have htargets' := map_target_tasksOf hmarked' hqueue'
  rw [← hcompleted] at htargets'
  have hmoves : ∀ t ∈ r.completed, t.stalls = false := by
    intro t ht
    obtain ⟨p, hp, rfl⟩ := List.mem_map.mp ht
    obtain ⟨hp, hdone⟩ := List.mem_filter.mp hp
    exact hreached.moves hp hdone
  -- All of them are done, whatever the number of workers.
  have hdone : byDeadline workers r.completed = r.tasks.filter Prod.snd := by
    have hnone : r.completed.countP Task.stalls = 0 :=
      List.countP_eq_zero.mpr fun t ht => by simp [hmoves t ht]
    have h := byDeadline_append (hnone.trans_lt hpos) []
    rw [List.append_nil, byDeadline_nil, List.append_nil] at h
    rw [h, Roster.completed, List.map_map]
    conv_rhs => rw [← List.map_id (r.tasks.filter Prod.snd)]
    refine List.map_congr_left fun p hp => ?_
    obtain ⟨hp, hdone⟩ := List.mem_filter.mp hp
    have hmoves := hreached.moves hp hdone
    exact Prod.ext rfl (by simp [hmoves, hdone])
  have hall : a.attendAll { occasion with slow := [] } ⟨min workers queue'.targets.length, b⟩
      queue'.targets = .ok (outcomes.filter fun p => !isTimedOut p, b) := by
    have hkeeps : ∀ t ∈ r.completed,
        t.stalls = keepsWorker { occasion with slow := [] } b t.target := by
      intro t ht
      rw [hmoves t ht]
      cases t.target <;> simp [keepsWorker]
    rw [← htargets', List.length_map, attendAll_eq_outcomesAt hunlimited hkeeps, byDeadline_min,
      hdone, (filter_outcomesAt hmap).1]
    rfl
  have hlength : queue'.targets.length ≤ queue.targets.length := by
    have htasks : r.tasks.length = (tasksOf a marked request.policies).length := by
      have hall := map_fst_byDeadline workers (tasksOf a marked request.policies)
      rw [← hreached.tasks_eq hdeadline] at hall
      simpa using congrArg List.length hall
    rw [← htargets', ← htargets, List.length_map, List.length_map, ← htasks, Roster.completed,
      List.length_map]
    exact List.length_filter_le _ _
  obtain ⟨report', hreport', halike⟩ := exists_reportOn_done hreport
  exact ⟨report', run_eq_ok_iff.mpr ⟨queue', b, _, _, b, hqueue', hb, hworkers _,
    checkTimeout_of_length_le htimeout hlength, hall, hreport'⟩, halike⟩

/-- Whoever is left with a warning is not left for lack of time. -/
theorem kind_ne_timeout_of_scan {b b' : Budget} {t : Target} {w : Warning}
    (h : a.scan b t = .ok (.left w, b')) : w.kind ≠ "timeout" := by
  cases t with
  | file path content =>
      obtain ⟨_, _, heq, -⟩ | ⟨_, _, _, _, heq⟩ := scanFile_cases h <;> cases heq
      exact (by decide : "source" ≠ "timeout")
  | policy label source =>
      obtain ⟨_, heq⟩ | ⟨_, heq⟩ := scanPolicy_cases (scan_policy_eq_ok_iff.mp h).1 <;> cases heq
      exact (by decide : "policy" ≠ "timeout")

/-- Of the warnings about targets, those that the time was over are about the targets that it was
over for. -/
theorem filter_warnings (timeout : Value) {outcomes : List (Target × Outcome)}
    (h : ∀ p ∈ outcomes, ∀ w, p.2 = .left w → w.kind ≠ "timeout") :
    (outcomes.filterMap (warningOf? timeout)).filter (fun w => w.kind == "timeout") =
      (outcomes.filter isTimedOut).map fun p => timeoutWarning timeout p.1 := by
  induction outcomes with
  | nil => rfl
  | cons p outcomes ih =>
      have ih := ih fun q hq => h q (List.mem_cons_of_mem p hq)
      obtain ⟨t, outcome⟩ := p
      cases outcome with
      | scanned found =>
          rw [List.filterMap_cons_none rfl, ih]
          rfl
      | left w =>
          have hw := beq_eq_false_iff_ne.mpr (h _ List.mem_cons_self w rfl)
          have hwarned : warningOf? timeout (t, .left w) = some w := rfl
          rw [List.filterMap_cons_some hwarned, List.filter_cons, hw, if_neg Bool.false_ne_true, ih]
          rfl
      | timedOut =>
          have hwarned : warningOf? timeout (t, .timedOut) = some (timeoutWarning timeout t) := rfl
          rw [List.filterMap_cons_some hwarned, List.filter_cons_of_pos (by rfl), ih]
          rfl

/-- Every task that is not done is warned about, once, and the time was over for nothing else. -/
theorem EndsAt.timeouts_perm {r : Roster} {report : Report}
    (hlimit : a.settings.scan.maxFindings = .null)
    (h : EndsAt a workers occasion request marked r report) :
    (report.warnings.filter fun w => w.kind == "timeout").Perm
      (request.warnings.filter (fun w => w.kind == "timeout") ++
        r.pending.map fun t => timeoutWarning a.settings.scan.timeout t.target) := by
  obtain ⟨queue, b, outcomes, hqueue, hb, htimeout, hreached, hdeadline, hmap, hreport⟩ := h
  obtain ⟨_, _, -, -, rfl⟩ := Report.aggregate_eq_ok_iff.mp hreport
  have huntruncated : b.truncated = false := by
    rw [hlimit] at hb
    cases hb
    rfl
  have hqueued : queue.warnings.filter (fun w => w.kind == "timeout") = [] := by
    refine List.filter_eq_nil_iff.mpr fun w hw => ?_
    rw [kind_of_mem_warnings hqueue hw]
    decide
  have hleft : ∀ p ∈ outcomes, ∀ w, p.2 = .left w → w.kind ≠ "timeout" := by
    intro p hp w hw
    obtain ⟨⟨t, done⟩, -, hp⟩ := exists_of_mem_mapM hmap hp
    cases done with
    | true =>
        obtain ⟨⟨outcome, after⟩, hscan, rfl⟩ := map_eq_ok_iff.mp hp
        obtain rfl : outcome = .left w := hw
        exact kind_ne_timeout_of_scan hscan
    | false =>
        obtain rfl := Except.ok.inj hp
        cases hw
  have htimedOut := filter_warnings a.settings.scan.timeout hleft
  rw [(filter_outcomesAt hmap).2, List.map_map] at htimedOut
  refine ((List.mergeSort_perm _ _).filter _).trans ?_
  rw [List.filter_append, List.filter_append, List.filter_append, hqueued, htimedOut,
    huntruncated, Roster.pending, List.map_map]
  simp [Function.comp_def]

/-- A report is incomplete when a task is not done. -/
theorem EndsAt.incomplete_iff {r : Roster} {report : Report}
    (h : EndsAt a workers occasion request marked r report) :
    report.totals.incomplete = true ↔ r.pending ≠ [] := by
  obtain ⟨queue, b, outcomes, hqueue, hb, htimeout, hreached, hdeadline, hmap, hreport⟩ := h
  obtain ⟨_, _, -, -, rfl⟩ := Report.aggregate_eq_ok_iff.mp hreport
  have hpending : outcomes.filter isTimedOut = [] ↔ r.pending = [] := by
    rw [(filter_outcomesAt hmap).2, Roster.pending, List.map_eq_nil_iff, List.map_eq_nil_iff]
  rw [ne_eq, ← hpending, List.filter_eq_nil_iff]
  simp [Report.ofSorted, circumstances]

/-- Where an item comes after as many others that satisfy a condition, if enough items do. -/
theorem exists_split_of_le_countP {α : Type} {p : α → Bool} {n : Nat} {l : List α}
    (h : n + 1 ≤ l.countP p) :
    ∃ before x after, l = before ++ x :: after ∧ p x = true ∧ before.countP p = n := by
  induction l generalizing n with
  | nil => simp at h
  | cons y l ih =>
      cases hy : p y with
      | false =>
          rw [List.countP_cons, hy] at h
          obtain ⟨before, x, after, rfl, hx, hbefore⟩ := ih h
          exact ⟨y :: before, x, after, rfl, hx, by simp [hy, hbefore]⟩
      | true =>
          cases n with
          | zero => exact ⟨[], y, l, rfl, hy, rfl⟩
          | succ n =>
              rw [List.countP_cons, hy] at h
              obtain ⟨before, x, after, rfl, hx, hbefore⟩ := ih (Nat.le_of_succ_le_succ h)
              exact ⟨y :: before, x, after, rfl, hx, by simp [hy, hbefore]⟩

section Conclusion

variable {r : Roster} {report : Report}

/-- Some of the files that are marked are files of the request. -/
theorem mem_files_of_marked (hfiles : marked.map Prod.fst = request.files)
    {marked' : List ((String × Content) × Bool)} (hsub : marked' ⊆ marked) :
    ∀ f ∈ marked'.map Prod.fst, f ∈ request.files := by
  rw [← hfiles]
  exact fun f hf => List.map_subset Prod.fst hsub hf

/-- If a worker is left, the report tells the same scans as that on what does not stall. -/
theorem EndsAt.of_lt (hlimit : a.settings.scan.maxFindings = .null) (hpos : 0 < workers)
    (hworkers : HasWorkers a workers) (hfiles : marked.map Prod.fst = request.files)
    (hmarked : ∀ f ∈ marked, f.2 = true → CanStall a f.1)
    (h : EndsAt a workers occasion request marked r report)
    (hlt : marked.countP Prod.snd < workers) :
    r.completed = (tasksOf a marked request.policies).filter (fun t => !t.stalls) ∧
    r.pending = (marked.filter Prod.snd).map (fun f => ⟨.file f.1.1 f.1.2, true⟩) ∧
    ∃ report', a.run { occasion with slow := [] } { request with
        files := (marked.filter fun f => !f.2).map Prod.fst } = .ok report' ∧
      ScansAlike report report' := by
  obtain ⟨hreached, hdeadline⟩ := h.reached
  have hcount := countP_stalls_tasksOf hmarked request.policies
  obtain ⟨hcompleted, hpending⟩ :=
    hreached.done_of_countP_lt hdeadline (hcount.trans_lt hlt)
  refine ⟨hcompleted, ?_, ?_⟩
  · rw [hpending, tasksOf, List.filter_append, filter_stalls_tasksOfFiles hmarked,
      filter_stalls_tasksOfPolicies, List.append_nil]
  · exact h.exists_run hlimit hworkers hpos hfiles
      (mem_files_of_marked hfiles (List.filter_subset_self _)) (fun _ hp => hp) rfl
      (hcompleted.trans (tasksOf_filter _ _).symm)

/-- If some file takes the last worker, the report tells the same scans as that on the files before
it that do not stall. -/
theorem EndsAt.of_le (hlimit : a.settings.scan.maxFindings = .null) (hpos : 0 < workers)
    (hworkers : HasWorkers a workers) (hfiles : marked.map Prod.fst = request.files)
    (hmarked : ∀ f ∈ marked, f.2 = true → CanStall a f.1)
    (h : EndsAt a workers occasion request marked r report)
    (hle : workers ≤ marked.countP Prod.snd) :
    ∃ before f after,
      marked = before ++ f :: after ∧ f.2 = true ∧ before.countP Prod.snd + 1 = workers ∧
      r.completed = (tasksOfFiles a before).filter (fun t => !t.stalls) ∧
      r.pending = (tasksOfFiles a before).filter Task.stalls ++
        ⟨.file f.1.1 f.1.2, true⟩ :: tasksOf a after request.policies ∧
      ∃ report', a.run { occasion with slow := [] } { request with
          files := (before.filter fun f => !f.2).map Prod.fst, policies := [] } = .ok report' ∧
        ScansAlike report report' := by
  obtain ⟨hreached, hdeadline⟩ := h.reached
  obtain ⟨k, rfl⟩ : ∃ k, workers = k + 1 := ⟨workers - 1, by omega⟩
  obtain ⟨before, f, after, rfl, hf, hbefore⟩ := exists_split_of_le_countP hle
  have hmarkedBefore : ∀ g ∈ before, g.2 = true → CanStall a g.1 :=
    fun g hg => hmarked g (List.mem_append_left _ hg)
  have hwanted := (hmarked f (by simp) hf).wanted
  have hall : tasksOf a (before ++ f :: after) request.policies =
      tasksOfFiles a before ++ ⟨.file f.1.1 f.1.2, true⟩ :: tasksOf a after request.policies := by
    rw [tasksOf, tasksOfFiles_append, tasksOfFiles_cons_of_isWanted hwanted, hf, tasksOf,
      List.append_assoc, List.cons_append]
  have hlast : (tasksOfFiles a before).countP Task.stalls + 1 = k + 1 := by
    rw [← tasksOf_nil, countP_stalls_tasksOf hmarkedBefore, hbefore]
  obtain ⟨hcompleted, hpending⟩ := hreached.done_of_last hdeadline hall rfl hlast
  refine ⟨before, f, after, rfl, hf, by rw [hbefore], hcompleted, hpending, ?_⟩
  refine h.exists_run hlimit hworkers hpos hfiles
    (mem_files_of_marked hfiles fun g hg => List.mem_append_left _ (List.mem_of_mem_filter hg))
    (fun _ hp => nomatch hp) rfl ?_
  rw [hcompleted, tasksOf_nil, tasksOfFiles_filter]

end Conclusion

/-- **What a deadline leaves undone.**  Let findings not be limited, let there be some workers, and
let some files that are to be scanned and can be read be marked as stalling.

If these are the slow files of an occasion, a run ends with a report exactly when some course of the
work ends with it at the deadline.  Whichever they are, and whatever the course of the work was, the
tasks that are not done are warned about, and the time was over for nothing else:
* if fewer files stall than there are workers, they alone are not done, and the report tells the
  same scans as one on the other files and the policies;
* otherwise one of them takes the last worker: the files before it are done, but for those that
  stall, nothing else is, and the report tells the same scans as one on the files that are done.

The report is incomplete when some file stalls. -/
theorem run_deadline (hlimit : a.settings.scan.maxFindings = .null) (hpos : 0 < workers)
    (hworkers : HasWorkers a workers) (hfiles : marked.map Prod.fst = request.files)
    (hmarked : ∀ f ∈ marked, f.2 = true → CanStall a f.1) :
    ((∀ f ∈ marked, f.2 = true ↔ f.1.1 ∈ occasion.slow ∧ CanStall a f.1) → ∀ report,
      a.run occasion request = .ok report ↔
        ∃ r, EndsAt a workers occasion request marked r report) ∧
    ∀ r report, EndsAt a workers occasion request marked r report →
      (report.warnings.filter fun w => w.kind == "timeout").Perm
        (request.warnings.filter (fun w => w.kind == "timeout") ++
          r.pending.map fun t => timeoutWarning a.settings.scan.timeout t.target) ∧
      (marked.countP Prod.snd < workers →
        r.completed = (tasksOf a marked request.policies).filter (fun t => !t.stalls) ∧
        r.pending = (marked.filter Prod.snd).map (fun f => ⟨.file f.1.1 f.1.2, true⟩) ∧
        ∃ report', a.run { occasion with slow := [] } { request with
            files := (marked.filter fun f => !f.2).map Prod.fst } = .ok report' ∧
          ScansAlike report report') ∧
      (workers ≤ marked.countP Prod.snd → ∃ before f after,
        marked = before ++ f :: after ∧ f.2 = true ∧ before.countP Prod.snd + 1 = workers ∧
        r.completed = (tasksOfFiles a before).filter (fun t => !t.stalls) ∧
        r.pending = (tasksOfFiles a before).filter Task.stalls ++
          ⟨.file f.1.1 f.1.2, true⟩ :: tasksOf a after request.policies ∧
        ∃ report', a.run { occasion with slow := [] } { request with
            files := (before.filter fun f => !f.2).map Prod.fst, policies := [] } = .ok report' ∧
          ScansAlike report report') ∧
      (report.totals.incomplete = true ↔ ∃ f ∈ marked, f.2 = true) := by
  refine ⟨fun hslow report => run_eq_ok_iff_endsAt hlimit hworkers hfiles hslow,
    fun r report h => ?_⟩
  have hlt := h.of_lt hlimit hpos hworkers hfiles hmarked
  have hle := h.of_le hlimit hpos hworkers hfiles hmarked
  refine ⟨h.timeouts_perm hlimit, hlt, hle, ?_⟩
  rw [h.incomplete_iff]
  constructor
  · intro hpending
    by_contra hnone
    push Not at hnone
    have hcount : marked.countP Prod.snd = 0 := List.countP_eq_zero.mpr hnone
    obtain ⟨-, hpending', -⟩ := hlt (hcount.trans_lt hpos)
    rw [List.filter_eq_nil_iff.mpr hnone] at hpending'
    exact hpending hpending'
  · rintro ⟨f, hf, hstalls⟩
    rcases Nat.lt_or_ge (marked.countP Prod.snd) workers with hcount | hcount
    · obtain ⟨-, hpending, -⟩ := hlt hcount
      rw [hpending]
      exact List.ne_nil_of_mem (List.mem_map_of_mem (List.mem_filter.mpr ⟨hf, hstalls⟩))
    · obtain ⟨_, _, _, -, -, -, -, hpending, -⟩ := hle hcount
      rw [hpending]
      simp

namespace Shelf

/-- The audit with two workers. -/
def hurried : Audit :=
  { audit [] with settings := { scan := { scanTypes := .texts ["owasp"], workers := .int 2 } } }

/-- An occasion on which two files are slow. -/
def slowly : Occasion where
  id := "1"
  slow := ["b.txt", "y.txt"]

/-- The files on the shelf, of which the two slow ones stall. -/
def stalling : List ((String × Content) × Bool) :=
  Shelf.request.files.map fun f => (f, slowly.slow.contains f.1)

theorem canStall_of_mem : ∀ f ∈ Shelf.request.files, CanStall hurried f := by
  have h (path : String) (cs : List Char)
      (hread : ∃ f, SourceFile.read .utf8 path (.text cs) = .ok f) :
      CanStall hurried (path, .text cs) := ⟨⟨rfl, List.cons_ne_nil _ _⟩, hread⟩
  simp only [Shelf.request, List.forall_mem_cons]
  exact ⟨h _ _ ⟨_, rfl⟩, h _ _ ⟨_, rfl⟩, h _ _ ⟨_, rfl⟩, h _ _ ⟨_, rfl⟩, by simp⟩

end Shelf

/-- With two workers on the shelf and two slow files, only the file before them is scanned. -/
theorem run_deadline_shelf :
    ∃ r report, Shelf.hurried.run Shelf.slowly Shelf.request = .ok report ∧
      EndsAt Shelf.hurried 2 Shelf.slowly Shelf.request Shelf.stalling r report ∧
      r.completed.length = 1 ∧ report.totals.incomplete = true := by
  have hrun : ((Shelf.hurried.run Shelf.slowly Shelf.request).toOption.any fun report =>
      report.findings.length == 1) = true := by
    simp only [Audit.run, Report.aggregate, Finding.sorted, Report.sortedSuppressions,
      circumstances, Sorting.mergeSort_eq_sortWithin]
    decide +kernel
  obtain ⟨report, hreport, -⟩ := any_toOption_iff.mp hrun
  have hfiles : Shelf.stalling.map Prod.fst = Shelf.request.files := rfl
  have hworkers : HasWorkers Shelf.hurried 2 := hasWorkers_of_int rfl
  have hslow : ∀ f ∈ Shelf.stalling,
      f.2 = true ↔ f.1.1 ∈ Shelf.slowly.slow ∧ CanStall Shelf.hurried f.1 := by
    intro f hf
    obtain ⟨file, hfile, rfl⟩ := List.mem_map.mp hf
    simp [Shelf.canStall_of_mem file hfile]
  have hmarked : ∀ f ∈ Shelf.stalling, f.2 = true → CanStall Shelf.hurried f.1 :=
    fun f hf hstalls => ((hslow f hf).mp hstalls).2
  obtain ⟨r, hends⟩ :=
    ((run_deadline rfl (by decide) hworkers hfiles hmarked).1 hslow report).mp hreport
  obtain ⟨-, -, -, hincomplete⟩ :=
    (run_deadline rfl (by decide) hworkers hfiles hmarked).2 r report hends
  have hstalls : ∃ f ∈ Shelf.stalling, f.2 = true :=
    ⟨_, List.mem_cons_of_mem _ List.mem_cons_self, rfl⟩
  refine ⟨r, report, hreport, hends, ?_, hincomplete.mpr hstalls⟩
  rw [Roster.completed, hends.reached.1.tasks_eq hends.reached.2]
  rfl

end SecurityAudit.Audit
