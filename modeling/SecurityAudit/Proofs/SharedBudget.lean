import Mathlib
import SecurityAudit.Audit.Pool
import SecurityAudit.Audit.Target
import SecurityAudit.Proofs.Budget
import SecurityAudit.Proofs.Outcome

/-!
# Workers that share a budget lose nothing within it

A worker asks whether the budget is exhausted, and offers what it has found later; other workers
come between.  Still, whatever the order of their steps, exactly as many findings are admitted as
the limit allows (`run_admits`).

What carries the proof is that the count of a budget never falls and never goes beyond the limit.
So a worker that has seen the budget exhausted will find it so when it takes note of that, and a
budget that has cut an offer is exhausted from then on (`Invariant`).

`scanSource_reaches` says that scanning one file from beginning to end is one order of such steps.
-/

namespace SecurityAudit.Pool

variable {ι α : Type}

/-- The pool before any worker has begun: all files wait, and nothing has been admitted. -/
def ofFiles (limit : Nat) (files : List (List (Offer ι α))) : Pool ι α where
  waiting := files
  budget := { limit := some (.int limit) }

/-- The offers that have not been settled. -/
def pending (p : Pool ι α) : List (Offer ι α) :=
  p.active.flatMap Job.offers ++ p.waiting.flatten

/-- **What every step preserves.**  The budget has counted what has been admitted, within its limit;
no offer gets lost, and of each the first findings are admitted; a cut or a detector left out means
that the limit has been reached, and without either everything has been admitted. -/
structure Invariant (limit : Nat) (offers : List (Offer ι α)) (p : Pool ι α) : Prop where
  limit_eq : p.budget.limit = some (.int limit)
  count_eq : p.budget.count = p.admitted.length
  count_le : p.budget.count ≤ limit
  conserved : (p.settled.map Settlement.offer ++ p.pending).Perm offers
  prefixes : ∀ s ∈ p.settled, s.admitted.getD [] <+: s.offer.findings
  spent : p.budget.truncated = true → p.budget.count = limit
  leaving : ∀ o rest, .leaving o rest ∈ p.active → p.budget.count = limit
  complete : p.budget.truncated = false →
    ∀ s ∈ p.settled, s.admitted = some s.offer.findings

theorem invariant_ofFiles (limit : Nat) (files : List (List (Offer ι α))) :
    Invariant limit files.flatten (ofFiles limit files) where
  limit_eq := rfl
  count_eq := rfl
  count_le := Nat.zero_le _
  conserved := by simp [ofFiles, pending]
  prefixes := by simp [ofFiles]
  spent := by simp [ofFiles]
  leaving := by simp [ofFiles]
  complete := by simp [ofFiles]

/-- Settling an offer takes it from those that are pending. -/
theorem settle_perm (settled : List (Settlement ι α)) (before after : List (Job ι α))
    (waiting : List (List (Offer ι α))) (o : Offer ι α) (rest : List (Offer ι α))
    (admitted : Option (List α)) {j : Job ι α} (hj : j.offers = o :: rest) :
    ((settled ++ [Settlement.mk o admitted]).map Settlement.offer ++
        ((before ++ .asking rest :: after).flatMap Job.offers ++ waiting.flatten)).Perm
      (settled.map Settlement.offer ++
        ((before ++ j :: after).flatMap Job.offers ++ waiting.flatten)) := by
  simp only [List.map_append, List.map_cons, List.map_nil, List.flatMap_append,
    List.flatMap_cons, List.append_assoc, List.cons_append, List.nil_append, hj]
  exact (List.perm_middle.symm).append_left _

/-- Taking the next file keeps the invariant. -/
theorem Invariant.start {limit : Nat} {all : List (Offer ι α)} {p : Pool ι α}
    {offers : List (Offer ι α)} {waiting : List (List (Offer ι α))}
    (hi : Invariant limit all p) (next : p.waiting = offers :: waiting) :
    Invariant limit all { p with waiting, active := p.active ++ [.asking offers] } where
  limit_eq := hi.limit_eq
  count_eq := hi.count_eq
  count_le := hi.count_le
  conserved := by
    have h := hi.conserved
    simp only [pending, next, List.flatten_cons] at h
    simpa [pending, Job.offers] using h
  prefixes := hi.prefixes
  spent := hi.spent
  leaving := by
    intro o rest hj
    rcases List.mem_append.mp hj with hj | hj
    · exact hi.leaving o rest hj
    · cases List.mem_singleton.mp hj
  complete := hi.complete

/-- Asking whether the budget is exhausted keeps the invariant: who sees it exhausted sees that the
limit has been reached. -/
theorem Invariant.ask {limit : Nat} {all : List (Offer ι α)} {p : Pool ι α}
    {before after : List (Job ι α)} {o : Offer ι α} {rest : List (Offer ι α)}
    (hi : Invariant limit all p) (on : p.active = before ++ .asking (o :: rest) :: after) :
    Invariant limit all { p with
      active := before ++
        (if p.budget.isExhausted then .leaving o rest else .offering o rest) :: after } where
  limit_eq := hi.limit_eq
  count_eq := hi.count_eq
  count_le := hi.count_le
  conserved := by
    have hjob : (if p.budget.isExhausted then Job.leaving o rest
        else .offering o rest).offers = o :: rest := by
      split <;> rfl
    have h := hi.conserved
    simp only [pending, on, List.flatMap_append, List.flatMap_cons] at h ⊢
    rwa [hjob]
  prefixes := hi.prefixes
  spent := hi.spent
  leaving := by
    intro o' rest' hj
    by_cases hx : p.budget.isExhausted = true
    · exact Nat.le_antisymm hi.count_le ((Budget.isExhausted_iff hi.limit_eq).mp hx)
    · simp only [hx, Bool.false_eq_true, if_false] at hj
      refine hi.leaving o' rest' ?_
      rw [on]
      simpa using hj
  complete := hi.complete

/-- What is admitted of one more offer comes after what has been admitted. -/
theorem admitted_settle (settled : List (Settlement ι α)) (s : Settlement ι α) :
    (settled ++ [s]).flatMap (fun s => s.admitted.getD []) =
      settled.flatMap (fun s => s.admitted.getD []) ++ s.admitted.getD [] := by
  simp

/-- Offering what a detector has found keeps the invariant. -/
theorem Invariant.offer {limit : Nat} {all : List (Offer ι α)} {p : Pool ι α}
    {before after : List (Job ι α)} {o : Offer ι α} {rest : List (Offer ι α)}
    {admitted : List α} {budget : Budget}
    (hi : Invariant limit all p)
    (on : p.active = before ++ .offering o rest :: after)
    (accepted : p.budget.accept o.findings = .ok (admitted, budget)) :
    Invariant limit all { p with
      active := before ++ .asking rest :: after
      budget
      settled := p.settled ++ [⟨o, some admitted⟩] } := by
  rw [Budget.accept_eq hi.limit_eq] at accepted
  simp only [Except.ok.injEq, Prod.mk.injEq] at accepted
  obtain ⟨rfl, rfl⟩ := accepted
  -- A cut, in this step or an earlier one, means that there is no room left.
  have hroom : p.budget.truncated = true ∨
      (o.findings.take (limit - p.budget.count)).length < o.findings.length →
      p.budget.count + (o.findings.take (limit - p.budget.count)).length = limit := by
    have hle := hi.count_le
    rintro (h | h)
    · have := hi.spent h
      simp [this]
    · simp only [List.length_take] at h ⊢
      omega
  have hmore : limit = p.budget.count →
      p.budget.count + (o.findings.take (limit - p.budget.count)).length = limit := by
    intro h
    simp [h]
  exact {
    limit_eq := hi.limit_eq
    count_eq := by
      simp only [Pool.admitted, admitted_settle, List.length_append, hi.count_eq]
      rfl
    count_le := by
      have hle := hi.count_le
      simp only [List.length_take]
      omega
    conserved := by
      refine (settle_perm p.settled before after p.waiting o rest _
        (j := .offering o rest) rfl).trans ?_
      have h := hi.conserved
      rwa [pending, on] at h
    prefixes := List.forall_mem_append.mpr
      ⟨hi.prefixes, List.forall_mem_singleton.mpr (List.take_prefix _ _)⟩
    spent := fun h => hroom (by simpa using h)
    leaving := by
      intro o' rest' hj
      refine hmore (hi.leaving o' rest' ?_).symm
      rw [on]
      simpa using hj
    complete := by
      intro h
      obtain ⟨hbefore, hall⟩ : p.budget.truncated = false ∧
          ¬ (o.findings.take (limit - p.budget.count)).length < o.findings.length := by
        simpa using h
      refine List.forall_mem_append.mpr
        ⟨hi.complete hbefore, List.forall_mem_singleton.mpr ?_⟩
      rw [List.length_take] at hall
      exact congrArg some (List.take_of_length_le (by omega)) }

/-- Noting that a detector is left out keeps the invariant: the worker has seen that the limit was
reached. -/
theorem Invariant.leave {limit : Nat} {all : List (Offer ι α)} {p : Pool ι α}
    {before after : List (Job ι α)} {o : Offer ι α} {rest : List (Offer ι α)}
    (hi : Invariant limit all p)
    (on : p.active = before ++ .leaving o rest :: after) :
    Invariant limit all { p with
      active := before ++ .asking rest :: after
      budget := p.budget.noteSkip
      settled := p.settled ++ [⟨o, none⟩] } where
  limit_eq := hi.limit_eq
  count_eq := by
    simp only [Pool.admitted, admitted_settle, Budget.noteSkip_count, hi.count_eq]
    simp
  count_le := hi.count_le
  conserved := by
    refine (settle_perm p.settled before after p.waiting o rest _
      (j := .leaving o rest) rfl).trans ?_
    have h := hi.conserved
    rwa [pending, on] at h
  prefixes := List.forall_mem_append.mpr
    ⟨hi.prefixes, List.forall_mem_singleton.mpr List.nil_prefix⟩
  spent := fun _ => hi.leaving o rest (by simp [on])
  leaving := fun _ _ _ => hi.leaving o rest (by simp [on])
  complete := by
    intro h
    cases h

/-- Being done with a file keeps the invariant. -/
theorem Invariant.finish {limit : Nat} {all : List (Offer ι α)} {p : Pool ι α}
    {before after : List (Job ι α)} (hi : Invariant limit all p)
    (on : p.active = before ++ .asking [] :: after) :
    Invariant limit all { p with active := before ++ after } where
  limit_eq := hi.limit_eq
  count_eq := hi.count_eq
  count_le := hi.count_le
  conserved := by
    have h := hi.conserved
    simp only [pending, on] at h
    simpa [pending, Job.offers] using h
  prefixes := hi.prefixes
  spent := hi.spent
  leaving := by
    intro o rest hj
    refine hi.leaving o rest ?_
    rw [on]
    simpa using hj
  complete := hi.complete

/-- Every step keeps the invariant. -/
theorem Invariant.step {workers limit : Nat} {all : List (Offer ι α)} {p q : Pool ι α}
    (hi : Invariant limit all p) (hstep : Step workers p q) : Invariant limit all q := by
  cases hstep with
  | start next free => exact hi.start next
  | ask _ on => exact hi.ask on
  | offer _ on accepted => exact hi.offer on accepted
  | leave _ on => exact hi.leave on
  | finish _ on => exact hi.finish on

/-- The invariant holds however far the workers have come. -/
theorem invariant_of_run {workers limit : Nat} {files : List (List (Offer ι α))} {p : Pool ι α}
    (hrun : Relation.ReflTransGen (Step workers) (ofFiles limit files) p) :
    Invariant limit files.flatten p := by
  induction hrun with
  | refl => exact invariant_ofFiles limit files
  | tail _ hstep ih => exact ih.step hstep

/-- Of offers that have been settled by prefixes, at most all findings are admitted. -/
theorem admitted_length_le {settled : List (Settlement ι α)}
    (h : ∀ s ∈ settled, s.admitted.getD [] <+: s.offer.findings) :
    (settled.flatMap fun s => s.admitted.getD []).length ≤
      ((settled.map Settlement.offer).flatMap Offer.findings).length := by
  induction settled with
  | nil => simp
  | cons s rest ih =>
      have hs := (h s List.mem_cons_self).length_le
      have hrest := ih fun t ht => h t (List.mem_cons_of_mem _ ht)
      simp only [List.flatMap_cons, List.map_cons, List.length_append]
      omega

/-! ## Every run comes to an end -/

/-- The steps that a worker still has to take on its file. -/
def Job.remaining : Job ι α → Nat
  | .asking offers => 2 * offers.length + 1
  | .offering _ rest | .leaving _ rest => 2 * rest.length + 2

/-- The steps that are still to be taken. -/
def remaining (p : Pool ι α) : Nat :=
  (p.waiting.map fun offers => 2 * offers.length + 2).sum + (p.active.map Job.remaining).sum

/-- With every step there is one step less to be taken, whichever worker takes it. -/
theorem Step.remaining_eq {workers : Nat} {p q : Pool ι α} (hstep : Step workers p q) :
    p.remaining = q.remaining + 1 := by
  cases hstep with
  | start next free =>
      simp only [remaining, next, List.map_cons, List.sum_cons, List.map_append, List.map_nil,
        List.sum_append, List.sum_nil, Job.remaining]
      omega
  | ask _ on =>
      simp only [remaining, on, List.map_append, List.map_cons, List.sum_append, List.sum_cons]
      split <;> simp only [Job.remaining, List.length_cons] <;> omega
  | offer _ on accepted =>
      simp only [remaining, on, List.map_append, List.map_cons, List.sum_append, List.sum_cons,
        Job.remaining]
      omega
  | leave _ on =>
      simp only [remaining, on, List.map_append, List.map_cons, List.sum_append, List.sum_cons,
        Job.remaining]
      omega
  | finish _ on =>
      simp only [remaining, on, List.map_append, List.map_cons, List.sum_append, List.sum_cons,
        Job.remaining, List.length_nil]
      omega

/-- While a file is left, some worker can take a step. -/
theorem exists_step {workers limit : Nat} {all : List (Offer ι α)} {p : Pool ι α}
    (hworkers : 0 < workers) (hi : Invariant limit all p) (hopen : p.isDone = false) :
    ∃ q, Step workers p q := by
  cases hactive : p.active with
  | nil =>
      cases hwaiting : p.waiting with
      | nil => simp [isDone, hactive, hwaiting] at hopen
      | cons offers waiting => exact ⟨_, .start hwaiting (by simpa [hactive] using hworkers)⟩
  | cons j after =>
      cases j with
      | asking offers =>
          cases offers with
          | nil => exact ⟨_, .finish [] hactive⟩
          | cons o rest => exact ⟨_, .ask [] hactive⟩
      | offering o rest =>
          exact ⟨_, .offer [] hactive (Budget.accept_eq hi.limit_eq o.findings)⟩
      | leaving o rest => exact ⟨_, .leave [] hactive⟩

/-- However far the workers have come, they can go on until no file is left. -/
theorem exists_done {workers limit : Nat} {all : List (Offer ι α)} {p : Pool ι α}
    (hworkers : 0 < workers) (hi : Invariant limit all p) :
    ∃ q, Relation.ReflTransGen (Step workers) p q ∧ q.isDone = true := by
  induction hn : p.remaining generalizing p with
  | zero =>
      cases hdone : p.isDone with
      | true => exact ⟨p, .refl, hdone⟩
      | false =>
          obtain ⟨q, hstep⟩ := exists_step hworkers hi hdone
          have := hstep.remaining_eq
          omega
  | succ n ih =>
      cases hdone : p.isDone with
      | true => exact ⟨p, .refl, hdone⟩
      | false =>
          obtain ⟨q, hstep⟩ := exists_step hworkers hi hdone
          have hq := hstep.remaining_eq
          obtain ⟨r, hrun, hr⟩ := ih (hi.step hstep) (by omega)
          exact ⟨r, hrun.head hstep, hr⟩

/-! ## What the limit allows -/

/-- **Every order of steps admits as much as the limit allows.**  When no file is left, as many
findings have been admitted as there are, or as the limit allows; of every offer the first findings
have been admitted.  If nothing has been noted, every detector has been run on every file and all
that it found has been admitted; otherwise the limit has been reached. -/
theorem run_admits {workers limit : Nat} {files : List (List (Offer ι α))} {p : Pool ι α}
    (hrun : Relation.ReflTransGen (Step workers) (ofFiles limit files) p)
    (hdone : p.isDone = true) :
    p.admitted.length = min limit (files.flatten.flatMap Offer.findings).length ∧
    (∀ s ∈ p.settled, s.admitted.getD [] <+: s.offer.findings) ∧
    (p.budget.truncated = false →
      p.settled.Perm (files.flatten.map fun o => ⟨o, some o.findings⟩)) ∧
    (p.budget.truncated = true → p.admitted.length = limit) := by
  have hi := invariant_of_run hrun
  have hsettled : (p.settled.map Settlement.offer).Perm files.flatten := by
    have h := hi.conserved
    simp only [isDone, Bool.and_eq_true, List.isEmpty_iff] at hdone
    simpa [pending, hdone.1, hdone.2] using h
  have htotal : p.admitted.length ≤ (files.flatten.flatMap Offer.findings).length := by
    rw [← (hsettled.flatMap_right Offer.findings).length_eq]
    exact admitted_length_le hi.prefixes
  have hcomplete : p.budget.truncated = false →
      p.settled.Perm (files.flatten.map fun o => ⟨o, some o.findings⟩) := by
    intro h
    have hall : p.settled =
        (p.settled.map Settlement.offer).map fun o => ⟨o, some o.findings⟩ := by
      rw [List.map_map]
      refine (List.map_id _).symm.trans (List.map_congr_left fun s hs => ?_)
      obtain ⟨o, got⟩ := s
      simpa using hi.complete h _ hs
    rw [hall]
    exact hsettled.map _
  have hspent : p.budget.truncated = true → p.admitted.length = limit := by
    intro h
    rw [← hi.count_eq]
    exact hi.spent h
  refine ⟨?_, hi.prefixes, hcomplete, hspent⟩
  cases h : p.budget.truncated with
  | true =>
      have := hspent h
      omega
  | false =>
      have hlen : p.admitted.length = (files.flatten.flatMap Offer.findings).length := by
        rw [admitted, ((hcomplete h).flatMap_right _).length_eq, List.flatMap_map]
        rfl
      have := hi.count_le
      have := hi.count_eq
      omega

/-- Two workers ask while the budget still has room for one finding, and both offer one: the second
offer is cut. -/
theorem run_admits_race :
    let a : Offer String Nat := ⟨"a", [1]⟩
    let b : Offer String Nat := ⟨"b", [2]⟩
    ∃ p : Pool String Nat,
      Relation.ReflTransGen (Step 2) (ofFiles 1 [[a], [b]]) p ∧ p.isDone = true ∧
      p.admitted.length = 1 ∧ p.budget.truncated = true := by
  intro a b
  let p : Pool String Nat :=
    { waiting := []
      active := []
      budget := { limit := some (.int 1), count := 1, truncated := true }
      settled := [⟨b, some [2]⟩, ⟨a, some []⟩] }
  have hrun : Relation.ReflTransGen (Step 2) (ofFiles 1 [[a], [b]]) p :=
    (((((((Relation.ReflTransGen.single (.start rfl (by decide))).tail
      (.start rfl (by decide))).tail
      (.ask [] rfl)).tail
      (.ask [.offering a []] rfl)).tail
      (.offer [.offering a []] rfl rfl)).tail
      (.offer [] rfl rfl)).tail
      (.finish [] rfl)).tail
      (.finish [] rfl)
  have h := run_admits hrun rfl
  exact ⟨p, hrun, rfl, h.1, rfl⟩

end SecurityAudit.Pool

namespace SecurityAudit.Audit

/-- What a detector of an audit finds in a file when it is run on it. -/
def offerOf (a : Audit) (f : SourceFile) (d : FileDetector) :
    Except Refusal (Offer (SourceFile × FileDetector) Finding) := do
  let found ← Found.sift (coveringsOf f) (← d.run a.now f)
  return ⟨(f, d), found.findings⟩

/-- Letting a detector have its turn is one question and one offer or note of a worker. -/
theorem detect_reaches {a : Audit} {f : SourceFile} {d : FileDetector} {b b' : Budget}
    {found found' : Found} {o : Offer (SourceFile × FileDetector) Finding}
    (hoffer : a.offerOf f d = .ok o)
    (hdetect : a.detect f (coveringsOf f) (found, b) d = .ok (found', b'))
    {workers : Nat} {p : Pool (SourceFile × FileDetector) Finding}
    {before after : List (Job (SourceFile × FileDetector) Finding)}
    {rest : List (Offer (SourceFile × FileDetector) Finding)}
    (on : p.active = before ++ .asking (o :: rest) :: after) (hb : p.budget = b) :
    ∃ s : Settlement (SourceFile × FileDetector) Finding,
      s.offer = o ∧ found'.findings = found.findings ++ s.admitted.getD [] ∧
      Relation.ReflTransGen (Pool.Step workers) p { p with
        active := before ++ .asking rest :: after
        budget := b'
        settled := p.settled ++ [s] } := by
  subst hb
  have hask : Pool.Step workers p _ := .ask before on
  simp only [detect] at hdetect
  cases hx : p.budget.isExhausted with
  | true =>
      simp only [hx, if_true, pure_eq_ok_iff, Prod.mk.injEq] at hdetect hask
      obtain ⟨rfl, rfl⟩ := hdetect
      refine ⟨⟨o, none⟩, rfl, by simp, ?_⟩
      exact (Relation.ReflTransGen.single hask).tail (.leave before rfl)
  | false =>
      simp only [offerOf, bind_eq_ok_iff, pure_eq_ok_iff] at hoffer
      obtain ⟨fs, hfs, more, hmore, rfl⟩ := hoffer
      simp only [hx, Bool.false_eq_true, if_false, bind_eq_ok_iff, hfs, Except.ok.injEq,
        exists_eq_left', hmore, pure_eq_ok_iff, Prod.mk.injEq] at hdetect hask
      obtain ⟨⟨admitted, budget⟩, haccept, rfl, rfl⟩ := hdetect
      refine ⟨⟨⟨(f, d), more.findings⟩, some admitted⟩, rfl, rfl, ?_⟩
      exact (Relation.ReflTransGen.single hask).tail (.offer before rfl haccept)

/-- Letting several detectors have their turns is a run of one worker. -/
theorem detectAll_reaches {a : Audit} {f : SourceFile} {workers : Nat}
    {before after : List (Job (SourceFile × FileDetector) Finding)} {found' : Found}
    {b' : Budget} {ds : List FileDetector}
    {offers : List (Offer (SourceFile × FileDetector) Finding)}
    (hoffers : ds.mapM (a.offerOf f) = .ok offers) {found : Found} {b : Budget}
    (hscan : ds.foldlM (a.detect f (coveringsOf f)) (found, b) = .ok (found', b'))
    {p : Pool (SourceFile × FileDetector) Finding}
    (on : p.active = before ++ .asking offers :: after) (hb : p.budget = b) :
    ∃ settled : List (Settlement (SourceFile × FileDetector) Finding),
      settled.map Settlement.offer = offers ∧
      found'.findings = found.findings ++ settled.flatMap (fun s => s.admitted.getD []) ∧
      Relation.ReflTransGen (Pool.Step workers) p { p with
        active := before ++ .asking [] :: after
        budget := b'
        settled := p.settled ++ settled } := by
  induction ds generalizing offers found b p with
  | nil =>
      simp only [List.mapM_nil, pure_eq_ok_iff, List.foldlM_nil, Prod.mk.injEq] at hoffers hscan
      obtain ⟨rfl, rfl⟩ := hscan
      subst hoffers
      refine ⟨[], rfl, by simp, ?_⟩
      rw [List.append_nil, ← on, ← hb]
  | cons d ds ih =>
      simp only [List.mapM_cons, List.foldlM_cons, bind_eq_ok_iff, pure_eq_ok_iff]
        at hoffers hscan
      obtain ⟨o, ho, rest, hrest, rfl⟩ := hoffers
      obtain ⟨⟨middle, budget⟩, hfirst, hothers⟩ := hscan
      obtain ⟨s, hs, hmiddle, hrun⟩ := detect_reaches ho hfirst on hb
      obtain ⟨settled, hsettled, hfound, hruns⟩ := ih hrest hothers
        (p := { p with
          active := before ++ .asking rest :: after
          budget
          settled := p.settled ++ [s] }) rfl rfl
      refine ⟨s :: settled, by simp [hs, hsettled], ?_, ?_⟩
      · rw [hfound, hmiddle, List.flatMap_cons, List.append_assoc]
      · have h := hrun.trans hruns
        simpa using h

/-- **Scanning a file is a run of one worker.**  From wherever the other workers are, a worker that
is not interrupted takes the budget to where scanning the file does, and what is admitted of its
offers is what scanning the file finds. -/
theorem scanSource_reaches {a : Audit} {f : SourceFile} {b b' : Budget} {found : Found}
    {offers : List (Offer (SourceFile × FileDetector) Finding)}
    (hoffers : a.detectors.mapM (a.offerOf f) = .ok offers)
    (hscan : a.scanSource b f = .ok (found, b'))
    {workers : Nat} {p : Pool (SourceFile × FileDetector) Finding}
    {before after : List (Job (SourceFile × FileDetector) Finding)}
    (on : p.active = before ++ .asking offers :: after) (hb : p.budget = b) :
    ∃ settled : List (Settlement (SourceFile × FileDetector) Finding),
      settled.map Settlement.offer = offers ∧
      found.findings = settled.flatMap (fun s => s.admitted.getD []) ∧
      Relation.ReflTransGen (Pool.Step workers) p { p with
        active := before ++ .asking [] :: after
        budget := b'
        settled := p.settled ++ settled } :=
  detectAll_reaches hoffers hscan on hb

end SecurityAudit.Audit
