import SecurityAudit.Iam.Review
import SecurityAudit.Proofs.Acceptance

/-!
# What a review finds

A policy can be looked at when the dangerous actions that a review looks for are texts and it can be
told how long ago the policy was used (`CanExamine`).  What there is to remark is known in advance:
the remarks about each permission in turn (`remarksOf`), and one about the age of the policy if that
is too great.  A remark becomes a finding when the location of the policy can be encoded, for the id
of the finding is made of it; so a policy can be reviewed when that holds as well (`CanReview`), and
then the review finds what there is to remark (`exists_run_eq`).

A finding has the number of its permission for a line, so the findings at a line are the remarks
about one permission.
-/

namespace SecurityAudit.Iam.Review

variable {r : Review} {policy : Policy} {p : Permission} {fs : List Finding} {x : Finding} {i : Nat}

/-- A policy can be looked at: the dangerous actions are texts, and there is a length of time from
the last use of the policy to now. -/
structure CanExamine (r : Review) (policy : Policy) : Prop where
  texts : ∀ v ∈ r.dangerous, v.IsText
  elapsed : ∀ m, policy.lastUsed = some m → (r.now.since? m).isSome = true

/-- A policy can be reviewed: it can be looked at, and its location can be encoded. -/
structure CanReview (r : Review) (policy : Policy) : Prop extends CanExamine r policy where
  located : policy.location.isSound = true

/-- The finding of a remark about a policy whose location can be encoded. -/
def findingOf (r : Review) (policy : Policy) (line : Nat) (m : Remark) : Finding :=
  let file := policy.location.readable
  r.findingAs (Finding.idText m.ruleId file (toString (line : Int))) file line m

/-- There is a finding when the location of the policy can be encoded. -/
theorem finding_eq (line : Nat) (m : Remark) :
    r.finding policy line m =
      if policy.location.isSound then .ok (r.findingOf policy line m)
      else .error .unencodable := by
  cases hlocation : policy.location <;>
    simp [finding, findingOf, Finding.idOf, hlocation, bind, Except.bind, pure, Except.pure]

/-- The findings of remarks at one line. -/
theorem mapM_finding_eq (line : Nat) (ms : List Remark) :
    ms.mapM (r.finding policy line) =
      if ms = [] ∨ policy.location.isSound = true then .ok (ms.map (r.findingOf policy line))
      else .error .unencodable := by
  cases ms with
  | nil => rfl
  | cons m ms =>
      cases hlocation : policy.location.isSound with
      | true =>
          rw [if_pos (.inr rfl)]
          exact mapM_eq_ok_iff.mpr (List.forall₂_map_right_iff.mpr
            (List.forall₂_same.mpr fun m _ => by rw [finding_eq, hlocation, if_pos rfl]))
      | false =>
          rw [if_neg (by simp), List.mapM_cons, finding_eq, hlocation]
          rfl

/-- The dangerous actions that are texts and that a permission covers. -/
def covered (r : Review) (p : Permission) : List String :=
  (r.dangerous.filterMap Value.text?).filter (actionMatches p.action)

/-- The remarks about a permission, if all dangerous actions are texts. -/
def remarksOf (r : Review) (policy : Policy) (p : Permission) : List Remark :=
  if p.allows then
    (if '*' ∈ p.action.toList then [wildcardAction policy p] else []) ++
      (if Text.trim p.resource = "*" then [wildcardResource policy p] else []) ++
      (if p.hasCondition = false ∧ r.covered p ≠ [] then
        [unconditioned policy p (r.covered p)] else [])
  else []

/-- A covered action is a dangerous one that the permission covers. -/
theorem mem_covered_iff {action : String} :
    action ∈ r.covered p ↔ .text action ∈ r.dangerous ∧ actionMatches p.action action = true := by
  have htext : ∀ v : Value, v.text? = some action ↔ v = .text action := fun v => by
    cases v <;> simp [Value.text?]
  simp [covered, htext]

theorem covered_ne_nil_iff :
    r.covered p ≠ [] ↔ ∃ a, .text a ∈ r.dangerous ∧ actionMatches p.action a = true := by
  rw [ne_eq, List.eq_nil_iff_forall_not_mem]
  simp only [mem_covered_iff, not_forall, not_not]

/-- The remarks about a permission, one by one. -/
theorem mem_remarksOf_iff {m : Remark} :
    m ∈ r.remarksOf policy p ↔ p.allows = true ∧
      (('*' ∈ p.action.toList ∧ m = wildcardAction policy p) ∨
        (Text.trim p.resource = "*" ∧ m = wildcardResource policy p) ∨
        (p.hasCondition = false ∧ r.covered p ≠ []) ∧
          m = unconditioned policy p (r.covered p)) := by
  rw [remarksOf]
  split
  · rename_i hallows
    simp only [List.mem_append, List.mem_ite_nil_right, List.mem_singleton, hallows, true_and,
      or_assoc]
  · rename_i hallows
    simp [hallows]

theorem dangerousMatches_eq (h : ∀ v ∈ r.dangerous, v.IsText) :
    r.dangerousMatches p = .ok (r.covered p) := by
  obtain ⟨texts, htexts⟩ := Value.exists_map_text h
  have htake : r.dangerous.filterMap Value.text? = texts := by
    rw [htexts, List.filterMap_map]
    exact List.filterMap_some
  rw [dangerousMatches, bind_eq_ok_iff]
  refine ⟨texts, mapM_eq_ok_iff.mpr ?_, ?_⟩
  · rw [htexts, List.forall₂_map_left_iff, List.forall₂_same]
    exact fun a _ => rfl
  · rw [covered, htake]
    rfl

theorem remarks_eq (h : ∀ v ∈ r.dangerous, v.IsText) :
    r.remarks policy p = .ok (r.remarksOf policy p) := by
  rw [remarks, remarksOf]
  cases hallows : p.allows with
  | false => rfl
  | true =>
      cases hcondition : p.hasCondition with
      | true => simp [pure, Except.pure]
      | false =>
          rw [dangerousMatches_eq h]
          simp [pure, Except.pure, bind, Except.bind]

/-- What is found at a line is made of the remarks there. -/
theorem eq_of_mapM_finding {line : Nat} {ms : List Remark}
    (h : ms.mapM (r.finding policy line) = .ok fs) : ms.map (r.findingOf policy line) = fs := by
  rw [mapM_finding_eq] at h
  split at h
  · exact Except.ok.inj h
  · cases h

/-- Whoever is found at a line is the finding of a remark there, about a policy whose location can
be encoded. -/
theorem exists_remark_of_mapM_finding {line : Nat} {ms : List Remark}
    (h : ms.mapM (r.finding policy line) = .ok fs) (hx : x ∈ fs) :
    policy.location.isSound = true ∧ ∃ m ∈ ms, r.findingOf policy line m = x := by
  obtain ⟨m, hm, hfinding⟩ := exists_of_mem_mapM h hx
  rw [finding_eq] at hfinding
  split at hfinding
  · rename_i hlocated
    exact ⟨hlocated, m, hm, Except.ok.inj hfinding⟩
  · cases hfinding

/-- Of a policy that can be looked at it can be told whether there is something to remark about its
age. -/
theorem exists_ageRemark?_eq (h : r.CanExamine policy) : ∃ old, r.ageRemark? policy = .ok old := by
  rw [ageRemark?]
  cases hused : policy.lastUsed with
  | none => exact ⟨_, rfl⟩
  | some m =>
      obtain ⟨age, hage⟩ := Option.isSome_iff_exists.mp (h.elapsed m hused)
      simp only [hage]
      exact ⟨_, rfl⟩

/-- **What a review finds.**  The findings about a policy that can be reviewed are the remarks about
its permissions and possibly one about its age. -/
theorem exists_run_eq (h : r.CanReview policy) :
    ∃ old, r.ageRemark? policy = .ok old ∧
      r.run policy = .ok ((policy.permissions.zipIdx.map fun (p, i) =>
        (r.remarksOf policy p).map (r.findingOf policy (i + 1))).flatten ++
          old.toList.map (r.findingOf policy 0)) := by
  obtain ⟨old, hold⟩ := exists_ageRemark?_eq h.toCanExamine
  refine ⟨old, hold, ?_⟩
  have hfindings : ∀ (line : Nat) (ms : List Remark),
      ms.mapM (r.finding policy line) = .ok (ms.map (r.findingOf policy line)) := by
    intro line ms
    rw [mapM_finding_eq, if_pos (.inr h.located)]
  have hfound : policy.permissions.zipIdx.mapM (fun (p, i) => do
      (← r.remarks policy p).mapM (r.finding policy (i + 1))) =
        .ok (policy.permissions.zipIdx.map fun (p, i) =>
          (r.remarksOf policy p).map (r.findingOf policy (i + 1))) := by
    rw [mapM_eq_ok_iff, List.forall₂_map_right_iff, List.forall₂_same]
    exact fun (p, i) _ => bind_eq_ok_iff.mpr ⟨_, remarks_eq h.texts, hfindings _ _⟩
  rw [run, hfound, hold]
  simp [hfindings, bind, Except.bind, pure, Except.pure]

/-- The findings at the number of a permission are the remarks about it. -/
theorem mem_run_at_iff (h : r.CanReview policy) (hrun : r.run policy = .ok fs)
    (hp : policy.permissions[i]? = some p) :
    x ∈ fs ∧ x.line = i + 1 ↔ ∃ m ∈ r.remarksOf policy p, x = r.findingOf policy (i + 1) m := by
  obtain ⟨old, -, heq⟩ := exists_run_eq h
  obtain rfl := Except.ok.inj (heq.symm.trans hrun)
  have hline : ∀ (n : Nat) m, (r.findingOf policy n m).line = n := fun _ _ => rfl
  simp only [List.mem_append, List.mem_flatten, List.mem_map, Prod.exists]
  constructor
  · rintro ⟨⟨_, ⟨q, k, hq, rfl⟩, hx⟩ | ⟨m, -, rfl⟩, hx'⟩
    · obtain ⟨m, hm, rfl⟩ := List.mem_map.mp hx
      rw [hline] at hx'
      obtain rfl : k = i := by omega
      rw [List.mk_mem_zipIdx_iff_getElem?, hp, Option.some.injEq] at hq
      subst hq
      exact ⟨m, hm, rfl⟩
    · rw [hline] at hx'
      omega
  · rintro ⟨m, hm, rfl⟩
    refine ⟨.inl ⟨_, ⟨p, i, ?_, rfl⟩, List.mem_map_of_mem hm⟩, rfl⟩
    rwa [List.mk_mem_zipIdx_iff_getElem?]

/-- There is a finding about the action of a permission when the permission allows it and there is a
star in it, and it is the one that is made of the remark about that. -/
theorem exists_wildcardAction_iff {Q : Finding → Prop} (h : r.CanReview policy)
    (hrun : r.run policy = .ok fs) (hp : policy.permissions[i]? = some p) :
    (∃ x ∈ fs, x.line = i + 1 ∧ x.ruleId = .text "IAM_WILDCARD_ACTION" ∧ Q x) ↔
      p.allows = true ∧ '*' ∈ p.action.toList ∧
        Q (r.findingOf policy (i + 1) (wildcardAction policy p)) := by
  constructor
  · rintro ⟨x, hx, hline, hrule, hQ⟩
    obtain ⟨m, hm, rfl⟩ := (mem_run_at_iff h hrun hp).mp ⟨hx, hline⟩
    obtain ⟨hallows, ⟨hstar, rfl⟩ | ⟨-, rfl⟩ | ⟨-, rfl⟩⟩ := mem_remarksOf_iff.mp hm
    · exact ⟨hallows, hstar, hQ⟩
    · simp [findingOf, findingAs, wildcardResource] at hrule
    · simp [findingOf, findingAs, unconditioned] at hrule
  · rintro ⟨hallows, hstar, hQ⟩
    have hm : wildcardAction policy p ∈ r.remarksOf policy p :=
      mem_remarksOf_iff.mpr ⟨hallows, .inl ⟨hstar, rfl⟩⟩
    obtain ⟨hx, hline⟩ := (mem_run_at_iff h hrun hp).mpr ⟨_, hm, rfl⟩
    exact ⟨_, hx, hline, rfl, hQ⟩

/-- There is a finding about dangerous actions of a permission when the permission allows some
without a condition. -/
theorem exists_unconditioned_iff (h : r.CanReview policy) (hrun : r.run policy = .ok fs)
    (hp : policy.permissions[i]? = some p) :
    (∃ x ∈ fs, x.line = i + 1 ∧ x.ruleId = .text "IAM_DANGEROUS_ACTION_UNCONDITIONED") ↔
      p.allows = true ∧ p.hasCondition = false ∧ r.covered p ≠ [] := by
  constructor
  · rintro ⟨x, hx, hline, hrule⟩
    obtain ⟨m, hm, rfl⟩ := (mem_run_at_iff h hrun hp).mp ⟨hx, hline⟩
    obtain ⟨hallows, ⟨-, rfl⟩ | ⟨-, rfl⟩ | ⟨hdanger, rfl⟩⟩ := mem_remarksOf_iff.mp hm
    · simp [findingOf, findingAs, wildcardAction] at hrule
    · simp [findingOf, findingAs, wildcardResource] at hrule
    · exact ⟨hallows, hdanger⟩
  · rintro ⟨hallows, hdanger⟩
    have hm : unconditioned policy p (r.covered p) ∈ r.remarksOf policy p :=
      mem_remarksOf_iff.mpr ⟨hallows, .inr (.inr ⟨hdanger, rfl⟩)⟩
    obtain ⟨hx, hline⟩ := (mem_run_at_iff h hrun hp).mpr ⟨_, hm, rfl⟩
    exact ⟨_, hx, hline, rfl⟩

end SecurityAudit.Iam.Review
