import SecurityAudit.Proofs.PolicyReview

/-!
# The findings about permissions

A review looks at one permission after another.  What it says about a permission depends on that
permission alone, and on the name of the policy; where the permission stands shows in the line of a
finding and in its id.  So each rule can be read off the permissions one by one, and the findings
about a policy whose permissions come in two parts are the findings about the parts, those about the
second one further down.

A review may be refused: a dangerous action may be no text, the policy may not be comparable in age,
or there is something to report about a policy whose location cannot be encoded (`exists_run_iff`).
Whatever a review finds, it finds for the reasons given here.
-/

namespace SecurityAudit

/-- A finding so many permissions further down in its policy.  Its id is that of its new place. -/
def Finding.shifted (n : Nat) (x : Finding) : Finding :=
  { x with
    line := x.line + n
    id := Finding.idText x.ruleId.shown x.file (toString (x.line + n)) }

namespace Iam.Review

variable {r : Review} {policy : Policy} {p : Permission} {ps : List Permission}
  {fs : List Finding} {x : Finding} {m : Remark}

@[simp]
theorem line_findingOf (n : Nat) : (r.findingOf policy n m).line = n := rfl

@[simp]
theorem ruleId_findingOf (n : Nat) : (r.findingOf policy n m).ruleId = .text m.ruleId := rfl

/-! ### What is found -/

/-- What a review does about a permission with so many before it. -/
def examine (r : Review) (policy : Policy) (place : Permission × Nat) :
    Except Refusal (List Finding) := do
  (← r.remarks policy place.1).mapM (r.finding policy (place.2 + 1))

/-- A review examines the permissions one after another, and then the age of the policy. -/
theorem run_eq (r : Review) (policy : Policy) :
    r.run policy = (do
      let found ← policy.permissions.zipIdx.mapM (r.examine policy)
      let old ← r.ageRemark? policy
      return found.flatten ++ (← old.toList.mapM (r.finding policy 0))) := rfl

/-- Dangerous actions that have been compared with a permission are texts. -/
theorem isText_of_dangerousMatches {actions : List String}
    (h : r.dangerousMatches p = .ok actions) : ∀ v ∈ r.dangerous, v.IsText := by
  intro v hv
  obtain ⟨texts, htexts, -⟩ := bind_eq_ok_iff.mp h
  obtain ⟨a, -, ha⟩ := exists_of_forall₂_of_mem (mapM_eq_ok_iff.mp htexts).flip hv
  cases htext : v.text? with
  | none => simp [htext] at ha
  | some t => exact ⟨t, Value.isText_of_text? htext⟩

/-- A permission that is remarked on is remarked on for the known reasons, even if there are
permissions that cannot be. -/
theorem eq_remarksOf_of_remarks {ms : List Remark} (h : r.remarks policy p = .ok ms) :
    r.remarksOf policy p = ms := by
  have hremarks := h
  rw [remarks] at h
  cases hallows : p.allows with
  | false =>
      rw [remarksOf, hallows]
      simpa [hallows, pure, Except.pure] using h
  | true =>
      cases hcondition : p.hasCondition with
      | true =>
          rw [remarksOf, hallows, hcondition]
          simpa [hallows, hcondition, pure, Except.pure] using h
      | false =>
          -- The dangerous actions have been looked at, so they are texts.
          simp only [hallows, hcondition] at h
          obtain ⟨actions, hactions, -⟩ := bind_eq_ok_iff.mp h
          have htexts := isText_of_dangerousMatches hactions
          exact Except.ok.inj ((remarks_eq htexts).symm.trans hremarks)

/-- What is found about a permission that is examined is made of the remarks about it. -/
theorem eq_of_examine {place : Permission × Nat} (h : r.examine policy place = .ok fs) :
    (r.remarksOf policy place.1).map (r.findingOf policy (place.2 + 1)) = fs := by
  obtain ⟨ms, hms, h⟩ := bind_eq_ok_iff.mp h
  rw [eq_remarksOf_of_remarks hms]
  exact eq_of_mapM_finding h

/-- The findings about permissions, the first of which has so many before it. -/
def findingsOn (r : Review) (policy : Policy) (n : Nat) (ps : List Permission) : List Finding :=
  (ps.zipIdx n).flatMap fun (p, i) => (r.remarksOf policy p).map (r.findingOf policy (i + 1))

theorem findingsOn_cons (n : Nat) :
    r.findingsOn policy n (p :: ps) =
      (r.remarksOf policy p).map (r.findingOf policy (n + 1)) ++ r.findingsOn policy (n + 1) ps :=
  rfl

/-- **What is found** is found about the permissions, and then possibly about the age of the
policy. -/
theorem exists_eq_of_run (h : r.run policy = .ok fs) :
    ∃ old, r.ageRemark? policy = .ok old ∧
      fs = r.findingsOn policy 0 policy.permissions ++ old.toList.map (r.findingOf policy 0) := by
  rw [run_eq, bind_eq_ok_iff] at h
  obtain ⟨found, hfound, h⟩ := h
  obtain ⟨old, hold, h⟩ := bind_eq_ok_iff.mp h
  obtain ⟨aged, haged, h⟩ := bind_eq_ok_iff.mp h
  obtain rfl := pure_eq_ok_iff.mp h
  refine ⟨old, hold, ?_⟩
  have heach : policy.permissions.zipIdx.map (fun place =>
      (r.remarksOf policy place.1).map (r.findingOf policy (place.2 + 1))) = found := by
    rw [← List.forall₂_eq_eq_eq, List.forall₂_map_left_iff]
    exact (mapM_eq_ok_iff.mp hfound).imp fun _ _ => eq_of_examine
  rw [← heach, eq_of_mapM_finding haged, findingsOn, List.flatMap_def]

/-- A finding about permissions is a remark about one of them, and has its number for a line. -/
theorem mem_findingsOn_iff :
    x ∈ r.findingsOn policy 0 ps ↔
      ∃ i p, ps[i]? = some p ∧ ∃ m ∈ r.remarksOf policy p, x = r.findingOf policy (i + 1) m := by
  simp only [findingsOn, List.mem_flatMap, List.mem_map, Prod.exists,
    List.mk_mem_zipIdx_iff_getElem?, eq_comm (a := x)]
  rw [exists_comm]

/-! ### When there is an answer -/

/-- There is something to report about a policy. -/
def HasGround (r : Review) (policy : Policy) : Prop :=
  (∃ p ∈ policy.permissions, r.remarksOf policy p ≠ []) ∨
    ∃ m, r.ageRemark? policy = .ok (some m)

/-- A permission can be remarked on if the dangerous actions are texts, or need not be looked at. -/
theorem exists_remarks_iff :
    (∃ ms, r.remarks policy p = .ok ms) ↔
      (p.allows = true → p.hasCondition = false → ∀ v ∈ r.dangerous, v.IsText) := by
  constructor
  · rintro ⟨ms, h⟩ hallows hcondition
    simp only [remarks, hallows, hcondition] at h
    obtain ⟨actions, hactions, -⟩ := bind_eq_ok_iff.mp h
    exact isText_of_dangerousMatches hactions
  · intro h
    cases hallows : p.allows with
    | false => exact ⟨[], by simp [remarks, hallows, pure, Except.pure]⟩
    | true =>
        cases hcondition : p.hasCondition with
        | true => exact ⟨_, by simp [remarks, hallows, hcondition, pure, Except.pure]; rfl⟩
        | false => exact ⟨_, remarks_eq (h hallows hcondition)⟩

/-- Remarks can be reported if there are none, or the location of the policy can be encoded. -/
theorem exists_mapM_finding_iff {line : Nat} {ms : List Remark} :
    (∃ fs, ms.mapM (r.finding policy line) = .ok fs) ↔
      ms = [] ∨ policy.location.isSound = true := by
  rw [mapM_finding_eq]
  split
  · simp_all
  · simp_all

/-- A permission can be examined when it can be remarked on and the remarks can be reported. -/
theorem exists_examine_iff {i : Nat} :
    (∃ fs, r.examine policy (p, i) = .ok fs) ↔
      (∃ ms, r.remarks policy p = .ok ms) ∧
        (r.remarksOf policy p = [] ∨ policy.location.isSound = true) := by
  rw [examine, exists_bind_eq_ok_iff]
  simp only [exists_mapM_finding_iff]
  constructor
  · rintro ⟨ms, hms, hreport⟩
    rw [← eq_remarksOf_of_remarks hms] at hreport
    exact ⟨⟨ms, hms⟩, hreport⟩
  · rintro ⟨⟨ms, hms⟩, hreport⟩
    rw [eq_remarksOf_of_remarks hms] at hreport
    exact ⟨ms, hms, hreport⟩

/-- **When there is an answer about a policy**: each of its permissions can be remarked on, its age
can be told, and unless there is nothing to report, its location can be encoded. -/
theorem exists_run_iff :
    (∃ fs, r.run policy = .ok fs) ↔
      (∀ p ∈ policy.permissions, ∃ ms, r.remarks policy p = .ok ms) ∧
        (∃ old, r.ageRemark? policy = .ok old) ∧
        (policy.location.isSound = true ∨ ¬ r.HasGround policy) := by
  rw [run_eq]
  constructor
  · rintro ⟨fs, h⟩
    obtain ⟨found, hfound, h⟩ := bind_eq_ok_iff.mp h
    obtain ⟨old, hold, h⟩ := bind_eq_ok_iff.mp h
    obtain ⟨aged, haged, -⟩ := bind_eq_ok_iff.mp h
    have hexamine : ∀ p ∈ policy.permissions, ∃ i fs, r.examine policy (p, i) = .ok fs := by
      intro p hp
      obtain ⟨i, hi⟩ := List.getElem?_of_mem hp
      obtain ⟨fs, -, hfs⟩ := exists_of_forall₂_of_mem (mapM_eq_ok_iff.mp hfound).flip
        (List.mk_mem_zipIdx_iff_getElem?.mpr hi)
      exact ⟨i, fs, hfs⟩
    refine ⟨fun p hp => ?_, ⟨old, hold⟩, or_iff_not_imp_left.mpr fun hlost hground => ?_⟩
    · obtain ⟨i, hfs⟩ := hexamine p hp
      exact (exists_examine_iff.mp hfs).1
    · rcases hground with ⟨p, hp, hsome⟩ | ⟨m, hm⟩
      · obtain ⟨i, hfs⟩ := hexamine p hp
        exact (exists_examine_iff.mp hfs).2.elim hsome hlost
      · obtain rfl := Except.ok.inj (hm.symm.trans hold)
        exact (exists_mapM_finding_iff.mp ⟨aged, haged⟩).elim (List.cons_ne_nil _ _) hlost
  · rintro ⟨hremarks, ⟨old, hold⟩, hreport⟩
    have hexamine : ∀ place ∈ policy.permissions.zipIdx, ∃ fs, r.examine policy place = .ok fs := by
      rintro ⟨p, i⟩ hmem
      have hp := List.fst_mem_of_mem_zipIdx hmem
      refine exists_examine_iff.mpr ⟨hremarks p hp, hreport.symm.imp_left fun hnothing => ?_⟩
      by_contra hsome
      exact hnothing (.inl ⟨p, hp, hsome⟩)
    obtain ⟨found, hfound⟩ := exists_mapM hexamine
    have haged : ∃ aged, old.toList.mapM (r.finding policy 0) = .ok aged := by
      refine exists_mapM_finding_iff.mpr (hreport.symm.imp_left fun hnothing => ?_)
      cases old with
      | none => rfl
      | some m => exact absurd (.inr ⟨m, hold⟩) hnothing
    obtain ⟨aged, haged⟩ := haged
    exact ⟨_, bind_eq_ok_iff.mpr ⟨found, hfound, bind_eq_ok_iff.mpr ⟨old, hold,
      bind_eq_ok_iff.mpr ⟨aged, haged, rfl⟩⟩⟩⟩

/-- A policy about which something is found has a location that can be encoded. -/
theorem isSound_of_run (h : r.run policy = .ok fs) (hsome : fs ≠ []) :
    policy.location.isSound = true := by
  refine (exists_run_iff.mp ⟨fs, h⟩).2.2.resolve_right fun hnothing => hsome ?_
  obtain ⟨old, hold, rfl⟩ := exists_eq_of_run h
  have hremarks : ∀ p ∈ policy.permissions, r.remarksOf policy p = [] := fun p hp =>
    by_contra fun hne => hnothing (.inl ⟨p, hp, hne⟩)
  have hyoung : old = none := by
    cases old with
    | none => rfl
    | some m => exact absurd (.inr ⟨m, hold⟩) hnothing
  rw [hyoung, findingsOn, Option.toList_none, List.map_nil, List.append_nil,
    List.flatMap_eq_nil_iff]
  rintro ⟨p, i⟩ hplace
  simp only [hremarks p (List.fst_mem_of_mem_zipIdx hplace), List.map_nil]

/-- A policy that can be looked at is refused for its location only. -/
theorem eq_unencodable_of_run {e : Refusal} (h : r.CanExamine policy)
    (hrun : r.run policy = .error e) : e = .unencodable := by
  have hreport : ∀ {line : Nat} {ms : List Remark},
      ms.mapM (r.finding policy line) = .error e → e = .unencodable := by
    intro line ms hms
    rw [mapM_finding_eq] at hms
    split at hms
    · cases hms
    · exact (Except.error.inj hms).symm
  obtain ⟨old, hold⟩ := exists_ageRemark?_eq h
  rw [run_eq, bind_eq_error_iff] at hrun
  obtain hrun | ⟨found, -, hrun⟩ := hrun
  · obtain ⟨place, -, hplace⟩ := exists_of_mapM_eq_error hrun
    rw [examine, remarks_eq h.texts] at hplace
    exact hreport hplace
  · obtain hrun | ⟨old', -, hrun⟩ := bind_eq_error_iff.mp hrun
    · cases hold.symm.trans hrun
    · obtain hrun | ⟨aged, -, hreturn⟩ := bind_eq_error_iff.mp hrun
      · exact hreport hrun
      · cases hreturn

/-! ### In which order -/

/-- A finding is about a permission before that of another one, or about the same permission and by
another rule. -/
def Precedes (x y : Finding) : Prop :=
  x.line < y.line ∨ x.line = y.line ∧ x.ruleId ≠ y.ruleId

/-- The remarks about a permission are by different rules. -/
theorem remarksOf_pairwise : (r.remarksOf policy p).Pairwise fun m n => m.ruleId ≠ n.ruleId := by
  rw [remarksOf]
  repeat' split
  all_goals simp [wildcardAction, wildcardResource, unconditioned]

/-- The findings about permissions are further down than what comes before the permissions. -/
theorem lt_line_of_mem {n : Nat} (hx : x ∈ r.findingsOn policy n ps) : n < x.line := by
  induction ps generalizing n with
  | nil => cases hx
  | cons p ps ih =>
      rw [findingsOn_cons, List.mem_append] at hx
      rcases hx with hx | hx
      · obtain ⟨m, -, rfl⟩ := List.mem_map.mp hx
        rw [line_findingOf]
        omega
      · have hlt := ih hx
        omega

/-- **Findings come in the order of the permissions**, and there is one by each rule at most. -/
theorem findingsOn_pairwise (n : Nat) : (r.findingsOn policy n ps).Pairwise Precedes := by
  induction ps generalizing n with
  | nil => exact .nil
  | cons p ps ih =>
      rw [findingsOn_cons, List.pairwise_append]
      refine ⟨?_, ih (n + 1), fun x hx y hy => ?_⟩
      · rw [List.pairwise_map]
        refine remarksOf_pairwise.imp fun hne => .inr ⟨rfl, ?_⟩
        simpa using hne
      · obtain ⟨m, -, rfl⟩ := List.mem_map.mp hx
        have hlt := lt_line_of_mem hy
        left
        rw [line_findingOf]
        omega

/-! ### Two lists of permissions -/

/-- A policy whose last use is not known is reviewed permission by permission, and that is all. -/
theorem run_of_unused (h : policy.lastUsed = none) :
    r.run policy = (policy.permissions.zipIdx.mapM (r.examine policy)).map List.flatten := by
  have hage : r.ageRemark? policy = .ok none := by
    rw [ageRemark?, h]
  rw [run_eq, hage]
  cases policy.permissions.zipIdx.mapM (r.examine policy) with
  | error refusal => rfl
  | ok found => exact congrArg Except.ok (List.append_nil _)

/-- A finding at a line is shifted to the finding at another one. -/
theorem shifted_findingOf (line n : Nat) :
    (r.findingOf policy line m).shifted n = r.findingOf policy (line + n) m := by
  simp [Finding.shifted, findingOf, findingAs, Value.shown, Value.plain]

/-- A permission further down is examined as it is, and what is found about it is further down. -/
theorem examine_add (n : Nat) (place : Permission × Nat) :
    r.examine policy (place.1, place.2 + n) =
      (r.examine policy place).map (List.map (Finding.shifted n)) := by
  have hline : place.2 + n + 1 = place.2 + 1 + n := by omega
  simp only [examine, hline]
  cases r.remarks policy place.1 with
  | error refusal => rfl
  | ok ms =>
      have hshifted : ms.map (r.findingOf policy (place.2 + 1 + n)) =
          (ms.map (r.findingOf policy (place.2 + 1))).map (Finding.shifted n) := by
        rw [List.map_map]
        exact List.map_congr_left fun m _ => (shifted_findingOf (place.2 + 1) n).symm
      simp only [bind, Except.bind, mapM_finding_eq, hshifted]
      split <;> rfl

/-- Permissions further down are examined as they are. -/
theorem mapM_examine_zipIdx (n : Nat) (ps : List Permission) :
    (ps.zipIdx n).mapM (r.examine policy) =
      (ps.zipIdx.mapM (r.examine policy)).map (List.map (List.map (Finding.shifted n))) := by
  rw [← Nat.add_zero n, ← List.map_snd_add_zipIdx_eq_zipIdx, List.mapM_map, Nat.add_zero]
  exact mapM_eq_map (examine_add n) _

/-- **The findings about two lists of permissions** are those about the first and, further down,
those about the second. -/
theorem run_append (r : Review) (name provider : RawText) (ps qs : List Permission) :
    r.run ⟨name, provider, ps ++ qs, none⟩ = (do
      let fs ← r.run ⟨name, provider, ps, none⟩
      let gs ← r.run ⟨name, provider, qs, none⟩
      return fs ++ gs.map (Finding.shifted ps.length)) := by
  -- The policies have one name and one place, so a permission is examined alike in each of them.
  have hexamine : ∀ ps, r.examine ⟨name, provider, ps, none⟩ =
      r.examine ⟨name, provider, [], none⟩ := fun _ => rfl
  simp only [run_of_unused, hexamine]
  rw [List.zipIdx_append, List.mapM_append, Nat.zero_add,
    mapM_examine_zipIdx ps.length qs]
  cases ps.zipIdx.mapM (r.examine ⟨name, provider, [], none⟩) with
  | error refusal => rfl
  | ok found =>
      cases qs.zipIdx.mapM (r.examine ⟨name, provider, [], none⟩) with
      | error refusal => rfl
      | ok more =>
          refine congrArg Except.ok ?_
          rw [List.flatten_append, List.map_flatten]

/-! ### What is reported -/

/-- Some of the findings are about the permission at an index, by a rule. -/
def Tells (fs : List Finding) (i : Nat) (rule : String) : Prop :=
  ∃ x ∈ fs, x.line = i + 1 ∧ x.ruleId = .text rule

/-- Findings are what there is to find about a policy: each rule tells of the permissions that it is
about and of no others. -/
structure Reports (r : Review) (policy : Policy) (fs : List Finding) : Prop where
  wildcardAction : ∀ i p, policy.permissions[i]? = some p →
    (Tells fs i "IAM_WILDCARD_ACTION" ↔ p.allows = true ∧ '*' ∈ p.action.toList)
  wildcardResource : ∀ i p, policy.permissions[i]? = some p →
    (Tells fs i "IAM_WILDCARD_RESOURCE" ↔ p.allows = true ∧ Text.trim p.resource = "*")
  dangerous : ∀ i p, policy.permissions[i]? = some p →
    (Tells fs i "IAM_DANGEROUS_ACTION_UNCONDITIONED" ↔ p.allows = true ∧
      p.hasCondition = false ∧ ∃ a, .text a ∈ r.dangerous ∧ actionMatches p.action a = true)
  /-- Nothing is found about a permission that denies its action. -/
  denied : ∀ (i : Nat) p, policy.permissions[i]? = some p → p.allows = false →
    ∀ x ∈ fs, x.line ≠ i + 1
  /-- The findings about permissions come first, in the order of the permissions and each of them
  once; the finding about the age of the policy, if there is one, is the last. -/
  parts : ∃ about old, fs = about ++ old ∧
    about.Pairwise Precedes ∧
    (∀ x ∈ about, ∃ (i : Nat) (p : Permission) (rule : String),
      policy.permissions[i]? = some p ∧ x.line = i + 1 ∧ x.ruleId = .text rule ∧
        rule ∈ ["IAM_WILDCARD_ACTION", "IAM_WILDCARD_RESOURCE",
          "IAM_DANGEROUS_ACTION_UNCONDITIONED"]) ∧
    old.length ≤ 1 ∧ ∀ x ∈ old, x.line = 0 ∧ x.ruleId = .text "IAM_STALE_POLICY"

/-- There is a remark about a permission by a rule when the permission gives a ground for it. -/
theorem exists_remark_iff {rule : String} :
    (∃ m ∈ r.remarksOf policy p, m.ruleId = rule) ↔ p.allows = true ∧
      ((rule = "IAM_WILDCARD_ACTION" ∧ '*' ∈ p.action.toList) ∨
        (rule = "IAM_WILDCARD_RESOURCE" ∧ Text.trim p.resource = "*") ∨
        (rule = "IAM_DANGEROUS_ACTION_UNCONDITIONED" ∧ p.hasCondition = false ∧
          ∃ a, .text a ∈ r.dangerous ∧ actionMatches p.action a = true)) := by
  rw [← covered_ne_nil_iff]
  constructor
  · rintro ⟨m, hm, rfl⟩
    obtain ⟨hallows, ⟨hstar, rfl⟩ | ⟨hany, rfl⟩ | ⟨hdanger, rfl⟩⟩ := mem_remarksOf_iff.mp hm
    · exact ⟨hallows, .inl ⟨rfl, hstar⟩⟩
    · exact ⟨hallows, .inr (.inl ⟨rfl, hany⟩)⟩
    · exact ⟨hallows, .inr (.inr ⟨rfl, hdanger⟩)⟩
  · rintro ⟨hallows, ⟨rfl, hstar⟩ | ⟨rfl, hany⟩ | ⟨rfl, hdanger⟩⟩
    · exact ⟨_, mem_remarksOf_iff.mpr ⟨hallows, .inl ⟨hstar, rfl⟩⟩, rfl⟩
    · exact ⟨_, mem_remarksOf_iff.mpr ⟨hallows, .inr (.inl ⟨hany, rfl⟩)⟩, rfl⟩
    · exact ⟨_, mem_remarksOf_iff.mpr ⟨hallows, .inr (.inr ⟨hdanger, rfl⟩)⟩, rfl⟩

/-- The rule of a remark about a permission is one of three. -/
theorem ruleId_mem_of_mem_remarksOf (hm : m ∈ r.remarksOf policy p) :
    m.ruleId ∈ ["IAM_WILDCARD_ACTION", "IAM_WILDCARD_RESOURCE",
      "IAM_DANGEROUS_ACTION_UNCONDITIONED"] := by
  obtain ⟨-, ⟨hrule, -⟩ | ⟨hrule, -⟩ | ⟨hrule, -⟩⟩ := exists_remark_iff.mp ⟨m, hm, rfl⟩ <;>
    simp [hrule]

/-- A remark about a policy as a whole is about its age. -/
theorem ruleId_of_ageRemark? {old : Option Remark} (h : r.ageRemark? policy = .ok old)
    (hm : m ∈ old) : m.ruleId = "IAM_STALE_POLICY" := by
  rw [ageRemark?] at h
  split at h
  · cases h
    cases hm
  · split at h
    · cases h
    · obtain rfl := Except.ok.inj h
      split at hm
      · cases hm
      · obtain rfl := Option.some.inj hm
        rfl

section

variable {i : Nat} {old : Option Remark} {rule : String}

/-- The findings about the permission at an index are the remarks about it. -/
theorem mem_at_iff (hp : ps[i]? = some p) :
    x ∈ r.findingsOn policy 0 ps ++ old.toList.map (r.findingOf policy 0) ∧ x.line = i + 1 ↔
      ∃ m ∈ r.remarksOf policy p, x = r.findingOf policy (i + 1) m := by
  rw [List.mem_append, mem_findingsOn_iff]
  constructor
  · rintro ⟨⟨k, q, hq, m, hm, rfl⟩ | hold, hline⟩
    · rw [line_findingOf] at hline
      obtain rfl : k = i := by omega
      obtain rfl : q = p := Option.some.inj (hq.symm.trans hp)
      exact ⟨m, hm, rfl⟩
    · obtain ⟨m, -, rfl⟩ := List.mem_map.mp hold
      rw [line_findingOf] at hline
      omega
  · rintro ⟨m, hm, rfl⟩
    exact ⟨.inl ⟨i, p, hp, m, hm, rfl⟩, rfl⟩

/-- Findings tell of a permission by a rule when there is a remark by the rule about it. -/
theorem tells_iff (hp : ps[i]? = some p) :
    Tells (r.findingsOn policy 0 ps ++ old.toList.map (r.findingOf policy 0)) i rule ↔
      ∃ m ∈ r.remarksOf policy p, m.ruleId = rule := by
  constructor
  · rintro ⟨x, hx, hline, hrule⟩
    obtain ⟨m, hm, rfl⟩ := (mem_at_iff hp).mp ⟨hx, hline⟩
    exact ⟨m, hm, Value.text.inj hrule⟩
  · rintro ⟨m, hm, rfl⟩
    have hx : r.findingOf policy (i + 1) m ∈
        r.findingsOn policy 0 ps ++ old.toList.map (r.findingOf policy 0) :=
      ((mem_at_iff hp).mpr ⟨m, hm, rfl⟩).1
    exact ⟨_, hx, rfl, rfl⟩

end

/-- **What a review finds is what there is to find.** -/
theorem reports_of_run (h : r.run policy = .ok fs) : r.Reports policy fs := by
  obtain ⟨old, hold, rfl⟩ := exists_eq_of_run h
  constructor
  case wildcardAction =>
    intro i p hp
    rw [tells_iff hp, exists_remark_iff]
    simp
  case wildcardResource =>
    intro i p hp
    rw [tells_iff hp, exists_remark_iff]
    simp
  case dangerous =>
    intro i p hp
    rw [tells_iff hp, exists_remark_iff]
    simp
  case denied =>
    intro i p hp hdenies x hx hline
    obtain ⟨m, hm, -⟩ := (mem_at_iff hp).mp ⟨hx, hline⟩
    have hallows := (mem_remarksOf_iff.mp hm).1
    cases hdenies.symm.trans hallows
  case parts =>
    refine ⟨_, _, rfl, findingsOn_pairwise 0, fun x hx => ?_, ?_, fun x hx => ?_⟩
    · obtain ⟨i, p, hp, m, hm, rfl⟩ := mem_findingsOn_iff.mp hx
      exact ⟨i, p, m.ruleId, hp, rfl, rfl, ruleId_mem_of_mem_remarksOf hm⟩
    · rw [List.length_map]
      exact Option.length_toList_le
    · obtain ⟨m, hm, rfl⟩ := List.mem_map.mp hx
      have hrule := ruleId_of_ageRemark? hold (Option.mem_toList.mp hm)
      exact ⟨rfl, congrArg Value.text hrule⟩

/-- **A review is sound, complete and local**, where there is an answer.  A policy that can be
looked at has one exactly if its location can be encoded or there is nothing to report; otherwise
the review is refused, and nothing is reported.  What is found, whenever there is an answer, is what
there is to find: for each permission and each of the three rules there is a finding when the
permission gives a ground for it, there is one at most, they come in the order of the permissions,
and after them comes at most one about the age of the policy.  What is found about two lists of
permissions is what is found about each of them, and the findings about the second are as much
further down as the first is long. -/
theorem run_reports (r : Review) (policy : Policy) :
    (r.CanExamine policy → ((∃ fs, r.run policy = .ok fs) ↔
      policy.location.isSound = true ∨ ¬ r.HasGround policy)) ∧
    (r.CanExamine policy → policy.location.isSound = false → r.HasGround policy →
      r.run policy = .error .unencodable) ∧
    (∀ fs, r.run policy = .ok fs → r.Reports policy fs) ∧
    ∀ ps qs, r.run ⟨policy.name, policy.provider, ps ++ qs, none⟩ = (do
      let fs ← r.run ⟨policy.name, policy.provider, ps, none⟩
      let gs ← r.run ⟨policy.name, policy.provider, qs, none⟩
      return fs ++ gs.map (Finding.shifted ps.length)) := by
  refine ⟨fun hexamine => ?_, fun hexamine hlost hground => ?_, fun fs => reports_of_run,
    run_append r policy.name policy.provider⟩
  · have hremarks : ∀ p ∈ policy.permissions, ∃ ms, r.remarks policy p = .ok ms :=
      fun p _ => ⟨_, remarks_eq hexamine.texts⟩
    rw [exists_run_iff, and_iff_right hremarks, and_iff_right (exists_ageRemark?_eq hexamine)]
  · cases hrun : r.run policy with
    | ok fs => exact ((exists_run_iff.mp ⟨fs, hrun⟩).2.2.elim (by simp [hlost]) (· hground)).elim
    | error e => rw [eq_unencodable_of_run hexamine hrun]

/-- A review that looks for two dangerous actions. -/
def escalationReview : Review where
  dangerous := [.text "iam:PassRole", .text "sts:AssumeRole"]
  staleAfter := 90 * Calendar.day
  now := { wall := 200 * Calendar.day, offset := some 0 }

/-- A policy that grants everything, denies everything and grants one dangerous action, and that has
not been used for a long time. -/
def mixedPolicy : Policy where
  name := "app-role"
  provider := "aws"
  permissions := [
    { action := "*", resource := " * " },
    { action := "*", resource := "*", effect := .deny },
    { action := "IAM:passrole", resource := "arn:aws:iam::1:role/app" }]
  lastUsed := some { wall := 0, offset := some 0 }

/-- The policy can be looked at, by whatever name it goes. -/
theorem canExamine_mixedPolicy (name : RawText) :
    escalationReview.CanExamine { mixedPolicy with name } where
  texts := by simp [escalationReview, Value.IsText]
  elapsed := by
    rintro m hm
    obtain rfl := Option.some.inj hm
    decide

/-- All three rules tell of the first permission, none of the second, and one of the third; the
finding about the age is the last of five. -/
theorem run_reports_mixed :
    ∃ fs, escalationReview.run mixedPolicy = .ok fs ∧ escalationReview.Reports mixedPolicy fs ∧
      fs.map Finding.line = [1, 1, 1, 3, 0] := by
  obtain ⟨hexists, -, hreports, -⟩ := run_reports escalationReview mixedPolicy
  obtain ⟨fs, hfs⟩ := (hexists (canExamine_mixedPolicy _)).mpr (.inl rfl)
  have hlines : ((escalationReview.run mixedPolicy).toOption.any fun fs =>
      fs.map Finding.line == [1, 1, 1, 3, 0]) = true := by
    decide +kernel
  rw [hfs] at hlines
  exact ⟨fs, hfs, hreports fs hfs, eq_of_beq hlines⟩

/-- **Not every policy that grants too much is reported.**  Under a name with half of a surrogate
pair the same policy is refused, though its first permission allows every action. -/
theorem exists_unreported :
    escalationReview.run { mixedPolicy with name := .broken "app-" 0 "" } = .error .unencodable ∧
      (∃ p ∈ mixedPolicy.permissions, p.allows = true ∧ '*' ∈ p.action.toList) := by
  constructor
  · cases hrun : escalationReview.run { mixedPolicy with name := .broken "app-" 0 "" } with
    | error e => rw [eq_unencodable_of_run (canExamine_mixedPolicy _) hrun]
    | ok fs =>
        have hground :
            escalationReview.HasGround { mixedPolicy with name := .broken "app-" 0 "" } :=
          .inl ⟨_, List.mem_cons_self, by simp [remarksOf, Permission.allows]⟩
        exact ((exists_run_iff.mp ⟨fs, hrun⟩).2.2.elim (by simp [Policy.location]) (· hground)).elim
  · exact ⟨_, List.mem_cons_self, by decide⟩

end Iam.Review

end SecurityAudit
