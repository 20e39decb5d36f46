import SecurityAudit.Proofs.Globs
import SecurityAudit.Proofs.LetterCase
import SecurityAudit.Proofs.PolicyReview
import SecurityAudit.Proofs.TextPieces

/-!
# Grants of everything

Three parts of a review ask whether a permission grants everything, each in its own way.  Whether an
action covers another one is decided by globs, so that stars alone cover every action
(`coversAll_iff`).  The remark about a star in an action takes it for a grant of every action on
every service when the action is one star with possibly some blanks around it, describes it so and
rates it so.  And a dangerous action is found by globs again, which an action with blanks around it
covers only when there are blanks around the dangerous action as well.

So the three agree about a star, and about everything that is neither stars alone nor a star among
blanks, but not about the rest: two stars are rated as a grant of one service, and a star among
blanks is described as a grant of everything and gives no dangerous action away (`run_of_wildcard`).
-/

namespace SecurityAudit

namespace Iam

variable {granted action : String}

/-! ## What is covered -/

/-- A granted action covers every action there is. -/
def CoversAll (granted : String) : Prop :=
  ∀ action, actionMatches granted action = true

/-- A glob of stars and blanks is the same in lower case, and is taken apart character by
character. -/
theorem tokens_of_stars_and_blanks {cs : List Char}
    (h : ∀ c ∈ cs, c = '*' ∨ Text.isBlank c = true) :
    Glob.tokens (Text.lowerChars cs) = cs.map Glob.Token.plain := by
  have hcaseless : ∀ c ∈ cs, Text.isCaseless c = true := fun c hc => by
    rcases h c hc with rfl | hblank
    · exact Text.isCaseless_star
    · exact Text.isCaseless_of_isBlank hblank
  have hplain : Glob.IsPlain cs := fun c hc => by
    rcases h c hc with rfl | hblank
    · decide
    · constructor <;> rintro rfl <;> cases hblank
  rw [Text.lowerChars_of_isCaseless hcaseless, Glob.tokens_of_plain hplain]

/-- **Stars alone cover every action.** -/
theorem coversAll_iff : CoversAll granted ↔ granted ≠ "" ∧ ∀ c ∈ granted.toList, c = '*' := by
  simp only [CoversAll, actionMatches, globMatches, Text.lower, String.toList_ofList]
  constructor
  · intro h
    refine ⟨?_, ?_⟩
    · rintro rfl
      cases h "x"
    · have hempty := Glob.matchTokens_nil_iff.mp (h "")
      exact Text.forall_eq_of_lowerChars Text.isCaseless_star (Glob.tokens_stars_iff.mp hempty)
  · rintro ⟨hsome, hstars⟩ action
    rw [tokens_of_stars_and_blanks fun c hc => .inl (hstars c hc)]
    refine Glob.matchTokens_stars ?_ ?_ _
    · rwa [ne_eq, List.map_eq_nil_iff, String.toList_eq_nil_iff]
    · rw [List.forall_mem_map]
      intro c hc
      rw [hstars c hc]
      rfl

/-- A glob that begins or ends with a blank matches no text in lower case without blanks at its
ends. -/
theorem not_matchTokens_of_blank {c : Char} {rest text : List Char} (hblank : Text.isBlank c = true)
    (htrimmed : Text.trimChars text = text) :
    Glob.matchTokens ((c :: rest).map Glob.Token.plain) (Text.lowerChars text) ≠ true ∧
      Glob.matchTokens ((rest ++ [c]).map Glob.Token.plain) (Text.lowerChars text) ≠ true := by
  have hcaseless := Text.isCaseless_of_isBlank hblank
  have htoken : Glob.Token.plain c = .char c := by
    rw [Glob.Token.plain, if_neg]
    rintro rfl
    cases hblank
  constructor
  · intro hmatch
    rw [List.map_cons, htoken] at hmatch
    have hhead := Text.head?_of_lowerChars hcaseless (Glob.head?_of_matchTokens hmatch)
    cases hblank.symm.trans (Text.not_isBlank_of_head? htrimmed hhead)
  · intro hmatch
    rw [List.map_append, List.map_singleton, htoken] at hmatch
    have hlast := Text.getLast?_of_lowerChars hcaseless (Glob.getLast?_of_matchTokens hmatch)
    cases hblank.symm.trans (Text.not_isBlank_of_getLast? htrimmed hlast)

/-- A star among blanks, with a blank at least, covers no action that is without blanks at its
ends. -/
theorem not_actionMatches_of_padded (hlone : Text.trim granted = "*") (hpadded : granted ≠ "*")
    (haction : Text.trim action = action) : actionMatches granted action = false := by
  obtain ⟨before, after, hbefore, hafter, hgranted⟩ := Text.exists_blanks_around granted.toList
  have htrimmed := Text.trim_eq_iff.mp haction
  have hstar : Text.trimChars granted.toList = ['*'] := Text.trim_eq_iff.mp hlone
  rw [hstar] at hgranted
  have hchars : ∀ c ∈ granted.toList, c = '*' ∨ Text.isBlank c = true := by
    intro c hc
    rw [hgranted, List.mem_append, List.mem_append, List.mem_singleton] at hc
    rcases hc with (hc | hc) | hc
    · exact .inr (hbefore c hc)
    · exact .inl hc
    · exact .inr (hafter c hc)
  rw [Bool.eq_false_iff]
  intro hmatch
  simp only [actionMatches, globMatches, Text.lower, String.toList_ofList,
    tokens_of_stars_and_blanks hchars] at hmatch
  rw [hgranted] at hmatch
  cases before with
  | cons c before =>
      exact (not_matchTokens_of_blank (hbefore c List.mem_cons_self) htrimmed).1 hmatch
  | nil =>
      rcases List.eq_nil_or_concat after with rfl | ⟨after, c, rfl⟩
      · exact hpadded (String.toList_inj.mp hgranted)
      · rw [List.concat_eq_append, ← List.append_assoc] at hmatch
        exact (not_matchTokens_of_blank (hafter c (by simp)) htrimmed).2 hmatch

namespace Review

variable {r : Review} {policy : Policy} {p : Permission} {fs : List Finding} {i : Nat}

/-! ## What is reported -/

/-- The findings describe the permission at an index as a grant of every action on every service. -/
def TellsOfAll (fs : List Finding) (policy : Policy) (i : Nat) (p : Permission) : Prop :=
  ∃ x ∈ fs, x.line = i + 1 ∧ x.ruleId = .text "IAM_WILDCARD_ACTION" ∧
    x.description = .text ("Policy " ++ policy.name.quoted ++ " allows " ++
      Text.quoted p.action ++ ", i.e. every action on every service.")

/-- The findings rate the permission at an index as a grant of every action there is. -/
def RatesAsAll (fs : List Finding) (i : Nat) : Prop :=
  ∃ x ∈ fs, x.line = i + 1 ∧ x.ruleId = .text "IAM_WILDCARD_ACTION" ∧
    x.cvss = some (.ofMetrics anyActionMetrics)

/-- That score is 9.9, with a changed scope. -/
example : (Cvss.Score.ofMetrics anyActionMetrics).tenths = 99 ∧
    anyActionMetrics.scope = .changed := by
  decide +kernel

/-- The findings warn of dangerous actions without a condition at the permission at an index. -/
def WarnsOfDanger (fs : List Finding) (i : Nat) : Prop :=
  ∃ x ∈ fs, x.line = i + 1 ∧ x.ruleId = .text "IAM_DANGEROUS_ACTION_UNCONDITIONED"

/-- The findings treat the permission at an index as a grant of everything, if it covers every
action or is described as such a grant: it is rated so, and they warn of it unless it has a
condition. -/
def TreatsAsAll (fs : List Finding) (policy : Policy) (i : Nat) (p : Permission) : Prop :=
  CoversAll p.action ∨ TellsOfAll fs policy i p →
    RatesAsAll fs i ∧ (p.hasCondition = false → WarnsOfDanger fs i)

/-- A permission whose action is a lone star is described and rated as a grant of everything, and no
other one is. -/
theorem tells_and_rates_iff (h : r.CanReview policy) (hrun : r.run policy = .ok fs)
    (hp : policy.permissions[i]? = some p) (hallows : p.allows = true) :
    (TellsOfAll fs policy i p ↔ Text.trim p.action = "*") ∧
      (RatesAsAll fs i ↔ Text.trim p.action = "*") := by
  rw [TellsOfAll, RatesAsAll, exists_wildcardAction_iff h hrun hp,
    exists_wildcardAction_iff h hrun hp]
  by_cases hlone : Text.trim p.action = "*"
  · have hstar : '*' ∈ p.action.toList := by
      obtain ⟨before, after, -, -, haction⟩ := Text.exists_blanks_around p.action.toList
      rw [haction, Text.trim_eq_iff.mp hlone]
      simp
    simp [hallows, hstar, findingOf, findingAs, wildcardAction, hlone]
  · have hservice : serviceActionMetrics ≠ anyActionMetrics := by decide
    simp [hallows, findingOf, findingAs, wildcardAction, hlone, Cvss.Score.ofMetrics, hservice]

/-- **How a review treats grants of everything.** -/
theorem run_of_wildcard (h : r.CanReview policy) (hp : policy.permissions[i]? = some p)
    (hallows : p.allows = true) (hdangerous : r.dangerous ≠ []) :
    ∃ fs, r.run policy = .ok fs ∧
      (CoversAll p.action ↔ p.action ≠ "" ∧ ∀ c ∈ p.action.toList, c = '*') ∧
      (TellsOfAll fs policy i p ↔ Text.trim p.action = "*") ∧
      (RatesAsAll fs i ↔ Text.trim p.action = "*") ∧
      (WarnsOfDanger fs i ↔ p.hasCondition = false ∧
        ∃ a, .text a ∈ r.dangerous ∧ actionMatches p.action a = true) ∧
      ((∀ a, .text a ∈ r.dangerous → Text.trim a = a) → (TreatsAsAll fs policy i p ↔
        (CoversAll p.action ∨ Text.trim p.action = "*" →
          p.action = "*" ∨ (p.hasCondition = true ∧ Text.trim p.action = "*")))) := by
  obtain ⟨old, -, hrun⟩ := exists_run_eq h
  obtain ⟨htells, hrates⟩ := tells_and_rates_iff h hrun hp hallows
  have hwarns := exists_unconditioned_iff h hrun hp
  rw [← WarnsOfDanger, covered_ne_nil_iff, and_iff_right hallows] at hwarns
  refine ⟨_, hrun, coversAll_iff, htells, hrates, hwarns, fun htrimmed => ?_⟩
  rw [TreatsAsAll, htells, hrates, hwarns]
  constructor
  · intro htreats hall
    obtain ⟨hlone, hwarn⟩ := htreats hall
    cases hcondition : p.hasCondition with
    | true => exact .inr ⟨rfl, hlone⟩
    | false =>
        refine .inl (by_contra fun hpadded => ?_)
        obtain ⟨-, a, ha, hmatch⟩ := hwarn hcondition
        cases (not_actionMatches_of_padded hlone hpadded (htrimmed a ha)).symm.trans hmatch
  · intro hspelled hall
    rcases hspelled hall with hstar | ⟨hcondition, hlone⟩
    · rw [hstar]
      refine ⟨by decide +kernel, fun hcondition => ⟨hcondition, ?_⟩⟩
      obtain ⟨v, hv⟩ := List.exists_mem_of_ne_nil _ hdangerous
      obtain ⟨a, rfl⟩ := h.texts v hv
      exact ⟨a, hv, coversAll_iff.mpr ⟨by decide, by simp⟩ a⟩
    · refine ⟨hlone, fun hnone => ?_⟩
      cases hnone.symm.trans hcondition

/-- A permission that allows an action on a bucket. -/
def onBucket (action : String) : Permission :=
  { action, resource := "arn:aws:s3:::b" }

/-- A policy of that permission alone. -/
def grantOf (action : String) : Policy where
  name := "app-role"
  provider := "aws"
  permissions := [onBucket action]
  lastUsed := none

/-- A review that looks for one dangerous action. -/
def passRoleReview : Review where
  dangerous := [.text "iam:PassRole"]
  staleAfter := 90 * Calendar.day
  now := { wall := 0, offset := some 0 }

/-- Every policy of one permission can be reviewed for one dangerous action. -/
theorem canReview_grantOf (action : String) : passRoleReview.CanReview (grantOf action) where
  texts := by simp [passRoleReview, Value.IsText]
  elapsed := by simp [grantOf]
  located := rfl

/-- A permission for a star is treated as a grant of everything. -/
theorem run_of_wildcard_star :
    ∃ fs, passRoleReview.run (grantOf "*") = .ok fs ∧ RatesAsAll fs 0 ∧ WarnsOfDanger fs 0 := by
  obtain ⟨fs, hrun, -, -, -, -, htreats⟩ := run_of_wildcard (canReview_grantOf "*")
    (i := 0) rfl rfl (List.cons_ne_nil _ _)
  have htrimmed : ∀ a, .text a ∈ passRoleReview.dangerous → Text.trim a = a := by
    simp only [passRoleReview, List.mem_singleton, Value.text.injEq]
    rintro _ rfl
    decide +kernel
  have hall : CoversAll "*" := coversAll_iff.mpr ⟨by decide, by simp⟩
  obtain ⟨hrates, hwarns⟩ := (htreats htrimmed).mpr (fun _ => .inl rfl) (.inl hall)
  exact ⟨fs, hrun, hrates, hwarns rfl⟩

/-- **Not every grant of everything is treated as one.**  A star after a blank is described as a
grant of every action on every service, and there is no warning; two stars cover every action, and
they are not rated so. -/
theorem exists_wildcard_mistreated :
    (∃ fs, passRoleReview.run (grantOf " *") = .ok fs ∧
      TellsOfAll fs (grantOf " *") 0 (onBucket " *") ∧ ¬ WarnsOfDanger fs 0 ∧
      ¬ TreatsAsAll fs (grantOf " *") 0 (onBucket " *")) ∧
    (∃ fs, passRoleReview.run (grantOf "**") = .ok fs ∧
      CoversAll "**" ∧ ¬ RatesAsAll fs 0 ∧
      ¬ TreatsAsAll fs (grantOf "**") 0 (onBucket "**")) := by
  have hat : ∀ action, (grantOf action).permissions[0]? = some (onBucket action) := fun _ => rfl
  constructor
  · obtain ⟨old, -, hrun⟩ := exists_run_eq (canReview_grantOf " *")
    have htells := (tells_and_rates_iff (canReview_grantOf " *") hrun (hat _) rfl).1.mpr
      (by decide +kernel)
    have hsilent : ¬ WarnsOfDanger _ 0 := fun hwarns =>
      absurd ((exists_unconditioned_iff (canReview_grantOf " *") hrun (hat _)).mp hwarns)
        (by decide +kernel)
    exact ⟨_, hrun, htells, hsilent, fun htreats => hsilent ((htreats (.inr htells)).2 rfl)⟩
  · obtain ⟨old, -, hrun⟩ := exists_run_eq (canReview_grantOf "**")
    have hall : CoversAll "**" := coversAll_iff.mpr ⟨by decide, by simp⟩
    have hunrated : ¬ RatesAsAll _ 0 := fun hrates =>
      absurd ((tells_and_rates_iff (canReview_grantOf "**") hrun (hat _) rfl).2.mp hrates)
        (by decide +kernel)
    exact ⟨_, hrun, hall, hunrated, fun htreats => hunrated (htreats (.inl hall)).1⟩

end Review

end Iam

end SecurityAudit
