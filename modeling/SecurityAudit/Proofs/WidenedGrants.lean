import SecurityAudit.Proofs.Globs
import SecurityAudit.Proofs.LetterCase
import SecurityAudit.Proofs.PermissionFindings

/-!
# Grants that are widened

A granted action is widened when it is cut somewhere and a star is put in place of what was cut off.
The cut may fall anywhere, also among wildcards, for an action without brackets in ASCII is a glob
whose characters stand for themselves one by one.  Whatever the action covered, the widened one
covers (`actionMatches_widened`), so a review that told of a permission still does when the action
of the permission is widened (`widened_hides_nothing`).

Letter case does not count: which of some dangerous actions are covered is the same in whatever case
they and the granted action are written.
-/

namespace SecurityAudit

namespace Iam

open Text (IsAscii AlikeInCase)

variable {granted action : String}

/-! ### What is covered -/

/-- Whether an action is covered is a question of globs in lower case. -/
theorem actionMatches_eq (granted action : String) :
    actionMatches granted action =
      Glob.matchTokens (Glob.tokens (Text.lowerChars granted.toList))
        (Text.lowerChars action.toList) := by
  simp only [actionMatches, globMatches, Text.lower, String.toList_ofList]

/-- No other character has the opening bracket for its lower case. -/
theorem eq_bracket_of_toLower {c : Char} (hc : c.toNat < 128) (h : c.toLower = '[') : c = '[' :=
  Text.forall_ascii (P := fun c => c.toLower = '[' → c = '[') (by decide +kernel) hc h

/-- An action without brackets is a glob whose characters stand for themselves one by one. -/
theorem tokens_lowerChars {cs : List Char} (hascii : IsAscii cs) (hbracket : '[' ∉ cs) :
    Glob.tokens (Text.lowerChars cs) = cs.map fun c => Glob.Token.ofChar c.toLower := by
  rw [Text.lowerChars_of_isAscii hascii, Glob.tokens_of_bracketless, List.map_map]
  · rfl
  · intro hmem
    obtain ⟨c, hc, hlower⟩ := List.mem_map.mp hmem
    exact hbracket (eq_bracket_of_toLower (hascii c hc) hlower ▸ hc)

/-- **A widened action covers what the action covered.** -/
theorem actionMatches_widened (hascii : IsAscii granted.toList) (hbracket : '[' ∉ granted.toList)
    {front : String} (hfront : front.toList <+: granted.toList)
    (h : actionMatches granted action = true) : actionMatches (front ++ "*") action = true := by
  obtain ⟨cut, hcut⟩ := hfront
  have hstar : (front ++ "*").toList = front.toList ++ ['*'] := String.toList_append
  have hfrontAscii : IsAscii (front.toList ++ ['*']) := by
    intro c hc
    rcases List.mem_append.mp hc with hc | hc
    · exact hascii c (hcut ▸ List.mem_append_left cut hc)
    · rw [List.mem_singleton.mp hc]
      decide
  have hfrontBracket : '[' ∉ front.toList ++ ['*'] := by
    intro hmem
    rcases List.mem_append.mp hmem with hmem | hmem
    · exact hbracket (hcut ▸ List.mem_append_left cut hmem)
    · cases List.mem_singleton.mp hmem
  rw [actionMatches_eq, tokens_lowerChars hascii hbracket, ← hcut, List.map_append] at h
  rw [actionMatches_eq, hstar, tokens_lowerChars hfrontAscii hfrontBracket, List.map_append]
  exact Glob.matchTokens_append_star h

/-- Whether an action is covered does not depend on letter case. -/
theorem actionMatches_of_alikeInCase {granted' action' : String} (hgranted : IsAscii granted.toList)
    (haction : IsAscii action.toList) (hg : AlikeInCase granted.toList granted'.toList)
    (ha : AlikeInCase action.toList action'.toList) :
    actionMatches granted action = actionMatches granted' action' := by
  rw [actionMatches_eq, actionMatches_eq, hg.lowerChars_eq hgranted, ha.lowerChars_eq haction]

/-- Which of some actions are covered does not depend on letter case. -/
theorem map_actionMatches_of_alikeInCase {granted' : String} {actions actions' : List String}
    (hgranted : IsAscii granted.toList) (hactions : ∀ a ∈ actions, IsAscii a.toList)
    (hg : AlikeInCase granted.toList granted'.toList)
    (ha : List.Forall₂ (fun a a' => AlikeInCase a.toList a'.toList) actions actions') :
    actions.map (actionMatches granted) = actions'.map (actionMatches granted') := by
  induction ha with
  | nil => rw [List.map_nil, List.map_nil]
  | cons halike _ ih =>
      obtain ⟨hfirst, hrest⟩ := List.forall_mem_cons.mp hactions
      rw [List.map_cons, List.map_cons, ih hrest,
        actionMatches_of_alikeInCase hgranted hfirst hg halike]

/-! ### What is found -/

/-- The policy with another action for the permission at an index. -/
def Policy.regranted (policy : Policy) (i : Nat) (action : String) : Policy :=
  { policy with permissions := policy.permissions.modify i fun p => { p with action } }

namespace Review

variable {r : Review} {policy : Policy} {p q : Permission} {i : Nat} {m : Remark}

/-- Where another action is put, the permission is what it was but for the action; everywhere else
it is what it was. -/
theorem getElem?_regranted (policy : Policy) (i j : Nat) (action : String) :
    (policy.regranted i action).permissions[j]? =
      policy.permissions[j]?.map fun p => if i = j then { p with action } else p := by
  rw [Policy.regranted, List.getElem?_modify]
  rfl

/-- A remark about a permission goes by a rule that tells of the permission with a wider action as
well. -/
theorem exists_remark_of_wider (hstar : '*' ∈ action.toList)
    (hwider : ∀ a, actionMatches p.action a = true → actionMatches action a = true)
    (hm : m ∈ r.remarksOf policy p) :
    ∃ m' ∈ r.remarksOf policy { p with action }, m'.ruleId = m.ruleId := by
  obtain ⟨hallows, hground⟩ := exists_remark_iff.mp ⟨m, hm, rfl⟩
  refine exists_remark_iff.mpr ⟨hallows, ?_⟩
  rcases hground with ⟨hrule, -⟩ | ⟨hrule, hany⟩ | ⟨hrule, hcondition, a, ha, hcovers⟩
  · exact .inl ⟨hrule, hstar⟩
  · exact .inr (.inl ⟨hrule, hany⟩)
  · exact .inr (.inr ⟨hrule, hcondition, a, ha, hwider a hcovers⟩)

/-- One finding stands for another one: it is by the same rule at the same place, with the same
id. -/
structure StandsFor (y x : Finding) : Prop where
  id : y.id = x.id
  ruleId : y.ruleId = x.ruleId
  file : y.file = x.file
  line : y.line = x.line

/-- **A wider action hides no finding.**  A policy about which something has been found, or whose
location can be encoded, can be reviewed with a wider action with a star, and everything that has
been found is found again: by its rule, at its place and with its id. -/
theorem exists_run_regranted (hp : policy.permissions[i]? = some p) (hstar : '*' ∈ action.toList)
    (hwider : ∀ a, actionMatches p.action a = true → actionMatches action a = true)
    {fs : List Finding} (hrun : r.run policy = .ok fs)
    (hreport : fs ≠ [] ∨ policy.location.isSound = true) :
    ∃ gs, r.run (policy.regranted i action) = .ok gs ∧ ∀ x ∈ fs, ∃ y ∈ gs, StandsFor y x := by
  have hlocated : policy.location.isSound = true := hreport.elim (isSound_of_run hrun) id
  have hage : r.ageRemark? (policy.regranted i action) = r.ageRemark? policy := rfl
  have hexists : ∃ gs, r.run (policy.regranted i action) = .ok gs := by
    obtain ⟨hremarks, hold, -⟩ := exists_run_iff.mp ⟨fs, hrun⟩
    refine exists_run_iff.mpr ⟨fun q hq => ?_, hold, .inl hlocated⟩
    obtain ⟨j, hj⟩ := List.getElem?_of_mem hq
    rw [getElem?_regranted, Option.map_eq_some_iff] at hj
    obtain ⟨p', hp', rfl⟩ := hj
    -- Whether there are remarks does not depend on the action.
    have htexts := exists_remarks_iff.mp (hremarks p' (List.mem_of_getElem? hp'))
    rw [exists_remarks_iff]
    by_cases hij : i = j
    · rw [if_pos hij]
      exact htexts
    · rw [if_neg hij]
      exact htexts
  obtain ⟨gs, hgs⟩ := hexists
  refine ⟨gs, hgs, fun x hx => ?_⟩
  obtain ⟨old, hold, rfl⟩ := exists_eq_of_run hrun
  obtain ⟨old', hold', rfl⟩ := exists_eq_of_run hgs
  obtain rfl : old' = old := by
    rw [hage, hold] at hold'
    exact (Except.ok.inj hold').symm
  rcases List.mem_append.mp hx with hx | hx
  · obtain ⟨j, q, hq, m, hm, rfl⟩ := mem_findingsOn_iff.mp hx
    have hq' : (policy.regranted i action).permissions[j]? =
        some (if i = j then { q with action } else q) := by
      rw [getElem?_regranted, hq, Option.map_some]
    have hfound : ∃ m' ∈ r.remarksOf policy (if i = j then { q with action } else q),
        m'.ruleId = m.ruleId := by
      by_cases hij : i = j
      · subst hij
        obtain rfl : q = p := Option.some.inj (hq.symm.trans hp)
        rw [if_pos rfl]
        exact exists_remark_of_wider hstar hwider hm
      · rw [if_neg hij]
        exact ⟨m, hm, rfl⟩
    obtain ⟨m', hm', hrule⟩ := hfound
    refine ⟨r.findingOf policy (j + 1) m', List.mem_append_left _ ?_, ?_⟩
    · exact mem_findingsOn_iff.mpr ⟨j, _, hq', m', hm', rfl⟩
    · constructor
      · simp only [findingOf, findingAs, hrule]
      · simp only [findingOf, findingAs, hrule]
      · rfl
      · rfl
  · exact ⟨x, List.mem_append_right _ hx, rfl, rfl, rfl, rfl⟩

/-- **A grant that is widened hides nothing.**  Let the action of a permission be in ASCII and
without opening brackets, and let it be widened.  Then it covers every action that it covered, and
everything that was found about the policy is found again; if nothing was found, what is found now
can be reported when the location of the policy can be encoded.  The dangerous actions that a
permission covers come in the order of the list, and which of them it covers does not depend on the
case of letters, neither in its action nor in the list. -/
theorem widened_hides_nothing (hp : policy.permissions[i]? = some p)
    (hascii : IsAscii p.action.toList) (hbracket : '[' ∉ p.action.toList) {front : String}
    (hfront : front.toList <+: p.action.toList) :
    (∀ a, actionMatches p.action a = true → actionMatches (front ++ "*") a = true) ∧
    (∀ (r : Review) (q : Permission) (dangerous : List String),
      r.dangerous = dangerous.map Value.text →
        r.dangerousMatches q = .ok (dangerous.filter (actionMatches q.action))) ∧
    (∀ (action : String) (dangerous dangerous' : List String),
      AlikeInCase p.action.toList action.toList → (∀ a ∈ dangerous, IsAscii a.toList) →
      List.Forall₂ (fun a a' => AlikeInCase a.toList a'.toList) dangerous dangerous' →
        dangerous.map (actionMatches p.action) = dangerous'.map (actionMatches action)) ∧
    ∀ (r : Review) (fs : List Finding), r.run policy = .ok fs →
      fs ≠ [] ∨ policy.location.isSound = true →
        ∃ gs, r.run (policy.regranted i (front ++ "*")) = .ok gs ∧
        ∀ x ∈ fs, ∃ y ∈ gs, StandsFor y x := by
  have hwider : ∀ a, actionMatches p.action a = true → actionMatches (front ++ "*") a = true :=
    fun a => actionMatches_widened hascii hbracket hfront
  refine ⟨hwider, ?_, ?_, ?_⟩
  · intro r q dangerous hdangerous
    have htexts : ∀ v ∈ r.dangerous, v.IsText := by
      rw [hdangerous, List.forall_mem_map]
      exact fun a _ => ⟨a, rfl⟩
    have htaken : r.dangerous.filterMap Value.text? = dangerous := by
      rw [hdangerous, List.filterMap_map]
      exact List.filterMap_some
    rw [dangerousMatches_eq htexts, covered, htaken]
  · intro action dangerous dangerous' haction hdangerous halike
    exact map_actionMatches_of_alikeInCase hascii hdangerous haction halike
  · intro r fs hrun hreport
    exact exists_run_regranted hp (by simp [String.toList_append]) hwider hrun hreport

/-- A review that looks for two dangerous actions. -/
def roleReview : Review where
  dangerous := [.text "iam:PassRole", .text "sts:AssumeRole"]
  staleAfter := 90 * Calendar.day
  now := { wall := 0, offset := some 0 }

/-- A policy that grants an action with wildcards in the middle. -/
def wildcardPolicy : Policy where
  name := "app-role"
  provider := "aws"
  permissions := [{ action := "IAM:P?s*le", resource := "arn:aws:iam::1:role/app" }]
  lastUsed := none

/-- The action is cut among its wildcards.  In any case it covers the first of the two dangerous
actions, and both findings about it are found again. -/
theorem widened_hides_nothing_among_wildcards :
    actionMatches "IAM:P?s*" "iam:PassRole" = true ∧
    ["iam:PassRole", "sts:AssumeRole"].map (actionMatches "IAM:P?s*le") =
      ["IAM:passrole", "STS:assumerole"].map (actionMatches "iam:p?S*LE") ∧
    ∃ fs gs, roleReview.run wildcardPolicy = .ok fs ∧
      (fs.map fun x => x.ruleId.text?) =
        [some "IAM_WILDCARD_ACTION", some "IAM_DANGEROUS_ACTION_UNCONDITIONED"] ∧
      roleReview.run (wildcardPolicy.regranted 0 "IAM:P?s*") = .ok gs ∧
      ∀ x ∈ fs, ∃ y ∈ gs, StandsFor y x := by
  have hgrant : wildcardPolicy.permissions[0]? =
      some { action := "IAM:P?s*le", resource := "arn:aws:iam::1:role/app" } := rfl
  have hfront : "IAM:P?s".toList <+: "IAM:P?s*le".toList := by decide
  obtain ⟨hcovers, -, hcase, hagain⟩ :=
    widened_hides_nothing hgrant (by decide) (by decide) hfront
  have hfound : ((roleReview.run wildcardPolicy).toOption.any fun fs =>
      (fs.map fun x => x.ruleId.text?) ==
        [some "IAM_WILDCARD_ACTION", some "IAM_DANGEROUS_ACTION_UNCONDITIONED"]) = true := by
    decide +kernel
  obtain ⟨fs, hfs, hrules⟩ := any_toOption_iff.mp hfound
  obtain ⟨gs, hgs, hstands⟩ := hagain roleReview fs hfs (.inr rfl)
  refine ⟨hcovers _ (by decide +kernel), ?_, fs, gs, hfs, eq_of_beq hrules, hgs, hstands⟩
  exact hcase _ _ _ (by decide) (by decide) (by decide)

end Review

end Iam

end SecurityAudit
