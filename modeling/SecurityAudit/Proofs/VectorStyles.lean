import SecurityAudit.Proofs.Outcome
import SecurityAudit.Proofs.VectorGrammar

/-!
# Other ways to write a vector

A vector may be written in other ways: its components may come in another order, letters may be
written in the other case, and there may be other blanks around codes and tokens
(`Layout.Restyles`).  The metrics that it spells stay the same, for nothing but the normal forms of
codes and tokens counts, and blanks at the ends of the text are taken off its first and its last
component (`Layout.exists_isOf_restyled`).  So it is read as before.
-/

namespace SecurityAudit.Cvss

open Text (AlikeInCase isBlank trimChars trimLeft trimRight)

/-- A component is written in another way: the letters of its code and of its token may have another
case, and there may be other blanks around them. -/
def IsRestyled (part part' : List Char) : Prop :=
  ∃ code token code' token', part = code ++ ':' :: token ∧ ':' ∉ code ∧
    part' = code' ++ ':' :: token' ∧ AlikeInCase (trimChars code) (trimChars code') ∧
    AlikeInCase (trimChars token) (trimChars token')

/-- A layout is another one in another style: its components are written in another way and may come
in another order, and the letters in front of them may have another case. -/
structure Layout.Restyles (l l' : Layout) : Prop where
  lead : AlikeInCase l.lead l'.lead
  parts : ∃ others, l.parts.Perm others ∧ List.Forall₂ IsRestyled others l'.parts

section

variable {c e : Char} {cs ds : List Char} {k : Metric} {t : String} {part part' : List Char}

/-- A character that is neither a letter nor a blank is in a text when it is in one that is the same
but for letter case and blanks around it. -/
theorem mem_of_alikeInCase (hblank : isBlank e = false)
    (halone : ∀ c : Char, c.toLower = e.toLower → c = e)
    (h : AlikeInCase (trimChars cs) (trimChars ds)) (he : e ∈ ds) : e ∈ cs := by
  have hsolid : ∀ around : List Char, (∀ c ∈ around, isBlank c = true) → e ∉ around := by
    intro around haround hmem
    cases hblank.symm.trans (haround e hmem)
  obtain ⟨before, after, hbefore, hafter, hds⟩ := Text.exists_blanks_around ds
  rw [hds, List.mem_append, List.mem_append] at he
  have hcore : e ∈ trimChars ds := by
    rcases he with (he | he) | he
    · exact absurd he (hsolid before hbefore)
    · exact he
    · exact absurd he (hsolid after hafter)
  obtain ⟨before, after, -, -, hcs⟩ := Text.exists_blanks_around cs
  rw [hcs]
  exact List.mem_append_left _ (List.mem_append_right _ (h.mem_of_mem halone hcore))

theorem eq_of_toLower_slash (h : c.toLower = '/'.toLower) : c = '/' := by
  have hc : c.toNat < 128 := Text.ascii_of_toLower_eq h.symm (by decide)
  exact Text.forall_ascii (P := fun c => c.toLower = '/'.toLower → c = '/') (by decide) hc h

theorem eq_of_toLower_colon (h : c.toLower = ':'.toLower) : c = ':' := by
  have hc : c.toNat < 128 := Text.ascii_of_toLower_eq h.symm (by decide)
  exact Text.forall_ascii (P := fun c => c.toLower = ':'.toLower → c = ':') (by decide) hc h

/-- Texts that are the same but for letter case and blanks around them have one normal form. -/
theorem normal_eq_of_alikeInCase (h : AlikeInCase (trimChars cs) (trimChars ds)) :
    normal cs = normal ds := by
  rw [normal, normal, Text.upper, Text.upper, String.toList_ofList, String.toList_ofList,
    h.upperChars_eq]

/-- A component that is written in another way is one for the same metric and token. -/
theorem IsComponent.restyled (h : IsComponent k t part) (hstyle : IsRestyled part part') :
    IsComponent k t part' := by
  obtain ⟨code, token, rfl, hcolon, hcode, htoken⟩ := h
  obtain ⟨code₁, token₁, code', token', heq, hcolon₁, rfl, halike, halike'⟩ := hstyle
  -- A component is cut at its first colon in one way.
  have hcut := cut_append hcolon token
  rw [heq, cut_append hcolon₁] at hcut
  obtain ⟨rfl, hrest⟩ := Prod.mk.inj hcut
  obtain rfl := Option.some.inj hrest
  refine ⟨code', token', rfl, ?_, ?_, ?_⟩
  · exact fun hmem => hcolon
      (mem_of_alikeInCase (by decide) (fun _ => eq_of_toLower_colon) halike hmem)
  · rw [← normal_eq_of_alikeInCase halike, hcode]
  · rw [← normal_eq_of_alikeInCase halike', htoken]

/-- There is no slash in a component that is written in another way. -/
theorem IsRestyled.slash_not_mem (h : IsRestyled part part') (hslash : '/' ∉ part) :
    '/' ∉ part' := by
  obtain ⟨code, token, code', token', rfl, -, rfl, halike, halike'⟩ := h
  intro hmem
  apply hslash
  rcases List.mem_append.mp hmem with hmem | hmem
  · exact List.mem_append_left _
      (mem_of_alikeInCase (by decide) (fun _ => eq_of_toLower_slash) halike hmem)
  · rcases List.mem_cons.mp hmem with heq | hmem
    · cases heq
    · exact List.mem_append_right _ (List.mem_cons_of_mem _
        (mem_of_alikeInCase (by decide) (fun _ => eq_of_toLower_slash) halike' hmem))

/-! ### Blanks at the ends -/

/-- What may stand between two slashes as a component for a metric with a token. -/
def IsPart (k : Metric) (t : String) (part : List Char) : Prop :=
  IsComponent k t part ∧ '/' ∉ part

/-- There is a colon in a component, so it is not blank. -/
theorem IsPart.exists_solid (h : IsPart k t part) : ∃ c ∈ part, isBlank c = false := by
  obtain ⟨⟨code, token, rfl, -⟩, -⟩ := h
  exact ⟨':', by simp, by decide⟩

theorem normal_trimLeft (cs : List Char) : normal (trimLeft cs) = normal cs := by
  rw [normal, normal, Text.trimChars_trimLeft]

theorem normal_trimRight (cs : List Char) : normal (trimRight cs) = normal cs := by
  rw [normal, normal, Text.trimChars_trimRight]

theorem mem_of_mem_trimLeft (h : c ∈ trimLeft cs) : c ∈ cs :=
  (List.dropWhile_suffix isBlank).subset h

theorem mem_of_mem_trimRight (h : c ∈ trimRight cs) : c ∈ cs := by
  rw [Text.trimRight_eq, List.mem_reverse] at h
  exact List.mem_reverse.mp (mem_of_mem_trimLeft h)

/-- The blanks before a component do not count. -/
theorem IsPart.trimLeft (h : IsPart k t part) : IsPart k t (trimLeft part) := by
  obtain ⟨⟨code, token, rfl, hcolon, hcode, htoken⟩, hslash⟩ := h
  refine ⟨⟨Text.trimLeft code, token, ?_, ?_, ?_, htoken⟩, fun hmem => ?_⟩
  · rw [Text.trimLeft_append_cons (by decide)]
  · exact fun hmem => hcolon (mem_of_mem_trimLeft hmem)
  · rw [normal_trimLeft, hcode]
  · exact hslash (mem_of_mem_trimLeft hmem)

/-- The blanks after a component do not count. -/
theorem IsPart.trimRight (h : IsPart k t part) : IsPart k t (trimRight part) := by
  obtain ⟨⟨code, token, rfl, hcolon, hcode, htoken⟩, hslash⟩ := h
  refine ⟨⟨code, Text.trimRight token, ?_, hcolon, hcode, ?_⟩, fun hmem => ?_⟩
  · rw [Text.trimRight_append_cons (by decide)]
  · rw [normal_trimRight, htoken]
  · exact hslash (mem_of_mem_trimRight hmem)

/-- A code does not begin like a version, with whatever blanks around it. -/
theorem not_startsWith_of_code {before after : List Char} (hbefore : ∀ c ∈ before, isBlank c = true)
    (hafter : ∀ c ∈ after, isBlank c = true) (k : Metric) (rest : List Char) :
    ¬ "CVSS:".toList <+: before ++ (k.code.toList ++ (after ++ ':' :: rest)) := by
  rintro ⟨more, hmore⟩
  cases before with
  | cons b before =>
      obtain rfl : 'C' = b := by
        injection hmore
      cases hbefore 'C' List.mem_cons_self
  | nil =>
      cases k
      case confidentiality =>
        -- The code is the first letter of a version.
        cases after with
        | nil =>
            injection hmore with _ hmore
            injection hmore with hsecond _
            cases hsecond
        | cons a after =>
            injection hmore with _ hmore
            injection hmore with hsecond _
            subst hsecond
            cases hafter 'V' List.mem_cons_self
      all_goals
        injection hmore with hfirst _
        cases hfirst

/-- A text that begins with a component does not begin like a version. -/
theorem IsComponent.not_startsWith (h : IsComponent k t part) (rest : List Char) :
    ¬ "CVSS:".toList <+: Text.upperChars (part ++ rest) := by
  obtain ⟨code, token, rfl, -, hcode, -⟩ := h
  obtain ⟨before, after, hbefore, hafter, hcore⟩ := Text.exists_blanks_around code
  have hupper : Text.upperChars (trimChars code) = k.code.toList := by
    rw [← hcode, normal, Text.upper, String.toList_ofList, String.toList_ofList]
  have htext : Text.upperChars (code ++ ':' :: token ++ rest) =
      before ++ (k.code.toList ++ (after ++ ':' :: Text.upperChars (token ++ rest))) := by
    rw [List.append_assoc, List.cons_append, Text.upperChars_append, hcore,
      Text.upperChars_append, Text.upperChars_append, hupper, Text.upperChars_of_blanks hbefore,
      Text.upperChars_of_blanks hafter, List.append_assoc, List.append_assoc]
    rfl
  rw [htext]
  exact not_startsWith_of_code hbefore hafter k _

end

/-! ## What is read -/

/-- A supported version begins with a letter. -/
theorem trimLeft_of_capital {version : List Char} (h : capital version ∈ ["CVSS:3.1", "CVSS:3.0"]) :
    trimLeft version = version := by
  obtain ⟨minor, hminor⟩ := upperChars_of_capital h
  cases version with
  | nil => rfl
  | cons c version =>
      refine List.dropWhile_cons_of_neg fun hblank => ?_
      rw [Text.upperChars, List.flatMap_cons, Text.upperChar_of_isBlank hblank] at hminor
      injection hminor with hfirst _
      subst hfirst
      cases hblank

/-- What stands in front of a vector may be written in another letter case. -/
theorem IsLead.restyled {lead lead' : List Char} (h : IsLead lead)
    (halike : AlikeInCase lead lead') :
    IsLead lead' := by
  obtain ⟨version, rfl, hslash, hknown⟩ := h
  have hversion := List.forall₂_take_append lead' version ['/'] halike.flip
  have hend := List.forall₂_drop_append lead' version ['/'] halike.flip
  rw [← List.take_append_drop version.length lead']
  generalize lead'.take version.length = version' at hversion ⊢
  generalize lead'.drop version.length = last at hend ⊢
  obtain ⟨d, rfl⟩ := List.length_eq_one_iff.mp hend.length_eq
  obtain rfl : d = '/' := eq_of_toLower_slash (List.forall₂_cons.mp hend).1.symm
  have hversion : AlikeInCase version version' := hversion.flip
  refine ⟨version', rfl, fun hmem => ?_, ?_⟩
  · exact hslash (hversion.mem_of_mem (fun _ => eq_of_toLower_slash) hmem)
  · rwa [capital, Text.upper, String.toList_ofList, ← hversion.upperChars_eq,
      ← String.toList_ofList (l := version), ← Text.upper, ← capital]

namespace Layout

variable {l l' : Layout} {text blanks : List Char} {m : Metrics}

/-- Components that are written in another way are parts for the same metrics and tokens. -/
theorem forall₂_isPart_of_restyled {ks : List Metric} {parts parts' : List (List Char)}
    (h : List.Forall₂ (fun k part => IsComponent k (m.token k) part) ks parts)
    (hslash : ∀ part ∈ parts, '/' ∉ part) (hstyle : List.Forall₂ IsRestyled parts parts') :
    List.Forall₂ (fun k part => IsPart k (m.token k) part) ks parts' := by
  induction h generalizing parts' with
  | nil =>
      cases hstyle
      exact .nil
  | cons hpart _ ih =>
      obtain ⟨hfirst, hrest⟩ := List.forall_mem_cons.mp hslash
      cases hstyle with
      | cons hrestyled hlater =>
          exact .cons ⟨hpart.restyled hrestyled, hrestyled.slash_not_mem hfirst⟩ (ih hrest hlater)

/-- The metrics stay the same in another style. -/
theorem Spells.restyled (h : l.Spells m) (hslash : ∀ part ∈ l.parts, '/' ∉ part)
    (hstyle : l.Restyles l') :
    ∃ ks : List Metric, ks.Perm Metric.all ∧
      List.Forall₂ (fun k part => IsPart k (m.token k) part) ks l'.parts := by
  obtain ⟨ks, hks, hparts⟩ := h
  obtain ⟨others, hperm, hrestyled⟩ := hstyle.parts
  obtain ⟨ks', hothers, hks'⟩ := List.perm_comp_forall₂ hperm.symm hparts.flip
  have hslash' : ∀ part ∈ others, '/' ∉ part := fun part hpart =>
    hslash part (hperm.mem_iff.mpr hpart)
  exact ⟨ks', hks'.trans hks, forall₂_isPart_of_restyled hothers.flip hslash' hrestyled⟩

/-- Parts with nothing or a supported version in front of them are a layout. -/
theorem isOf_of_forall₂ {lead : List Char} {parts : List (List Char)} {ks : List Metric}
    (hlead : IsLead lead ∨ lead = []) (hks : ks.Perm Metric.all)
    (hparts : List.Forall₂ (fun k part => IsPart k (m.token k) part) ks parts) :
    IsOf ⟨lead, parts⟩ (lead ++ ['/'].intercalate parts) := by
  refine ⟨rfl, ?_, parts_ne_nil hks hparts, fun part hmem => ?_⟩
  · rcases hlead with ⟨version, rfl, hslash, hknown⟩ | rfl
    · rw [if_pos]
      · exact ⟨version, rfl, hslash, hknown⟩
      · rw [List.append_assoc]
        exact prefix_of_capital hknown _
    · rw [if_neg]
      -- The first component does not begin like a version.
      cases hparts with
      | nil => cases hks.length_eq
      | @cons k part _ parts hpart _ =>
          obtain ⟨tail, htail⟩ := Text.exists_intercalate_cons '/' parts
          rw [List.nil_append, htail]
          exact hpart.1.not_startsWith tail
  · obtain ⟨k, -, hpart⟩ := exists_of_forall₂_of_mem hparts hmem
    exact hpart.2

/-- Blanks at the ends of a text are those in front and those at the ends of its parts. -/
theorem exists_trimChars_eq {ks : List Metric} (hlead : IsLead l.lead ∨ l.lead = [])
    (hparts : List.Forall₂ (fun k part => IsPart k (m.token k) part) ks l.parts)
    (hblanks : ∀ c ∈ blanks, isBlank c = true) :
    ∃ parts, trimChars (blanks ++ l.chars) = l.lead ++ ['/'].intercalate parts ∧
      List.Forall₂ (fun k part => IsPart k (m.token k) part) ks parts := by
  rw [trimChars, Text.trimLeft_blanks_append hblanks, chars]
  rcases hlead with ⟨version, hversion, -, hknown⟩ | hnone
  · -- What stands in front keeps the first part from being trimmed on the left.
    obtain ⟨parts, htrim, hparts⟩ := Text.exists_trimRight_intercalate '/'
      (fun _ _ hpart => hpart.exists_solid) (fun _ _ hpart => hpart.trimRight) hparts
    refine ⟨parts, ?_, hparts⟩
    rw [hversion, List.append_assoc, List.singleton_append,
      Text.trimLeft_append_cons (by decide), trimLeft_of_capital hknown,
      Text.trimRight_append_cons (by decide), htrim, List.append_assoc, List.singleton_append]
  · obtain ⟨parts, hleft, hparts⟩ := Text.exists_trimLeft_intercalate '/'
      (fun _ _ hpart => hpart.exists_solid) (fun _ _ hpart => hpart.trimLeft) hparts
    obtain ⟨parts', hright, hparts'⟩ := Text.exists_trimRight_intercalate '/'
      (fun _ _ hpart => hpart.exists_solid) (fun _ _ hpart => hpart.trimRight) hparts
    refine ⟨parts', ?_, hparts'⟩
    rw [hnone, List.nil_append, List.nil_append, hleft, hright]

/-- What stands in front of a text in another style is a version, or nothing. -/
theorem IsOf.lead_restyled (hl : l.IsOf text) (hstyle : l.Restyles l') :
    IsLead l'.lead ∨ l'.lead = [] := by
  have hlead := hl.lead
  by_cases hprefix : "CVSS:".toList <+: Text.upperChars text
  · rw [if_pos hprefix] at hlead
    exact .inl (hlead.restyled hstyle.lead)
  · rw [if_neg hprefix] at hlead
    have halike := hstyle.lead
    rw [hlead] at halike
    exact .inr (List.forall₂_nil_left_iff.mp halike)

/-- A text in another style, with blanks in front, is laid out again when it is trimmed, and spells
the same metrics. -/
theorem exists_isOf_restyled (hl : l.IsOf text) (h : l.Spells m) (hstyle : l.Restyles l')
    (hblanks : ∀ c ∈ blanks, isBlank c = true) :
    ∃ l'' : Layout, l''.IsOf (trimChars (blanks ++ l'.chars)) ∧ l''.Spells m := by
  have hlead := hl.lead_restyled hstyle
  obtain ⟨ks, hks, hparts⟩ := h.restyled hl.parts hstyle
  obtain ⟨parts, htext, hparts⟩ := exists_trimChars_eq hlead hparts hblanks
  refine ⟨⟨l'.lead, parts⟩, ?_, ks, hks, hparts.imp fun _ _ hpart => hpart.1⟩
  rw [htext]
  exact isOf_of_forall₂ hlead hks hparts

end Layout

/-- **Which texts are vectors, and what they stand for.**  A text is read when it is a vector, after
it has been trimmed, and there is a problem when it is not.  What is read are the metrics that it
spells.  They are the same when the text is laid out in another style, with whatever blanks in
front, and they are read again from their own text. -/
theorem Metrics.ofVector_grammar (s : String) :
    ((∃ m, Metrics.ofVector s = .ok m) ↔ IsVector (trimChars s.toList)) ∧
    (¬ IsVector (trimChars s.toList) → ∃ p : Problem, Metrics.ofVector s = .error p) ∧
    ∀ m, Metrics.ofVector s = .ok m →
      (∃ l : Layout, l.IsOf (trimChars s.toList) ∧ l.Spells m) ∧
      (∀ (l l' : Layout) (blanks : List Char), l.IsOf (trimChars s.toList) → l.Restyles l' →
        (∀ c ∈ blanks, isBlank c = true) →
          Metrics.ofVector (String.ofList (blanks ++ l'.chars)) = .ok m) ∧
      Metrics.ofVector m.vector = .ok m := by
  refine ⟨exists_ofVector_iff, fun hnot => ?_, fun m h => ?_⟩
  · cases hread : Metrics.ofVector s with
    | error p => exact ⟨p, rfl⟩
    | ok m => exact absurd (exists_ofVector_iff.mp ⟨m, hread⟩) hnot
  · obtain ⟨l₀, hl₀, hspells⟩ := exists_layout_of_ofVector h
    refine ⟨⟨l₀, hl₀, hspells⟩, fun l l' blanks hl hstyle hblanks => ?_, ofVector_vector m⟩
    have hspells : l.Spells m := by
      rw [Layout.Spells, hl.parts_eq hl₀]
      exact hspells
    obtain ⟨l'', hl'', hspells''⟩ := Layout.exists_isOf_restyled hl hspells hstyle hblanks
    rw [← String.toList_ofList (l := blanks ++ l'.chars)] at hl''
    exact ofVector_of_spells hl'' hspells''

/-- A vector, laid out. -/
def plainLayout : Layout where
  lead := "CVSS:3.1/".toList
  parts := ["AV:N", "AC:L", "PR:N", "UI:N", "S:U", "C:H", "I:H", "A:N"].map String.toList

/-- The same vector in another style: the last component comes first, and letters and blanks
differ. -/
def motleyLayout : Layout where
  lead := "cvss:3.1/".toList
  parts := [" a :\tn", "av:N", "AC:l", "PR: N ", "UI:N", "S:U", "C:H", "I:H  "].map String.toList

theorem plainLayout_restyles : plainLayout.Restyles motleyLayout where
  lead := by decide
  parts := by
    refine ⟨["A:N", "AV:N", "AC:L", "PR:N", "UI:N", "S:U", "C:H", "I:H"].map String.toList,
      by decide, ?_⟩
    have hsame : ∀ code token code' token' : List Char, ':' ∉ code →
        AlikeInCase (trimChars code) (trimChars code') →
        AlikeInCase (trimChars token) (trimChars token') →
        IsRestyled (code ++ ':' :: token) (code' ++ ':' :: token') :=
      fun code token code' token' hcolon hcode htoken =>
        ⟨code, token, code', token', rfl, hcolon, rfl, hcode, htoken⟩
    refine .cons (hsame ['A'] ['N'] [' ', 'a', ' '] ['\t', 'n'] ?_ ?_ ?_) <|
      .cons (hsame ['A', 'V'] ['N'] ['a', 'v'] ['N'] ?_ ?_ ?_) <|
      .cons (hsame ['A', 'C'] ['L'] ['A', 'C'] ['l'] ?_ ?_ ?_) <|
      .cons (hsame ['P', 'R'] ['N'] ['P', 'R'] [' ', 'N', ' '] ?_ ?_ ?_) <|
      .cons (hsame ['U', 'I'] ['N'] ['U', 'I'] ['N'] ?_ ?_ ?_) <|
      .cons (hsame ['S'] ['U'] ['S'] ['U'] ?_ ?_ ?_) <|
      .cons (hsame ['C'] ['H'] ['C'] ['H'] ?_ ?_ ?_) <|
      .cons (hsame ['I'] ['H'] ['I'] ['H', ' ', ' '] ?_ ?_ ?_) .nil
    all_goals decide

/-- The vector is read in both styles, with blanks in front of the second. -/
theorem ofVector_grammar_motley :
    ∃ m, Metrics.ofVector "CVSS:3.1/AV:N/AC:L/PR:N/UI:N/S:U/C:H/I:H/A:N" = .ok m ∧
      Metrics.ofVector "  cvss:3.1/ a :\tn/av:N/AC:l/PR: N /UI:N/S:U/C:H/I:H  " = .ok m ∧
      m.confidentiality = .high ∧ m.scope = .unchanged := by
  obtain ⟨-, -, hread⟩ :=
    Metrics.ofVector_grammar "CVSS:3.1/AV:N/AC:L/PR:N/UI:N/S:U/C:H/I:H/A:N"
  have hplain : ((Metrics.ofVector "CVSS:3.1/AV:N/AC:L/PR:N/UI:N/S:U/C:H/I:H/A:N").toOption.any
      fun m => m.confidentiality == .high && m.scope == .unchanged) = true := by
    decide +kernel
  obtain ⟨m, hm, hlevels⟩ := any_toOption_iff.mp hplain
  obtain ⟨hhigh, hunchanged⟩ := Bool.and_eq_true_iff.mp hlevels
  obtain ⟨-, hstyles, -⟩ := hread m hm
  have hl : plainLayout.IsOf
      (trimChars "CVSS:3.1/AV:N/AC:L/PR:N/UI:N/S:U/C:H/I:H/A:N".toList) := by
    refine ⟨by decide +kernel, ?_, by decide, by decide⟩
    rw [if_pos (by decide +kernel)]
    exact ⟨"CVSS:3.1".toList, by decide, by decide, by decide⟩
  have hblanks : ∀ c ∈ [' ', ' '], isBlank c = true := by
    intro c hc
    obtain rfl : c = ' ' := by simpa using hc
    rfl
  have hmotley := hstyles plainLayout motleyLayout [' ', ' '] hl plainLayout_restyles hblanks
  exact ⟨m, hm, hmotley, eq_of_beq hhigh, eq_of_beq hunchanged⟩

end SecurityAudit.Cvss
