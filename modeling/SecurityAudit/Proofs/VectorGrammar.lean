import Mathlib.Data.List.Perm.Basic
import SecurityAudit.Proofs.LetterCase
import SecurityAudit.Proofs.VectorText

/-!
# Which texts are vectors

A text that is trimmed has one layout (`Layout.IsOf`): if it begins like a version, a version that
is supported and a slash stand in front, and otherwise nothing; the rest is divided at the slashes.
It is a vector when the parts are components for the eight metrics, each once and in whatever order,
with tokens that the metrics have (`IsVector`).

These texts are read and no others (`exists_ofVector_iff`).  What is read are the metrics whose
tokens are written (`Layout.Spells`): a text that is read spells the metrics, and a text that spells
metrics is read as them.
-/

namespace SecurityAudit.Cvss

open Text (AlikeInCase isBlank trimChars trimLeft trimRight)

/-! ## The grammar -/

/-- The tokens of some levels. -/
def Level.tokens (α : Type) [Level α] : List String :=
  (Level.levels : List α).map Level.token

/-- The tokens of a metric. -/
def Metric.tokens : Metric → List String
  | .attackVector => Level.tokens AttackVector
  | .attackComplexity => Level.tokens AttackComplexity
  | .privileges => Level.tokens Privileges
  | .interaction => Level.tokens Interaction
  | .scope => Level.tokens Scope
  | .confidentiality | .integrity | .availability => Level.tokens Impact

/-- How a text is laid out: what stands in front, and parts with slashes between them. -/
structure Layout where
  lead : List Char
  parts : List (List Char)

/-- The text of a layout. -/
def Layout.chars (l : Layout) : List Char :=
  l.lead ++ ['/'].intercalate l.parts

/-- What may stand in front of a vector: a version that is supported, in any letter case, and a
slash. -/
def IsLead (lead : List Char) : Prop :=
  ∃ version, lead = version ++ ['/'] ∧ '/' ∉ version ∧ capital version ∈ ["CVSS:3.1", "CVSS:3.0"]

/-- A text is laid out in a way: there is a version in front when it begins like one, and there are
no slashes but those between the parts. -/
structure Layout.IsOf (l : Layout) (text : List Char) : Prop where
  chars_eq : l.chars = text
  lead : if "CVSS:".toList <+: Text.upperChars text then IsLead l.lead else l.lead = []
  nonempty : l.parts ≠ []
  parts : ∀ part ∈ l.parts, '/' ∉ part

/-- A text is a vector: its parts are components for the eight metrics, each once, with tokens that
they have. -/
def IsVector (text : List Char) : Prop :=
  ∃ l : Layout, l.IsOf text ∧ ∃ ks : List Metric, ks.Perm Metric.all ∧
    List.Forall₂ (fun k part => ∃ t ∈ k.tokens, IsComponent k t part) ks l.parts

/-- The parts of a layout are components for the eight metrics, each once, with the tokens of some
metrics. -/
def Layout.Spells (l : Layout) (m : Metrics) : Prop :=
  ∃ ks : List Metric, ks.Perm Metric.all ∧
    List.Forall₂ (fun k part => IsComponent k (m.token k) part) ks l.parts

/-! ## The version -/

/-- A text that is cut at a character consists of what precedes it, of it, and of what follows. -/
theorem eq_of_cut {c : Char} {cs front rest : List Char} (h : cut c cs = (front, some rest)) :
    cs = front ++ c :: rest ∧ c ∉ front := by
  rw [cut] at h
  cases hdrop : cs.dropWhile (· != c) with
  | nil =>
      rw [hdrop] at h
      cases h
  | cons d ds =>
      rw [hdrop] at h
      obtain ⟨rfl, hrest⟩ := Prod.mk.inj h
      obtain rfl := Option.some.inj hrest
      have hd : d = c := by
        have hstop := List.head?_dropWhile_not (· != c) cs
        rw [hdrop] at hstop
        simpa using hstop
      subst hd
      refine ⟨?_, fun hmem => ?_⟩
      · rw [← hdrop, List.takeWhile_append_dropWhile]
      · simpa using List.mem_takeWhile_imp hmem

/-- The capital letters of a supported version. -/
theorem upperChars_of_capital {version : List Char}
    (h : capital version ∈ ["CVSS:3.1", "CVSS:3.0"]) :
    ∃ minor, Text.upperChars version = "CVSS:3.".toList ++ [minor] := by
  have hupper : Text.upperChars version = (capital version).toList := by
    rw [capital, Text.upper, String.toList_ofList, String.toList_ofList]
  rw [hupper]
  rcases List.mem_cons.mp h with heq | h
  · exact ⟨'1', by rw [heq]; rfl⟩
  · exact ⟨'0', by rw [List.mem_singleton.mp h]; rfl⟩

/-- A text with a supported version in front begins like a version. -/
theorem prefix_of_capital {version : List Char} (h : capital version ∈ ["CVSS:3.1", "CVSS:3.0"])
    (rest : List Char) : "CVSS:".toList <+: Text.upperChars (version ++ rest) := by
  obtain ⟨minor, hminor⟩ := upperChars_of_capital h
  rw [Text.upperChars_append, hminor]
  exact ⟨"3.".toList ++ [minor] ++ Text.upperChars rest, rfl⟩

namespace Layout

variable {l l' : Layout} {text : List Char}

/-- The version is taken off a text that is laid out. -/
theorem IsOf.withoutVersion (h : l.IsOf text) :
    Cvss.withoutVersion text = .ok (['/'].intercalate l.parts) := by
  have hlead := h.lead
  have hchars := h.chars_eq
  rw [chars] at hchars
  by_cases hprefix : "CVSS:".toList <+: Text.upperChars text
  · rw [if_pos hprefix] at hlead
    obtain ⟨version, hversion, hslash, hknown⟩ := hlead
    rw [hversion, List.append_assoc, List.singleton_append] at hchars
    have hcut : cut '/' text = (version, some (['/'].intercalate l.parts)) := by
      rw [← hchars, cut_append hslash]
    have hcontains : ["CVSS:3.1", "CVSS:3.0"].contains (capital version) = true :=
      List.contains_iff_mem.mpr hknown
    simp only [Cvss.withoutVersion, List.isPrefixOf_iff_prefix.mpr hprefix, hcut, hcontains,
      if_true, Option.getD_some]
  · rw [if_neg hprefix] at hlead
    rw [hlead, List.nil_append] at hchars
    have hnot : "CVSS:".toList.isPrefixOf (Text.upperChars text) = false := by
      rw [Bool.eq_false_iff, ne_eq, List.isPrefixOf_iff_prefix]
      exact hprefix
    rw [hchars]
    simp only [Cvss.withoutVersion, hnot, Bool.false_eq_true, if_false]

/-- A text is laid out if its version can be taken off and is not all there is. -/
theorem exists_isOf {body : List Char} (h : Cvss.withoutVersion text = .ok body)
    (hbody : body ≠ []) : ∃ l : Layout, l.IsOf text ∧ l.parts = Text.splitAt '/' body := by
  have hparts : ∀ part ∈ Text.splitAt '/' body, '/' ∉ part := fun _ => Text.not_mem_of_mem_splitAt
  have hjoin := Text.intercalate_splitAt '/' body
  by_cases hprefix : "CVSS:".toList <+: Text.upperChars text
  · simp only [Cvss.withoutVersion, List.isPrefixOf_iff_prefix.mpr hprefix, if_true] at h
    cases hcut : cut '/' text with
    | mk version rest =>
        simp only [hcut] at h
        split at h
        · rename_i hcontains
          have hknown : capital version ∈ ["CVSS:3.1", "CVSS:3.0"] :=
            List.contains_iff_mem.mp hcontains
          cases rest with
          | none => exact absurd (Except.ok.inj h).symm hbody
          | some rest =>
              obtain rfl : rest = body := Except.ok.inj h
              obtain ⟨htext, hslash⟩ := eq_of_cut hcut
              refine ⟨⟨version ++ ['/'], Text.splitAt '/' rest⟩, ⟨?_, ?_, ?_, hparts⟩, rfl⟩
              · rw [chars, hjoin, htext, List.append_assoc, List.singleton_append]
              · rw [if_pos hprefix]
                exact ⟨version, rfl, hslash, hknown⟩
              · exact Text.splitAt_ne_nil _ _
        · cases h
  · have hnot : "CVSS:".toList.isPrefixOf (Text.upperChars text) = false := by
      rw [Bool.eq_false_iff, ne_eq, List.isPrefixOf_iff_prefix]
      exact hprefix
    simp only [Cvss.withoutVersion, hnot, Bool.false_eq_true, if_false] at h
    obtain rfl := Except.ok.inj h
    refine ⟨⟨[], Text.splitAt '/' text⟩, ⟨?_, ?_, Text.splitAt_ne_nil _ _, hparts⟩, rfl⟩
    · rw [chars, List.nil_append, hjoin]
    · rw [if_neg hprefix]

/-- A text has one way to be divided into parts. -/
theorem IsOf.parts_eq (h : l.IsOf text) (h' : l'.IsOf text) : l.parts = l'.parts := by
  have hbody := Except.ok.inj (h.withoutVersion.symm.trans h'.withoutVersion)
  rw [← Text.splitAt_intercalate h.nonempty h.parts, hbody,
    Text.splitAt_intercalate h'.nonempty h'.parts]

end Layout

/-! ## What is read -/

section

variable {m m' : Metrics} {seen seen' : List Metric} {k : Metric} {t : String} {part : List Char}
  {parts : List (List Char)}

/-- A metric that is found by a code has that code. -/
theorem Metric.code_of_ofCode? {code : String} (h : Metric.ofCode? code = some k) :
    k.code = code := by
  have hfound := List.find?_some h
  exact eq_of_beq hfound

/-- A metric that is set to the level of a token has that token; the others keep theirs. -/
theorem Metrics.token_of_set? (h : m.set? (Level.ofToken? t) k = some m') :
    m'.token k = t ∧ ∀ l, l ≠ k → m'.token l = m.token l := by
  have hlevel : ∀ {α : Type} [Level α] {level : α}, Level.ofToken? t = some level →
      Level.token level = t := by
    intro α _ level hlevel
    have hfound := List.find?_some hlevel
    exact beq_iff_eq.mp hfound
  cases k
  all_goals
    obtain ⟨level, htoken, rfl⟩ := Option.map_eq_some_iff.mp h
    refine ⟨hlevel htoken, fun l hl => ?_⟩
    cases l <;> first | rfl | exact absurd rfl hl

/-- A part that is read is a component for a metric that had not been seen. -/
theorem isComponent_of_readComponent (h : readComponent m seen part = .ok (m', seen')) :
    ∃ k, IsComponent k (m'.token k) part ∧ k ∉ seen ∧ seen' = k :: seen ∧
      ∀ l, l ≠ k → m'.token l = m.token l := by
  rw [readComponent] at h
  cases hcut : cut ':' part with
  | mk code token =>
      cases token with
      | none => simp [hcut] at h
      | some token =>
          cases hcode : Metric.ofCode? (normal code) with
          | none => simp [hcut, hcode] at h
          | some k =>
              simp only [hcut, hcode] at h
              split at h
              · cases h
              · rename_i hseen
                split at h
                · rename_i hset
                  obtain ⟨rfl, rfl⟩ := Prod.mk.inj (Except.ok.inj h)
                  obtain ⟨htoken, hothers⟩ := Metrics.token_of_set? hset
                  obtain ⟨hpart, hcolon⟩ := eq_of_cut hcut
                  exact ⟨k, ⟨code, token, hpart, hcolon,
                (Metric.code_of_ofCode? hcode).symm, htoken.symm⟩,
                    by simpa using hseen, rfl, hothers⟩
                · cases h

/-- Parts that are read are components for metrics that had not been seen, each once. -/
theorem forall₂_of_readComponents (h : readComponents m seen parts = .ok (m', seen')) :
    ∃ ks : List Metric, seen' = ks.reverse ++ seen ∧ ks.Nodup ∧ (∀ k ∈ ks, k ∉ seen) ∧
      List.Forall₂ (fun k part => IsComponent k (m'.token k) part) ks parts ∧
      ∀ l, l ∉ ks → m'.token l = m.token l := by
  induction parts generalizing m seen with
  | nil =>
      obtain ⟨rfl, rfl⟩ := Prod.mk.inj (Except.ok.inj h)
      exact ⟨[], rfl, .nil, List.forall_mem_nil _, .nil, fun _ _ => rfl⟩
  | cons part parts ih =>
      rw [readComponents] at h
      cases hread : readComponent m seen part with
      | error p => simp [hread] at h
      | ok read =>
          obtain ⟨m₁, seen₁⟩ := read
          simp only [hread] at h
          obtain ⟨k, hpart, hk, rfl, hfirst⟩ := isComponent_of_readComponent hread
          obtain ⟨ks, rfl, hnodup, hnew, hparts, hothers⟩ := ih h
          have hnot : k ∉ ks := fun hmem => hnew k hmem List.mem_cons_self
          refine ⟨k :: ks, by simp, List.nodup_cons.mpr ⟨hnot, hnodup⟩, ?_, ?_, ?_⟩
          · exact List.forall_mem_cons.mpr
              ⟨hk, fun l hl hmem => hnew l hl (List.mem_cons_of_mem k hmem)⟩
          · -- The metric of the first part is not set again.
            rw [← hothers k hnot] at hpart
            exact .cons hpart hparts
          · intro l hl
            rw [hothers l fun hmem => hl (List.mem_cons_of_mem k hmem)]
            exact hfirst l fun heq => hl (heq ▸ List.mem_cons_self)

end

namespace Metrics

variable {m : Metrics} {s : String} {l : Layout}

/-- **A text that spells metrics is read as them.** -/
theorem ofVector_of_spells (hl : l.IsOf (trimChars s.toList)) (h : l.Spells m) :
    Metrics.ofVector s = .ok m := by
  obtain ⟨ks, hks, hparts⟩ := h
  exact ofVector_of_components hl.withoutVersion hl.parts hks hparts

/-- **A text that is read spells the metrics.** -/
theorem exists_layout_of_ofVector (h : Metrics.ofVector s = .ok m) :
    ∃ l : Layout, l.IsOf (trimChars s.toList) ∧ l.Spells m := by
  simp only [ofVector, bind, Except.bind] at h
  cases hbody : withoutVersion (trimChars s.toList) with
  | error p => simp [hbody] at h
  | ok body =>
      simp only [hbody] at h
      cases hread : readComponents {} [] (Text.splitAt '/' body) with
      | error p => simp [hread] at h
      | ok read =>
          obtain ⟨m', seen⟩ := read
          simp only [hread] at h
          split at h
          · rename_i hmissing
            obtain rfl := Except.ok.inj h
            obtain ⟨ks, rfl, hnodup, -, hparts, -⟩ := forall₂_of_readComponents hread
            have hall : ∀ k, k ∈ ks := fun k => by
              have hk := List.filter_eq_nil_iff.mp hmissing k k.mem_all
              simpa using hk
            have hks : ks.Perm Metric.all :=
              (List.perm_ext_iff_of_nodup hnodup (by decide)).mpr fun k =>
                iff_of_true (hall k) k.mem_all
            have hnonempty : body ≠ [] := by
              rintro rfl
              -- There is one part then, and there are eight metrics.
              have hlength := hparts.length_eq
              rw [hks.length_eq] at hlength
              cases hlength
            obtain ⟨l, hl, heq⟩ := Layout.exists_isOf hbody hnonempty
            exact ⟨l, hl, ks, hks, heq ▸ hparts⟩
          · cases h

end Metrics

/-! ## Which texts are read -/

/-- A level's token is one of its tokens. -/
theorem Level.token_mem_tokens {α : Type} [Level α] [Level.Readable α] (level : α) :
    Level.token level ∈ Level.tokens α := by
  have hfound := Level.Readable.ofToken?_token level
  exact List.mem_map_of_mem (List.mem_of_find?_eq_some hfound)

/-- The tokens of metrics are tokens that they may have. -/
theorem Metrics.token_mem_tokens (m : Metrics) (k : Metric) : m.token k ∈ k.tokens := by
  cases k <;> exact Level.token_mem_tokens _

/-- A metric can be given any of its tokens. -/
theorem Metrics.exists_token (m : Metrics) {k : Metric} {t : String} (ht : t ∈ k.tokens) :
    ∃ m' : Metrics, m'.token k = t ∧ ∀ l, l ≠ k → m'.token l = m.token l := by
  have hset : ∃ m', m.set? (Level.ofToken? t) k = some m' := by
    have hlevel : ∀ {α : Type} [Level α], t ∈ Level.tokens α →
        ∃ level : α, Level.ofToken? t = some level := by
      intro α _ ht
      obtain ⟨level, hlevel, rfl⟩ := List.mem_map.mp ht
      exact Option.isSome_iff_exists.mp
        (List.find?_isSome.mpr ⟨level, hlevel, beq_self_eq_true _⟩)
    cases k
    all_goals
      obtain ⟨level, hlevel⟩ := hlevel ht
      exact ⟨_, congrArg (Option.map _) hlevel⟩
  obtain ⟨m', hm'⟩ := hset
  exact ⟨m', token_of_set? hm'⟩

/-- Components for different metrics, with tokens that these have, are those of some metrics. -/
theorem exists_metrics {ks : List Metric} {parts : List (List Char)} (hnodup : ks.Nodup)
    (h : List.Forall₂ (fun k part => ∃ t ∈ k.tokens, IsComponent k t part) ks parts) :
    ∃ m : Metrics, List.Forall₂ (fun k part => IsComponent k (m.token k) part) ks parts := by
  induction h with
  | nil => exact ⟨{}, .nil⟩
  | @cons k part ks parts hpart _ ih =>
      obtain ⟨hk, hnodup⟩ := List.nodup_cons.mp hnodup
      obtain ⟨m, hparts⟩ := ih hnodup
      obtain ⟨t, ht, hpart⟩ := hpart
      obtain ⟨m', rfl, hothers⟩ := m.exists_token ht
      obtain ⟨hlength, hparts⟩ := List.forall₂_iff_zip.mp hparts
      refine ⟨m', .cons hpart (List.forall₂_iff_zip.mpr ⟨hlength, fun {l part} hmem => ?_⟩)⟩
      have hl : l ≠ k := fun heq => hk (heq ▸ (List.of_mem_zip hmem).1)
      rw [hothers l hl]
      exact hparts hmem

/-- **The texts that are read are the vectors.** -/
theorem exists_ofVector_iff {s : String} :
    (∃ m, Metrics.ofVector s = .ok m) ↔ IsVector (trimChars s.toList) := by
  constructor
  · rintro ⟨m, h⟩
    obtain ⟨l, hl, ks, hks, hparts⟩ := Metrics.exists_layout_of_ofVector h
    exact ⟨l, hl, ks, hks, hparts.imp fun k _ hpart => ⟨_, m.token_mem_tokens k, hpart⟩⟩
  · rintro ⟨l, hl, ks, hks, hparts⟩
    obtain ⟨m, hm⟩ := exists_metrics (hks.nodup_iff.mpr (by decide)) hparts
    exact ⟨m, Metrics.ofVector_of_spells hl ⟨ks, hks, hm⟩⟩

end SecurityAudit.Cvss
