import Mathlib.Data.List.Forall2
import SecurityAudit.Cvss.Vector
import SecurityAudit.Proofs.TextPieces

/-!
# Vectors are read as they are written

A component of a vector is a code and a token with a colon between them (`IsComponent`).  When the
components of a vector are those of the eight metrics, in whatever order, each of them sets the
metric that it is for, and what is read are the metrics whose tokens the components have
(`ofVector_of_components`).

The text of metrics is eight components after the version, in capital letters.  None of them holds
what separates them, so the text is divided into the components again.
-/

namespace SecurityAudit

namespace Text

/-- A capital letter of ASCII. -/
def IsCapital (c : Char) : Prop :=
  'A' ≤ c ∧ c ≤ 'Z'

instance (c : Char) : Decidable (IsCapital c) :=
  inferInstanceAs (Decidable (_ ∧ _))

/-- A text can be checked for capital letters. -/
theorem isCapital_of_all {cs : List Char} (h : cs.all (IsCapital ·) = true) :
    ∀ c ∈ cs, IsCapital c :=
  fun c hc => of_decide_eq_true (List.all_eq_true.mp h c hc)

/-- The place of a capital letter among the characters. -/
theorem IsCapital.toNat_bounds {c : Char} (h : IsCapital c) : 65 ≤ c.toNat ∧ c.toNat ≤ 90 :=
  h

theorem IsCapital.not_isBlank {c : Char} (h : IsCapital c) : isBlank c = false := by
  obtain ⟨hleast, hmost⟩ := h.toNat_bounds
  have hsmall : c.toNat < 128 := by omega
  simp only [isBlank, hsmall, if_true]
  rw [Bool.or_eq_false_iff, Bool.or_eq_false_iff]
  refine ⟨⟨?_, ?_⟩, ?_⟩
  · rw [beq_eq_false_iff_ne]
    omega
  · rw [Bool.and_eq_false_iff, decide_eq_false_iff_not, decide_eq_false_iff_not]
    omega
  · rw [Bool.and_eq_false_iff, decide_eq_false_iff_not, decide_eq_false_iff_not]
    omega

/-- A capital letter is one already. -/
theorem IsCapital.upperChar_eq {c : Char} (h : IsCapital c) : upperChar c = [c] := by
  obtain ⟨hleast, hmost⟩ := h.toNat_bounds
  have hsmall : c.toNat < 128 := by omega
  have hnotLower : ¬ ('a' ≤ c ∧ c ≤ 'z') := by
    rintro ⟨ha, -⟩
    have ha : 97 ≤ c.toNat := ha
    omega
  simp [upperChar, hsmall, hnotLower]

/-- Capital letters stay as they are when a text is put in capital letters. -/
theorem upperChars_of_capitals {cs : List Char} (h : ∀ c ∈ cs, IsCapital c) :
    upperChars cs = cs := by
  induction cs with
  | nil => rfl
  | cons c cs ih =>
      obtain ⟨hc, hcs⟩ := List.forall_mem_cons.mp h
      have hrest : upperChars cs = cs := ih hcs
      rw [upperChars, List.flatMap_cons, hc.upperChar_eq, ← upperChars, hrest]
      rfl

end Text

namespace Cvss

/-- A text is cut at the first place where a character stands. -/
theorem cut_append {c : Char} {cs : List Char} (h : c ∉ cs) (rest : List Char) :
    cut c (cs ++ c :: rest) = (cs, some rest) := by
  have hall : ∀ d ∈ cs, (d != c) = true := by
    intro d hd
    rw [bne_iff_ne]
    rintro rfl
    exact h hd
  have hdrop : (cs ++ c :: rest).dropWhile (· != c) = c :: rest := by
    rw [List.dropWhile_append_of_pos hall]
    simp
  have htake : (cs ++ c :: rest).takeWhile (· != c) = cs := by
    rw [List.takeWhile_append_of_pos hall]
    simp
  simp only [cut, hdrop, htake]

/-- Capital letters are normal already. -/
theorem normal_of_capitals {s : String} (h : ∀ c ∈ s.toList, Text.IsCapital c) :
    normal s.toList = s := by
  rw [normal, Text.trimChars_of_not_blank fun c hc => (h c hc).not_isBlank, Text.upper,
    String.toList_ofList, Text.upperChars_of_capitals h, String.ofList_toList]

/-- The levels of a metric can be read from their tokens, which are in capital letters. -/
class Level.Readable (α : Type) [Level α] : Prop where
  capitals : ∀ l : α, ∀ c ∈ (Level.token l).toList, Text.IsCapital c
  ofToken?_token : ∀ l : α, Level.ofToken? (Level.token l) = some l

instance : Level.Readable AttackVector where
  capitals l := by cases l <;> exact Text.isCapital_of_all (by decide)
  ofToken?_token l := by cases l <;> decide

instance : Level.Readable AttackComplexity where
  capitals l := by cases l <;> exact Text.isCapital_of_all (by decide)
  ofToken?_token l := by cases l <;> decide

instance : Level.Readable Privileges where
  capitals l := by cases l <;> exact Text.isCapital_of_all (by decide)
  ofToken?_token l := by cases l <;> decide

instance : Level.Readable Interaction where
  capitals l := by cases l <;> exact Text.isCapital_of_all (by decide)
  ofToken?_token l := by cases l <;> decide

instance : Level.Readable Scope where
  capitals l := by cases l <;> exact Text.isCapital_of_all (by decide)
  ofToken?_token l := by cases l <;> decide

instance : Level.Readable Impact where
  capitals l := by cases l <;> exact Text.isCapital_of_all (by decide)
  ofToken?_token l := by cases l <;> decide

/-- A level is told by its token. -/
theorem Level.token_injective {α : Type} [Level α] [Level.Readable α] {l l' : α}
    (h : Level.token l = Level.token l') : l = l' := by
  have hl := Level.Readable.ofToken?_token l
  rw [h, Level.Readable.ofToken?_token] at hl
  exact (Option.some.inj hl).symm

/-- Codes are in capital letters. -/
theorem Metric.code_capitals (k : Metric) : ∀ c ∈ k.code.toList, Text.IsCapital c := by
  cases k <;> exact Text.isCapital_of_all (by decide)

/-- Each code stands for its metric. -/
theorem Metric.ofCode?_code (k : Metric) : Metric.ofCode? k.code = some k := by
  cases k <;> decide

theorem Metric.mem_all (k : Metric) : k ∈ Metric.all := by
  cases k <;> decide

namespace Metrics

/-- Tokens are in capital letters. -/
theorem token_capitals (m : Metrics) (k : Metric) :
    ∀ c ∈ (m.token k).toList, Text.IsCapital c := by
  cases k <;> exact Level.Readable.capitals _

/-- Metrics with the level of one metric taken from others. -/
def withLevelOf (source m : Metrics) : Metric → Metrics
  | .attackVector => { m with attackVector := source.attackVector }
  | .attackComplexity => { m with attackComplexity := source.attackComplexity }
  | .privileges => { m with privileges := source.privileges }
  | .interaction => { m with interaction := source.interaction }
  | .scope => { m with scope := source.scope }
  | .confidentiality => { m with confidentiality := source.confidentiality }
  | .integrity => { m with integrity := source.integrity }
  | .availability => { m with availability := source.availability }

/-- The token of a metric's level sets that level. -/
theorem set?_token (source m : Metrics) (k : Metric) :
    m.set? (Level.ofToken? (source.token k)) k = some (source.withLevelOf m k) := by
  cases k <;> simp only [set?, token, withLevelOf, Level.Readable.ofToken?_token, Option.map_some]

/-- To take the level of one metric from others is to take its token. -/
theorem token_withLevelOf (source m : Metrics) (k l : Metric) :
    (source.withLevelOf m k).token l = if l = k then source.token l else m.token l := by
  cases k <;> cases l <;> rfl

/-- Metrics are told by their tokens. -/
theorem eq_of_token {m m' : Metrics} (h : ∀ k, m.token k = m'.token k) : m = m' := by
  have hav := Level.token_injective (h .attackVector)
  have hac := Level.token_injective (h .attackComplexity)
  have hpr := Level.token_injective (h .privileges)
  have hui := Level.token_injective (h .interaction)
  have hs := Level.token_injective (h .scope)
  have hc := Level.token_injective (h .confidentiality)
  have hi := Level.token_injective (h .integrity)
  have ha := Level.token_injective (h .availability)
  cases m
  cases m'
  simp only at hav hac hpr hui hs hc hi ha
  rw [hav, hac, hpr, hui, hs, hc, hi, ha]

/-- Metrics that have taken some levels from others have their tokens from both. -/
theorem token_foldl_withLevelOf (source m : Metrics) (ks : List Metric) (l : Metric) :
    (ks.foldl source.withLevelOf m).token l = if l ∈ ks then source.token l else m.token l := by
  induction ks generalizing m with
  | nil => rw [List.foldl_nil, if_neg List.not_mem_nil]
  | cons k ks ih =>
      rw [List.foldl_cons, ih, token_withLevelOf]
      by_cases hl : l ∈ ks
      · rw [if_pos hl, if_pos (List.mem_cons_of_mem k hl)]
      · by_cases hk : l = k
        · rw [if_neg hl, if_pos hk, if_pos (hk ▸ List.mem_cons_self)]
        · rw [if_neg hl, if_neg hk, if_neg (List.not_mem_cons_of_ne_of_not_mem hk hl)]

/-- Metrics that have taken every level from others are those. -/
theorem foldl_withLevelOf (source m : Metrics) {ks : List Metric} (h : ∀ k, k ∈ ks) :
    ks.foldl source.withLevelOf m = source := by
  refine eq_of_token fun l => ?_
  rw [token_foldl_withLevelOf, if_pos (h l)]

/-- The component of a metric. -/
def component (m : Metrics) (k : Metric) : List Char :=
  k.code.toList ++ ':' :: (m.token k).toList

/-- The characters of a component are capital letters and a colon. -/
theorem mem_component {m : Metrics} {k : Metric} {c : Char} (h : c ∈ m.component k) :
    Text.IsCapital c ∨ c = ':' := by
  rcases List.mem_append.mp h with h | h
  · exact .inl (k.code_capitals c h)
  · rcases List.mem_cons.mp h with rfl | h
    · exact .inr rfl
    · exact .inl (m.token_capitals k c h)

/-- The text of metrics is the version and the components. -/
theorem vector_toList (m : Metrics) :
    m.vector.toList = "CVSS:3.1".toList ++
      '/' :: ['/'].intercalate (Metric.all.map m.component) := by
  simp [vector, Text.join, component, Metric.all, String.toList_append]

end Metrics

/-! ## Components -/

/-- A component for a metric with a token: its code and the token with a colon between them, in any
letter case and among blanks. -/
def IsComponent (k : Metric) (t : String) (part : List Char) : Prop :=
  ∃ code token, part = code ++ ':' :: token ∧ ':' ∉ code ∧ normal code = k.code ∧ normal token = t

/-- What is written for a metric is a component for it. -/
theorem isComponent_component (m : Metrics) (k : Metric) :
    IsComponent k (m.token k) (m.component k) := by
  refine ⟨k.code.toList, (m.token k).toList, rfl, ?_, ?_, ?_⟩
  · intro h
    exact absurd (k.code_capitals ':' h) (by decide)
  · exact normal_of_capitals k.code_capitals
  · exact normal_of_capitals (m.token_capitals k)

/-- A component sets its metric, if that has not been seen. -/
theorem readComponent_of_isComponent {source : Metrics} {k : Metric} {part : List Char}
    (h : IsComponent k (source.token k) part) (m : Metrics) {seen : List Metric}
    (hseen : k ∉ seen) :
    readComponent m seen part = .ok (source.withLevelOf m k, k :: seen) := by
  obtain ⟨code, token, rfl, hcolon, hcode, htoken⟩ := h
  have hnew : seen.contains k = false := by simpa using hseen
  simp only [readComponent, cut_append hcolon, hcode, htoken, Metric.ofCode?_code, hnew,
    Metrics.set?_token, Bool.false_eq_true, if_false]

/-- Components set their metrics one after another, in whatever order these come. -/
theorem readComponents_of_forall₂ {source : Metrics} {ks : List Metric} {parts : List (List Char)}
    (h : List.Forall₂ (fun k part => IsComponent k (source.token k) part) ks parts)
    (hnodup : ks.Nodup) (m : Metrics) {seen : List Metric} (hseen : ∀ k ∈ ks, k ∉ seen) :
    readComponents m seen parts = .ok (ks.foldl source.withLevelOf m, ks.reverse ++ seen) := by
  induction h generalizing m seen with
  | nil => rfl
  | @cons k part ks parts hpart _ ih =>
      obtain ⟨hk, hnodup⟩ := List.nodup_cons.mp hnodup
      obtain ⟨hnew, hlater⟩ := List.forall_mem_cons.mp hseen
      have hrest : ∀ l ∈ ks, l ∉ k :: seen := by
        intro l hl hmem
        rcases List.mem_cons.mp hmem with rfl | hmem
        · exact hk hl
        · exact hlater l hl hmem
      rw [readComponents, readComponent_of_isComponent hpart m hnew]
      simp only [ih hnodup (source.withLevelOf m k) hrest, List.foldl_cons, List.reverse_cons,
        List.append_assoc, List.singleton_append]

/-- Where something belongs to every metric, there is something. -/
theorem parts_ne_nil {R : Metric → List Char → Prop} {ks : List Metric} {parts : List (List Char)}
    (hks : ks.Perm Metric.all) (h : List.Forall₂ R ks parts) : parts ≠ [] := by
  rintro rfl
  cases h
  cases hks.length_eq

/-- **The metrics of a vector are those that its components are for**, in whatever order these
come. -/
theorem Metrics.ofVector_of_components {m : Metrics} {s : String} {parts : List (List Char)}
    (hbody : withoutVersion (Text.trimChars s.toList) = .ok (['/'].intercalate parts))
    (hslash : ∀ part ∈ parts, '/' ∉ part) {ks : List Metric} (hks : ks.Perm Metric.all)
    (h : List.Forall₂ (fun k part => IsComponent k (m.token k) part) ks parts) :
    Metrics.ofVector s = .ok m := by
  have hall : ∀ k, k ∈ ks := fun k => hks.mem_iff.mpr k.mem_all
  have hne : parts ≠ [] := parts_ne_nil hks h
  have hnodup : ks.Nodup := hks.nodup_iff.mpr (by decide)
  have hfresh : ∀ k ∈ ks, k ∉ ([] : List Metric) := fun _ _ => List.not_mem_nil
  have hread := readComponents_of_forall₂ h hnodup {} hfresh
  have hmissing : (Metric.all.filter fun k => !(ks.reverse ++ []).contains k) = [] := by
    rw [List.filter_eq_nil_iff]
    intro k _
    simp [hall k]
  rw [ofVector, hbody]
  simp only [bind, Except.bind, Text.splitAt_intercalate hne hslash, hread, hmissing,
    foldl_withLevelOf m {} hall]

/-! ## The text of metrics -/

/-- The version is taken off. -/
theorem withoutVersion_append (rest : List Char) :
    withoutVersion ("CVSS:3.1".toList ++ '/' :: rest) = .ok rest := by
  have hupper : Text.upperChars ("CVSS:3.1".toList ++ '/' :: rest) =
      "CVSS:".toList ++ ("3.1/".toList ++ Text.upperChars rest) := by
    simp only [Text.upperChars, List.flatMap_append, List.flatMap_cons]
    rfl
  have hversion : "CVSS:".toList.isPrefixOf
      (Text.upperChars ("CVSS:3.1".toList ++ '/' :: rest)) = true := by
    rw [hupper]
    exact List.isPrefixOf_iff_prefix.mpr (List.prefix_append _ _)
  have hslash : '/' ∉ "CVSS:3.1".toList := by decide
  have hknown : ["CVSS:3.1", "CVSS:3.0"].contains (capital "CVSS:3.1".toList) = true := by decide
  simp only [withoutVersion, hversion, cut_append hslash, hknown, if_true, Option.getD_some]

/-- **A vector is read as it was written.** -/
theorem Metrics.ofVector_vector (m : Metrics) : Metrics.ofVector m.vector = .ok m := by
  have hblank : ∀ c ∈ m.vector.toList, Text.isBlank c = false := by
    have hparts : ∀ cs ∈ Metric.all.map m.component, ∀ c ∈ cs, Text.isBlank c = false := by
      intro cs hcs c hc
      obtain ⟨k, -, rfl⟩ := List.mem_map.mp hcs
      rcases mem_component hc with h | rfl
      · exact h.not_isBlank
      · rfl
    have hversion : ∀ c ∈ "CVSS:3.1".toList, Text.isBlank c = false := by
      have hall : "CVSS:3.1".toList.all (fun c => !Text.isBlank c) = true := by decide
      simpa only [List.all_eq_true, Bool.not_eq_true'] using hall
    have hslash : Text.isBlank '/' = false := rfl
    rw [vector_toList]
    intro c hc
    rcases List.mem_append.mp hc with hc | hc
    · exact hversion c hc
    · rcases List.mem_cons.mp hc with rfl | hc
      · exact hslash
      · exact Text.forall_mem_intercalate (P := fun c => Text.isBlank c = false) hslash hparts c hc
  have hpieces : ∀ cs ∈ Metric.all.map m.component, '/' ∉ cs := by
    intro cs hcs hslash
    obtain ⟨k, -, rfl⟩ := List.mem_map.mp hcs
    rcases mem_component hslash with h | h
    · exact absurd h (by decide)
    · exact absurd h (by decide)
  have hcomponents : List.Forall₂ (fun k part => IsComponent k (m.token k) part) Metric.all
      (Metric.all.map m.component) := by
    rw [List.forall₂_map_right_iff, List.forall₂_same]
    exact fun k _ => isComponent_component m k
  refine ofVector_of_components ?_ hpieces (.refl Metric.all) hcomponents
  rw [Text.trimChars_of_not_blank hblank, vector_toList, withoutVersion_append]

end Cvss

end SecurityAudit
