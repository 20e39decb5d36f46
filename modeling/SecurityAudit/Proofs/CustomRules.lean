import SecurityAudit.Proofs.CheckedSettings
import SecurityAudit.Proofs.JsonValues
import SecurityAudit.Proofs.Registration

/-!
# What custom rules are made from

The entries of rule files are mappings with values of any kind.  A rule that is read from an entry
holds what the entry says, value by value, so its texts are texts exactly when those of the entry
are, and its references and globs are those that the entry lists exactly when it lists texts: of a
single text they are the characters, and of a mapping the keys.

Whether files are accepted does not depend on what has been registered before
(`loadDirectory_result`).  Other values than those that are meant may be refused in the middle of
loading; `loadDirectory_checked` says for which reasons.  When the files are readable and their
entries are of their kinds, nothing is refused, and what is registered is what the entries say.
-/

namespace SecurityAudit

/-- A floating-point number is neither infinite nor no number. -/
def Decimal.IsFinite (x : Float) : Prop :=
  ∃ negative mantissa exponent, exact x = .finite negative mantissa exponent

/-! ## Entries -/

namespace Rule

variable {path : String} {entry : Value} {r : Rule} {q : Refusal → Prop}

/-- The pattern of an entry: what its text is read as. -/
def GivesPattern (entry : Value) (p : Pattern) : Prop :=
  ∃ source, entry.get? "pattern" = some (.text source) ∧ Pattern.parse source = .ok p

/-- The metrics of an entry, none if it has no vector. -/
def GivesMetrics (entry : Value) : Option Cvss.Metrics → Prop
  | none => (optional entry "cvss" .null).holds = false
  | some m => ∃ text, optional entry "cvss" .null = .text text ∧ text ≠ "" ∧
      Cvss.Metrics.ofVector text = .ok m

/-- The globs of an entry, none if it has no value that counts for them. -/
def GivesGlobs (entry : Value) : Option (List Value) → Prop
  | none => (optional entry "file_patterns" .null).holds = false
  | some globs => (optional entry "file_patterns" .null).holds = true ∧
      (optional entry "file_patterns" .null).elements? = some globs

/-- An entry describes a rule. -/
structure Describes (entry : Value) (r : Rule) : Prop where
  id : entry.get? "id" = some r.id
  name : r.name = optional entry "name" r.id
  description : r.description = optional entry "description" (.text "")
  remediation : r.remediation = optional entry "remediation" (.text "")
  cwe : (optional entry "cwe" (.text "")).isWritable = true ∧
    r.cwe = (optional entry "cwe" (.text "")).shown
  category : ∃ label, entry.get? "category" = some (.text label) ∧
    Category.ofLabel? label = some r.category
  pattern : GivesPattern entry r.pattern
  metrics : ∃ m, GivesMetrics entry m ∧ r.metrics = m.getD r.category.metrics
  references : (optional entry "references" (.list [])).elements? = some r.references
  filePatterns : GivesGlobs entry r.filePatterns
  window : wholeNumber (optional entry "window" (.int 1)) = .ok (r.window : Int)

theorem required_eq_ok_iff {kind : EntryKind} {key : String} {v : Value} :
    required path kind entry key = .ok v ↔ entry.get? key = some v := by
  rw [required]
  cases entry.get? key with
  | none => simp [fail]
  | some w => simp

theorem readPattern_eq_ok_iff {id v : Value} {p : Pattern} :
    readPattern id v = .ok p ↔ ∃ source, v = .text source ∧ Pattern.parse source = .ok p := by
  simp only [readPattern, bind_eq_ok_iff, orRefuse_eq_ok_iff]
  constructor
  · rintro ⟨source, hsource, hparse⟩
    refine ⟨source, Value.isText_of_text? hsource, ?_⟩
    cases hp : Pattern.parse source with
    | ok p' =>
        rw [hp] at hparse
        rw [pure_eq_ok_iff.mp hparse]
    | error e =>
        rw [hp] at hparse
        cases e with
        | malformed => exact absurd hparse (failAbout_ne_ok _ _ _)
        | countTooLarge => cases hparse
  · rintro ⟨source, rfl, hparse⟩
    refine ⟨source, rfl, ?_⟩
    rw [hparse]
    rfl

theorem readMetrics_eq_ok_iff {m : Option Cvss.Metrics} :
    readMetrics path entry = .ok m ↔ GivesMetrics entry m := by
  simp only [readMetrics]
  by_cases hholds : (optional entry "cvss" .null).holds = true
  · rw [if_neg (by simp [hholds])]
    cases htext : (optional entry "cvss" .null).text? with
    | none =>
        refine iff_of_false (by simp [refuse]) fun h => ?_
        cases m with
        | none =>
            rw [GivesMetrics, hholds] at h
            cases h
        | some m =>
            obtain ⟨text, hentry, -⟩ := h
            rw [hentry] at htext
            cases htext
    | some text =>
        have hentry := Value.isText_of_text? htext
        have hsome : text ≠ "" := by simpa [hentry, Value.holds] using hholds
        simp only
        cases hvector : Cvss.Metrics.ofVector text with
        | ok m' =>
            cases m with
            | none => simp [GivesMetrics, hholds]
            | some m => simp [GivesMetrics, hentry, hsome, hvector]
        | error e =>
            cases m with
            | none => simp [GivesMetrics, hholds, fail]
            | some m => simp [GivesMetrics, hentry, hsome, hvector, fail]
  · rw [if_pos (by simp [hholds])]
    cases m with
    | none => simp [GivesMetrics, hholds]
    | some m =>
        refine iff_of_false (by simp) fun h => hholds ?_
        obtain ⟨text, hentry, hsome, -⟩ := h
        simp [hentry, Value.holds, hsome]

theorem readGlobs_eq_ok_iff {globs : Option (List Value)} :
    readGlobs entry = .ok globs ↔ GivesGlobs entry globs := by
  simp only [readGlobs]
  by_cases hholds : (optional entry "file_patterns" .null).holds = true
  · rw [if_pos hholds, map_eq_ok_iff]
    simp only [orRefuse_eq_ok_iff]
    cases globs <;> simp [GivesGlobs, hholds]
  · rw [if_neg hholds]
    cases globs <;> simp [GivesGlobs, hholds]

/-- **A rule is read from an entry that describes it.** -/
theorem ofEntry_eq_ok_iff : ofEntry path entry = .ok r ↔ Describes entry r := by
  simp only [ofEntry, bind_eq_ok_iff, required_eq_ok_iff, orRefuse_eq_ok_iff, allowing_eq_ok_iff,
    Value.asText_eq_ok_iff, readMetrics_eq_ok_iff, readGlobs_eq_ok_iff]
  constructor
  · intro h
    obtain ⟨id, hid, metrics, hmetrics, category, hcategory, cwe, ⟨hcwe, rfl⟩, pattern, hpattern,
      references, hreferences, globs, hglobs, window, hwindow, h⟩ := h
    cases hlabel : category.text?.bind Category.ofLabel? with
    | none =>
        rw [hlabel] at h
        exact absurd h (failAbout_ne_ok _ _ _)
    | some c =>
        rw [hlabel] at h
        by_cases hpos : 1 ≤ window
        · simp only [dif_pos hpos, bind_eq_ok_iff, readPattern_eq_ok_iff, pure_eq_ok_iff] at h
          obtain ⟨compiled, ⟨source, rfl, hparse⟩, rfl⟩ := h
          obtain ⟨label, hlabel, hc⟩ := Option.bind_eq_some_iff.mp hlabel
          obtain rfl := Value.isText_of_text? hlabel
          have hnat : (window.toNat : Int) = window := Int.toNat_of_nonneg (by omega)
          refine ⟨hid, rfl, rfl, rfl, ⟨hcwe, rfl⟩, ⟨label, hcategory, hc⟩,
            ⟨source, hpattern, hparse⟩,
            ⟨metrics, hmetrics, rfl⟩, hreferences, hglobs, ?_⟩
          rw [hnat]
          exact hwindow
        · simp only [dif_neg hpos] at h
          exact absurd h (failAbout_ne_ok _ _ _)
  · intro h
    obtain ⟨label, hcategory, hlabel⟩ := h.category
    obtain ⟨hcwe, hshown⟩ := h.cwe
    obtain ⟨source, hpattern, hparse⟩ := h.pattern
    obtain ⟨metrics, hmetrics, heq⟩ := h.metrics
    have hpos : (1 : Int) ≤ r.window := by exact_mod_cast r.window_pos
    refine ⟨r.id, h.id, metrics, hmetrics, .text label, hcategory, _, ⟨hcwe, rfl⟩, .text source,
      hpattern, r.references, h.references, r.filePatterns, h.filePatterns, r.window, h.window, ?_⟩
    rw [Value.shown] at hshown
    simp only [Value.text?, Option.bind_some, hlabel, dif_pos hpos, bind_eq_ok_iff,
      readPattern_eq_ok_iff, pure_eq_ok_iff]
    refine ⟨r.pattern, ⟨source, rfl, hparse⟩, ?_⟩
    simp only [← h.name, ← h.description, ← h.remediation, ← hshown, ← heq, Int.toNat_natCast]

/-- A rule holds what its entry says, with texts where these are meant: its id, name, description
and remediation are texts, and its references and globs are the texts that the entry lists. -/
structure IsFaithful (entry : Value) (r : Rule) : Prop where
  texts : ∀ v ∈ [r.id, r.name, r.description, r.remediation], v.IsText
  references : ∃ items : List String, optional entry "references" (.list []) = .texts items ∧
    r.references = items.map .text
  globs : ∀ globs, r.filePatterns = some globs → ∃ items : List String,
    optional entry "file_patterns" .null = .texts items ∧ globs = items.map .text

/-- What an entry of a rule says is text where texts are meant. -/
structure GivesTexts (entry : Value) : Prop where
  texts : ∀ key ∈ ["id", "name", "description", "remediation"], ∀ v, entry.get? key = some v →
    v.IsText
  references : ∀ v, entry.get? "references" = some v → v.IsTexts
  globs : ∀ v, entry.get? "file_patterns" = some v → v.holds = true → v.IsTexts

/-- A property of the value of a key, or of what holds without it. -/
theorem forall_optional_iff {P : Value → Prop} {key : String} {default : Value}
    (hdefault : P default) :
    P (optional entry key default) ↔ ∀ v, entry.get? key = some v → P v := by
  unfold optional
  cases entry.get? key with
  | none => simp [hdefault]
  | some v => simp

/-- What is meant to be a list of texts holds them when it is one. -/
theorem exists_texts_of_elements? {v : Value} {items : List Value} (hv : v.IsTexts)
    (h : v.elements? = some items) : ∃ texts : List String, v = .texts texts ∧
      items = texts.map .text := by
  obtain ⟨texts, rfl⟩ := hv
  exact ⟨texts, rfl, (Option.some.inj h).symm⟩

/-- **A rule is faithful when its entry gives texts.** -/
theorem Describes.isFaithful_iff (h : Describes entry r) :
    IsFaithful entry r ↔ GivesTexts entry := by
  have hempty : (Value.text "").IsText := ⟨"", rfl⟩
  have hnone : (Value.list []).IsTexts := ⟨[], rfl⟩
  have hid : (∀ v, entry.get? "id" = some v → v.IsText) ↔ r.id.IsText := by simp [h.id]
  constructor
  · intro hfaithful
    have htexts := hfaithful.texts
    simp only [List.mem_cons, List.not_mem_nil, or_false, forall_eq_or_imp, forall_eq] at htexts
    obtain ⟨hidText, hname, hdescription, hremediation⟩ := htexts
    refine ⟨?_, ?_, ?_⟩
    · simp only [List.mem_cons, List.not_mem_nil, or_false, forall_eq_or_imp, forall_eq]
      refine ⟨hid.mpr hidText, (forall_optional_iff hidText).mp (h.name ▸ hname),
        (forall_optional_iff hempty).mp (h.description ▸ hdescription),
        (forall_optional_iff hempty).mp (h.remediation ▸ hremediation)⟩
    · obtain ⟨items, hitems, -⟩ := hfaithful.references
      exact (forall_optional_iff hnone).mp ⟨items, hitems⟩
    · intro v hv hholds
      have hoptional : optional entry "file_patterns" .null = v := by simp [optional, hv]
      have hglobs := h.filePatterns
      cases hr : r.filePatterns with
      | none =>
          rw [hr, GivesGlobs, hoptional, hholds] at hglobs
          cases hglobs
      | some globs =>
          obtain ⟨items, hitems, -⟩ := hfaithful.globs globs hr
          exact ⟨items, hoptional ▸ hitems⟩
  · intro hgives
    have htexts := hgives.texts
    simp only [List.mem_cons, List.not_mem_nil, or_false, forall_eq_or_imp, forall_eq] at htexts
    obtain ⟨hidText, hname, hdescription, hremediation⟩ := htexts
    have hidText := hid.mp hidText
    refine ⟨?_, ?_, ?_⟩
    · simp only [List.mem_cons, List.not_mem_nil, or_false, forall_eq_or_imp, forall_eq]
      rw [h.name, h.description, h.remediation]
      exact ⟨hidText, (forall_optional_iff hidText).mpr hname,
        (forall_optional_iff hempty).mpr hdescription,
        (forall_optional_iff hempty).mpr hremediation⟩
    · have hreferences := (forall_optional_iff hnone).mpr hgives.references
      exact exists_texts_of_elements? hreferences h.references
    · intro globs hr
      have hglobs := h.filePatterns
      rw [hr] at hglobs
      obtain ⟨hholds, helements⟩ := hglobs
      cases hv : entry.get? "file_patterns" with
      | none =>
          simp [optional, hv, Value.holds] at hholds
      | some v =>
          have hoptional : optional entry "file_patterns" .null = v := by simp [optional, hv]
          rw [hoptional] at hholds helements ⊢
          exact exists_texts_of_elements? (hgives.globs v hv hholds) helements

/-! ### What is refused in an entry -/

/-- The pattern of an entry is refused: it is no text, a number of repetitions in it is too large,
or it is malformed and the id cannot be written out. -/
inductive PatternUnfit (entry : Value) : Refusal → Prop
  | kind {v : Value} (hgiven : entry.get? "pattern" = some v) (hkind : ¬ v.IsText) :
      PatternUnfit entry .wrongKind
  | count {source : String} (hgiven : entry.get? "pattern" = some (.text source))
      (hcount : Pattern.parse source = .error .countTooLarge) : PatternUnfit entry .tooLarge
  | malformed {source : String} {v : Value}
      (hgiven : entry.get? "pattern" = some (.text source))
      (hmalformed : Pattern.parse source = .error .malformed) (hid : entry.get? "id" = some v)
      (hlong : v.isWritable = false) : PatternUnfit entry .badValue

/-- An entry of a rule is refused: its vector is no text, its references or globs hold no elements,
no whole number can be made of its window, its pattern is refused, its id cannot be a key, or what
is to be written out cannot be. -/
inductive Unfit (entry : Value) : Refusal → Prop
  | vector (hholds : (optional entry "cvss" .null).holds = true)
      (hkind : ¬ (optional entry "cvss" .null).IsText) : Unfit entry .noOperation
  | references (hnone : (optional entry "references" (.list [])).elements? = none) :
      Unfit entry .wrongKind
  | globs (hholds : (optional entry "file_patterns" .null).holds = true)
      (hnone : (optional entry "file_patterns" .null).elements? = none) : Unfit entry .wrongKind
  | window {r : Refusal}
      (hwindow : wholeNumber (optional entry "window" (.int 1)) = .error (.refused r)) :
      Unfit entry r
  | pattern {r : Refusal} (hpattern : PatternUnfit entry r) : Unfit entry r
  | id {v : Value} (hgiven : entry.get? "id" = some v) (hkey : v.isKey = false) :
      Unfit entry .wrongKind
  | cwe (hlong : (optional entry "cwe" (.text "")).isWritable = false) : Unfit entry .badValue
  | message {v w : Value} (hid : entry.get? "id" = some v)
      (hcategory : entry.get? "category" = some w)
      (hlong : v.isWritable = false ∨ w.isWritable = false) : Unfit entry .badValue

theorem refusesOnly_required {kind : EntryKind} {key : String} :
    RefusesOnly q (required path kind entry key) := by
  unfold required
  cases entry.get? key with
  | none => exact refusesOnly_fail _
  | some v => exact refusesOnly_ok v

theorem refusesOnly_readPattern {id v : Value} (hid : entry.get? "id" = some id)
    (hgiven : entry.get? "pattern" = some v) :
    RefusesOnly (PatternUnfit entry) (readPattern id v) := by
  refine RefusesOnly.bind (refusesOnly_orRefuse fun hnone => ?_) fun source hsource => ?_
  · exact .kind hgiven (Value.not_isText_of_text? hnone)
  · obtain rfl := Value.isText_of_text? (orRefuse_eq_ok_iff.mp hsource)
    cases hparse : Pattern.parse source with
    | ok p => exact refusesOnly_ok p
    | error e =>
        cases e with
        | malformed => exact Value.refusesOnly_failAbout (.malformed hgiven hparse hid)
        | countTooLarge => exact refusesOnly_refuse (.count hgiven hparse)

theorem refusesOnly_readMetrics : RefusesOnly (Unfit entry) (readMetrics path entry) := by
  simp only [readMetrics]
  by_cases hholds : (optional entry "cvss" .null).holds = true
  · rw [if_neg (by simp [hholds])]
    cases htext : (optional entry "cvss" .null).text? with
    | none => exact refusesOnly_refuse (.vector hholds (Value.not_isText_of_text? htext))
    | some text =>
        simp only
        cases Cvss.Metrics.ofVector text with
        | ok m => exact refusesOnly_ok _
        | error e => exact refusesOnly_fail _
  · rw [if_pos (by simp [hholds])]
    exact refusesOnly_ok _

theorem refusesOnly_readGlobs : RefusesOnly (Unfit entry) (readGlobs entry) := by
  simp only [readGlobs]
  by_cases hholds : (optional entry "file_patterns" .null).holds = true
  · rw [if_pos hholds]
    exact (refusesOnly_orRefuse fun hnone => .globs hholds hnone).map
  · rw [if_neg hholds]
    exact refusesOnly_ok _

/-- Two values can be written out side by side when each of them can be. -/
theorem isWritable_pair_eq_false {v w : Value} (h : (Value.list [v, w]).isWritable = false) :
    v.isWritable = false ∨ w.isWritable = false := by
  simpa [Value.isWritable, Value.areWritable, ← Bool.not_eq_true, imp_iff_not_or] using h

/-- **What is refused when a rule is read.** -/
theorem refusesOnly_ofEntry : RefusesOnly (Unfit entry) (ofEntry path entry) := by
  refine refusesOnly_required.bind fun id hid => ?_
  refine refusesOnly_readMetrics.bind fun metrics _ => ?_
  refine refusesOnly_required.bind fun category hcategory => ?_
  have hid := required_eq_ok_iff.mp hid
  have hcategory := required_eq_ok_iff.mp hcategory
  refine RefusesOnly.bind (Value.refusesOnly_asText .cwe) fun cwe _ => ?_
  refine refusesOnly_required.bind fun pattern hpattern => ?_
  refine RefusesOnly.bind (refusesOnly_orRefuse .references) fun references _ => ?_
  refine refusesOnly_readGlobs.bind fun globs _ => ?_
  refine RefusesOnly.bind (fun r hwindow => .window hwindow) fun window _ => ?_
  cases category.text?.bind Category.ofLabel? with
  | none =>
      exact Value.refusesOnly_failAbout fun hlong =>
        .message hid hcategory (isWritable_pair_eq_false hlong)
  | some c =>
      by_cases hpos : 1 ≤ window
      · simp only [dif_pos hpos]
        refine RefusesOnly.bind ?_ fun _ _ => refusesOnly_ok _
        exact (refusesOnly_readPattern hid (required_eq_ok_iff.mp hpattern)).mono fun _ => .pattern
      · simp only [dif_neg hpos]
        exact Value.refusesOnly_failAbout fun hlong => .message hid hcategory (.inl hlong)

/-- An entry of a rule has values of the kinds that are meant, its pattern does not repeat anything
too often, and what is to be written out can be. -/
structure IsProper (entry : Value) : Prop extends GivesTexts entry where
  category : ∀ v, entry.get? "category" = some v → v.isWritable = true
  cwe : ∀ v, entry.get? "cwe" = some v → v.isWritable = true
  vector : ∀ v, entry.get? "cvss" = some v → v.holds = true → v.IsText
  window : ∀ v, entry.get? "window" = some v → v.IsWhole
  pattern : ∀ v, entry.get? "pattern" = some v → ∃ source, v = .text source ∧
    Pattern.parse source ≠ .error .countTooLarge

/-- A text can be written out. -/
theorem isWritable_of_isText {v : Value} (h : v.IsText) : v.isWritable = true := by
  obtain ⟨t, rfl⟩ := h
  rfl

/-- A pattern that is a text and does not repeat anything too often is not refused. -/
theorem not_patternUnfit (hid : ∀ v, entry.get? "id" = some v → v.IsText)
    (h : ∀ v, entry.get? "pattern" = some v → ∃ source, v = .text source ∧
    Pattern.parse source ≠ .error .countTooLarge) (refusal : Refusal) :
    ¬ PatternUnfit entry refusal := by
  intro hunfit
  cases hunfit with
  | kind hgiven hkind =>
      obtain ⟨source, hsource, -⟩ := h _ hgiven
      exact hkind ⟨source, hsource⟩
  | count hgiven hcount =>
      obtain ⟨source, hsource, hfew⟩ := h _ hgiven
      obtain rfl := Value.text.inj hsource
      exact hfew hcount
  | malformed _ _ hgiven hlong =>
      rw [isWritable_of_isText (hid _ hgiven)] at hlong
      cases hlong

/-- What an entry has for a key if it counts as true, when nothing stands for it otherwise. -/
theorem get?_of_holds {key : String} (h : (optional entry key .null).holds = true) :
    entry.get? key = some (optional entry key .null) := by
  unfold optional at h ⊢
  cases hv : entry.get? key with
  | none =>
      rw [hv] at h
      cases h
  | some v => rfl

theorem IsProper.not_unfit (h : IsProper entry) (refusal : Refusal) : ¬ Unfit entry refusal := by
  intro hunfit
  cases hunfit with
  | vector hholds hkind => exact hkind (h.vector _ (get?_of_holds hholds) hholds)
  | references hnone =>
      have hempty : (Value.list []).IsTexts := ⟨[], rfl⟩
      obtain ⟨items, hitems⟩ := (forall_optional_iff hempty).mpr h.references
      rw [hitems] at hnone
      cases hnone
  | globs hholds hnone =>
      obtain ⟨items, hitems⟩ := h.globs _ (get?_of_holds hholds) hholds
      rw [hitems] at hnone
      cases hnone
  | window hwindow =>
      have hone : (Value.int 1).IsWhole := ⟨1, rfl⟩
      obtain ⟨n, hn⟩ := (forall_optional_iff hone).mpr h.window
      rw [hn] at hwindow
      cases hwindow
  | pattern hpattern => exact not_patternUnfit (h.texts "id" (by simp)) h.pattern _ hpattern
  | id hgiven hkey =>
      obtain ⟨t, rfl⟩ := h.texts "id" (by simp) _ hgiven
      cases hkey
  | cwe hlong =>
      have hempty : (Value.text "").isWritable = true := rfl
      rw [(forall_optional_iff hempty).mpr h.cwe] at hlong
      cases hlong
  | message hid hcategory hlong =>
      rw [isWritable_of_isText (h.texts "id" (by simp) _ hid), h.category _ hcategory] at hlong
      simp at hlong

end Rule

namespace SecretPattern

open Rule (optional pointNumber GivesPattern PatternUnfit)

variable {path : String} {entry : Value} {p : SecretPattern} {q : Refusal → Prop}

/-- An entry describes a secret pattern. -/
structure Describes (entry : Value) (p : SecretPattern) : Prop where
  id : entry.get? "id" = some p.id
  name : p.name = optional entry "name" p.id
  description : p.description = optional entry "description" (.text "")
  pattern : GivesPattern entry p.pattern
  severity : ∃ label, optional entry "severity" (.text "high") = .text label ∧
    SecretSeverity.ofLabel? label = some p.severity
  threshold : pointNumber (optional entry "entropy_threshold" (.float 3.0)) = .ok p.entropyThreshold

/-- **A secret pattern is read from an entry that describes it.** -/
theorem ofEntry_eq_ok_iff : ofEntry path entry = .ok p ↔ Describes entry p := by
  simp only [ofEntry, bind_eq_ok_iff, Rule.required_eq_ok_iff]
  constructor
  · intro h
    obtain ⟨id, hid, pattern, hpattern, threshold, hthreshold, h⟩ := h
    cases hlabel : (optional entry "severity" (.text "high")).text?.bind
        SecretSeverity.ofLabel? with
    | none =>
        rw [hlabel] at h
        exact absurd h (failAbout_ne_ok _ _ _)
    | some s =>
        simp only [hlabel, bind_eq_ok_iff, Rule.readPattern_eq_ok_iff, pure_eq_ok_iff] at h
        obtain ⟨compiled, ⟨source, rfl, hparse⟩, rfl⟩ := h
        obtain ⟨label, hlabel, hs⟩ := Option.bind_eq_some_iff.mp hlabel
        exact ⟨hid, rfl, rfl, ⟨source, hpattern, hparse⟩,
          ⟨label, Value.isText_of_text? hlabel, hs⟩, hthreshold⟩
  · intro h
    obtain ⟨label, hseverity, hlabel⟩ := h.severity
    obtain ⟨source, hpattern, hparse⟩ := h.pattern
    refine ⟨p.id, h.id, .text source, hpattern, p.entropyThreshold, h.threshold, ?_⟩
    simp only [hseverity, Value.text?, Option.bind_some, hlabel, bind_eq_ok_iff,
      Rule.readPattern_eq_ok_iff, pure_eq_ok_iff]
    refine ⟨p.pattern, ⟨source, rfl, hparse⟩, ?_⟩
    simp only [← h.name, ← h.description]

/-- A secret pattern has texts where these are meant, and its threshold is a finite number. -/
structure IsFaithful (p : SecretPattern) : Prop where
  texts : ∀ v ∈ [p.id, p.name, p.description], v.IsText
  threshold : Decimal.IsFinite p.entropyThreshold

/-- What an entry of a secret pattern says is text where texts are meant, and the number that its
threshold is taken for is finite. -/
structure GivesTexts (entry : Value) : Prop where
  texts : ∀ key ∈ ["id", "name", "description"], ∀ v, entry.get? key = some v → v.IsText
  threshold : ∀ x, pointNumber (optional entry "entropy_threshold" (.float 3.0)) = .ok x →
    Decimal.IsFinite x

/-- **A secret pattern is faithful when its entry gives texts.** -/
theorem Describes.isFaithful_iff (h : Describes entry p) : p.IsFaithful ↔ GivesTexts entry := by
  have hempty : (Value.text "").IsText := ⟨"", rfl⟩
  have hid : (∀ v, entry.get? "id" = some v → v.IsText) ↔ p.id.IsText := by simp [h.id]
  have hthreshold : (∀ x, pointNumber (optional entry "entropy_threshold" (.float 3.0)) = .ok x →
      Decimal.IsFinite x) ↔ Decimal.IsFinite p.entropyThreshold := by simp [h.threshold]
  constructor
  · intro hfaithful
    have htexts := hfaithful.texts
    simp only [List.mem_cons, List.not_mem_nil, or_false, forall_eq_or_imp, forall_eq] at htexts
    obtain ⟨hidText, hname, hdescription⟩ := htexts
    refine ⟨?_, hthreshold.mpr hfaithful.threshold⟩
    simp only [List.mem_cons, List.not_mem_nil, or_false, forall_eq_or_imp, forall_eq]
    exact ⟨hid.mpr hidText, (Rule.forall_optional_iff hidText).mp (h.name ▸ hname),
      (Rule.forall_optional_iff hempty).mp (h.description ▸ hdescription)⟩
  · intro hgives
    have htexts := hgives.texts
    simp only [List.mem_cons, List.not_mem_nil, or_false, forall_eq_or_imp, forall_eq] at htexts
    obtain ⟨hidText, hname, hdescription⟩ := htexts
    have hidText := hid.mp hidText
    refine ⟨?_, hthreshold.mp hgives.threshold⟩
    simp only [List.mem_cons, List.not_mem_nil, or_false, forall_eq_or_imp, forall_eq]
    rw [h.name, h.description]
    exact ⟨hidText, (Rule.forall_optional_iff hidText).mpr hname,
      (Rule.forall_optional_iff hempty).mpr hdescription⟩

/-- An entry of a secret pattern is refused: no number can be made of its threshold, its pattern is
refused, its id cannot be a key, or what its message quotes cannot be written out. -/
inductive Unfit (entry : Value) : Refusal → Prop
  | threshold {r : Refusal}
      (hthreshold : pointNumber (optional entry "entropy_threshold" (.float 3.0)) =
        .error (.refused r)) : Unfit entry r
  | pattern {r : Refusal} (hpattern : PatternUnfit entry r) : Unfit entry r
  | id {v : Value} (hgiven : entry.get? "id" = some v) (hkey : v.isKey = false) :
      Unfit entry .wrongKind
  | message {v : Value} (hid : entry.get? "id" = some v)
      (hlong : v.isWritable = false ∨
        (optional entry "severity" (.text "high")).isWritable = false) : Unfit entry .badValue

/-- **What is refused when a secret pattern is read.** -/
theorem refusesOnly_ofEntry : RefusesOnly (Unfit entry) (ofEntry path entry) := by
  refine Rule.refusesOnly_required.bind fun id hid => ?_
  have hid := Rule.required_eq_ok_iff.mp hid
  refine Rule.refusesOnly_required.bind fun pattern hpattern => ?_
  refine RefusesOnly.bind (fun r hthreshold => .threshold hthreshold) fun threshold _ => ?_
  dsimp only
  cases (optional entry "severity" (.text "high")).text?.bind SecretSeverity.ofLabel? with
  | none =>
      exact Value.refusesOnly_failAbout fun hlong =>
        .message hid (Rule.isWritable_pair_eq_false hlong)
  | some s =>
      refine RefusesOnly.bind ?_ fun _ _ => refusesOnly_ok _
      exact (Rule.refusesOnly_readPattern hid (Rule.required_eq_ok_iff.mp hpattern)).mono
        fun _ => .pattern

/-- An entry of a secret pattern has values of the kinds that are meant, its pattern does not repeat
anything too often, and what is to be written out can be. -/
structure IsProper (entry : Value) : Prop extends GivesTexts entry where
  severity : ∀ v, entry.get? "severity" = some v → v.isWritable = true
  readable : ∃ x, pointNumber (optional entry "entropy_threshold" (.float 3.0)) = .ok x
  pattern : ∀ v, entry.get? "pattern" = some v → ∃ source, v = .text source ∧
    Pattern.parse source ≠ .error .countTooLarge

theorem IsProper.not_unfit (h : IsProper entry) (refusal : Refusal) : ¬ Unfit entry refusal := by
  intro hunfit
  cases hunfit with
  | threshold hthreshold =>
      obtain ⟨x, hx⟩ := h.readable
      rw [hx] at hthreshold
      cases hthreshold
  | pattern hpattern => exact Rule.not_patternUnfit (h.texts "id" (by simp)) h.pattern _ hpattern
  | id hgiven hkey =>
      obtain ⟨t, rfl⟩ := h.texts "id" (by simp) _ hgiven
      cases hkey
  | message hid hlong =>
      have hdefault : (Value.text "high").isWritable = true := rfl
      rw [Rule.isWritable_of_isText (h.texts "id" (by simp) _ hid),
        (Rule.forall_optional_iff hdefault).mpr h.severity] at hlong
      simp at hlong

end SecretPattern

/-! ## Files -/

namespace CatalogBuilder

variable {t : Tree} {directory path : Path} {b : CatalogBuilder} {entry : Value}

/-- An entry is one of a secret pattern. -/
def isSecret (entry : Value) : Bool :=
  (Rule.optional entry "kind" (.text "rule")).same (.text "secret")

/-- The rule files of a directory can be found: it can be listed, or there is no such directory. -/
def HasRuleFiles (t : Tree) (directory : Path) : Prop :=
  ∃ paths, findRuleFiles t directory = .ok paths

/-- The rule files of a directory, none if they cannot be found. -/
def ruleFiles (t : Tree) (directory : Path) : List Path :=
  (findRuleFiles t directory).toOption.getD []

theorem ruleFiles_eq {paths : List Path} (h : findRuleFiles t directory = .ok paths) :
    ruleFiles t directory = paths := by
  rw [ruleFiles, h]
  rfl

/-- The entries of a file, none if it has no document. -/
def entriesIn (t : Tree) (path : Path) : List Value :=
  match readDocument path.text (t.read path) with
  | .ok doc => entriesOf doc
  | .error _ => []

/-- An id can be a key. -/
def checkKey (id : Value) : Rule.Reading Unit :=
  if id.isKey then .ok () else refuse .wrongKind

/-- An entry can be registered. -/
def checkEntry (path : String) (entry : Value) : Rule.Reading Unit :=
  match entry with
  | .mapping _ =>
    if isSecret entry then do checkKey (← SecretPattern.ofEntry path entry).id
    else do checkKey (← Rule.ofEntry path entry).id
  | _ => fail (.notAMapping path)

/-- All entries of a file can be registered; the answer is their number. -/
def checkFile (t : Tree) (path : Path) : Rule.Reading Nat := do
  let doc ← readDocument path.text (t.read path)
  (entriesOf doc).forM (checkEntry path.text)
  return (entriesOf doc).length

/-- All entries of the rule files in a directory can be registered; the answer is their number. -/
def checkDirectory (t : Tree) (directory : Path) : Rule.Reading Nat := do
  let paths ← (allowing (findRuleFiles t directory) : Rule.Reading (List Path))
  let counts ← paths.mapM (checkFile t)
  return counts.foldl (· + ·) 0

/-! ### The outcome does not depend on the builder -/

/-- A step has one outcome, whatever the builder. -/
def HasResult {α : Type} (x : Rule.Reading α) (step : Step α) : Prop :=
  ∀ b, (step.run.run b).1 = x

section HasResult

variable {α β : Type} {x : Rule.Reading α} {step : Step α}

theorem HasResult.pure (a : α) : HasResult (.ok a) (Pure.pure a : Step α) :=
  fun _ => rfl

theorem HasResult.throw (f : Fault Rule.Problem) : HasResult (.error f) (throw f : Step α) :=
  fun _ => rfl

theorem HasResult.lift (x : Rule.Reading α) : HasResult x (liftM x : Step α) := by
  intro b
  cases x <;> rfl

theorem HasResult.modify (change : CatalogBuilder → CatalogBuilder) :
    HasResult (.ok ()) (modify change : Step Unit) :=
  fun _ => rfl

theorem HasResult.bind {f : α → Rule.Reading β} {next : α → Step β} (hx : HasResult x step)
    (hnext : ∀ a, HasResult (f a) (next a)) : HasResult (x >>= f) (step >>= next) := by
  intro b
  have hfirst := hx b
  rw [ExceptT.run_bind, StateT.run_bind]
  generalize step.run.run b = first at hfirst ⊢
  obtain ⟨result, b'⟩ := first
  obtain rfl : result = x := hfirst
  cases result with
  | error f => rfl
  | ok a => exact hnext a b'

theorem HasResult.forM {f : α → Rule.Reading Unit} {step : α → Step Unit}
    (h : ∀ a, HasResult (f a) (step a)) (as : List α) :
    HasResult (as.forM f) (as.forM step) := by
  induction as with
  | nil => exact HasResult.pure ()
  | cons a as ih => exact (h a).bind fun _ => ih

theorem HasResult.mapM {f : α → Rule.Reading β} {step : α → Step β}
    (h : ∀ a, HasResult (f a) (step a)) (as : List α) :
    HasResult (as.mapM f) (as.mapM step) := by
  induction as with
  | nil => exact HasResult.pure []
  | cons a as ih =>
      rw [List.mapM_cons, List.mapM_cons]
      exact (h a).bind fun _ => ih.bind fun _ => HasResult.pure _

end HasResult

theorem register_result (r : Rule) : HasResult (checkKey r.id) (register r) := by
  unfold checkKey register
  cases r.id.isKey with
  | true => exact HasResult.modify _
  | false => exact HasResult.throw _

theorem registerSecret_result (p : SecretPattern) :
    HasResult (checkKey p.id) (registerSecret p) := by
  unfold checkKey registerSecret
  cases p.id.isKey with
  | true => exact HasResult.modify _
  | false => exact HasResult.throw _

theorem registerEntry_result (path : String) (entry : Value) :
    HasResult (checkEntry path entry) (registerEntry path entry) := by
  cases entry with
  | mapping entries =>
      rw [checkEntry, registerEntry, ← isSecret]
      by_cases hkind : isSecret (.mapping entries) = true
      · rw [if_pos hkind, if_pos hkind]
        exact (HasResult.lift _).bind fun p => registerSecret_result p
      · rw [if_neg hkind, if_neg hkind]
        exact (HasResult.lift _).bind fun r => register_result r
  | _ => exact HasResult.throw _

theorem loadFile_result (t : Tree) (path : Path) :
    HasResult (checkFile t path) (loadFile t path) :=
  (HasResult.lift _).bind fun _ =>
    (HasResult.forM (registerEntry_result path.text) _).bind fun _ => HasResult.pure _

/-- **Whether rule files are accepted does not depend on what has been registered before.** -/
theorem loadDirectory_result (t : Tree) (directory : Path) :
    HasResult (checkDirectory t directory) (loadDirectory t directory) :=
  (HasResult.lift _).bind fun _ =>
    (HasResult.mapM (loadFile_result t) _).bind fun _ => HasResult.pure _

/-! ### What is accepted -/

/-- An entry is accepted: it is a mapping and describes something whose id can be a key. -/
structure AcceptsEntry (entry : Value) : Prop where
  mapping : ∃ entries, entry = .mapping entries
  rule : isSecret entry = false → ∃ r, Rule.Describes entry r ∧ r.id.isKey = true
  secret : isSecret entry = true → ∃ p, SecretPattern.Describes entry p ∧ p.id.isKey = true

/-- A file is accepted: it has a document, and all its entries are accepted. -/
def AcceptsFile (t : Tree) (path : Path) : Prop :=
  ∃ doc, readDocument path.text (t.read path) = .ok doc ∧
    ∀ entry ∈ entriesOf doc, AcceptsEntry entry

theorem checkKey_eq_ok_iff {id : Value} {u : Unit} : checkKey id = .ok u ↔ id.isKey = true := by
  unfold checkKey
  cases id.isKey <;> simp [refuse]

theorem checkEntry_eq_ok_iff {path : String} {u : Unit} :
    checkEntry path entry = .ok u ↔ AcceptsEntry entry := by
  cases entry with
  | mapping entries =>
      unfold checkEntry
      cases hkind : isSecret (.mapping entries) with
      | true =>
          simp only [if_true, bind_eq_ok_iff, SecretPattern.ofEntry_eq_ok_iff, checkKey_eq_ok_iff]
          constructor
          · intro h
            exact ⟨⟨entries, rfl⟩, fun hrule => by simp [hkind] at hrule, fun _ => h⟩
          · intro h
            exact h.secret hkind
      | false =>
          simp only [Bool.false_eq_true, if_false, bind_eq_ok_iff, Rule.ofEntry_eq_ok_iff,
            checkKey_eq_ok_iff]
          constructor
          · intro h
            exact ⟨⟨entries, rfl⟩, fun _ => h, fun hsecret => by simp [hkind] at hsecret⟩
          · intro h
            exact h.rule hkind
  | _ =>
      refine iff_of_false (by simp [checkEntry, fail]) fun h => ?_
      obtain ⟨entries, hentries⟩ := h.mapping
      cases hentries

theorem exists_checkFile_iff : (∃ n, checkFile t path = .ok n) ↔ AcceptsFile t path := by
  simp only [checkFile, bind_eq_ok_iff, pure_eq_ok_iff, forM_eq_ok_iff, checkEntry_eq_ok_iff,
    AcceptsFile]
  constructor
  · intro h
    obtain ⟨n, doc, hdoc, _, hentries, -⟩ := h
    exact ⟨doc, hdoc, hentries⟩
  · intro h
    obtain ⟨doc, hdoc, hentries⟩ := h
    exact ⟨_, doc, hdoc, (), hentries, rfl⟩

/-- **Which rule files are accepted.** -/
theorem exists_checkDirectory_iff :
    (∃ n, checkDirectory t directory = .ok n) ↔
      HasRuleFiles t directory ∧ ∀ path ∈ ruleFiles t directory, AcceptsFile t path := by
  simp only [checkDirectory, bind_eq_ok_iff, pure_eq_ok_iff, allowing_eq_ok_iff]
  constructor
  · intro h
    obtain ⟨n, paths, hpaths, counts, hcounts, -⟩ := h
    refine ⟨⟨paths, hpaths⟩, fun path hpath => ?_⟩
    rw [ruleFiles_eq hpaths] at hpath
    obtain ⟨count, -, hcount⟩ :=
      exists_of_forall₂_of_mem (mapM_eq_ok_iff.mp hcounts).flip hpath
    exact exists_checkFile_iff.mp ⟨count, hcount⟩
  · intro h
    obtain ⟨⟨paths, hpaths⟩, haccepts⟩ := h
    rw [ruleFiles_eq hpaths] at haccepts
    obtain ⟨counts, hcounts⟩ := exists_mapM fun path hpath =>
      exists_checkFile_iff.mpr (haccepts path hpath)
    exact ⟨_, paths, hpaths, counts, hcounts, rfl⟩

/-! ### What is refused -/

/-- Why a file is refused: its bytes are no text, its text is refused, or one of its entries is. -/
inductive FileRefuses (t : Tree) (path : Path) : Refusal → Prop
  | bytes {bytes : List UInt8} (hread : t.read path = .ok bytes)
      (hnone : Text.Encoding.utf8.decode? bytes = none) : FileRefuses t path .undecodable
  | document {bytes : List UInt8} {text : List Char} {r : Refusal}
      (hread : t.read path = .ok bytes) (htext : Text.Encoding.utf8.decode? bytes = some text)
      (hparse : Yaml.parse text = .error (.refused r)) : FileRefuses t path r
  | rule {entry : Value} {r : Refusal} (hentry : entry ∈ entriesIn t path)
      (hkind : isSecret entry = false) (hunfit : Rule.Unfit entry r) : FileRefuses t path r
  | secret {entry : Value} {r : Refusal} (hentry : entry ∈ entriesIn t path)
      (hkind : isSecret entry = true) (hunfit : SecretPattern.Unfit entry r) :
      FileRefuses t path r

theorem refusesOnly_readDocument :
    RefusesOnly (FileRefuses t path) (readDocument path.text (t.read path)) := by
  unfold readDocument
  cases hread : t.read path with
  | error e => exact refusesOnly_fail _
  | ok bytes =>
      refine RefusesOnly.bind (refusesOnly_orRefuse (.bytes hread)) fun text htext => ?_
      have htext := orRefuse_eq_ok_iff.mp htext
      cases hparse : Yaml.parse text with
      | ok v => exact refusesOnly_ok _
      | error e =>
          cases e with
          | problem p => exact refusesOnly_fail _
          | refused r => exact refusesOnly_refuse (.document hread htext hparse)

theorem refusesOnly_checkKey {q : Refusal → Prop} {id : Value}
    (h : id.isKey = false → q .wrongKind) : RefusesOnly q (checkKey id) := by
  unfold checkKey
  cases hkey : id.isKey with
  | true => exact refusesOnly_ok ()
  | false => exact refusesOnly_refuse (h hkey)

theorem refusesOnly_checkEntry (hentry : entry ∈ entriesIn t path) :
    RefusesOnly (FileRefuses t path) (checkEntry path.text entry) := by
  cases entry with
  | mapping entries =>
      unfold checkEntry
      cases hkind : isSecret (.mapping entries) with
      | true =>
          simp only [if_true]
          refine RefusesOnly.bind ?_ fun p hp => refusesOnly_checkKey fun hkey => ?_
          · exact SecretPattern.refusesOnly_ofEntry.mono fun r => .secret hentry hkind
          · exact .secret hentry hkind (.id (SecretPattern.ofEntry_eq_ok_iff.mp hp).id hkey)
      | false =>
          simp only [Bool.false_eq_true, if_false]
          refine RefusesOnly.bind ?_ fun r hr => refusesOnly_checkKey fun hkey => ?_
          · exact Rule.refusesOnly_ofEntry.mono fun r => .rule hentry hkind
          · exact .rule hentry hkind (.id (Rule.ofEntry_eq_ok_iff.mp hr).id hkey)
  | _ => exact refusesOnly_fail _

theorem refusesOnly_checkFile : RefusesOnly (FileRefuses t path) (checkFile t path) := by
  refine refusesOnly_readDocument.bind fun doc hdoc => ?_
  have hentries : entriesIn t path = entriesOf doc := by
    unfold entriesIn
    rw [hdoc]
  refine RefusesOnly.bind (RefusesOnly.forM fun entry hentry => ?_) fun _ _ => refusesOnly_ok _
  exact refusesOnly_checkEntry (hentries ▸ hentry)

/-- Why loading a directory is refused: its files cannot be found, or one of them is refused. -/
def DirectoryRefuses (t : Tree) (directory : Path) (r : Refusal) : Prop :=
  findRuleFiles t directory = .error r ∨ ∃ path ∈ ruleFiles t directory, FileRefuses t path r

/-- **What is refused when rule files are loaded.** -/
theorem refusesOnly_checkDirectory :
    RefusesOnly (DirectoryRefuses t directory) (checkDirectory t directory) := by
  refine RefusesOnly.bind (refusesOnly_allowing_of fun r hr => .inl hr) fun paths hpaths => ?_
  refine RefusesOnly.bind (RefusesOnly.mapM fun path hpath => ?_) fun _ _ => refusesOnly_ok _
  rw [← ruleFiles_eq (allowing_eq_ok_iff.mp hpaths)] at hpath
  exact refusesOnly_checkFile.mono fun r hr => .inr ⟨path, hpath, hr⟩

/-- A file can be read, and its entries have values of the kinds that are meant. -/
structure IsProperFile (t : Tree) (path : Path) : Prop where
  legible : ∀ bytes, t.read path = .ok bytes → ∃ text,
    Text.Encoding.utf8.decode? bytes = some text ∧ ∀ r, Yaml.parse text ≠ .error (.refused r)
  rules : ∀ entry ∈ entriesIn t path, isSecret entry = false → Rule.IsProper entry
  secrets : ∀ entry ∈ entriesIn t path, isSecret entry = true → SecretPattern.IsProper entry

theorem IsProperFile.not_refuses (h : IsProperFile t path) (r : Refusal) :
    ¬ FileRefuses t path r := by
  intro hrefuses
  cases hrefuses with
  | bytes hread hnone =>
      obtain ⟨text, htext, -⟩ := h.legible _ hread
      rw [hnone] at htext
      cases htext
  | document hread htext hparse =>
      obtain ⟨text', htext', haccepts⟩ := h.legible _ hread
      obtain rfl := Option.some.inj (htext.symm.trans htext')
      exact haccepts r hparse
  | rule hentry hkind hunfit => exact (h.rules _ hentry hkind).not_unfit r hunfit
  | secret hentry hkind hunfit => exact (h.secrets _ hentry hkind).not_unfit r hunfit

/-- Nothing is refused if the rule files can be found and none of them is refused. -/
theorem not_directoryRefuses (hfound : HasRuleFiles t directory)
    (hfiles : ∀ path ∈ ruleFiles t directory, ∀ r, ¬ FileRefuses t path r) (r : Refusal) :
    ¬ DirectoryRefuses t directory r := by
  intro h
  obtain hmissing | ⟨path, hpath, hrefuses⟩ := h
  · obtain ⟨paths, hpaths⟩ := hfound
    rw [hpaths] at hmissing
    cases hmissing
  · exact hfiles path hpath r hrefuses

/-! ### What is registered -/

/-- An entry of the rule files in a directory. -/
def IsEntryOf (t : Tree) (directory : Path) (entry : Value) : Prop :=
  ∃ path ∈ ruleFiles t directory, entry ∈ entriesIn t path

/-- What a builder holds was there before, or is described by an entry of a rule file. -/
structure MadeFrom (t : Tree) (directory : Path) (before after : CatalogBuilder) : Prop where
  rules : ∀ r ∈ after.rules, r ∈ before.rules ∨ ∃ entry, IsEntryOf t directory entry ∧
    isSecret entry = false ∧ Rule.Describes entry r
  secrets : ∀ p ∈ after.secrets, p ∈ before.secrets ∨ ∃ entry, IsEntryOf t directory entry ∧
    isSecret entry = true ∧ SecretPattern.Describes entry p

/-- What comes after what has been read may look at what that was. -/
theorem Keeps.liftBind {P : CatalogBuilder → Prop} {α β : Type} {x : Rule.Reading α}
    {next : α → Step β} (h : ∀ a, x = .ok a → Keeps P (next a)) :
    Keeps P (liftM x >>= next) := by
  intro b hb
  cases x with
  | error f => exact hb
  | ok a => exact h a rfl b hb

theorem registerEntry_madeFrom {path : String} (hentry : IsEntryOf t directory entry) :
    Keeps (MadeFrom t directory b) (registerEntry path entry) := by
  cases entry with
  | mapping entries =>
      rw [registerEntry, ← isSecret]
      by_cases hkind : isSecret (.mapping entries) = true
      · rw [if_pos hkind]
        refine Keeps.liftBind fun p hp => ?_
        unfold registerSecret
        split
        · refine Keeps.modify fun b' hb' => ⟨hb'.rules, fun p' hp' => ?_⟩
          rcases mem_placed hp' with rfl | hold
          · exact .inr ⟨_, hentry, hkind, SecretPattern.ofEntry_eq_ok_iff.mp hp⟩
          · exact hb'.secrets p' hold
        · exact Keeps.throw _
      · rw [if_neg hkind]
        refine Keeps.liftBind fun r hr => ?_
        unfold register
        split
        · refine Keeps.modify fun b' hb' => ⟨fun r' hr' => ?_, hb'.secrets⟩
          rcases mem_placed hr' with rfl | hold
          · exact .inr ⟨_, hentry, Bool.eq_false_iff.mpr hkind, Rule.ofEntry_eq_ok_iff.mp hr⟩
          · exact hb'.rules r' hold
        · exact Keeps.throw _
  | _ => exact Keeps.throw _

theorem loadFile_madeFrom (hpath : path ∈ ruleFiles t directory) :
    Keeps (MadeFrom t directory b) (loadFile t path) := by
  refine Keeps.liftBind fun doc hdoc => ?_
  have hentries : entriesIn t path = entriesOf doc := by
    unfold entriesIn
    rw [hdoc]
  have hall : Keeps (MadeFrom t directory b) ((entriesOf doc).forM (registerEntry path.text)) :=
    Keeps.forM fun entry hentry => registerEntry_madeFrom ⟨path, hpath, hentries ▸ hentry⟩
  exact hall.bind fun _ => Keeps.pure _

/-- To load rule files registers what their entries describe. -/
theorem loadDirectory_keeps_madeFrom (t : Tree) (directory : Path) (b : CatalogBuilder) :
    Keeps (MadeFrom t directory b) (loadDirectory t directory) := by
  refine Keeps.liftBind fun paths hpaths => ?_
  have hfiles : ruleFiles t directory = paths := ruleFiles_eq (allowing_eq_ok_iff.mp hpaths)
  exact (Keeps.mapM fun path hpath => loadFile_madeFrom (hfiles ▸ hpath)).bind fun _ =>
    Keeps.pure _

/-- **What is registered from rule files** is described by their entries, also if a fault ends the
loading. -/
theorem loadDirectory_madeFrom (t : Tree) (directory : Path) (b : CatalogBuilder) :
    MadeFrom t directory b ((loadDirectory t directory).run.run b).2 :=
  loadDirectory_keeps_madeFrom t directory b b ⟨fun _ hr => .inl hr, fun _ hp => .inl hp⟩

/-- **Custom rules are what their entries say.**  Rule files are loaded exactly when they can be
found and each of them has a document whose entries are mappings that describe something with an id
that can be a key.  Otherwise there is a problem or a refusal, and a refusal has its reason in the
directory, in a file or in an entry.  Whether or not the loading comes to its end, what has been
registered is described by an entry: category, metrics and window are those of a rule in any case,
and everything else is as faithful as the entry gives texts.  When the files can be found and read
and their entries have values of the kinds that are meant, nothing is refused, and what is
registered holds what its entry says. -/
theorem loadDirectory_checked (t : Tree) (directory : Path) (b : CatalogBuilder) :
    ∃ result after, (loadDirectory t directory).run.run b = (result, after) ∧
      ((∃ n, result = .ok n) ↔
        HasRuleFiles t directory ∧ ∀ path ∈ ruleFiles t directory, AcceptsFile t path) ∧
      (∀ r, result = .error (.refused r) → DirectoryRefuses t directory r) ∧
      MadeFrom t directory b after ∧
      (∀ entry r, Rule.Describes entry r →
        (Rule.IsFaithful entry r ↔ Rule.GivesTexts entry)) ∧
      (∀ entry p, SecretPattern.Describes entry p →
        (p.IsFaithful ↔ SecretPattern.GivesTexts entry)) ∧
      (HasRuleFiles t directory → (∀ path ∈ ruleFiles t directory, IsProperFile t path) →
        ((∃ p, result = .error (.problem p)) ∨ ∃ n, result = .ok n) ∧
        (∀ r ∈ after.rules, r ∈ b.rules ∨ ∃ entry, IsEntryOf t directory entry ∧
          Rule.Describes entry r ∧ Rule.IsFaithful entry r) ∧
        ∀ p ∈ after.secrets, p ∈ b.secrets ∨ ∃ entry, IsEntryOf t directory entry ∧
          SecretPattern.Describes entry p ∧ p.IsFaithful) := by
  have hresult := loadDirectory_result t directory b
  have hmade := loadDirectory_madeFrom t directory b
  generalize (loadDirectory t directory).run.run b = outcome at hresult hmade
  obtain ⟨result, after⟩ := outcome
  obtain rfl : result = checkDirectory t directory := hresult
  refine ⟨_, after, rfl, exists_checkDirectory_iff, refusesOnly_checkDirectory, hmade,
    fun _ _ => Rule.Describes.isFaithful_iff, fun _ _ => SecretPattern.Describes.isFaithful_iff,
    fun hfound hproper => ⟨?_, fun r hr => ?_, fun p hp => ?_⟩⟩
  · refine problem_or_ok (refusesOnly_checkDirectory.mono fun r hr => ?_)
    exact not_directoryRefuses hfound (fun path hpath => (hproper path hpath).not_refuses) r hr
  · refine (hmade.rules r hr).imp_right fun h => ?_
    obtain ⟨entry, hentry, hkind, hdescribes⟩ := h
    obtain ⟨path, hpath, hmem⟩ := hentry
    have hgives := ((hproper path hpath).rules entry hmem hkind).toGivesTexts
    exact ⟨entry, ⟨path, hpath, hmem⟩, hdescribes, hdescribes.isFaithful_iff.mpr hgives⟩
  · refine (hmade.secrets p hp).imp_right fun h => ?_
    obtain ⟨entry, hentry, hkind, hdescribes⟩ := h
    obtain ⟨path, hpath, hmem⟩ := hentry
    have hgives := ((hproper path hpath).secrets entry hmem hkind).toGivesTexts
    exact ⟨entry, ⟨path, hpath, hmem⟩, hdescribes, hdescribes.isFaithful_iff.mpr hgives⟩

/-- A file that has a document can be read. -/
theorem IsProperFile.of_readDocument {doc : Option Value}
    (hdoc : readDocument path.text (t.read path) = .ok doc)
    (hrules : ∀ entry ∈ entriesOf doc, isSecret entry = false → Rule.IsProper entry)
    (hsecrets : ∀ entry ∈ entriesOf doc, isSecret entry = true → SecretPattern.IsProper entry) :
    IsProperFile t path := by
  have hentries : entriesIn t path = entriesOf doc := by
    unfold entriesIn
    rw [hdoc]
  refine ⟨fun bytes hread => ?_, hentries ▸ hrules, hentries ▸ hsecrets⟩
  simp only [readDocument, hread, bind_eq_ok_iff, orRefuse_eq_ok_iff] at hdoc
  obtain ⟨text, htext, hdoc⟩ := hdoc
  refine ⟨text, htext, fun r hparse => ?_⟩
  rw [hparse] at hdoc
  cases hdoc

/-- A directory with a file of custom rules. -/
def rulesWith (bytes : List UInt8) : Tree where
  root := .directory [("rules", .directory [("a.yaml", .file bytes)])]

/-- The bytes of a file with a rule. -/
def zapRule : List UInt8 :=
  Text.utf8Bytes "- id: ZAP\n  category: injection\n  pattern: zap\n".toList

/-- A rule with an id, a category and a pattern is loaded, and what is registered is faithful. -/
theorem loadDirectory_checked_zap :
    ∃ n after, (loadDirectory (rulesWith zapRule) (Path.ofString "rules")).run.run empty =
        (.ok n, after) ∧ after.rules.length = 1 ∧
      ∀ r ∈ after.rules, ∃ entry, IsEntryOf (rulesWith zapRule) (Path.ofString "rules") entry ∧
        Rule.Describes entry r ∧ Rule.IsFaithful entry r := by
  have hfiles : ruleFiles (rulesWith zapRule) (Path.ofString "rules") =
      [(Path.ofString "rules").child "a.yaml"] := by decide +kernel
  have hpaths : ((findRuleFiles (rulesWith zapRule) (Path.ofString "rules")).toOption.any
      fun _ => true) = true := by decide +kernel
  obtain ⟨paths, hpaths, -⟩ := any_toOption_iff.mp hpaths
  have hfound : HasRuleFiles (rulesWith zapRule) (Path.ofString "rules") := ⟨paths, hpaths⟩
  have hread : ((readDocument ((Path.ofString "rules").child "a.yaml").text
      ((rulesWith zapRule).read ((Path.ofString "rules").child "a.yaml"))).toOption.any fun doc =>
        (entriesOf doc).all fun entry => !isSecret entry &&
          (["id", "name", "description", "remediation"].all fun key =>
            (entry.get? key).all fun v => v.text?.isSome) &&
          (["references", "file_patterns", "cvss", "window", "cwe"].all fun key =>
            (entry.get? key).isNone) &&
          ((entry.get? "category").all fun v => v.isWritable) &&
          (entry.get? "pattern").all fun v => v.text? == some "zap") = true := by decide +kernel
  obtain ⟨doc, hdoc, hentries⟩ := any_toOption_iff.mp hread
  simp only [List.all_eq_true, Bool.and_eq_true, Bool.not_eq_true', Option.all_eq_true,
    Option.isNone_iff_eq_none, Option.isSome_iff_exists, beq_iff_eq] at hentries
  have hproper : ∀ path ∈ ruleFiles (rulesWith zapRule) (Path.ofString "rules"),
      IsProperFile (rulesWith zapRule) path := by
    intro path hpath
    rw [hfiles, List.mem_singleton] at hpath
    rw [hpath]
    refine .of_readDocument hdoc (fun entry hentry _ => ?_) fun entry hentry hkind => ?_
    · obtain ⟨⟨⟨⟨-, htexts⟩, hnone⟩, hcategory⟩, hpattern⟩ := hentries entry hentry
      have habsent : ∀ key ∈ ["references", "file_patterns", "cvss", "window", "cwe"], ∀ v,
          entry.get? key ≠ some v := by
        intro key hkey v hv
        rw [hnone key hkey] at hv
        cases hv
      refine ⟨⟨fun key hkey v hv => ?_, fun v hv => ?_, fun v hv => ?_⟩, hcategory,
        fun v hv => ?_, fun v hv => ?_, fun v hv => ?_, fun v hv => ?_⟩
      · obtain ⟨t, ht⟩ := htexts key hkey v hv
        exact ⟨t, Value.isText_of_text? ht⟩
      · exact absurd hv (habsent _ (by simp) v)
      · exact absurd hv (habsent _ (by simp) v)
      · exact absurd hv (habsent _ (by simp) v)
      · exact absurd hv (habsent _ (by simp) v)
      · exact absurd hv (habsent _ (by simp) v)
      · exact ⟨"zap", Value.isText_of_text? (hpattern v hv), by decide +kernel⟩
    · obtain ⟨⟨⟨⟨hrule, -⟩, -⟩, -⟩, -⟩ := hentries entry hentry
      rw [hkind] at hrule
      cases hrule
  have hloads : ((checkDirectory (rulesWith zapRule) (Path.ofString "rules")).toOption.any
      fun _ => true) = true := by decide +kernel
  obtain ⟨n, hn, -⟩ := any_toOption_iff.mp hloads
  obtain ⟨result, after, hrun, -, -, -, -, -, hsound⟩ :=
    loadDirectory_checked (rulesWith zapRule) (Path.ofString "rules") empty
  obtain rfl : result = .ok n := by
    rw [← hn, ← loadDirectory_result _ _ empty, hrun]
  have hone : ((loadDirectory (rulesWith zapRule) (Path.ofString "rules")).run.run
      empty).2.rules.length = 1 := by decide +kernel
  rw [hrun] at hone
  refine ⟨n, after, hrun, hone, fun r hr => ?_⟩
  exact ((hsound hfound hproper).2.1 r hr).resolve_left (fun hold => nomatch hold)

/-- Rules in a file that is no text are refused in the middle of loading. -/
theorem exists_undecodable_refused :
    ∃ after, (loadDirectory (rulesWith [0xff]) (Path.ofString "rules")).run.run Builtin.builder =
      (.error (.refused .undecodable), after) := by
  have hcheck : (match checkDirectory (rulesWith [0xff]) (Path.ofString "rules") with
      | .error (.refused r) => r == .undecodable
      | _ => false) = true := by decide +kernel
  have hresult := loadDirectory_result (rulesWith [0xff]) (Path.ofString "rules") Builtin.builder
  rw [← hresult] at hcheck
  generalize (loadDirectory (rulesWith [0xff]) (Path.ofString "rules")).run.run
    Builtin.builder = outcome at hcheck
  obtain ⟨result, after⟩ := outcome
  split at hcheck
  · rename_i r hr
    obtain rfl := eq_of_beq hcheck
    exact ⟨after, Prod.ext hr rfl⟩
  · cases hcheck

end CatalogBuilder

end SecurityAudit
