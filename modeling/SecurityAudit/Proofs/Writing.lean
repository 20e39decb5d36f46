import SecurityAudit.Proofs.CheckedSettings
import SecurityAudit.Proofs.Verdict

/-!
# Reports that can be written

A document can be written unless it holds a date or a time, has one for a key, or holds a whole
number of too many digits.  A report holds values that come from rule files: the ids, names,
descriptions, remediations and references of rules.  Everything else in it is a text, a number or a
truth value, so it has a form in JSON when those values are texts, and it can be written when none
of the numbers that have been counted is too long.
-/

namespace SecurityAudit

namespace Value

variable {v : Value}

/-- A value has a form in JSON: it can be written, at whatever depth, unless a whole number in it
has too many digits. -/
def HasForm (v : Value) : Prop :=
  v.isWritable = true → ∀ depth, ∃ text, Json.writeAt depth v = .ok text

theorem hasForm_null : Value.null.HasForm :=
  fun _ _ => ⟨_, rfl⟩

theorem hasForm_bool (b : Bool) : (Value.bool b).HasForm :=
  fun _ _ => ⟨_, rfl⟩

theorem hasForm_int (n : Int) : (Value.int n).HasForm := by
  intro hshort depth
  rw [Json.writeAt, Json.wholeText, if_pos hshort]
  exact ⟨_, rfl⟩

theorem hasForm_float (x : Float) : (Value.float x).HasForm :=
  fun _ _ => ⟨_, rfl⟩

theorem hasForm_text (s : String) : (Value.text s).HasForm :=
  fun _ _ => ⟨_, rfl⟩

theorem hasForm_ofRaw (t : RawText) : (ofRaw t).HasForm := by
  cases t with
  | sound s => exact hasForm_text s
  | broken front half rest => exact fun _ _ => ⟨_, rfl⟩

theorem IsText.hasForm (h : v.IsText) : v.HasForm := by
  obtain ⟨t, rfl⟩ := h
  exact hasForm_text t

/-- A list has a form when its items have. -/
theorem hasForm_list {items : List Value} (h : ∀ v ∈ items, v.HasForm) :
    (Value.list items).HasForm := by
  intro hshort
  replace hshort := areWritable_iff.mp hshort
  have hitems : ∀ depth, ∃ pieces, Json.writeItems depth items = .ok pieces := by
    intro depth
    induction items with
    | nil => exact ⟨[], rfl⟩
    | cons v items ih =>
        obtain ⟨hfirst, hrest⟩ := List.forall_mem_cons.mp h
        obtain ⟨hfirstShort, hrestShort⟩ := List.forall_mem_cons.mp hshort
        obtain ⟨piece, hpiece⟩ := hfirst hfirstShort depth
        obtain ⟨pieces, hpieces⟩ := ih hrest hrestShort
        rw [Json.writeItems, hpiece, hpieces]
        exact ⟨_, rfl⟩
  intro depth
  obtain ⟨pieces, hpieces⟩ := hitems (depth + 1)
  rw [Json.writeAt, hpieces]
  exact ⟨_, rfl⟩

/-- A record can be written out when its values can be. -/
theorem isWritable_record_iff {entries : List (String × Value)} :
    (Value.record entries).isWritable = true ↔ ∀ e ∈ entries, e.2.isWritable = true := by
  rw [record, isWritable, haveWritable_iff, List.forall_mem_map]
  simp [isWritable]

/-- A mapping with text keys has a form when its values have. -/
theorem hasForm_record {entries : List (String × Value)}
    (h : ∀ e ∈ entries, e.2.HasForm) : (Value.record entries).HasForm := by
  intro hshort
  replace hshort := isWritable_record_iff.mp hshort
  have hentries : ∀ depth, ∃ pieces,
      Json.writeEntries depth (entries.map fun e => (.text e.1, e.2)) = .ok pieces := by
    intro depth
    induction entries with
    | nil => exact ⟨[], rfl⟩
    | cons e entries ih =>
        obtain ⟨hfirst, hrest⟩ := List.forall_mem_cons.mp h
        obtain ⟨hfirstShort, hrestShort⟩ := List.forall_mem_cons.mp hshort
        obtain ⟨piece, hpiece⟩ := hfirst hfirstShort depth
        obtain ⟨pieces, hpieces⟩ := ih hrest hrestShort
        rw [List.map_cons, Json.writeEntries, Json.keyText, hpiece]
        simp only [bind, Except.bind, hpieces]
        exact ⟨_, rfl⟩
  intro depth
  obtain ⟨pieces, hpieces⟩ := hentries (depth + 1)
  rw [Value.record, Json.writeAt, hpieces]
  exact ⟨_, rfl⟩

theorem hasForm_texts (items : List String) : (Value.texts items).HasForm := by
  refine hasForm_list fun v hv => ?_
  obtain ⟨t, -, rfl⟩ := List.mem_map.mp hv
  exact hasForm_text t

/-- The documents of some things have a form as a list when each of them has. -/
theorem hasForm_map {α : Type} {f : α → Value} {as : List α}
    (h : ∀ a ∈ as, (f a).HasForm) : (Value.list (as.map f)).HasForm := by
  refine hasForm_list fun v hv => ?_
  obtain ⟨a, ha, rfl⟩ := List.mem_map.mp hv
  exact h a ha

end Value

open Value

namespace Finding

variable {x : Finding}

/-- What a finding has from its rule is text. -/
def IsTextual (x : Finding) : Prop :=
  ∀ v ∈ [x.ruleId, x.title, x.description, x.remediation] ++ x.references, v.IsText

theorem isTextual_iff :
    x.IsTextual ↔ x.ruleId.IsText ∧ x.title.IsText ∧ x.description.IsText ∧
      x.remediation.IsText ∧ ∀ v ∈ x.references, v.IsText := by
  simp [IsTextual]

theorem hasForm_scoreDocument (s : Cvss.Score) : (scoreDocument s).HasForm := by
  refine hasForm_record ?_
  simp only [List.forall_mem_cons]
  exact ⟨hasForm_float _, hasForm_text _, hasForm_text _, List.forall_mem_nil _⟩

theorem hasForm_of_mem_textEntry {key : String} {s : Option String} :
    ∀ e ∈ textEntry key s, e.2.HasForm := by
  intro e he
  unfold textEntry at he
  cases s with
  | none => cases he
  | some t =>
      by_cases hempty : t.isEmpty = true
      · simp [hempty] at he
      · simp only [hempty] at he
        rw [List.mem_singleton.mp he]
        exact hasForm_text t

theorem hasForm_rounded (n : Number) : (rounded n).HasForm := by
  cases n with
  | int n => exact hasForm_int n
  | float x => exact hasForm_float _

/-- A finding has a form when what it has from its rule is text. -/
theorem IsTextual.hasForm_document (h : x.IsTextual) : x.document.HasForm := by
  obtain ⟨hrule, htitle, hdescription, hremediation, hreferences⟩ := isTextual_iff.mp h
  have hscore : ((x.cvss.map scoreDocument).getD .null).HasForm := by
    cases x.cvss with
    | none => exact hasForm_null
    | some s => exact hasForm_scoreDocument s
  have hplace : (Value.record [("file", .text x.file), ("line", .int x.line)]).HasForm := by
    refine hasForm_record ?_
    simp only [List.forall_mem_cons]
    exact ⟨hasForm_text _, hasForm_int _, List.forall_mem_nil _⟩
  have hlist : (Value.list x.references).HasForm :=
    hasForm_list fun v hv => (hreferences v hv).hasForm
  refine hasForm_record ?_
  simp only [List.forall_mem_append, List.forall_mem_cons]
  refine ⟨⟨⟨⟨?_, hasForm_of_mem_textEntry⟩, hasForm_of_mem_textEntry⟩, ?_⟩, ?_⟩
  · exact ⟨hasForm_text _, hrule.hasForm, htitle.hasForm, hdescription.hasForm,
      hasForm_text _, hasForm_text _, hscore, hplace, hasForm_text _,
      hremediation.hasForm, hlist, List.forall_mem_nil _⟩
  · cases x.entropy with
    | none => exact List.forall_mem_nil _
    | some n => exact List.forall_mem_singleton.mpr (hasForm_rounded n)
  · exact ⟨hasForm_text _, hasForm_text _, List.forall_mem_nil _⟩

end Finding

namespace Report

variable {r : Report} {level : String}

/-- What a report has from rule files is text, and what it counts has a form. -/
structure IsTextual (r : Report) : Prop where
  findings : ∀ x ∈ r.findings, x.IsTextual
  suppressed : ∀ s ∈ r.suppressed, s.rule.IsText
  files : r.totals.files.HasForm
  policies : r.totals.policies.HasForm

theorem hasForm_numberValue (n : Number) : (numberValue n).HasForm := by
  cases n with
  | int n => exact hasForm_int n
  | float x => exact hasForm_float x

theorem hasForm_recommendation (rec : Recommendation) : rec.document.HasForm := by
  refine hasForm_record ?_
  simp only [List.forall_mem_cons]
  exact ⟨hasForm_text _, hasForm_text _, hasForm_text _, hasForm_texts _,
    List.forall_mem_nil _⟩

theorem hasForm_warning (w : Warning) : w.document.HasForm := by
  refine hasForm_record ?_
  simp only [List.forall_mem_cons]
  exact ⟨hasForm_text _, hasForm_ofRaw _, hasForm_text _, List.forall_mem_nil _⟩

theorem hasForm_suppression {s : Suppression} (h : s.rule.IsText) :
    s.document.HasForm := by
  refine hasForm_record ?_
  simp only [List.forall_mem_cons]
  exact ⟨h.hasForm, hasForm_text _, hasForm_int _, hasForm_text _, hasForm_text _,
    List.forall_mem_nil _⟩

/-- No whole number in a report has too many digits to be written out. -/
def HasShortNumbers (r : Report) : Prop :=
  ∀ e ∈ r.entries, e.2.isWritable = true

/-- The entries of a report have a form. -/
theorem IsTextual.hasForm_entries (h : r.IsTextual) : ∀ e ∈ r.entries, e.2.HasForm := by
  have hcounts : (Value.record (r.severityCounts.map fun c =>
      (c.1, .int c.2))).HasForm := by
    refine hasForm_record fun e he => ?_
    obtain ⟨c, -, rfl⟩ := List.mem_map.mp he
    exact hasForm_int _
  have hfindings : (Value.list (r.findings.map Finding.document)).HasForm :=
    hasForm_map fun x hx => (h.findings x hx).hasForm_document
  have hsuppressed : (Value.list (r.suppressed.map Suppression.document)).HasForm :=
    hasForm_map fun s hs => hasForm_suppression (h.suppressed s hs)
  unfold entries
  simp only [List.forall_mem_cons]
  exact ⟨hasForm_text _, hasForm_text _, hasForm_text _, hasForm_text _,
    hasForm_float _, hcounts, hasForm_int _, hasForm_int _, hasForm_bool _,
    hasForm_bool _, h.files, h.policies, hasForm_numberValue _, hfindings,
    hasForm_map fun rec _ => hasForm_recommendation rec,
    hasForm_map fun w _ => hasForm_warning w, hasForm_texts _, hsuppressed,
    List.forall_mem_nil _⟩

/-- **A report can be written** when what it has from rule files is text and its numbers are
short. -/
theorem IsTextual.exists_text (h : r.IsTextual) (hshort : r.HasShortNumbers) (level : String) :
    ∃ text, r.text (.text level) = .ok text := by
  have htool : (Value.record [("name", .text programName),
      ("version", .text programVersion)]).HasForm := by
    refine hasForm_record ?_
    simp only [List.forall_mem_cons]
    exact ⟨hasForm_text _, hasForm_text _, List.forall_mem_nil _⟩
  unfold Report.text verdictDocument
  rw [isBlocking_text]
  refine hasForm_record ?_ (isWritable_record_iff.mpr ?_) 0
  · simp only [List.forall_mem_append, List.forall_mem_cons]
    exact ⟨⟨hasForm_text _, htool, hasForm_text _, hasForm_bool _, List.forall_mem_nil _⟩,
      h.hasForm_entries⟩
  · simp only [List.forall_mem_append, List.forall_mem_cons]
    exact ⟨⟨rfl, isWritable_record_iff.mpr (by simp [isWritable]), rfl, rfl, List.forall_mem_nil _⟩,
      hshort⟩

/-- A report can be shown when what it has from rule files is text. -/
theorem IsTextual.exists_shown (h : r.IsTextual) (level : String) (figures : Bool) :
    ∃ ps, r.shown (.text level) figures = .ok ps :=
  exists_shown_of_texts (fun x hx => (Finding.isTextual_iff.mp (h.findings x hx)).1) level figures

end Report

end SecurityAudit
