import Mathlib.Data.Set.List
import SecurityAudit.Proofs.Outcome
import SecurityAudit.Settings.Check

/-!
# What passes the check

The check of settings looks at the options one after another and compares their values.  What that
comes to is said here for each option, and for all of them together (`check_eq_ok_iff`): levels and
formats are among those that there are, kinds of scan go by their names, numbers are not below one
and times are not zero or less.  The options that are not named are not looked at.
-/

namespace SecurityAudit

namespace Value

/-- A value is a text. -/
def IsText (v : Value) : Prop :=
  ∃ t, v = .text t

theorem isText_of_text? {v : Value} {t : String} (h : v.text? = some t) : v = .text t := by
  cases v <;> cases h
  rfl

theorem not_isText_of_text? {v : Value} (h : v.text? = none) : ¬ v.IsText := by
  rintro ⟨t, rfl⟩
  cases h

/-- A value is a list of texts. -/
def IsTexts (v : Value) : Prop :=
  ∃ items, v = .texts items

/-- A value is among texts when it is one of them. -/
theorem isAmong_texts_iff {v : Value} {items : List String} :
    v.isAmong (items.map .text) = true ↔ ∃ t ∈ items, v = .text t := by
  have hfound : ∀ t : String, (Value.text t).isFoundAs v = true ↔ v = .text t := by
    intro t
    cases v <;> simp [isFoundAs, isNaN, number?, same, @eq_comm _ t]
  simp only [isAmong, List.any_map, List.any_eq_true, Function.comp_apply, hfound]

/-- What holds elements counts as true when it holds some. -/
theorem holds_iff_of_elements? {v : Value} {items : List Value} (h : v.elements? = some items) :
    v.holds = true ↔ items ≠ [] := by
  cases v <;> simp only [elements?, Option.some.injEq, reduceCtorEq] at h
  all_goals
    subst h
    simp [holds, RawText.points]

/-- A list of texts holds them. -/
theorem elements?_of_texts (items : List String) :
    (texts items).elements? = some (items.map .text) := rfl

/-- Values each of which is a text make up texts. -/
theorem exists_map_text {items : List Value} (h : ∀ v ∈ items, ∃ t, v = .text t) :
    ∃ texts : List String, items = texts.map .text := by
  have hrange : items ∈ Set.range (List.map Value.text) := by
    rw [Set.range_list_map]
    intro v hv
    obtain ⟨t, rfl⟩ := h v hv
    exact ⟨t, rfl⟩
  obtain ⟨texts, rfl⟩ := hrange
  exact ⟨texts, rfl⟩

/-- Two lists of texts are equal as values when they have the same texts. -/
theorem map_text_injective : Function.Injective (List.map Value.text) :=
  List.map_injective_iff.mpr fun _ _ => Value.text.inj

end Value

namespace Settings

variable {s : Settings} {v : Value} {p : Problem}

/-- A value passes for a number of at least one. -/
def PassesForCount (v : Value) : Prop :=
  ∃ n, v.number? = some n ∧ n.below (.int 1) = false

/-- A value passes for a time above zero. -/
def PassesForTime (v : Value) : Prop :=
  ∃ n, v.number? = some n ∧ n.atMost 0 = false

/-- A value passes for kinds of scan: what it holds are some of their names. -/
def PassesForTypes (v : Value) : Prop :=
  ∃ types, types ≠ [] ∧ (∀ t ∈ types, t ∈ scanTypes) ∧ v.elements? = some (types.map .text)

/-- A value is the label of a level that a threshold can be set to. -/
def IsLevel (v : Value) : Prop :=
  ∃ l ∈ Severity.thresholds, v = .text l.label

/-- What settings are like that pass the check.  The options that are not named here are not looked
at. -/
structure Accepted (s : Settings) : Prop where
  threshold : IsLevel s.scan.severityThreshold
  failOn : IsLevel s.scan.failOn
  scanTypes : PassesForTypes s.scan.scanTypes
  maxFindings : s.scan.maxFindings = .null ∨ PassesForCount s.scan.maxFindings
  timeout : s.scan.timeout = .null ∨ PassesForTime s.scan.timeout
  workers : PassesForCount s.scan.workers
  maxLineLength : PassesForCount s.scan.maxLineLength
  staleAfterDays : PassesForCount s.iam.staleAfterDays
  format : ∃ f ∈ formats, s.output.format = .text f

/-- What is required holds when checking goes on. -/
theorem require_eq_ok_iff {p : Problem} {condition : Bool} {u : Unit} :
    require p condition = .ok u ↔ condition = true := by
  cases condition <;> simp [Settings.require, fail]

/-- What is required of a value that a message quotes holds when checking goes on. -/
theorem requireOf_eq_ok_iff {p : Value → Problem} {condition : Bool} {u : Unit} :
    requireOf v p condition = .ok u ↔ condition = true := by
  cases condition <;> simp [requireOf]

theorem isThreshold_iff : isThreshold v = true ↔ IsLevel v := by
  have hlabels : (Severity.thresholds.map fun l => Value.text l.label) =
      (Severity.thresholds.map Severity.label).map .text := rfl
  rw [isThreshold, hlabels, Value.isAmong_texts_iff, IsLevel]
  constructor
  · rintro ⟨t, ht, rfl⟩
    obtain ⟨l, hl, rfl⟩ := List.mem_map.mp ht
    exact ⟨l, hl, rfl⟩
  · rintro ⟨l, hl, rfl⟩
    exact ⟨l.label, List.mem_map_of_mem hl, rfl⟩

theorem checkScanTypes_eq_ok_iff {u : Unit} : checkScanTypes v = .ok u ↔ PassesForTypes v := by
  simp only [checkScanTypes, bind_eq_ok_iff, require_eq_ok_iff, orRefuse_eq_ok_iff]
  constructor
  · rintro ⟨_, hholds, items, hitems, hknown⟩
    have hall : ∀ item ∈ items, ∃ t ∈ scanTypes, item = .text t := by
      cases hfilter : items.filter fun item => !isScanType item with
      | nil =>
          intro item hitem
          have hscan := List.filter_eq_nil_iff.mp hfilter item hitem
          exact Value.isAmong_texts_iff.mp (by simpa only [isScanType, Bool.not_eq_true,
            Bool.not_eq_false'] using hscan)
      | cons item rest =>
          rw [hfilter] at hknown
          obtain ⟨texts, -, hfail⟩ := bind_eq_ok_iff.mp hknown
          cases hfail
    obtain ⟨types, rfl⟩ := Value.exists_map_text fun item hitem =>
      let ⟨t, _, heq⟩ := hall item hitem
      ⟨t, heq⟩
    refine ⟨types, ?_, ?_, hitems⟩
    · have hsome := (Value.holds_iff_of_elements? hitems).mp hholds
      exact fun hnil => hsome (by rw [hnil]; rfl)
    · intro t ht
      obtain ⟨t', ht', heq⟩ := hall (.text t) (List.mem_map_of_mem ht)
      rwa [Value.text.inj heq]
  · rintro ⟨types, hsome, hknown, hitems⟩
    refine ⟨(), ?_, _, hitems, ?_⟩
    · rw [Value.holds_iff_of_elements? hitems]
      exact fun hnil => hsome (List.map_eq_nil_iff.mp hnil)
    · have hfilter : (types.map Value.text).filter (fun item => !isScanType item) = [] := by
        rw [List.filter_eq_nil_iff]
        intro item hitem
        obtain ⟨t, ht, rfl⟩ := List.mem_map.mp hitem
        have hscan : isScanType (.text t) = true :=
          Value.isAmong_texts_iff.mpr ⟨t, hknown t ht, rfl⟩
        simp [hscan]
      rw [hfilter]

theorem checkAtLeastOne_eq_ok_iff {u : Unit} : checkAtLeastOne p v = .ok u ↔ PassesForCount v := by
  simp only [checkAtLeastOne, number, bind_eq_ok_iff, orRefuse_eq_ok_iff, require_eq_ok_iff,
    Bool.not_eq_true', PassesForCount]

theorem checkPositive_eq_ok_iff {u : Unit} : checkPositive p v = .ok u ↔ PassesForTime v := by
  simp only [checkPositive, number, bind_eq_ok_iff, orRefuse_eq_ok_iff, require_eq_ok_iff,
    Bool.not_eq_true', PassesForTime]

theorem checkIfSet_eq_ok_iff {check : Value → Checked Unit} {u : Unit} :
    checkIfSet check v = .ok u ↔ v = .null ∨ check v = .ok u := by
  by_cases hnull : v = .null
  · subst hnull
    simp [checkIfSet]
  · have hset : checkIfSet check v = check v := by
      cases v <;> first | rfl | exact absurd rfl hnull
    rw [hset, or_iff_right hnull]

/-- **What passes the check.** -/
theorem check_eq_ok_iff : s.check = .ok () ↔ s.Accepted := by
  simp only [check, bind_eq_ok_iff, requireOf_eq_ok_iff, isThreshold_iff, checkScanTypes_eq_ok_iff,
    checkIfSet_eq_ok_iff, checkAtLeastOne_eq_ok_iff, checkPositive_eq_ok_iff,
    Value.isAmong_texts_iff]
  constructor
  · rintro ⟨_, threshold, _, failOn, _, scanTypes, _, maxFindings, _, timeout, _, workers, _,
      maxLineLength, _, staleAfterDays, format⟩
    exact ⟨threshold, failOn, scanTypes, maxFindings, timeout, workers, maxLineLength,
      staleAfterDays, format⟩
  · rintro ⟨threshold, failOn, scanTypes, maxFindings, timeout, workers, maxLineLength,
      staleAfterDays, format⟩
    exact ⟨(), threshold, (), failOn, (), scanTypes, (), maxFindings, (), timeout, (), workers, (),
      maxLineLength, (), staleAfterDays, format⟩

end Settings

end SecurityAudit
