import SecurityAudit.Proofs.Acceptance
import SecurityAudit.Proofs.Budget
import SecurityAudit.Proofs.JsonValues
import SecurityAudit.Proofs.KeyOrder
import SecurityAudit.Settings.Load

/-!
# Settings are checked as far as values can be compared

Settings come from a document in which every option may hold a value of any kind.  The check looks
at the options one after another and compares their values; it does not ask of what kind they are.
So settings that have been loaded are sound, with lists of texts and with whole numbers where these
are meant, exactly when the values that were put together are of the kinds that are meant: a
mapping passes for a list, a truth value or a fraction for a whole number, and a float that is no
number for a time.

Values of other kinds may also be refused in the middle of loading, and so may a number of too many
digits where a text or a message is made of it.  `load_checked` says what refusals there are.  When
the document is readable and its options are of their kinds, there are none: the settings meet a
problem or are sound.
-/

namespace SecurityAudit

namespace Value

/-- A value is a whole number. -/
def IsWhole (v : Value) : Prop :=
  ∃ n, v = .int n

/-- A value is a number that can be compared with others: a whole number, or a float that is a
number. -/
def IsNumber (v : Value) : Prop :=
  (∃ n, v = .int n) ∨ ∃ x, v = .float x ∧ Decimal.exact x ≠ .nan

end Value

namespace Settings

variable {s : Settings} {v : Value} {p : Problem} {q : Refusal → Prop}

/-! ## Kinds of values -/

/-- The options that are lists of texts. -/
def lists (s : Settings) : List Value :=
  [s.scan.scanTypes, s.scan.exclusions, s.rules.enable, s.rules.disable, s.secrets.skipMarkers,
    s.secrets.skipPathMarkers, s.iam.extraDangerousActions]

/-- The options that count something. -/
def counts (s : Settings) : List Value :=
  [s.scan.workers, s.scan.maxLineLength, s.iam.staleAfterDays]

/-- The options that are quoted when they are not among those that there are. -/
def named (s : Settings) : List Value :=
  [s.scan.severityThreshold, s.scan.failOn, s.output.format]

theorem forall_lists_iff {P : Value → Prop} :
    (∀ v ∈ s.lists, P v) ↔
      P s.scan.scanTypes ∧ P s.scan.exclusions ∧ P s.rules.enable ∧ P s.rules.disable ∧
        P s.secrets.skipMarkers ∧ P s.secrets.skipPathMarkers ∧ P s.iam.extraDangerousActions := by
  simp [lists]

theorem forall_counts_iff {P : Value → Prop} :
    (∀ v ∈ s.counts, P v) ↔
      P s.scan.workers ∧ P s.scan.maxLineLength ∧ P s.iam.staleAfterDays := by
  simp [counts]

theorem forall_named_iff {P : Value → Prop} :
    (∀ v ∈ s.named, P v) ↔
      P s.scan.severityThreshold ∧ P s.scan.failOn ∧ P s.output.format := by
  simp [named]

/-- Every option has a value of the kind that is meant; one that goes by a name has at least a value
that can be written out. -/
structure HasKinds (s : Settings) : Prop where
  named : ∀ v ∈ s.named, v.isWritable = true
  lists : ∀ v ∈ s.lists, v.IsTexts
  counts : ∀ v ∈ s.counts, v.IsWhole
  maxFindings : s.scan.maxFindings = .null ∨ s.scan.maxFindings.IsWhole
  timeout : s.scan.timeout = .null ∨ s.scan.timeout.IsNumber

/-- Settings that can be relied on: every option has a value of the kind that is meant and within
its bounds. -/
structure Sound (s : Settings) : Prop where
  threshold : IsLevel s.scan.severityThreshold
  failOn : IsLevel s.scan.failOn
  lists : ∀ v ∈ s.lists, v.IsTexts
  scanTypes : ∃ types, types ≠ [] ∧ (∀ t ∈ types, t ∈ Settings.scanTypes) ∧
    s.scan.scanTypes = .texts types
  counts : ∀ v ∈ s.counts, ∃ n : Int, 1 ≤ n ∧ v = .int n
  maxFindings : s.scan.maxFindings = .null ∨ ∃ n : Int, 1 ≤ n ∧ s.scan.maxFindings = .int n
  timeout : s.scan.timeout = .null ∨ (∃ n : Int, 0 < n ∧ s.scan.timeout = .int n) ∨
    ∃ x, s.scan.timeout = .float x ∧ (Number.int 0).below (.float x) = true

/-- What passes for a count and counts as a whole number is at least one. -/
theorem PassesForCount.one_le {n : Int} (h : PassesForCount v) (hv : v.number? = some (.int n)) :
    1 ≤ n := by
  obtain ⟨m, hm, hleast⟩ := h
  obtain rfl := Option.some.inj (hv.symm.trans hm)
  rw [Number.below_int, decide_eq_false_iff_not] at hleast
  omega

/-- A whole number that passes for a count is at least one. -/
theorem PassesForCount.exists_int (h : PassesForCount v) (hv : v.IsWhole) :
    ∃ n : Int, 1 ≤ n ∧ v = .int n := by
  obtain ⟨n, rfl⟩ := hv
  exact ⟨n, h.one_le rfl, rfl⟩

/-- A number that passes for a time is above zero. -/
theorem PassesForTime.above_zero (h : PassesForTime v) (hv : v.IsNumber) :
    (∃ n : Int, 0 < n ∧ v = .int n) ∨
      ∃ x, v = .float x ∧ (Number.int 0).below (.float x) = true := by
  obtain ⟨m, hm, habove⟩ := h
  rcases hv with ⟨n, rfl⟩ | ⟨x, rfl, hnumber⟩
  · obtain rfl : m = .int n := (Option.some.inj hm).symm
    rw [Number.atMost_int, decide_eq_false_iff_not] at habove
    exact .inl ⟨n, by omega, rfl⟩
  · obtain rfl : m = .float x := (Option.some.inj hm).symm
    refine .inr ⟨x, rfl, ?_⟩
    have hx : (Number.float x).exact ≠ .nan := hnumber
    have hzero : (Number.int 0).exact ≠ .nan := by simp [Number.exact]
    obtain ⟨hbelow, hsame⟩ := Bool.or_eq_false_iff.mp habove
    rw [Number.below_iff hzero hx]
    have hplace : ¬ (Number.float x).exact.place < (Number.int 0).exact.place := by
      rw [← Number.below_iff hx hzero, hbelow]
      simp
    have hdifferent : (Number.float x).exact.place ≠ (Number.int 0).exact.place := by
      intro heq
      have hequal : (Number.float x).same (.int 0) = true := by
        simp [Number.same, Number.order?, Decimal.Exact.order?_eq hx hzero, heq]
      rw [hsame] at hequal
      cases hequal
    exact lt_of_le_of_ne (not_lt.mp hplace) hdifferent.symm

/-- Kinds of scan in a list of texts are a list of their names. -/
theorem PassesForTypes.exists_texts (h : PassesForTypes v) (hv : v.IsTexts) :
    ∃ types, types ≠ [] ∧ (∀ t ∈ types, t ∈ Settings.scanTypes) ∧ v = .texts types := by
  obtain ⟨items, rfl⟩ := hv
  obtain ⟨types, hsome, hknown, hitems⟩ := h
  obtain rfl := Value.map_text_injective (Option.some.inj hitems)
  exact ⟨items, hsome, hknown, rfl⟩

/-- What is above zero is a number. -/
theorem exact_ne_nan_of_below {n : Int} {x : Float}
    (h : (Number.int n).below (.float x) = true) : Decimal.exact x ≠ .nan := by
  intro hnan
  have hnone : (Number.int n).order? (.float x) = none := by
    simp [Number.order?, Number.exact, hnan, Decimal.Exact.order?]
  simp [Number.below, hnone] at h

/-- Names that are accepted can be written out. -/
theorem Accepted.isWritable (h : s.Accepted) : ∀ v ∈ s.named, v.isWritable = true := by
  obtain ⟨l, -, hl⟩ := h.threshold
  obtain ⟨l', -, hl'⟩ := h.failOn
  obtain ⟨f, -, hf⟩ := h.format
  exact forall_named_iff.mpr ⟨by rw [hl]; rfl, by rw [hl']; rfl, by rw [hf]; rfl⟩

/-- **What the check leaves open**: the kinds of values. -/
theorem Accepted.sound_iff (h : s.Accepted) : s.Sound ↔ s.HasKinds := by
  constructor
  · intro hsound
    refine ⟨h.isWritable, hsound.lists, fun v hv => ?_, ?_, ?_⟩
    · obtain ⟨n, -, hn⟩ := hsound.counts v hv
      exact ⟨n, hn⟩
    · exact hsound.maxFindings.imp_right fun ⟨n, _, hn⟩ => ⟨n, hn⟩
    · refine hsound.timeout.imp_right ?_
      rintro (⟨n, -, hn⟩ | ⟨x, hx, habove⟩)
      · exact .inl ⟨n, hn⟩
      · exact .inr ⟨x, hx, exact_ne_nan_of_below habove⟩
  · intro hkinds
    have hpasses : ∀ v ∈ s.counts, PassesForCount v :=
      forall_counts_iff.mpr ⟨h.workers, h.maxLineLength, h.staleAfterDays⟩
    refine ⟨h.threshold, h.failOn, hkinds.lists, ?_, fun v hv => ?_, ?_, ?_⟩
    · exact h.scanTypes.exists_texts (forall_lists_iff.mp hkinds.lists).1
    · exact (hpasses v hv).exists_int (hkinds.counts v hv)
    · rcases hkinds.maxFindings with hnull | hwhole
      · exact .inl hnull
      · refine h.maxFindings.imp_right fun hpasses => hpasses.exists_int hwhole
    · rcases hkinds.timeout with hnull | hnumber
      · exact .inl hnull
      · exact h.timeout.imp_right fun hpasses => hpasses.above_zero hnumber

/-! ## What the check refuses -/

/-- What is required never refuses anything. -/
theorem refusesOnly_require (condition : Bool) : RefusesOnly q (require p condition) := by
  cases condition with
  | true => exact refusesOnly_ok ()
  | false => exact refusesOnly_fail p

/-- What is required of a value is refused when the value cannot be written out. -/
theorem refusesOnly_requireOf {problem : Value → Problem} {condition : Bool}
    (h : v.isWritable = false → q .badValue) :
    RefusesOnly q (requireOf v problem condition) := by
  cases condition with
  | true => exact refusesOnly_ok ()
  | false => exact Value.refusesOnly_failAbout h

theorem refusesOnly_number (h : v.number? = none → q .wrongKind) : RefusesOnly q (number v) :=
  refusesOnly_orRefuse h

theorem mapM_text?_texts (items : List String) :
    (items.map Value.text).mapM Value.text? = some items := by
  induction items with
  | nil => rfl
  | cons t items ih =>
      rw [List.map_cons, List.mapM_cons, ih]
      rfl

theorem refusesOnly_checkScanTypes (h : ¬ (v.IsTexts ∨ PassesForTypes v) → q .wrongKind) :
    RefusesOnly q (checkScanTypes v) := by
  by_cases hv : v.IsTexts
  · obtain ⟨texts, rfl⟩ := hv
    refine (refusesOnly_require _).bind fun _ _ => ?_
    rw [Value.elements?_of_texts]
    refine (refusesOnly_ok _).bind fun items hitems => ?_
    obtain rfl := Except.ok.inj hitems
    rw [List.filter_map]
    cases texts.filter ((fun item => !isScanType item) ∘ Value.text) with
    | nil => exact refusesOnly_ok ()
    | cons t rest =>
        simp only [List.map_cons]
        rw [← List.map_cons, mapM_text?_texts]
        exact (refusesOnly_ok _).bind fun _ _ => refusesOnly_fail _
  · by_cases hpasses : PassesForTypes v
    · rw [checkScanTypes_eq_ok_iff.mpr hpasses]
      exact refusesOnly_ok ()
    · have hq : q .wrongKind := h (not_or.mpr ⟨hv, hpasses⟩)
      refine (refusesOnly_require _).bind fun _ _ => ?_
      refine (refusesOnly_orRefuse fun _ => hq).bind fun items _ => ?_
      cases items.filter fun item => !isScanType item with
      | nil => exact refusesOnly_ok ()
      | cons item rest =>
          exact (refusesOnly_orRefuse fun _ => hq).bind fun _ _ => refusesOnly_fail _

theorem refusesOnly_checkAtLeastOne (h : v.number? = none → q .wrongKind) :
    RefusesOnly q (checkAtLeastOne p v) :=
  (refusesOnly_number h).bind fun _ _ => refusesOnly_require _

theorem refusesOnly_checkPositive (h : v.number? = none → q .wrongKind) :
    RefusesOnly q (checkPositive p v) :=
  (refusesOnly_number h).bind fun _ _ => refusesOnly_require _

theorem refusesOnly_checkIfSet {check : Value → Checked Unit}
    (h : v ≠ .null → RefusesOnly q (check v)) : RefusesOnly q (checkIfSet check v) := by
  by_cases hnull : v = .null
  · subst hnull
    exact refusesOnly_ok ()
  · have hset : checkIfSet check v = check v := by
      cases v <;> first | rfl | exact absurd rfl hnull
    rw [hset]
    exact h hnull

/-- The check can compare every option: the kinds of scan are texts, or it knows them, and what is
compared with a number is a number. -/
structure IsComparable (s : Settings) : Prop where
  scanTypes : s.scan.scanTypes.IsTexts ∨ PassesForTypes s.scan.scanTypes
  maxFindings : s.scan.maxFindings = .null ∨ ∃ n, s.scan.maxFindings.number? = some n
  timeout : s.scan.timeout = .null ∨ ∃ n, s.scan.timeout.number? = some n
  counts : ∀ v ∈ s.counts, ∃ n, v.number? = some n

/-- Options of the kinds that are meant can be compared. -/
theorem HasKinds.isComparable (h : s.HasKinds) : s.IsComparable where
  scanTypes := .inl (forall_lists_iff.mp h.lists).1
  maxFindings := by
    refine h.maxFindings.imp_right fun ⟨n, hn⟩ => ⟨.int n, ?_⟩
    rw [hn]
    rfl
  timeout := by
    refine h.timeout.imp_right ?_
    rintro (⟨n, hn⟩ | ⟨x, hx, -⟩)
    · exact ⟨.int n, by rw [hn]; rfl⟩
    · exact ⟨.float x, by rw [hx]; rfl⟩
  counts := by
    intro v hv
    obtain ⟨n, rfl⟩ := h.counts v hv
    exact ⟨.int n, rfl⟩

/-- Options that have passed the check can be compared. -/
theorem Accepted.isComparable (h : s.Accepted) : s.IsComparable where
  scanTypes := .inr h.scanTypes
  maxFindings := h.maxFindings.imp_right fun ⟨n, hn, _⟩ => ⟨n, hn⟩
  timeout := h.timeout.imp_right fun ⟨n, hn, _⟩ => ⟨n, hn⟩
  counts := by
    have hnumber : ∀ {v : Value}, PassesForCount v → ∃ n, v.number? = some n :=
      fun ⟨n, hn, _⟩ => ⟨n, hn⟩
    exact forall_counts_iff.mpr
      ⟨hnumber h.workers, hnumber h.maxLineLength, hnumber h.staleAfterDays⟩

/-- **What the check refuses** are values that it cannot compare, and unknown names that it cannot
quote. -/
theorem refusesOnly_check : RefusesOnly (fun r => (r = .wrongKind ∧ ¬ s.IsComparable) ∨
    (r = .badValue ∧ ∃ v ∈ s.named, v.isWritable = false)) s.check := by
  have hno : ∀ {v : Value}, v.number? = none → ¬ ∃ n, v.number? = some n := by
    intro v hnone h
    obtain ⟨n, hn⟩ := h
    rw [hn] at hnone
    cases hnone
  obtain ⟨hworkers, hlength, hdays⟩ := forall_counts_iff.mp fun v hv (hnone : v.number? = none) =>
    show Refusal.wrongKind = .wrongKind ∧ ¬ s.IsComparable from
      ⟨rfl, fun h => hno hnone (h.counts v hv)⟩
  obtain ⟨hthreshold, hfailOn, hformat⟩ :=
    forall_named_iff.mp fun v hv (hlong : v.isWritable = false) =>
      show Refusal.badValue = .badValue ∧ ∃ v ∈ s.named, v.isWritable = false from
        ⟨rfl, v, hv, hlong⟩
  refine (refusesOnly_requireOf (.inr ∘ hthreshold)).bind fun _ _ => ?_
  refine (refusesOnly_requireOf (.inr ∘ hfailOn)).bind fun _ _ => ?_
  refine RefusesOnly.bind (refusesOnly_checkScanTypes fun htypes => ?_) fun _ _ => ?_
  · exact .inl ⟨rfl, fun h => htypes h.scanTypes⟩
  refine RefusesOnly.bind (refusesOnly_checkIfSet fun hset =>
    refusesOnly_checkAtLeastOne fun hnone => ?_) fun _ _ => ?_
  · exact .inl ⟨rfl, fun h => h.maxFindings.elim hset (hno hnone)⟩
  refine RefusesOnly.bind (refusesOnly_checkIfSet fun hset =>
    refusesOnly_checkPositive fun hnone => ?_) fun _ _ => ?_
  · exact .inl ⟨rfl, fun h => h.timeout.elim hset (hno hnone)⟩
  refine (refusesOnly_checkAtLeastOne (.inl ∘ hworkers)).bind fun _ _ => ?_
  refine (refusesOnly_checkAtLeastOne (.inl ∘ hlength)).bind fun _ _ => ?_
  refine (refusesOnly_checkAtLeastOne (.inl ∘ hdays)).bind fun _ _ => ?_
  exact refusesOnly_requireOf (.inr ∘ hformat)

/-! ## Where settings come from -/

/-- The value of an option in a document. -/
def option? (doc : Value) (section_ key : String) : Option Value :=
  (doc.get? section_).bind (·.get? key)

/-- The options of a document that are meant to be lists of texts. -/
def listOptions : List (String × String) :=
  [("scan", "scan_types"), ("scan", "exclusions"), ("rules", "enable"), ("rules", "disable"),
    ("secrets", "skip_markers"), ("secrets", "skip_path_markers"),
    ("iam", "extra_dangerous_actions")]

/-- The options of a document that are meant to count something. -/
def countOptions : List (String × String) :=
  [("scan", "workers"), ("scan", "max_line_length"), ("iam", "stale_after_days")]

/-- The options of a document that are meant to go by a name. -/
def namedOptions : List (String × String) :=
  [("scan", "severity_threshold"), ("scan", "fail_on"), ("output", "format")]

/-- The options that a document has are of the kinds that are meant, and the version and the options
that go by a name can be written out. -/
structure Conforms (doc : Value) : Prop where
  version : ∀ v, doc.get? "version" = some v → v.isWritable = true
  named : ∀ o ∈ namedOptions, ∀ v, option? doc o.1 o.2 = some v → v.isWritable = true
  lists : ∀ o ∈ listOptions, ∀ v, option? doc o.1 o.2 = some v → v.IsTexts
  counts : ∀ o ∈ countOptions, ∀ v, option? doc o.1 o.2 = some v → v.IsWhole
  maxFindings : ∀ v, option? doc "scan" "max_findings" = some v → v = .null ∨ v.IsWhole
  timeout : ∀ v, option? doc "scan" "timeout" = some v → v = .null ∨ v.IsNumber

/-- An option is picked from the section that it is in. -/
theorem get?_of_sectionOf {doc sect : Value} {name : String} (h : sectionOf doc name = .ok sect)
    (key : String) : sect.get? key = option? doc name key := by
  rw [sectionOf] at h
  rw [option?]
  cases hdoc : doc.get? name with
  | none =>
      rw [hdoc] at h
      obtain rfl := Except.ok.inj h
      rfl
  | some v =>
      rw [hdoc] at h
      cases v with
      | mapping entries =>
          obtain rfl := Except.ok.inj h
          rfl
      | _ => cases h

/-- What is true of an option in a document, and of what holds without it, is true of what is
picked. -/
theorem pick_of {P : Value → Prop} {key : String} {default : Value} (hdefault : P default)
    (h : ∀ w, v.get? key = some w → P w) : P (pick v key default) := by
  rw [pick]
  cases hv : v.get? key with
  | none => exact hdefault
  | some w => exact h w hv

/-- What is picked from a section is what a document has for the option, or what holds without it.
-/
theorem pick_of_sectionOf {P : Value → Prop} {doc sect : Value} {name key : String}
    {default : Value} (hsect : sectionOf doc name = .ok sect) (hdefault : P default)
    (h : ∀ w, option? doc name key = some w → P w) : P (pick sect key default) :=
  pick_of hdefault fun w hw => h w (get?_of_sectionOf hsect key ▸ hw)

/-- The settings that hold when nothing is said are of the kinds that are meant. -/
theorem hasKinds_default : ({} : Settings).HasKinds where
  named := forall_named_iff.mpr ⟨rfl, rfl, rfl⟩
  lists := by
    have hnone : (Value.list []).IsTexts := ⟨[], rfl⟩
    exact forall_lists_iff.mpr ⟨⟨_, rfl⟩, hnone, hnone, hnone, ⟨_, rfl⟩, ⟨_, rfl⟩, hnone⟩
  counts := forall_counts_iff.mpr ⟨⟨4, rfl⟩, ⟨4096, rfl⟩, ⟨90, rfl⟩⟩
  maxFindings := .inl rfl
  timeout := .inr (.inr ⟨300.0, rfl, by decide +kernel⟩)

/-- Settings from a document that conforms are of the kinds that are meant. -/
theorem hasKinds_ofDocument {doc : Value} (hdoc : Conforms doc) (h : ofDocument doc = .ok s) :
    s.HasKinds := by
  simp only [ofDocument, bind_eq_ok_iff, pure_eq_ok_iff] at h
  obtain ⟨version, -, scan, hscan, rules, hrules, secrets, hsecrets, iam, hiam, output, houtput,
    rfl⟩ := h
  refine ⟨?_, ?_, ?_, ?_, ?_⟩
  · have hname : ∀ {name key : String} {sect default : Value}, (name, key) ∈ namedOptions →
        sectionOf doc name = .ok sect → default.isWritable = true →
          (pick sect key default).isWritable = true :=
      fun hmem hsect hdefault => pick_of_sectionOf (P := fun v =>
        v.isWritable = true) hsect hdefault
        (hdoc.named _ hmem)
    obtain ⟨threshold, failOn, format⟩ := forall_named_iff.mp hasKinds_default.named
    exact forall_named_iff.mpr ⟨hname (by simp [namedOptions]) hscan threshold,
      hname (by simp [namedOptions]) hscan failOn, hname (by simp [namedOptions]) houtput format⟩
  · have hlist : ∀ {name key : String} {sect default : Value}, (name, key) ∈ listOptions →
        sectionOf doc name = .ok sect → default.IsTexts → (pick sect key default).IsTexts :=
      fun hmem hsect hdefault => pick_of_sectionOf hsect hdefault (hdoc.lists _ hmem)
    obtain ⟨types, exclusions, enable, disable, markers, pathMarkers, actions⟩ :=
      forall_lists_iff.mp hasKinds_default.lists
    exact forall_lists_iff.mpr ⟨hlist (by simp [listOptions]) hscan types,
      hlist (by simp [listOptions]) hscan exclusions, hlist (by simp [listOptions]) hrules enable,
      hlist (by simp [listOptions]) hrules disable, hlist (by simp [listOptions]) hsecrets markers,
      hlist (by simp [listOptions]) hsecrets pathMarkers,
      hlist (by simp [listOptions]) hiam actions⟩
  · have hcount : ∀ {name key : String} {sect default : Value}, (name, key) ∈ countOptions →
        sectionOf doc name = .ok sect → default.IsWhole → (pick sect key default).IsWhole :=
      fun hmem hsect hdefault => pick_of_sectionOf hsect hdefault (hdoc.counts _ hmem)
    obtain ⟨workers, length, days⟩ := forall_counts_iff.mp hasKinds_default.counts
    exact forall_counts_iff.mpr ⟨hcount (by simp [countOptions]) hscan workers,
      hcount (by simp [countOptions]) hscan length, hcount (by simp [countOptions]) hiam days⟩
  · exact pick_of_sectionOf hscan (P := fun v => v = .null ∨ v.IsWhole)
      hasKinds_default.maxFindings hdoc.maxFindings
  · exact pick_of_sectionOf hscan (P := fun v => v = .null ∨ v.IsNumber)
      hasKinds_default.timeout hdoc.timeout

/-- To read settings from a document refuses nothing but a version that cannot be written out. -/
theorem refusesOnly_ofDocument {doc : Value}
    (h : ∀ v, doc.get? "version" = some v → v.isWritable = false → q .badValue) :
    RefusesOnly q (ofDocument doc) := by
  have hsection : ∀ name, RefusesOnly q (sectionOf doc name) := by
    intro name
    rw [sectionOf]
    split
    · exact refusesOnly_ok _
    · exact refusesOnly_ok _
    · exact refusesOnly_fail _
  have hversion : (pick doc "version" (.text "1.0")).isWritable = false → q .badValue := by
    intro hlong
    rw [pick] at hlong
    cases hpresent : doc.get? "version" with
    | none =>
        rw [hpresent] at hlong
        cases hlong
    | some v =>
        rw [hpresent] at hlong
        exact h v hpresent hlong
  refine (Value.refusesOnly_asText hversion).bind fun _ _ => ?_
  refine (hsection _).bind fun _ _ => (hsection _).bind fun _ _ => (hsection _).bind fun _ _ => ?_
  exact (hsection _).bind fun _ _ => (hsection _).bind fun _ _ => refusesOnly_ok _

/-! ## The environment -/

section Environment

variable {env : Environment} {name : String} {change : Settings → String → Checked Settings}
  {s' : Settings}

/-- What a variable changes if it is set keeps what the change keeps. -/
theorem overriding_keeps {P : Settings → Prop} (h : overriding env name change s = .ok s')
    (hs : P s) (hchange : ∀ value, nonEmpty? env name = some value →
      ∀ s', change s value = .ok s' → P s') : P s' := by
  rw [overriding] at h
  cases hvalue : nonEmpty? env name with
  | none =>
      rw [hvalue] at h
      rwa [← Except.ok.inj h]
  | some value =>
      rw [hvalue] at h
      exact hchange value hvalue s' h

/-- A variable is refused if the change is. -/
theorem refusesOnly_overriding (h : ∀ value, nonEmpty? env name = some value →
    RefusesOnly q (change s value)) : RefusesOnly q (overriding env name change s) := by
  rw [overriding]
  cases hvalue : nonEmpty? env name with
  | none => exact refusesOnly_ok s
  | some value => exact h value hvalue

/-- The time that is set by a variable is a number. -/
def GivesNumber (env : Environment) : Prop :=
  ∀ value x, nonEmpty? env "TIMEOUT" = some value → Text.parseFloat? value = some x →
    Decimal.exact x ≠ .nan

/-- Other exclusions, in a list of texts, leave the kinds as they are. -/
theorem HasKinds.withExclusions (h : s.HasKinds) {exclusions : Value} (hv : exclusions.IsTexts) :
    { s with scan.exclusions := exclusions }.HasKinds := by
  obtain ⟨types, -, others⟩ := forall_lists_iff.mp h.lists
  exact ⟨h.named, forall_lists_iff.mpr ⟨types, hv, others⟩, h.counts, h.maxFindings, h.timeout⟩

/-- Other kinds of scan, in a list of texts, leave the kinds as they are. -/
theorem HasKinds.withScanTypes (h : s.HasKinds) (types : List String) :
    { s with scan.scanTypes := .texts types }.HasKinds := by
  obtain ⟨-, others⟩ := forall_lists_iff.mp h.lists
  exact ⟨h.named, forall_lists_iff.mpr ⟨⟨types, rfl⟩, others⟩, h.counts, h.maxFindings, h.timeout⟩

/-- Another limit leaves the kinds as they are. -/
theorem HasKinds.withMaxFindings (h : s.HasKinds) (n : Int) :
    { s with scan.maxFindings := .int n }.HasKinds :=
  ⟨h.named, h.lists, h.counts, .inr ⟨n, rfl⟩, h.timeout⟩

/-- Another time that is a number leaves the kinds as they are. -/
theorem HasKinds.withTimeout (h : s.HasKinds) {x : Float} (hx : Decimal.exact x ≠ .nan) :
    { s with scan.timeout := .float x }.HasKinds :=
  ⟨h.named, h.lists, h.counts, h.maxFindings, .inr (.inr ⟨x, rfl, hx⟩)⟩

/-- A list of texts with more texts at its end is one. -/
theorem isTexts_of_extended {w : Value} {more : List String} (hv : v.IsTexts)
    (h : extended v more = .ok w) : w.IsTexts := by
  obtain ⟨items, rfl⟩ := hv
  obtain rfl := Except.ok.inj h
  refine ⟨items ++ more, ?_⟩
  rw [Value.texts, List.map_append]

/-- Texts are refused only after what is no list. -/
theorem refusesOnly_extended {more : List String}
    (h : (∀ items, v ≠ .list items) → q .noOperation) : RefusesOnly q (extended v more) := by
  cases v with
  | list items => exact refusesOnly_ok _
  | _ => exact refusesOnly_refuse (h (by simp))

/-- **What the environment is refused for**: exclusions cannot be added to what is no list. -/
theorem refusesOnly_withEnvironment :
    RefusesOnly (fun r => r = .noOperation ∧ (nonEmpty? env "EXCLUDE").isSome = true ∧
      ∀ items, s.scan.exclusions ≠ .list items) (withEnvironment env s) := by
  refine (refusesOnly_overriding fun _ _ => refusesOnly_ok _).bind fun s₁ h₁ => ?_
  refine (refusesOnly_overriding fun _ _ => refusesOnly_ok _).bind fun s₂ h₂ => ?_
  have hkept₁ : s₁.scan.exclusions = s.scan.exclusions := by
    refine overriding_keeps (P := fun s' => s'.scan.exclusions = s.scan.exclusions) h₁ rfl ?_
    rintro value - s' ⟨⟩
    rfl
  have hkept₂ : s₂.scan.exclusions = s.scan.exclusions := by
    refine overriding_keeps (P := fun s' => s'.scan.exclusions = s.scan.exclusions) h₂ hkept₁ ?_
    rintro value - s' ⟨⟩
    exact hkept₁
  refine RefusesOnly.bind (refusesOnly_overriding fun value hvalue => ?_) fun s₃ _ => ?_
  · rw [hkept₂]
    refine (refusesOnly_extended fun hlist => ⟨rfl, ?_, hlist⟩).bind fun _ _ => refusesOnly_ok _
    rw [hvalue]
    rfl
  refine RefusesOnly.bind (refusesOnly_overriding fun value _ => ?_) fun s₄ _ => ?_
  · cases Text.parseInt? value with
    | some n => exact refusesOnly_ok _
    | none => exact refusesOnly_fail _
  refine RefusesOnly.bind (refusesOnly_overriding fun value _ => ?_) fun s₅ _ => ?_
  · cases Text.parseFloat? value with
    | some x => exact refusesOnly_ok _
    | none => exact refusesOnly_fail _
  exact refusesOnly_overriding fun _ _ => refusesOnly_ok _

/-- **What the environment makes of settings** of the kinds that are meant is again of the kinds
that are meant. -/
theorem hasKinds_withEnvironment (henv : GivesNumber env) (hs : s.HasKinds)
    (h : withEnvironment env s = .ok s') : s'.HasKinds := by
  simp only [withEnvironment, bind_eq_ok_iff] at h
  obtain ⟨s₁, h₁, s₂, h₂, s₃, h₃, s₄, h₄, s₅, h₅, h⟩ := h
  have hs₁ : s₁.HasKinds := by
    refine overriding_keeps h₁ hs ?_
    rintro value - s' ⟨⟩
    obtain ⟨-, others⟩ := forall_named_iff.mp hs.named
    exact ⟨forall_named_iff.mpr ⟨rfl, others⟩, hs.lists, hs.counts, hs.maxFindings, hs.timeout⟩
  have hs₂ : s₂.HasKinds := by
    refine overriding_keeps h₂ hs₁ ?_
    rintro value - s' ⟨⟩
    exact hs₁.withScanTypes _
  have hs₃ : s₃.HasKinds := by
    refine overriding_keeps h₃ hs₂ fun value _ s' hs' => ?_
    obtain ⟨exclusions, hexclusions, hs'⟩ := bind_eq_ok_iff.mp hs'
    obtain rfl := pure_eq_ok_iff.mp hs'
    exact hs₂.withExclusions
      (isTexts_of_extended (forall_lists_iff.mp hs₂.lists).2.1 hexclusions)
  have hs₄ : s₄.HasKinds := by
    refine overriding_keeps h₄ hs₃ fun value _ s' hs' => ?_
    cases hn : Text.parseInt? value with
    | none =>
        rw [hn] at hs'
        cases hs'
    | some n =>
        rw [hn] at hs'
        cases hs'
        exact hs₃.withMaxFindings n
  have hs₅ : s₅.HasKinds := by
    refine overriding_keeps h₅ hs₄ fun value hvalue s' hs' => ?_
    cases hx : Text.parseFloat? value with
    | none =>
        rw [hx] at hs'
        cases hs'
    | some x =>
        rw [hx] at hs'
        cases hs'
        exact hs₄.withTimeout (henv value x hvalue hx)
  refine overriding_keeps h hs₅ fun value _ s' hs' => ?_
  obtain rfl := Except.ok.inj hs'
  split
  · obtain ⟨threshold, failOn, -⟩ := forall_named_iff.mp hs₅.named
    exact ⟨forall_named_iff.mpr ⟨threshold, failOn, rfl⟩, hs₅.lists, hs₅.counts, hs₅.maxFindings,
      hs₅.timeout⟩
  · exact hs₅

end Environment

/-! ## Loading -/

section Load

variable {t : Tree} {env : Environment} {root : Path} {named : Option String} {path : Path}

/-- The settings that are put together from the file and the environment, before they are checked.
-/
def gathered (t : Tree) (env : Environment) (root : Path) (named : Option String) :
    Checked Settings := do
  withEnvironment env (← ofFile t (← findFile t root named))

/-- To load settings is to put them together and to check them. -/
theorem load_eq_ok_iff :
    load t env root named = .ok s ↔ gathered t env root named = .ok s ∧ s.Accepted := by
  simp only [load, gathered, bind_eq_ok_iff, pure_eq_ok_iff, ← check_eq_ok_iff]
  constructor
  · rintro ⟨path, hpath, s₀, hs₀, s', hs', _, hcheck, rfl⟩
    exact ⟨⟨path, hpath, s₀, hs₀, hs'⟩, hcheck⟩
  · rintro ⟨⟨path, hpath, s₀, hs₀, hs'⟩, hcheck⟩
    exact ⟨path, hpath, s₀, hs₀, s, hs', (), hcheck, rfl⟩

/-- A file cannot be read as a document: its bytes are no text, or a number in it has too many
digits. -/
def IsIllegible (t : Tree) (path : Path) (r : Refusal) : Prop :=
  ∃ bytes, t.read path = .ok bytes ∧
    ((Text.Encoding.utf8.decode? bytes = none ∧ r = .undecodable) ∨
      ∃ text, Text.Encoding.utf8.decode? bytes = some text ∧
        Toml.parse text = .error .tooManyDigits ∧ r = .badValue)

theorem refusesOnly_readFile : RefusesOnly (IsIllegible t path) (readFile t path) := by
  rw [readFile]
  cases hbytes : t.read path with
  | error e => exact refusesOnly_fail _
  | ok bytes =>
      refine RefusesOnly.bind (refusesOnly_orRefuse fun hnone => ?_) fun text htext => ?_
      · exact ⟨bytes, hbytes, .inl ⟨hnone, rfl⟩⟩
      · have htext := orRefuse_eq_ok_iff.mp htext
        cases hdoc : Toml.parse text with
        | ok entries => exact refusesOnly_ok _
        | error e =>
            cases e with
            | malformed => exact refusesOnly_fail _
            | tooManyDigits =>
                exact refusesOnly_refuse ⟨bytes, hbytes, .inr ⟨text, htext, hdoc, rfl⟩⟩

theorem refusesOnly_findFile :
    RefusesOnly (fun r => t.hasFile (placeOf root named) = .error r) (findFile t root named) := by
  refine RefusesOnly.bind (refusesOnly_allowing_of fun r hr => hr) fun there _ => ?_
  split
  · exact refusesOnly_ok _
  · split
    · exact refusesOnly_fail _
    · exact refusesOnly_ok _

/-- A file with the settings that is found is one at the place where it is looked for. -/
theorem hasFile_of_findFile (h : findFile t root named = .ok (some path)) :
    t.hasFile (placeOf root named) = .ok true := by
  obtain ⟨there, hthere, h⟩ := bind_eq_ok_iff.mp h
  rw [allowing_eq_ok_iff] at hthere
  cases there with
  | true => exact hthere
  | false =>
      simp only [Bool.false_eq_true, if_false] at h
      split at h
      · cases h
      · cases h

/-- The place of the file with the settings can be looked at, the file can be read, and its document
conforms, if it is one. -/
structure FileConforms (t : Tree) (root : Path) (named : Option String) : Prop where
  followed : ∃ there, t.hasFile (placeOf root named) = .ok there
  legible : ∀ path, findFile t root named = .ok (some path) → ∀ r, ¬ IsIllegible t path r
  conforms : ∀ path, findFile t root named = .ok (some path) →
    ∀ doc, readFile t path = .ok doc → Conforms doc

/-- What refuses in loading settings: the path to the file, the file, a version that cannot be
written out, exclusions that cannot be extended, a value of another kind than is meant, or a name
that cannot be quoted. -/
inductive LoadRefuses (t : Tree) (env : Environment) (root : Path) (named : Option String) :
    Refusal → Prop
  | place {r : Refusal} (h : t.hasFile (placeOf root named) = .error r) :
      LoadRefuses t env root named r
  | file {path : Path} {r : Refusal} (hfile : findFile t root named = .ok (some path))
      (hillegible : IsIllegible t path r) : LoadRefuses t env root named r
  | version {path : Path} {doc v : Value} (hfile : findFile t root named = .ok (some path))
      (hread : readFile t path = .ok doc) (hversion : doc.get? "version" = some v)
      (hlong : v.isWritable = false) : LoadRefuses t env root named .badValue
  | exclusions {file : Option Path} {s : Settings} (hfile : findFile t root named = .ok file)
      (hs : ofFile t file = .ok s) (hset : (nonEmpty? env "EXCLUDE").isSome = true)
      (hlist : ∀ items, s.scan.exclusions ≠ .list items) :
      LoadRefuses t env root named .noOperation
  | kinds {s : Settings} (hs : gathered t env root named = .ok s) (hkinds : ¬ s.HasKinds) :
      LoadRefuses t env root named .wrongKind
  | name {s : Settings} {v : Value} (hs : gathered t env root named = .ok s) (hv : v ∈ s.named)
      (hlong : v.isWritable = false) : LoadRefuses t env root named .badValue

/-- **What refuses in loading settings.** -/
theorem refusesOnly_load : RefusesOnly (LoadRefuses t env root named) (load t env root named) := by
  refine (refusesOnly_findFile.mono fun r hr => .place hr).bind fun file hfile => ?_
  refine RefusesOnly.bind (x := ofFile t file) ?_ fun s₀ hs₀ => ?_
  · cases file with
    | none => exact refusesOnly_ok _
    | some path =>
        refine RefusesOnly.bind (refusesOnly_readFile.mono fun r hr => .file hfile hr)
          fun doc hdoc => refusesOnly_ofDocument fun v hv hlong => .version hfile hdoc hv hlong
  refine RefusesOnly.bind (refusesOnly_withEnvironment.mono ?_) fun s hs => ?_
  · rintro r ⟨rfl, hset, hlist⟩
    exact .exclusions hfile hs₀ hset hlist
  have hgathered : gathered t env root named = .ok s := by
    simp only [gathered, bind_eq_ok_iff]
    exact ⟨file, hfile, s₀, hs₀, hs⟩
  refine RefusesOnly.bind (refusesOnly_check.mono ?_) fun _ _ => refusesOnly_ok _
  rintro r (⟨rfl, hcomparable⟩ | ⟨rfl, v, hv, hlong⟩)
  · exact .kinds hgathered fun hkinds => hcomparable hkinds.isComparable
  · exact .name hgathered hv hlong

/-- Settings from a file that conforms are of the kinds that are meant. -/
theorem hasKinds_ofFile (hfile : FileConforms t root named) {file : Option Path}
    (hfound : findFile t root named = .ok file) (h : ofFile t file = .ok s) : s.HasKinds := by
  cases file with
  | none =>
      obtain rfl := Except.ok.inj h
      exact hasKinds_default
  | some path =>
      obtain ⟨doc, hdoc, hs⟩ := bind_eq_ok_iff.mp h
      exact hasKinds_ofDocument (hfile.conforms path hfound doc hdoc) hs

theorem hasKinds_gathered (hfile : FileConforms t root named) (henv : GivesNumber env)
    (h : gathered t env root named = .ok s) : s.HasKinds := by
  simp only [gathered, bind_eq_ok_iff] at h
  obtain ⟨file, hfound, s₀, hs₀, hs⟩ := h
  exact hasKinds_withEnvironment henv (hasKinds_ofFile hfile hfound hs₀) hs

/-- Nothing refuses if the file conforms and the environment gives a number for the time. -/
theorem not_loadRefuses (hfile : FileConforms t root named) (henv : GivesNumber env)
    (r : Refusal) : ¬ LoadRefuses t env root named r := by
  intro h
  cases h with
  | place hplace =>
      obtain ⟨there, hthere⟩ := hfile.followed
      rw [hthere] at hplace
      cases hplace
  | file hfound hillegible => exact hfile.legible _ hfound _ hillegible
  | version hfound hread hversion hlong =>
      rw [(hfile.conforms _ hfound _ hread).version _ hversion] at hlong
      cases hlong
  | exclusions hfound hs hset hlist =>
      obtain ⟨items, hitems⟩ := (forall_lists_iff.mp (hasKinds_ofFile hfile hfound hs).lists).2.1
      exact hlist _ hitems
  | kinds hs hkinds => exact hkinds (hasKinds_gathered hfile henv hs)
  | name hs hv hlong =>
      rw [(hasKinds_gathered hfile henv hs).named _ hv] at hlong
      cases hlong

/-- **Settings are checked as far as values can be compared.**  Settings are loaded exactly when
they pass the check, and they are sound then exactly when every option has a value of the kind that
is meant.  A refusal in between comes from a path that cannot be followed, from a file that cannot
be read as a document, from exclusions that cannot be extended, from a value of another kind than is
meant, or from a number of too many digits for the version or for a name.  When the document of the
file is readable and has values of the kinds that are meant, and the environment does not set the
time to what is no number, the settings are sound unless there is a problem with them. -/
theorem load_checked (t : Tree) (env : Environment) (root : Path) (named : Option String) :
    (∀ s, load t env root named = .ok s ↔ gathered t env root named = .ok s ∧ s.Accepted) ∧
    (∀ s, load t env root named = .ok s → (s.Sound ↔ s.HasKinds)) ∧
    (∀ r, load t env root named = .error (.refused r) → LoadRefuses t env root named r) ∧
    (FileConforms t root named → GivesNumber env →
      (∃ p, load t env root named = .error (.problem p)) ∨
        ∃ s, load t env root named = .ok s ∧ s.Sound) := by
  refine ⟨fun s => load_eq_ok_iff, fun s hs => ?_, refusesOnly_load, fun hfile henv => ?_⟩
  · exact (load_eq_ok_iff.mp hs).2.sound_iff
  · obtain hproblem | ⟨s, hs⟩ := problem_or_ok (refusesOnly_load.mono (not_loadRefuses hfile henv))
    · exact .inl hproblem
    · obtain ⟨hgathered, haccepted⟩ := load_eq_ok_iff.mp hs
      exact .inr ⟨s, hs, haccepted.sound_iff.mpr (hasKinds_gathered hfile henv hgathered)⟩

/-- A file that is read as a document that conforms is one that conforms. -/
theorem FileConforms.of_readFile {doc : Value}
    (hfound : findFile t root named = .ok (some path)) (hread : readFile t path = .ok doc)
    (hdoc : Conforms doc) : FileConforms t root named where
  followed := ⟨true, hasFile_of_findFile hfound⟩
  legible := by
    rintro path' hfound' r ⟨bytes, hbytes, hfails⟩
    obtain rfl : path = path' := Option.some.inj (Except.ok.inj (hfound.symm.trans hfound'))
    simp only [readFile, hbytes, bind_eq_ok_iff, orRefuse_eq_ok_iff] at hread
    obtain ⟨text, htext, hread⟩ := hread
    rcases hfails with ⟨hnone, -⟩ | ⟨text', htext', hdigits, -⟩
    · rw [htext] at hnone
      cases hnone
    · obtain rfl := Option.some.inj (htext.symm.trans htext')
      rw [hdigits] at hread
      cases hread
  conforms := by
    intro path' hfound' doc' hread'
    obtain rfl : path = path' := Option.some.inj (Except.ok.inj (hfound.symm.trans hfound'))
    rwa [← Except.ok.inj (hread.symm.trans hread')]

/-- A project with nothing but a file with settings. -/
def projectWith (text : String) : Tree where
  root := .directory [(fileName, .file (Text.utf8Bytes text.toList))]

/-- The settings of a project that sets the number of workers are sound. -/
theorem load_checked_workers :
    ∃ s, load (projectWith "[scan]\nworkers = 2\n") [] (Path.ofString ".") none = .ok s ∧
      s.Sound := by
  have hfound : findFile (projectWith "[scan]\nworkers = 2\n") (Path.ofString ".") none =
      .ok (some ((Path.ofString ".").child fileName)) := by
    have hfile : (projectWith "[scan]\nworkers = 2\n").hasFile
        ((Path.ofString ".").child fileName) = .ok true := rfl
    exact bind_eq_ok_iff.mpr ⟨true, allowing_eq_ok_iff.mpr hfile, rfl⟩
  have hread : ((readFile (projectWith "[scan]\nworkers = 2\n")
      ((Path.ofString ".").child fileName)).toOption.any fun doc =>
        (doc.get? "version").isNone && (namedOptions.all fun o => (option? doc o.1 o.2).isNone) &&
        (listOptions.all fun o => (option? doc o.1 o.2).isNone) &&
        (countOptions.all fun o => (option? doc o.1 o.2).all fun v => v matches .int _) &&
        (option? doc "scan" "max_findings").isNone && (option? doc "scan" "timeout").isNone) =
      true := by decide +kernel
  obtain ⟨doc, hread, hdoc⟩ := any_toOption_iff.mp hread
  simp only [Bool.and_eq_true, List.all_eq_true, Option.isNone_iff_eq_none] at hdoc
  obtain ⟨⟨⟨⟨⟨hversion, hnamed⟩, hlists⟩, hcounts⟩, hmax⟩, htimeout⟩ := hdoc
  have hconforms : Conforms doc := by
    refine ⟨fun v hv => ?_, fun o ho v hv => ?_, fun o ho v hv => ?_, fun o ho v hv => ?_,
      fun v hv => ?_, fun v hv => ?_⟩
    · rw [hversion] at hv
      cases hv
    · rw [hnamed o ho] at hv
      cases hv
    · rw [hlists o ho] at hv
      cases hv
    · have hint := hcounts o ho
      rw [hv] at hint
      cases v <;> first | exact ⟨_, rfl⟩ | cases hint
    · rw [hmax] at hv
      cases hv
    · rw [htimeout] at hv
      cases hv
  have hloads : ((load (projectWith "[scan]\nworkers = 2\n") [] (Path.ofString ".")
      none).toOption.any fun _ => true) = true := by decide +kernel
  obtain ⟨s, hs, -⟩ := any_toOption_iff.mp hloads
  obtain ⟨-, -, -, hsound⟩ :=
    load_checked (projectWith "[scan]\nworkers = 2\n") [] (Path.ofString ".") none
  have hunset : GivesNumber [] := by
    intro value x hvalue
    cases hvalue
  obtain ⟨p, hp⟩ | hs := hsound (.of_readFile hfound hread hconforms) hunset
  · rw [hs] at hp
    cases hp
  · exact hs

/-- A project that sets the time to what is no number has settings that are not sound. -/
theorem exists_unsound_loaded :
    ∃ s, load (projectWith "[scan]\ntimeout = nan\n") [] (Path.ofString ".") none = .ok s ∧
      ¬ s.Sound := by
  have hloads : ((load (projectWith "[scan]\ntimeout = nan\n") [] (Path.ofString ".")
      none).toOption.any fun s => match s.scan.timeout with
        | .float x => Decimal.exact x == .nan
        | _ => false) = true := by decide +kernel
  obtain ⟨s, hs, hnan⟩ := any_toOption_iff.mp hloads
  refine ⟨s, hs, fun hsound => ?_⟩
  obtain hnull | ⟨n, -, hn⟩ | ⟨x, hx, habove⟩ := hsound.timeout
  · rw [hnull] at hnan
    cases hnan
  · rw [hn] at hnan
    cases hnan
  · rw [hx] at hnan
    exact exact_ne_nan_of_below habove (eq_of_beq hnan)

end Load

end Settings

end SecurityAudit
