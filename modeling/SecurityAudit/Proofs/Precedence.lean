import SecurityAudit.Proofs.ExitStatus

/-!
# Which setting comes first

The settings of a scan come from four places: what holds when nothing is said, the document of the
project, the environment and the options of the command.  Each option of the settings has rules of
its own for who comes before whom (`preferred`); what is loaded is what is preferred without any
options of the command (`gathered_eq`).

A document that has values of the kinds that are declared is never refused.  Of its keys only those
that the schema knows are looked at, so that two documents which agree on them give the same
settings, or the same problem (`scan_settings_preferred`).
-/

namespace SecurityAudit

namespace Settings

variable {s s' : Settings} {doc doc' : Value} {env : Environment} {name : String}
  {change : Settings → String → Checked Settings}

/-! ## The schema of a document -/

/-- What the value of an option is declared to be. -/
inductive Kind where
  | text
  | texts
  | whole
  | number
  | truth
  deriving DecidableEq

/-- A value is of a kind. -/
def Kind.admits : Kind → Value → Bool
  | .text, .text _ => true
  | .texts, .list items => items.all fun v => v.text?.isSome
  | .whole, .int _ => true
  | .number, .int _ => true
  | .number, .float _ => true
  | .truth, .bool _ => true
  | _, _ => false

/-- The sections of a document that are known. -/
def sections : List String :=
  ["scan", "rules", "secrets", "iam", "output"]

/-- The options in the sections of a document that are known, and their kinds. -/
def schema : List (String × String × Kind) := [
  ("scan", "scan_types", .texts), ("scan", "severity_threshold", .text),
  ("scan", "fail_on", .text), ("scan", "exclusions", .texts), ("scan", "max_findings", .whole),
  ("scan", "timeout", .number), ("scan", "workers", .whole), ("scan", "max_line_length", .whole),
  ("rules", "enable", .texts), ("rules", "disable", .texts), ("rules", "custom_dir", .text),
  ("secrets", "skip_markers", .texts), ("secrets", "skip_path_markers", .texts),
  ("iam", "stale_after_days", .whole), ("iam", "extra_dangerous_actions", .texts),
  ("output", "format", .text), ("output", "show_summary", .truth)]

/-- The values of a document are of the kinds that are declared, as far as the schema knows them:
its version is a text, its sections are tables, and their options are of their kinds. -/
def isTyped (doc : Value) : Bool :=
  (doc.get? "version").all Kind.text.admits &&
    (sections.all fun sect => (doc.get? sect).all fun v => v matches .mapping _) &&
    schema.all fun (sect, key, kind) => (option? doc sect key).all kind.admits

/-- Two documents have the same values under all keys that the schema knows. -/
structure AgreesOnSchema (doc doc' : Value) : Prop where
  version : doc.get? "version" = doc'.get? "version"
  options : ∀ option ∈ schema, option? doc option.1 option.2.1 = option? doc' option.1 option.2.1

theorem isText_of_admits {v : Value} (h : Kind.text.admits v = true) : v.IsText := by
  cases v <;> first | exact ⟨_, rfl⟩ | cases h

theorem isTexts_of_admits {v : Value} (h : Kind.texts.admits v = true) : v.IsTexts := by
  cases v with
  | list items =>
      obtain ⟨texts, rfl⟩ := Value.exists_map_text fun v hv =>
        let ⟨t, ht⟩ := Option.isSome_iff_exists.mp (List.all_eq_true.mp h v hv)
        ⟨t, Value.isText_of_text? ht⟩
      exact ⟨texts, rfl⟩
  | _ => cases h

theorem exists_number_of_admits {kind : Kind} {v : Value} (hkind : kind = .whole ∨ kind = .number)
    (h : kind.admits v = true) : ∃ n, v.number? = some n := by
  rcases hkind with rfl | rfl <;> cases v <;> first | exact ⟨_, rfl⟩ | cases h

theorem isTyped_iff :
    isTyped doc = true ↔
      (∀ v, doc.get? "version" = some v → Kind.text.admits v = true) ∧
        (∀ sect ∈ sections, ∀ v, doc.get? sect = some v → ∃ entries, v = .mapping entries) ∧
        ∀ option ∈ schema, ∀ v, option? doc option.1 option.2.1 = some v →
          option.2.2.admits v = true := by
  have htable : ∀ v : Value, (v matches .mapping _) = true ↔ ∃ entries, v = .mapping entries := by
    intro v
    cases v <;> simp
  simp only [isTyped, Bool.and_eq_true, Option.all_eq_true, List.all_eq_true, htable, and_assoc]

/-! ## What a document says -/

/-- What a document says about an option, or what holds without it. -/
def documented (doc : Value) (sect key : String) (default : Value) : Value :=
  (option? doc sect key).getD default

/-- The settings that a document makes with what holds when nothing is said. -/
def ofKnown (doc : Value) : Settings :=
  let d : Settings := {}
  { version := ((doc.get? "version").bind Value.text?).getD d.version
    scan := {
      scanTypes := documented doc "scan" "scan_types" d.scan.scanTypes
      severityThreshold := documented doc "scan" "severity_threshold" d.scan.severityThreshold
      failOn := documented doc "scan" "fail_on" d.scan.failOn
      exclusions := documented doc "scan" "exclusions" d.scan.exclusions
      maxFindings := documented doc "scan" "max_findings" d.scan.maxFindings
      timeout := documented doc "scan" "timeout" d.scan.timeout
      workers := documented doc "scan" "workers" d.scan.workers
      maxLineLength := documented doc "scan" "max_line_length" d.scan.maxLineLength }
    rules := {
      enable := documented doc "rules" "enable" d.rules.enable
      disable := documented doc "rules" "disable" d.rules.disable
      customDir := documented doc "rules" "custom_dir" d.rules.customDir }
    secrets := {
      skipMarkers := documented doc "secrets" "skip_markers" d.secrets.skipMarkers
      skipPathMarkers := documented doc "secrets" "skip_path_markers" d.secrets.skipPathMarkers }
    iam := {
      staleAfterDays := documented doc "iam" "stale_after_days" d.iam.staleAfterDays
      extraDangerousActions :=
        documented doc "iam" "extra_dangerous_actions" d.iam.extraDangerousActions }
    output := {
      format := documented doc "output" "format" d.output.format
      showSummary := documented doc "output" "show_summary" d.output.showSummary } }

/-- The version of a document is its text. -/
theorem version_asText (h : isTyped doc = true) :
    (pick doc "version" (.text "1.0")).asText =
      .ok (.sound (((doc.get? "version").bind Value.text?).getD "1.0")) := by
  rw [pick]
  cases hv : doc.get? "version" with
  | none => rfl
  | some v =>
      obtain ⟨t, rfl⟩ := isText_of_admits ((isTyped_iff.mp h).1 v hv)
      rfl

/-- The sections of a document are tables, or empty. -/
theorem exists_sectionOf (h : isTyped doc = true) (sect : String) (hsect : sect ∈ sections) :
    ∃ v, sectionOf doc sect = .ok v := by
  rw [sectionOf]
  cases hv : doc.get? sect with
  | none => exact ⟨_, rfl⟩
  | some v =>
      obtain ⟨entries, rfl⟩ := (isTyped_iff.mp h).2.1 sect hsect v hv
      exact ⟨_, rfl⟩

/-- **A document is read option by option**, when its values are of the kinds that are declared. -/
theorem ofDocument_eq (h : isTyped doc = true) : ofDocument doc = .ok (ofKnown doc) := by
  have hpick : ∀ {sect : Value} {name : String}, sectionOf doc name = .ok sect →
      ∀ key default, pick sect key default = documented doc name key default :=
    fun hsect key default => by rw [pick, get?_of_sectionOf hsect, documented]
  obtain ⟨scan, hscan⟩ := exists_sectionOf h "scan" (by decide)
  obtain ⟨rules, hrules⟩ := exists_sectionOf h "rules" (by decide)
  obtain ⟨secrets, hsecrets⟩ := exists_sectionOf h "secrets" (by decide)
  obtain ⟨iam, hiam⟩ := exists_sectionOf h "iam" (by decide)
  obtain ⟨output, houtput⟩ := exists_sectionOf h "output" (by decide)
  simp only [ofDocument, bind_eq_ok_iff, pure_eq_ok_iff, allowing_eq_ok_iff]
  refine ⟨_, version_asText h, scan, hscan, rules, hrules, secrets, hsecrets, iam, hiam,
    output, houtput, ?_⟩
  simp only [Scan.ofSection, Rules.ofSection, Secrets.ofSection, Policies.ofSection,
    Output.ofSection, hpick hscan, hpick hrules, hpick hsecrets, hpick hiam, hpick houtput,
    RawText.readable_sound, ofKnown]

/-- Documents that agree make the same settings. -/
theorem AgreesOnSchema.ofKnown_eq (h : AgreesOnSchema doc doc') : ofKnown doc = ofKnown doc' := by
  have hoptions : ∀ option ∈ schema, ∀ default, documented doc option.1 option.2.1 default =
      documented doc' option.1 option.2.1 default :=
    fun option hoption default => by rw [documented, documented, h.options option hoption]
  simp only [schema, List.forall_mem_cons, List.not_mem_nil, false_imp_iff, implies_true,
    and_true] at hoptions
  simp only [ofKnown, h.version, hoptions]

/-! ## Where the document comes from -/

section Document

variable {t : Tree} {root : Path} {named : Option String}

/-- The document of a project: that of its file, or an empty one if it has none. -/
def IsDocument (t : Tree) (root : Path) (named : Option String) (doc : Value) : Prop :=
  findFile t root named = .ok none ∧ doc = .mapping [] ∨
    ∃ path, findFile t root named = .ok (some path) ∧ readFile t path = .ok doc

/-- The settings of a project are put together from what its document says. -/
theorem gathered_eq (hdoc : IsDocument t root named doc) (h : isTyped doc = true) :
    gathered t env root named = withEnvironment env (ofKnown doc) := by
  rw [gathered]
  rcases hdoc with ⟨hnone, rfl⟩ | ⟨path, hpath, hread⟩
  · rw [hnone]
    rfl
  · simp only [hpath, ofFile, hread, ofDocument_eq h, bind, Except.bind]

end Document

/-- What a variable changes if it is set, said in one way for both cases. -/
theorem eq_of_overriding {f : Settings → Option String → Settings} (hunset : f s none = s)
    (hset : ∀ value s', change s value = .ok s' → s' = f s (some value))
    (h : overriding env name change s = .ok s') : s' = f s (nonEmpty? env name) := by
  rw [overriding] at h
  cases hvalue : nonEmpty? env name with
  | none =>
      rw [hvalue] at h
      rw [hunset, ← Except.ok.inj h]
  | some value =>
      rw [hvalue] at h
      exact hset value s' h

/-- Settings with the exclusions that they have are the same. -/
theorem withExclusions_self {v : Value} (h : s.scan.exclusions = v) :
    { s with scan.exclusions := v } = s := by
  subst h
  rfl

/-- What is true of a value if it is there, and of the default, is true of the one that counts. -/
theorem getD_of {P : Value → Prop} {x : Option Value} {default : Value}
    (hx : ∀ v, x = some v → P v) (hdefault : P default) : P (x.getD default) := by
  cases x with
  | none => exact hdefault
  | some v => exact hx v rfl

/-- The exclusions of a document. -/
def exclusionsOf (doc : Value) : List Value :=
  ((option? doc "scan" "exclusions").bind Value.elements?).getD []

theorem exclusions_ofKnown (h : isTyped doc = true) :
    (ofKnown doc).scan.exclusions = .list (exclusionsOf doc) := by
  simp only [ofKnown, documented, exclusionsOf]
  cases hv : option? doc "scan" "exclusions" with
  | none => rfl
  | some v =>
      obtain ⟨texts, rfl⟩ := isTexts_of_admits
        ((isTyped_iff.mp h).2.2 ("scan", "exclusions", .texts) (by decide) v hv)
      rfl

end Settings

namespace Cli

open Settings

variable {w : Workplace} {o : ScanOptions} {s : Settings} {doc doc' : Value} {env : Environment}

/-! ## What is preferred -/

/-- **The settings of a scan.**  An option of the command goes before the variable of the
environment, the variable before the document, and the document before what holds when nothing is
said; the exclusions of all of them are taken, one after another.  Levels and kinds of scan are
brought to small letters, but not those of a document. -/
def preferred (doc : Value) (env : Environment) (o : ScanOptions) : Settings :=
  let known := ofKnown doc
  { known with
    output.format := ((said o.format).map .text).getD <|
      (((nonEmpty? env "FORMAT").filter formats.contains).map .text).getD known.output.format
    scan := {
      known.scan with
      severityThreshold := ((said o.severity).map fun l => .text (Text.lower l)).getD <|
        ((nonEmpty? env "SEVERITY_THRESHOLD").map fun l => .text (Text.lower (Text.trim l))).getD
          known.scan.severityThreshold
      failOn := ((said o.failOn).map fun l => .text (Text.lower l)).getD known.scan.failOn
      scanTypes :=
        if o.scanTypes.isEmpty then
          ((nonEmpty? env "SCAN_TYPES").map fun v => .texts ((listItems v).map Text.lower)).getD
            known.scan.scanTypes
        else .texts (o.scanTypes.map Text.lower)
      exclusions := .list (exclusionsOf doc ++
        (((nonEmpty? env "EXCLUDE").map listItems).getD []).map .text ++ o.exclusions.map .text)
      maxFindings := (o.maxFindings.map .int).getD <|
        (((nonEmpty? env "MAX_FINDINGS").bind Text.parseInt?).map .int).getD
          known.scan.maxFindings
      timeout := (o.timeout.map .float).getD <|
        (((nonEmpty? env "TIMEOUT").bind Text.parseFloat?).map .float).getD
          known.scan.timeout } }

/-- What the environment makes of a document is preferred when there are no options. -/
theorem eq_of_withEnvironment (htyped : isTyped doc = true)
    (h : withEnvironment env (ofKnown doc) = .ok s) : s = preferred doc env {} := by
  simp only [withEnvironment, bind_eq_ok_iff] at h
  obtain ⟨s₁, h₁, s₂, h₂, s₃, h₃, s₄, h₄, s₅, h₅, h₆⟩ := h
  have h₁ := eq_of_overriding (f := fun s v =>
    { s with
      scan.severityThreshold := (v.map fun l => .text (Text.lower (Text.trim l))).getD
        s.scan.severityThreshold }) rfl
    (by
      intro value s' hs'
      cases hs'
      rfl) h₁
  have h₂ := eq_of_overriding (f := fun s v =>
    { s with
      scan.scanTypes := (v.map fun v => .texts ((listItems v).map Text.lower)).getD
        s.scan.scanTypes }) rfl
    (by
      intro value s' hs'
      cases hs'
      rfl) h₂
  have hlist : s₂.scan.exclusions = .list (exclusionsOf doc) := by
    rw [h₂, h₁]
    exact exclusions_ofKnown htyped
  have h₃ := eq_of_overriding (f := fun s v =>
    { s with
      scan.exclusions := .list (exclusionsOf doc ++ ((v.map listItems).getD []).map .text) })
    (by simpa using withExclusions_self hlist)
    (by
      intro value s' hs'
      rw [hlist] at hs'
      obtain rfl := Except.ok.inj hs'
      rfl) h₃
  have h₄ := eq_of_overriding (f := fun s v =>
    { s with
      scan.maxFindings := ((v.bind Text.parseInt?).map .int).getD s.scan.maxFindings }) rfl
    (by
      intro value s' hs'
      cases hn : Text.parseInt? value <;> simp only [hn] at hs' <;> cases hs'
      simp [hn]) h₄
  have h₅ := eq_of_overriding (f := fun s v =>
    { s with
      scan.timeout := ((v.bind Text.parseFloat?).map .float).getD s.scan.timeout }) rfl
    (by
      intro value s' hs'
      cases hx : Text.parseFloat? value <;> simp only [hx] at hs' <;> cases hs'
      simp [hx]) h₅
  have h₆ := eq_of_overriding (f := fun s v =>
    { s with
      output.format := ((v.filter formats.contains).map .text).getD s.output.format }) rfl
    (by
      intro value s' hs'
      cases hs'
      rw [Option.filter]
      cases formats.contains value <;> rfl) h₆
  simp only [h₆, h₅, h₄, h₃, h₂, h₁, preferred, said, Option.filter_none, Option.map_none,
    Option.getD_none, List.isEmpty_nil, if_true, List.map_nil, List.append_nil]

/-- Options go before what is preferred without them. -/
theorem override_preferred : o.override (preferred doc env {}) = .ok (preferred doc env o) := by
  rw [ScanOptions.override_eq, ScanOptions.exclusionsAfter]
  by_cases hnone : o.exclusions = []
  · simp [hnone, ScanOptions.appliedTo, preferred, said, Except.map]
  · simp [hnone, ScanOptions.appliedTo, preferred, said, extended, Except.map]

/-- What is preferred can be compared by the check. -/
theorem isComparable_preferred (h : isTyped doc = true) : (preferred doc env o).IsComparable := by
  obtain ⟨-, -, hadmits⟩ := isTyped_iff.mp h
  have hdocumented : ∀ (sect key : String) (kind : Kind) {P : Value → Prop} {default : Value},
      (sect, key, kind) ∈ schema → (∀ v, kind.admits v = true → P v) → P default →
        P (documented doc sect key default) :=
    fun sect key kind P default hmem hkind => getD_of fun v hv => hkind v (hadmits _ hmem v hv)
  have hnumber : ∀ {kind : Kind}, kind = .whole ∨ kind = .number → ∀ v, kind.admits v = true →
      ∃ n, v.number? = some n :=
    fun hkind v hv => exists_number_of_admits hkind hv
  refine ⟨.inl ?_, ?_, ?_, forall_counts_iff.mpr ⟨?_, ?_, ?_⟩⟩
  · by_cases hnone : o.scanTypes.isEmpty = true
    · simp only [preferred, hnone, if_true]
      refine getD_of (fun v hv => ?_) (hdocumented "scan" "scan_types" .texts (by decide)
        (fun v => isTexts_of_admits) ⟨_, rfl⟩)
      obtain ⟨value, -, rfl⟩ := Option.map_eq_some_iff.mp hv
      exact ⟨_, rfl⟩
    · simp only [preferred, hnone]
      exact ⟨_, rfl⟩
  · have hwhole : ∀ {x : Option Int} (v : Value), x.map Value.int = some v →
        v = .null ∨ ∃ n, v.number? = some n := by
      intro x v hv
      obtain ⟨n, -, rfl⟩ := Option.map_eq_some_iff.mp hv
      exact .inr ⟨.int n, rfl⟩
    exact getD_of hwhole <| getD_of hwhole <| hdocumented "scan" "max_findings" .whole
      (P := fun v => v = .null ∨ ∃ n, v.number? = some n) (by decide)
      (fun v hv => .inr (hnumber (.inl rfl) v hv)) (.inl rfl)
  · have hfloat : ∀ {x : Option Float} (v : Value), x.map Value.float = some v →
        v = .null ∨ ∃ n, v.number? = some n := by
      intro x v hv
      obtain ⟨n, -, rfl⟩ := Option.map_eq_some_iff.mp hv
      exact .inr ⟨.float n, rfl⟩
    exact getD_of hfloat <| getD_of hfloat <| hdocumented "scan" "timeout" .number
      (P := fun v => v = .null ∨ ∃ n, v.number? = some n) (by decide)
      (fun v hv => .inr (hnumber (.inr rfl) v hv)) (.inr ⟨_, rfl⟩)
  · exact hdocumented "scan" "workers" .whole (by decide) (hnumber (.inl rfl)) ⟨_, rfl⟩
  · exact hdocumented "scan" "max_line_length" .whole (by decide) (hnumber (.inl rfl)) ⟨_, rfl⟩
  · exact hdocumented "iam" "stale_after_days" .whole (by decide) (hnumber (.inl rfl)) ⟨_, rfl⟩

/-- The names that are preferred are texts, so they can be written out. -/
theorem isWritable_preferred (h : isTyped doc = true) :
    ∀ v ∈ (preferred doc env o).named, v.isWritable = true := by
  obtain ⟨-, -, hadmits⟩ := isTyped_iff.mp h
  have htext : ∀ {v : Value}, v.IsText → v.isWritable = true := by
    rintro _ ⟨t, rfl⟩
    rfl
  have hdocumented : ∀ (sect key : String) {default : Value}, (sect, key, .text) ∈ schema →
      default.IsText → (documented doc sect key default).IsText :=
    fun sect key default hmem hdefault =>
      getD_of (fun v hv => isText_of_admits (hadmits _ hmem v hv)) hdefault
  have hsaid : ∀ {x : Option String} {change : String → String} (v : Value),
      (x.map fun t => Value.text (change t)) = some v → v.IsText := by
    intro x change v hv
    obtain ⟨t, -, rfl⟩ := Option.map_eq_some_iff.mp hv
    exact ⟨_, rfl⟩
  refine forall_named_iff.mpr ⟨htext ?_, htext ?_, htext ?_⟩
  · exact getD_of hsaid <| getD_of hsaid <|
      hdocumented "scan" "severity_threshold" (by decide) ⟨_, rfl⟩
  · exact getD_of hsaid <| hdocumented "scan" "fail_on" (by decide) ⟨_, rfl⟩
  · exact getD_of hsaid <| getD_of hsaid <|
      hdocumented "output" "format" (by decide) ⟨_, rfl⟩

/-! ## What a scan works with -/

/-- The settings that a scan works with, or why there are none. -/
def scanSettings (w : Workplace) (o : ScanOptions) : Except (Fault Problem) Settings := do
  let loaded ← settingsOf w (projectRoot w o) o.config
  let s ← lifted .settings (o.override loaded)
  lifted .settings s.check
  return s

/-- A scan is prepared with these settings, and with the catalog that is made with them. -/
theorem prepareScan_eq :
    prepareScan w o (projectRoot w o) = (do
      let s ← scanSettings w o
      return (s, ← catalogOf w (projectRoot w o) s)) := by
  simp only [prepareScan, scanSettings, bind_assoc, pure_bind]

/-- **A scan is run with these settings**, from its rules to its report. -/
theorem runScan_of_settings (hpath : w.tree.exists_ (Path.ofString o.path) = .ok true)
    (hs : scanSettings w o = .ok s) :
    runScan w o = withPrepared (catalogOf w (projectRoot w o) s) fun c =>
      (runPrepared w o s c).map (·.after (introduction o s c)) := by
  rw [runScan_eq hpath, prepareScan_eq, hs]
  cases hc : catalogOf w (projectRoot w o) s with
  | ok c => simp [withPrepared, hc, bind, Except.bind, pure, Except.pure]
  | error e => cases e <;> simp [withPrepared, hc, bind, Except.bind]

theorem lifted_bind {π α β : Type} {f : π → Problem} {x : Except (Fault π) α}
    {next : α → Except (Fault π) β} :
    lifted f (x >>= next) = (lifted f x >>= fun a => lifted f (next a)) := by
  cases x <;> rfl

/-- What a scan works with depends on what its document says, the environment and the options. -/
theorem scanSettings_eq (hdoc : IsDocument w.tree (projectRoot w o) o.config doc)
    (htyped : isTyped doc = true) :
    scanSettings w o = lifted .settings (do
      let loaded ← withEnvironment w.environment (ofKnown doc)
      loaded.check
      let s ← o.override loaded
      s.check
      return s) := by
  have hload : Settings.load w.tree w.environment (projectRoot w o) o.config = (do
      let loaded ← withEnvironment w.environment (ofKnown doc)
      loaded.check
      return loaded) := by
    rw [← gathered_eq hdoc htyped]
    simp only [load, gathered, bind_assoc]
  simp only [scanSettings, settingsOf, hload, lifted_bind, bind_assoc]
  rfl

/-- **What a scan works with is what is preferred**, or there is a problem with it. -/
theorem scanSettings_preferred (hdoc : IsDocument w.tree (projectRoot w o) o.config doc)
    (htyped : isTyped doc = true) :
    (∃ p, scanSettings w o = .error (.problem p)) ∨
      scanSettings w o = .ok (preferred doc w.environment o) := by
  rw [scanSettings_eq hdoc htyped]
  have hcheck : ∀ {o : ScanOptions}, RefusesOnly (fun _ => False)
      (preferred doc w.environment o).check :=
    refusesOnly_check.mono fun _ hr => by
      obtain ⟨-, hincomparable⟩ | ⟨-, v, hv, hlong⟩ := hr
      · exact hincomparable (isComparable_preferred htyped)
      · cases (isWritable_preferred htyped v hv).symm.trans hlong
  refine (problem_or_ok (refusesOnly_lifted ?_)).imp_right fun ⟨s, hs⟩ => ?_
  · refine RefusesOnly.bind (refusesOnly_withEnvironment.mono fun r hr => ?_) fun loaded hl => ?_
    · exact hr.2.2 _ (exclusions_ofKnown htyped)
    obtain rfl := eq_of_withEnvironment htyped hl
    rw [override_preferred]
    exact hcheck.bind fun _ _ => (refusesOnly_ok _).bind fun s hs => by
      obtain rfl := Except.ok.inj hs
      exact hcheck.bind fun _ _ => refusesOnly_ok _
  · have hsteps := lifted_eq_ok_iff.mp hs
    simp only [bind_eq_ok_iff, pure_eq_ok_iff] at hsteps
    obtain ⟨loaded, hloaded, -, -, s', hs', -, -, rfl⟩ := hsteps
    obtain rfl := eq_of_withEnvironment htyped hloaded
    rw [hs, Except.ok.inj (override_preferred.symm.trans hs')]

/-- **Which setting comes first.**  When the values of the document are of the kinds that are
declared, there is a problem with the settings of a scan, or they are the preferred ones: options of
the command go before the environment, the environment before the document, and the document before
what holds when nothing is said.  It is with these settings that the scan is run.  Another document
that has the same values under the keys which the schema knows makes the same settings, or the same
problem. -/
theorem scan_settings_preferred (w : Workplace) (o : ScanOptions) {doc : Value}
    (hdoc : IsDocument w.tree (projectRoot w o) o.config doc) (htyped : isTyped doc = true) :
    ((∃ p, scanSettings w o = .error (.problem p)) ∨
      scanSettings w o = .ok (preferred doc w.environment o)) ∧
    (∀ s, scanSettings w o = .ok s → w.tree.exists_ (Path.ofString o.path) = .ok true →
      runScan w o = withPrepared (catalogOf w (projectRoot w o) s) fun c =>
        (runPrepared w o s c).map (·.after (introduction o s c))) ∧
    (∀ (w' : Workplace) (doc' : Value), w'.environment = w.environment →
      IsDocument w'.tree (projectRoot w' o) o.config doc' → isTyped doc' = true →
        AgreesOnSchema doc doc' → scanSettings w' o = scanSettings w o) := by
  refine ⟨scanSettings_preferred hdoc htyped, fun s hs hpath => runScan_of_settings hpath hs, ?_⟩
  intro w' doc' henv hdoc' htyped' hagrees
  rw [scanSettings_eq hdoc' htyped', scanSettings_eq hdoc htyped, henv, hagrees.ofKnown_eq]

/-- A project whose file sets some options, one of them unknown, in an environment that sets others.
-/
def layeredDesk : Workplace where
  tree := projectWith ("[scan]\nmax_findings = 5\nworkers = 2\nfail_on = \"low\"\n" ++
    "exclusions = [\"a\"]\ndepth = 3\n")
  environment := [("VULNAUDIT_MAX_FINDINGS", "7"), ("VULNAUDIT_EXCLUDE", "b, c"),
    ("VULNAUDIT_SEVERITY_THRESHOLD", "low"), ("VULNAUDIT_FORMAT", "yaml")]
  now := ⟨0, some 0⟩
  occasion := { id := "1" }

/-- Of a threshold the option counts, of a limit the variable, and of the number of workers the
document; a format that there is none of does not count, and all exclusions do. -/
theorem scan_settings_layered :
    ∃ s, scanSettings layeredDesk { severity := some "HIGH", exclusions := ["d"] } = .ok s ∧
      s.scan.severityThreshold.same (.text "high") = true ∧
      s.scan.failOn.same (.text "low") = true ∧ s.scan.maxFindings.same (.int 7) = true ∧
      s.scan.workers.same (.int 2) = true ∧
      s.scan.exclusions.same (.texts ["a", "b", "c", "d"]) = true ∧
      s.output.format.same (.text "terminal") = true := by
  let o : ScanOptions := { severity := some "HIGH", exclusions := ["d"] }
  have hfound : findFile layeredDesk.tree (projectRoot layeredDesk o) o.config =
      .ok (some ((projectRoot layeredDesk o).child fileName)) := by
    have hfile :
        ((layeredDesk.tree.hasFile (placeOf (projectRoot layeredDesk o) o.config)).toOption ==
        some true) = true := by decide +kernel
    cases hthere : layeredDesk.tree.hasFile (placeOf (projectRoot layeredDesk o) o.config) with
    | error r =>
        rw [hthere] at hfile
        cases hfile
    | ok there =>
        rw [hthere] at hfile
        obtain rfl : there = true := Option.some.inj (eq_of_beq hfile)
        exact bind_eq_ok_iff.mpr ⟨true, allowing_eq_ok_iff.mpr hthere, rfl⟩
  have hread : ((readFile layeredDesk.tree ((projectRoot layeredDesk o).child
      fileName)).toOption.any fun doc => isTyped doc &&
        let s := preferred doc layeredDesk.environment o
        s.scan.severityThreshold.same (.text "high") && s.scan.failOn.same (.text "low") &&
          s.scan.maxFindings.same (.int 7) && s.scan.workers.same (.int 2) &&
          s.scan.exclusions.same (.texts ["a", "b", "c", "d"]) &&
          s.output.format.same (.text "terminal")) = true := by decide +kernel
  obtain ⟨doc, hread, hdoc⟩ := any_toOption_iff.mp hread
  obtain ⟨htyped, hvalues⟩ := Bool.and_eq_true_iff.mp hdoc
  simp only [Bool.and_eq_true, and_assoc] at hvalues
  have hsettings : (scanSettings layeredDesk o).isOk = true := by decide +kernel
  obtain ⟨⟨p, hp⟩ | hs, -, -⟩ :=
    scan_settings_preferred layeredDesk o (.inr ⟨_, hfound, hread⟩) htyped
  · rw [hp] at hsettings
    cases hsettings
  · exact ⟨_, hs, hvalues⟩

end Cli

end SecurityAudit
