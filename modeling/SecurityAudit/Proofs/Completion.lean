import SecurityAudit.Proofs.CustomRules
import SecurityAudit.Proofs.Exclusions
import SecurityAudit.Proofs.Exposures
import SecurityAudit.Proofs.Unlimited
import SecurityAudit.Proofs.Writing

/-!
# Audits that come to an end

An audit of settings that have been checked may still meet values that it cannot work with: texts
that are none, a length of time that is too long, rules that cannot be put in order.  When there are
none of these, an audit can be put together, and it ends with a report or with a problem about one
of its targets (`refusesOnly_run`).  What the report has from rule files is text then, so that it
can be shown and written (`run_isTextual`).

What a catalog holds is built in or described by an entry of a rule file, so it is text if those
entries give texts (`Catalog.isTextual_of_ofSettings`).
-/

namespace SecurityAudit

/-! ## Texts of rules -/

instance : DecidablePred Value.IsText := fun v =>
  decidable_of_iff (v.text?.isSome = true) <| by
    cases v <;> simp [Value.IsText, Value.text?]

/-- What a rule gives to its findings is text. -/
def Rule.IsTextual (r : Rule) : Prop :=
  ∀ v ∈ [r.id, r.name, r.description, r.remediation] ++ r.references, v.IsText

instance : DecidablePred Rule.IsTextual := fun r =>
  inferInstanceAs (Decidable
    (∀ v ∈ [r.id, r.name, r.description, r.remediation] ++ r.references, v.IsText))

/-- What a secret pattern gives to its findings is text: its id, and what is made of its name and of
its description. -/
structure SecretPattern.IsTextual (p : SecretPattern) : Prop where
  id : p.id.IsText
  name : p.name.plain.isSound = true
  description : p.description.plain.isSound = true

instance : DecidablePred SecretPattern.IsTextual := fun p =>
  decidable_of_iff (p.id.IsText ∧ p.name.plain.isSound = true ∧
      p.description.plain.isSound = true)
    ⟨fun h => ⟨h.1, h.2.1, h.2.2⟩, fun h => ⟨h.id, h.name, h.description⟩⟩

/-- What the rules and secret patterns of a catalog give to their findings is text. -/
structure Catalog.IsTextual (c : Catalog) : Prop where
  rules : ∀ r ∈ c.rules, r.IsTextual
  secrets : ∀ p ∈ c.secrets, p.IsTextual

/-- What the built-in rules and secret patterns give to their findings is text. -/
theorem Builtin.isTextual :
    (∀ r ∈ rules, r.IsTextual) ∧ ∀ p ∈ secretPatterns, p.IsTextual := by
  decide +kernel

/-- A raw text without halves is a text. -/
theorem Value.isText_ofRaw {t : RawText} (h : t.isSound = true) : (ofRaw t).IsText := by
  rw [RawText.eq_sound_of_isSound h]
  exact ⟨_, rfl⟩

/-- The finding of a secret is made of texts if the pattern gives texts. -/
theorem SecretPattern.findingOf_isTextual {p : SecretPattern} (h : p.IsTextual)
    (now : Calendar.Moment) (path : RawText) (line : Nat) (c : Detect.Candidate) :
    (p.findingOf now path line c).IsTextual :=
  Finding.isTextual_iff.mpr ⟨h.id, Value.isText_ofRaw (by simp [h.name]),
    Value.isText_ofRaw (by simp [h.description]), ⟨_, rfl⟩, List.forall_mem_nil _⟩

/-- The finding of a remark about a policy is made of texts. -/
theorem Iam.Review.findingOf_isTextual (r : Iam.Review) (policy : Iam.Policy) (line : Nat)
    (m : Iam.Review.Remark) : (r.findingOf policy line m).IsTextual :=
  Finding.isTextual_iff.mpr
    ⟨⟨_, rfl⟩, ⟨_, rfl⟩, ⟨_, rfl⟩, ⟨_, rfl⟩, List.forall_mem_singleton.mpr ⟨_, rfl⟩⟩

/-! ## Catalogs -/

/-- The directory in which the custom rules of a project lie. -/
def Project.rulesDirectory (p : Project) (s : Settings) : Path :=
  p.root.append (.ofString (s.rules.customDir.text?.getD ""))

/-- What the custom rules of a project give to their findings is text. -/
structure Project.GivesTexts (p : Project) (s : Settings) : Prop where
  rules : ∀ entry, CatalogBuilder.IsEntryOf p.tree (p.rulesDirectory s) entry →
    CatalogBuilder.isSecret entry = false → ∀ r, Rule.Describes entry r → r.IsTextual
  secrets : ∀ entry, CatalogBuilder.IsEntryOf p.tree (p.rulesDirectory s) entry →
    CatalogBuilder.isSecret entry = true → ∀ q, SecretPattern.Describes entry q → q.IsTextual

/-- A rule that is as its entry says gives texts to its findings. -/
theorem Rule.IsFaithful.isTextual {entry : Value} {r : Rule} (h : Rule.IsFaithful entry r) :
    r.IsTextual := by
  obtain ⟨items, -, hreferences⟩ := h.references
  intro v hv
  rcases List.mem_append.mp hv with hv | hv
  · exact h.texts v hv
  · rw [hreferences] at hv
    obtain ⟨t, -, rfl⟩ := List.mem_map.mp hv
    exact ⟨t, rfl⟩

/-- A secret pattern that is as its entry says gives texts to its findings. -/
theorem SecretPattern.IsFaithful.isTextual {p : SecretPattern} (h : p.IsFaithful) :
    p.IsTextual := by
  have hsound : ∀ {v : Value}, v.IsText → v.plain.isSound = true := by
    rintro _ ⟨t, rfl⟩
    rfl
  obtain ⟨hid, hrest⟩ := List.forall_mem_cons.mp h.texts
  obtain ⟨hname, hrest⟩ := List.forall_mem_cons.mp hrest
  exact ⟨hid, hsound hname, hsound (List.forall_mem_singleton.mp hrest)⟩

/-- Rule files of which each is proper give texts. -/
theorem Project.givesTexts_of_proper {p : Project} {s : Settings}
    (h : ∀ path ∈ CatalogBuilder.ruleFiles p.tree (p.rulesDirectory s),
      CatalogBuilder.IsProperFile p.tree path) : p.GivesTexts s where
  rules := by
    intro entry hentry hkind r hdescribes
    obtain ⟨path, hpath, hentry⟩ := hentry
    have hproper := (h path hpath).rules entry hentry hkind
    exact (hdescribes.isFaithful_iff.mpr hproper.toGivesTexts).isTextual
  secrets := by
    intro entry hentry hkind q hdescribes
    obtain ⟨path, hpath, hentry⟩ := hentry
    have hproper := (h path hpath).secrets entry hentry hkind
    exact (hdescribes.isFaithful_iff.mpr hproper.toGivesTexts).isTextual

namespace CatalogBuilder

variable {s : Settings} {p : Project} {b : CatalogBuilder}

/-- To apply settings leaves what is registered as it is. -/
theorem applySettings_keeps_madeFrom {t : Tree} {directory : Path} :
    Keeps (MadeFrom t directory b) (applySettings s) :=
  applySettings_keeps_of
    (fun _ _ hrules hsecrets h => ⟨hrules ▸ h.rules, hsecrets ▸ h.secrets⟩) s

/-- What is prepared for a project is made from its rule files. -/
theorem prepare_madeFrom (s : Settings) (p : Project) (b : CatalogBuilder) :
    MadeFrom p.tree (p.rulesDirectory s) b ((prepare s (some p)).run.run b).2 := by
  have hload : Keeps (MadeFrom p.tree (p.rulesDirectory s) b) (loadCustom s p) := by
    refine Keeps.liftBind fun name hname => ?_
    have hdirectory : p.rulesDirectory s = p.root.append (.ofString name) := by
      unfold Project.rulesDirectory
      rw [orRefuse_eq_ok_iff.mp hname]
      rfl
    rw [hdirectory]
    exact (loadDirectory_keeps_madeFrom _ _ b).bind fun _ => Keeps.pure ()
  have hprepare : Keeps (MadeFrom p.tree (p.rulesDirectory s) b) (prepare s (some p)) :=
    hload.bind fun _ => applySettings_keeps_madeFrom
  exact hprepare b ⟨fun _ hr => .inl hr, fun _ hq => .inl hq⟩

/-- The custom rules of a project can be registered. -/
def checkCustom (s : Settings) (p : Project) : Rule.Reading Unit := do
  let name ← orRefuse .wrongKind s.rules.customDir.text?
  let _ ← checkDirectory p.tree (p.root.append (.ofString name))

/-- The settings hold items where these are needed. -/
def checkItems (s : Settings) : Rule.Reading Unit := do
  let _ ← itemsOf s.rules.enable
  let _ ← itemsOf s.rules.disable
  let _ ← itemsOf s.iam.extraDangerousActions

/-- A change of the builder leaves the outcome to what comes after it. -/
theorem hasResult_modify_bind {α : Type} {x : Rule.Reading α}
    {change : CatalogBuilder → CatalogBuilder} {next : Unit → Step α}
    (h : HasResult x (next ())) : HasResult x (modify change >>= next) :=
  fun b => h (change b)

theorem loadCustom_result (s : Settings) (p : Project) :
    HasResult (checkCustom s p) (loadCustom s p) :=
  (HasResult.lift _).bind fun _ =>
    (loadDirectory_result p.tree _).bind fun _ => HasResult.pure ()

theorem applySettings_result (s : Settings) : HasResult (checkItems s) (applySettings s) :=
  (HasResult.lift _).bind fun _ => hasResult_modify_bind <|
    (HasResult.lift _).bind fun _ => hasResult_modify_bind <|
      (HasResult.lift _).bind fun _ => HasResult.modify _

/-- Whether a catalog can be prepared does not depend on the builder. -/
theorem prepare_result (s : Settings) (p : Project) :
    HasResult (checkCustom s p >>= fun _ => checkItems s) (prepare s (some p)) :=
  (loadCustom_result s p).bind fun _ => applySettings_result s

/-- To ask for the items of texts refuses nothing. -/
theorem refusesOnly_itemsOf {q : Refusal → Prop} {v : Value} (h : v.IsTexts) :
    RefusesOnly q (itemsOf v) := by
  obtain ⟨items, rfl⟩ := h
  exact refusesOnly_ok _

end CatalogBuilder

namespace Catalog

open CatalogBuilder

variable {s : Settings} {p : Project} {c : Catalog} {q : Refusal → Prop}

/-- **When a catalog is not refused**: the directory of custom rules is named by a text, its rule
files can be found and none of them is refused, and the settings have lists of texts. -/
theorem refusesOnly_ofSettings (hdirectory : s.rules.customDir.IsText)
    (hfound : HasRuleFiles p.tree (p.rulesDirectory s))
    (hfiles : ∀ path ∈ ruleFiles p.tree (p.rulesDirectory s), ∀ r, ¬ FileRefuses p.tree path r)
    (hlists : ∀ v ∈ s.lists, v.IsTexts) : RefusesOnly q (Catalog.ofSettings s (some p)) := by
  obtain ⟨-, -, henable, hdisable, -, -, hactions⟩ := Settings.forall_lists_iff.mp hlists
  have hcustom : RefusesOnly q (checkCustom s p) := by
    unfold Project.rulesDirectory at hfound hfiles
    obtain ⟨name, hname⟩ := hdirectory
    rw [hname] at hfound hfiles
    unfold checkCustom
    rw [hname]
    refine (refusesOnly_ok name).bind fun _ hok => ?_
    obtain rfl := Except.ok.inj hok
    refine RefusesOnly.bind (refusesOnly_checkDirectory.mono fun r hr => ?_)
      fun _ _ => refusesOnly_ok ()
    exact (not_directoryRefuses hfound hfiles r hr).elim
  have hitems : RefusesOnly q (checkItems s) :=
    (refusesOnly_itemsOf henable).bind fun _ _ =>
      (refusesOnly_itemsOf hdisable).bind fun _ _ =>
        (refusesOnly_itemsOf hactions).bind fun _ _ => refusesOnly_ok ()
  have hprepare : RefusesOnly q ((prepare s (some p)).run.run Builtin.builder).1 := by
    rw [prepare_result s p Builtin.builder]
    exact hcustom.bind fun _ _ => hitems
  unfold Catalog.ofSettings
  generalize (prepare s (some p)).run.run Builtin.builder = outcome at hprepare
  obtain ⟨result, b⟩ := outcome
  cases result with
  | ok _ => exact refusesOnly_ok _
  | error f =>
      intro r hr
      cases hr
      exact hprepare r rfl

/-- **What a catalog gives to findings is text** if the custom rules of the project give texts. -/
theorem isTextual_of_ofSettings (hp : p.GivesTexts s)
    (h : Catalog.ofSettings s (some p) = .ok c) : c.IsTextual := by
  have hmade := prepare_madeFrom s p Builtin.builder
  unfold Catalog.ofSettings at h
  generalize (prepare s (some p)).run.run Builtin.builder = outcome at h hmade
  obtain ⟨result, b⟩ := outcome
  cases result with
  | error f => cases h
  | ok _ =>
      cases h
      refine ⟨fun r hr => ?_, fun q hq => ?_⟩
      · rcases hmade.rules r (List.mem_filter.mp hr).1 with hbuiltin | hentry
        · exact Builtin.isTextual.1 r hbuiltin
        · obtain ⟨entry, hentry, hkind, hdescribes⟩ := hentry
          exact hp.rules entry hentry hkind r hdescribes
      · rcases hmade.secrets q (List.mem_filter.mp hq).1 with hbuiltin | hentry
        · exact Builtin.isTextual.2 q hbuiltin
        · obtain ⟨entry, hentry, hkind, hdescribes⟩ := hentry
          exact hp.secrets entry hentry hkind q hdescribes

end Catalog

/-! ## Putting an audit together -/

/-- Whether texts are exclusions for a path can always be told. -/
theorem Exclusion.exists_covers {v : Value} (h : v.IsTexts) (path : String) :
    ∃ b, Exclusion.covers v path = .ok b := by
  obtain ⟨globs, rfl⟩ := h
  exact ⟨_, covers_texts globs path⟩

namespace Audit

variable {s : Settings} {c : Catalog} {now : Calendar.Moment} {a : Audit} {q : Refusal → Prop}

/-- What runs on files with markers that are texts. -/
def detectorsWith (s : Settings) (c : Catalog) (lineMarkers pathMarkers : List String) :
    List FileDetector :=
  vulnerabilitiesFor s c ++
    if s.scan.enabled "secrets" then
      [.secrets (.ofMarkers c.secrets (lineMarkers.map String.toList)
        (pathMarkers.map String.toList) s.scan.maxLineLength)]
    else []

/-- What runs on files can be told when the markers are texts. -/
theorem detectorsFor_of_texts {lineMarkers pathMarkers : List String}
    (hline : s.secrets.skipMarkers = .texts lineMarkers)
    (hpath : s.secrets.skipPathMarkers = .texts pathMarkers) (c : Catalog) :
    detectorsFor s c = .ok (detectorsWith s c lineMarkers pathMarkers) := by
  rw [detectorsFor_eq_ok_iff, detectorsWith]
  cases s.scan.enabled "secrets" with
  | false => exact .inl ⟨rfl, List.append_nil _⟩
  | true => exact .inr ⟨_, rfl, Detect.SecretScan.ofSettings_eq c.secrets hline hpath, rfl⟩

/-- An audit is put together when it can be told what runs on files and how policies are reviewed:
what is refused then is the review. -/
theorem assemble_eq_map {detectors : List FileDetector} {threshold : String}
    (hdetectors : detectorsFor s c = .ok detectors)
    (hthreshold : s.scan.severityThreshold = .text threshold) (now : Calendar.Moment) :
    assemble s c now =
      (reviewFor s c now).map fun review => ⟨s, threshold, detectors, review, now⟩ := by
  rw [assemble, hdetectors, hthreshold]
  cases reviewFor s c now <;> rfl

/-- The length of time after which a policy is stale can be told, if policies are reviewed. -/
def TellsStale (s : Settings) : Prop :=
  s.scan.enabled "iam" = true → ∃ t, Iam.Review.ofDays s.iam.staleAfterDays = .ok t

/-- **When an audit can be put together**: the settings have been checked, they have lists of texts,
and the length of time for policies can be told. -/
theorem exists_assemble (haccepted : s.Accepted) (hlists : ∀ v ∈ s.lists, v.IsTexts)
    (hstale : TellsStale s) (c : Catalog) (now : Calendar.Moment) :
    ∃ a, assemble s c now = .ok a := by
  obtain ⟨-, -, -, -, ⟨lineMarkers, hline⟩, ⟨pathMarkers, hpath⟩, -⟩ :=
    Settings.forall_lists_iff.mp hlists
  obtain ⟨review, hreview⟩ : ∃ review, reviewFor s c now = .ok review := by
    unfold reviewFor
    by_cases henabled : s.scan.enabled "iam" = true
    · obtain ⟨t, ht⟩ := hstale henabled
      rw [if_pos henabled, Iam.Review.make, ht]
      exact ⟨_, rfl⟩
    · rw [if_neg henabled]
      exact ⟨_, rfl⟩
  obtain ⟨level, -, hthreshold⟩ := haccepted.threshold
  rw [assemble_eq_map (detectorsFor_of_texts hline hpath c) hthreshold now, hreview]
  exact ⟨_, rfl⟩

/-! ## Running an audit -/

/-- What may be found in files is text where a rule gives it, if the catalog has texts. -/
theorem InFile.isTextual (ha : Audit.ofSettings s c now = .ok a) (hc : c.IsTextual)
    {f : SourceFile} {x : Finding} (hx : a.InFile f x) : x.IsTextual := by
  rcases exists_of_inFile ha hx with ⟨r, hr, h, rfl⟩ | ⟨p, hp, number, candidate, rfl⟩
  · exact hc.rules r hr
  · exact p.findingOf_isTextual (hc.secrets p hp) _ _ _ _

/-- Findings and suppressions of which each is made of texts are made of texts together. -/
theorem madeOf_joined {P : Finding → Prop} {fs : List Found} (h : ∀ f ∈ fs, f.MadeOf P) :
    (Found.joined fs).MadeOf P := by
  refine ⟨fun x hx => ?_, fun r hr => ?_⟩
  · obtain ⟨f, hf, hx⟩ := List.mem_flatMap.mp hx
    exact (h f hf).findings x hx
  · obtain ⟨f, hf, hr⟩ := List.mem_flatMap.mp hr
    exact (h f hf).suppressed r hr

/-- What becomes of targets is text where a rule gives it, if the catalog has texts. -/
theorem madeOf_outcomes (ha : Audit.ofSettings s c now = .ok a) (hc : c.IsTextual)
    {outcomes : List (Target × Outcome)} (hattended : ∀ p ∈ outcomes, Attended a p) :
    (Found.joined (outcomes.filterMap foundOf?)).MadeOf Finding.IsTextual := by
  refine madeOf_joined fun found hfound => ?_
  obtain ⟨p, hp, hfound⟩ := List.mem_filterMap.mp hfound
  exact madeOf_of_attended Iam.Review.findingOf_isTextual (fun _ _ => InFile.isTextual ha hc)
    (hattended p hp) hfound

/-- A number of seconds is one that can be waited for, whatever the number of targets. -/
def CanWait (timeout : Value) : Prop :=
  ∀ t, timeout.number? = some t →
    isBeyondClock t = false ∧ (Number.int longestWait).below t = false

theorem CanWait.checkTimeout {timeout : Value} (h : CanWait timeout) (ts : List Target) :
    Audit.checkTimeout timeout ts = .ok () := by
  refine checkTimeout_eq_ok_iff.mpr fun t ht _ => ?_
  obtain ⟨hclock, hshort⟩ := h t ht
  exact ⟨hclock, fun _ => hshort⟩

/-- A queue can be filled when the exclusions are texts and the policies can be named. -/
theorem exists_queue (h : a.settings.scan.exclusions.IsTexts) {request : Request}
    (hnames : ∀ p ∈ request.policies, p.canBeNamed = true) :
    ∃ queue, Queue.ofRequest a request = .ok queue := by
  have hfile : ∀ f ∈ request.files, ∃ queue, Queue.ofFile a f.1 f.2 = .ok queue := by
    intro f _
    obtain ⟨covered, hcovers⟩ := Exclusion.exists_covers h f.1
    unfold Queue.ofFile
    rw [hcovers]
    cases covered with
    | true => exact ⟨_, rfl⟩
    | false =>
        by_cases hnone : a.detectors.isEmpty = true
        · exact ⟨_, by simp [hnone, bind, Except.bind]; rfl⟩
        · exact ⟨_, by simp [hnone, bind, Except.bind]; rfl⟩
  obtain ⟨queues, hqueues⟩ := exists_mapM hfile
  rw [Queue.ofRequest_eq, hqueues, Queue.checkNames_eq_ok_iff.mpr hnames]
  exact ⟨_, rfl⟩

/-- Settings that have been checked give a limit for the budget. -/
theorem exists_budget (h : s.Accepted) : ∃ b, Budget.ofValue s.scan.maxFindings = .ok b := by
  obtain hnull | ⟨n, hn, -⟩ := h.maxFindings
  · rw [hnull]
    exact ⟨_, rfl⟩
  · unfold Budget.ofValue
    split
    · exact ⟨_, rfl⟩
    · rw [hn]
      exact ⟨_, rfl⟩

/-- Settings that have been checked give a number of workers. -/
theorem exists_workers_of_accepted (h : s.Accepted) (most : Nat) :
    ∃ workers, workersOf s.scan.workers most = .ok workers := by
  obtain ⟨n, hn, -⟩ := h.workers
  unfold workersOf
  rw [hn]
  exact ⟨_, rfl⟩

/-- A target is scanned, or there is a problem about it. -/
theorem refusesOnly_scan (b : Budget) (t : Target) : RefusesOnly q (a.scan b t) := by
  unfold scan
  dsimp only
  split
  · exact refusesOnly_ok _
  · exact refusesOnly_fail _

theorem refusesOnly_attend (occasion : Occasion) (r : Resources) (t : Target) :
    RefusesOnly q (a.attend occasion r t) := by
  unfold attend
  cases r.workers with
  | zero => exact refusesOnly_ok _
  | succ free =>
      by_cases hkeeps : keepsWorker occasion r.budget t = true
      · simp only [hkeeps, if_true]
        exact refusesOnly_ok _
      · simp only [hkeeps]
        exact (refusesOnly_scan r.budget t).bind fun _ _ => refusesOnly_ok _

/-- To see to targets refuses nothing: what is refused about one is a problem of the audit. -/
theorem refusesOnly_attendAll (occasion : Occasion) (r : Resources) (ts : List Target) :
    RefusesOnly q (a.attendAll occasion r ts) := by
  induction ts generalizing r with
  | nil => exact refusesOnly_ok _
  | cons t ts ih =>
      rw [attendAll]
      exact (refusesOnly_attend occasion r t).bind fun _ _ =>
        (ih _).bind fun _ _ => refusesOnly_ok _

/-- **An audit ends with a report or with a problem about one of its targets**, if what its catalog
gives is text, its exclusions are texts, its time can be waited for and its policies can be
named. -/
theorem refusesOnly_run (ha : Audit.ofSettings s c now = .ok a) (hc : c.IsTextual)
    (hexclusions : s.scan.exclusions.IsTexts) (hwait : CanWait s.scan.timeout)
    (occasion : Occasion) {request : Request}
    (hnames : ∀ p ∈ request.policies, p.canBeNamed = true) :
    RefusesOnly q (a.run occasion request) := by
  obtain ⟨hcheck, -, -, -, rfl, -⟩ := ofSettings_eq_ok_iff.mp ha
  have haccepted := Settings.check_eq_ok_iff.mp hcheck
  unfold run
  refine (refusesOnly_allowing (exists_queue hexclusions hnames)).bind fun queue _ => ?_
  refine (refusesOnly_allowing (exists_budget haccepted)).bind fun budget _ => ?_
  refine (refusesOnly_allowing (exists_workers_of_accepted haccepted _)).bind fun workers _ => ?_
  refine (refusesOnly_allowing ⟨(), hwait.checkTimeout _⟩).bind fun _ _ => ?_
  refine (refusesOnly_attendAll occasion _ _).bind fun (outcomes, after) houtcomes => ?_
  have hmade := madeOf_outcomes ha hc (attendAll_spec houtcomes).2
  refine refusesOnly_allowing (Report.exists_aggregate_of_texts (fun x hx => ?_) fun r hr => ?_)
  · rw [← List.flatMap_def] at hx
    exact (Finding.isTextual_iff.mp (hmade.findings x hx)).1
  · obtain ⟨x, hx, hrule, -⟩ := hmade.suppressed r hr
    rw [hrule]
    exact (Finding.isTextual_iff.mp hx).1

/-- **What a report has from rule files is text** if what the catalog gives is. -/
theorem run_isTextual (ha : Audit.ofSettings s c now = .ok a) (hc : c.IsTextual)
    {occasion : Occasion} {request : Request} {report : Report}
    (h : a.run occasion request = .ok report) : report.IsTextual := by
  obtain ⟨queue, budget, workers, outcomes, after, -, -, -, -, houtcomes, hreport⟩ :=
    run_eq_ok_iff.mp h
  have hmade := madeOf_outcomes ha hc (attendAll_spec houtcomes).2
  obtain ⟨findings, suppressed, hfindings, hsuppressed, rfl⟩ :=
    Report.aggregate_eq_ok_iff.mp hreport
  refine ⟨fun x hx => ?_, fun r hr => ?_, Value.hasForm_int _, Value.hasForm_int _⟩
  · have hx := (List.mem_filter.mp ((Finding.sorted_perm hfindings).mem_iff.mp hx)).1
    rw [← List.flatMap_def] at hx
    exact hmade.findings x hx
  · obtain ⟨x, hx, hrule, -⟩ :=
      hmade.suppressed r ((Report.sortedSuppressions_perm hsuppressed).mem_iff.mp hr)
    rw [hrule]
    exact (Finding.isTextual_iff.mp hx).1

end Audit

end SecurityAudit
