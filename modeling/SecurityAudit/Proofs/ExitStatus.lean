import SecurityAudit.Proofs.Completion
import SecurityAudit.Proofs.Resolution

/-!
# What the exit status means

A program that runs a scan learns from the exit status how it went: one is for findings that reach
the level on which scans fail, two for settings, rules or targets that do not let the scan get to a
report.  A value that is refused in the middle of a command ends the program with one as well, and
so does something that the terminal does not take, so that one alone does not tell of findings
(`exitStatus_scan`).

When what the scan is given is fit and the terminal takes what is shown, nothing is refused, and the
exit status can be relied on.
-/

namespace SecurityAudit

namespace Iam

variable {t : Tree}

/-- A number in a policy file has too many digits. -/
def HasLongNumber (t : Tree) (path : Path) : Prop :=
  ∃ bytes text, t.read path = .ok bytes ∧ Text.Encoding.utf8.decode? bytes = some text ∧
    Json.parse (String.ofList text) = .error .tooManyDigits

/-- A policy file is read, or left with a warning, unless a number in it has too many digits. -/
theorem exists_readFile_iff {path : Path} :
    (∃ v, readFile t path = .ok v) ↔ ¬ HasLongNumber t path := by
  constructor
  · intro hread hlong
    obtain ⟨v, hv⟩ := hread
    obtain ⟨bytes, text, hbytes, htext, hparse⟩ := hlong
    simp [readFile, hbytes, htext, hparse] at hv
  · intro h
    unfold readFile
    cases hread : t.read path with
    | error e => exact ⟨none, rfl⟩
    | ok bytes =>
        cases htext : Text.Encoding.utf8.decode? bytes with
        | none => exact ⟨none, by simp [htext]⟩
        | some text =>
            cases hparse : Json.parse (String.ofList text) with
            | ok v => exact ⟨some v, by simp [htext, hparse]⟩
            | error e =>
                cases e with
                | malformed => exact ⟨none, by simp [htext, hparse]⟩
                | tooManyDigits => exact (h ⟨bytes, text, hread, htext, hparse⟩).elim

/-- Policy files are loaded when each of them is read or left. -/
theorem exists_loadFiles {paths : List Path} (h : ∀ path ∈ paths, ¬ HasLongNumber t path) :
    ∃ loaded, loadFiles t paths = .ok loaded := by
  induction paths with
  | nil => exact ⟨{}, rfl⟩
  | cons path paths ih =>
      obtain ⟨hfirst, hrest⟩ := List.forall_mem_cons.mp h
      obtain ⟨v, hv⟩ := exists_readFile_iff.mpr hfirst
      obtain ⟨others, hothers⟩ := ih hrest
      rw [loadFiles, hv, hothers]
      cases v with
      | none => exact ⟨_, rfl⟩
      | some v => exact ⟨_, rfl⟩

/-- What is read from a policy file is a JSON value. -/
theorem isJson_of_readFile {path : Path} {v : Value} (h : readFile t path = .ok (some v)) :
    v.IsJson := by
  rw [readFile] at h
  split at h
  · cases h
  · split at h
    · cases h
    · split at h
      next hparse =>
        obtain rfl := Option.some.inj (Except.ok.inj h)
        exact Json.isJson_of_parse hparse
      · cases h
      · cases h

/-- The documents in a file stay JSON values when they are named. -/
theorem isJson_of_mem_namedDocuments {stem : String} {v doc : Value} (hv : v.IsJson)
    (h : doc ∈ namedDocuments stem v) : doc.IsJson := by
  have hitems : ∀ x ∈ documentsOf v, x.IsJson := by
    rw [documentsOf.eq_def]
    split
    next items => exact hv.items
    next => exact List.forall_mem_singleton.mpr hv
  obtain ⟨⟨x, i⟩, hx, rfl⟩ := List.mem_map.mp h
  have hx := hitems x (List.fst_mem_of_mem_zipIdx hx)
  dsimp only
  rw [named.eq_def]
  split
  next entries =>
    split
    · exact hx
    · have hall := isJson_putEntry hx.entries (⟨_, rfl⟩ : (Value.text "name").IsString)
        (.text (givenName stem (documentsOf v).length i))
      exact .mapping (fun e he => (hall e he).1) fun e he => (hall e he).2
  next => exact hx

/-- The documents that are loaded from policy files are JSON values. -/
theorem isJson_of_loadFiles {paths : List Path} {loaded : Loaded}
    (h : loadFiles t paths = .ok loaded) : ∀ doc ∈ loaded.documents, doc.IsJson := by
  induction paths generalizing loaded with
  | nil =>
      obtain rfl := Except.ok.inj h
      exact List.forall_mem_nil _
  | cons path paths ih =>
      obtain ⟨v, hv, h⟩ := bind_eq_ok_iff.mp h
      obtain ⟨others, hothers, h⟩ := bind_eq_ok_iff.mp h
      cases v with
      | none =>
          obtain rfl := pure_eq_ok_iff.mp h
          have hrest := ih hothers
          exact hrest
      | some v =>
          obtain rfl := pure_eq_ok_iff.mp h
          exact List.forall_mem_append.mpr
            ⟨fun doc hdoc => isJson_of_mem_namedDocuments (isJson_of_readFile hv) hdoc, ih hothers⟩

end Iam

namespace Cli

variable {w : Workplace} {o : ScanOptions} {s : Settings} {c : Catalog} {a : Audit}
  {request : Audit.Request} {report : Report} {words : List String} {q : Refusal → Prop}
  {takes : Printed → Bool}

/-! ## Settings and options -/

/-- The exclusions of a scan: those that have been loaded, and after them those of the options. -/
def ScanOptions.exclusionsAfter (o : ScanOptions) (v : Value) : Settings.Checked Value :=
  if o.exclusions.isEmpty then .ok v else Settings.extended v o.exclusions

/-- Settings with the values that options give, and with some exclusions. -/
def ScanOptions.appliedTo (o : ScanOptions) (s : Settings) (exclusions : Value) : Settings :=
  { s with
    output.format := ((said o.format).map .text).getD s.output.format
    scan := {
      s.scan with
      severityThreshold :=
        ((said o.severity).map fun l => .text (Text.lower l)).getD s.scan.severityThreshold
      failOn := ((said o.failOn).map fun l => .text (Text.lower l)).getD s.scan.failOn
      scanTypes :=
        if o.scanTypes.isEmpty then s.scan.scanTypes else .texts (o.scanTypes.map Text.lower)
      exclusions := exclusions
      maxFindings := (o.maxFindings.map .int).getD s.scan.maxFindings
      timeout := (o.timeout.map .float).getD s.scan.timeout } }

/-- Options replace values, but for the exclusions, which they extend. -/
theorem ScanOptions.override_eq (o : ScanOptions) (s : Settings) :
    o.override s = (o.exclusionsAfter s.scan.exclusions).map (o.appliedTo s) := by
  unfold override exclusionsAfter appliedTo
  cases said o.format <;> cases said o.severity <;> cases said o.failOn <;>
    cases o.scanTypes.isEmpty <;> cases o.exclusions.isEmpty <;> cases o.maxFindings <;>
    cases o.timeout <;> rfl

/-- Exclusions that are texts can be extended, and are texts then. -/
theorem ScanOptions.exclusionsAfter_texts {v : Value} (hv : v.IsTexts) :
    RefusesOnly q (o.exclusionsAfter v) ∧
      ∀ u, o.exclusionsAfter v = .ok u → u.IsTexts := by
  unfold exclusionsAfter
  by_cases hnone : o.exclusions.isEmpty = true
  · simp only [hnone, if_true]
    refine ⟨refusesOnly_ok v, fun u hu => ?_⟩
    obtain rfl := Except.ok.inj hu
    exact hv
  · simp only [hnone]
    refine ⟨Settings.refusesOnly_extended fun hlist => ?_,
      fun u hu => Settings.isTexts_of_extended hv hu⟩
    obtain ⟨items, rfl⟩ := hv
    exact (hlist _ rfl).elim

/-- Options can be put over settings of the kinds that are meant. -/
theorem ScanOptions.refusesOnly_override (h : s.HasKinds) : RefusesOnly q (o.override s) := by
  have hexclusions := (Settings.forall_lists_iff.mp h.lists).2.1
  rw [override_eq]
  exact (exclusionsAfter_texts hexclusions).1.map

/-- Settings have lists of texts, and the check can compare what they have, and quote it. -/
structure IsReady (s : Settings) : Prop where
  lists : ∀ v ∈ s.lists, v.IsTexts
  comparable : s.IsComparable
  named : ∀ v ∈ s.named, v.isWritable = true

/-- Settings of the kinds that are meant are ready for the check with the options over them. -/
theorem IsReady.of_override {loaded : Settings} (h : loaded.HasKinds)
    (hs : o.override loaded = .ok s) : IsReady s := by
  rw [ScanOptions.override_eq] at hs
  obtain ⟨exclusions, hexclusions, rfl⟩ := map_eq_ok_iff.mp hs
  obtain ⟨htypes, hloaded, hothers⟩ := Settings.forall_lists_iff.mp h.lists
  have htypes : (o.appliedTo loaded exclusions).scan.scanTypes.IsTexts := by
    unfold ScanOptions.appliedTo
    by_cases hnone : o.scanTypes.isEmpty = true
    · simpa only [hnone, if_true] using htypes
    · simp only [hnone]
      exact ⟨_, rfl⟩
  have hexclusions :=
    (ScanOptions.exclusionsAfter_texts (q := fun _ => True) hloaded).2 _ hexclusions
  have hcomparable := h.isComparable
  have hoption : ∀ (option : Option String) (change : String → String) (v : Value),
      v.isWritable = true →
        ((option.map fun s => Value.text (change s)).getD v).isWritable = true := by
    intro option change v hv
    cases option with
    | none => exact hv
    | some _ => rfl
  obtain ⟨hthreshold, hfailOn, hformat⟩ := Settings.forall_named_iff.mp h.named
  refine ⟨Settings.forall_lists_iff.mpr ⟨htypes, hexclusions, hothers⟩,
    ⟨.inl htypes, ?_, ?_, hcomparable.counts⟩, Settings.forall_named_iff.mpr ⟨?_, ?_, ?_⟩⟩
  · unfold ScanOptions.appliedTo
    cases o.maxFindings with
    | none => exact hcomparable.maxFindings
    | some n => exact .inr ⟨.int n, rfl⟩
  · unfold ScanOptions.appliedTo
    cases o.timeout with
    | none => exact hcomparable.timeout
    | some x => exact .inr ⟨.float x, rfl⟩
  · exact hoption _ Text.lower _ hthreshold
  · exact hoption _ Text.lower _ hfailOn
  · exact hoption _ id _ hformat

/-! ## What a scan is given -/

theorem lifted_eq_ok_iff {π α : Type} {f : π → Problem} {x : Except (Fault π) α} {r : α} :
    lifted f x = .ok r ↔ x = .ok r := by
  cases x with
  | ok _ => simp [lifted]
  | error _ => simp [lifted]

theorem refusesOnly_lifted {π α : Type} {f : π → Problem} {x : Except (Fault π) α}
    (h : RefusesOnly q x) : RefusesOnly q (lifted f x) := by
  intro r hr
  rcases x with ⟨refusal | p⟩ | a
  · cases hr
    exact h r rfl
  · cases hr
  · cases hr

/-- The project that is scanned. -/
def projectOf (w : Workplace) (o : ScanOptions) : Project :=
  ⟨w.tree, projectRoot w o⟩

/-- A scan works with settings: what is loaded for the project with the options over it, if that
passes the check. -/
def ScansWith (w : Workplace) (o : ScanOptions) (s : Settings) : Prop :=
  ∃ loaded, Settings.load w.tree w.environment (projectRoot w o) o.config = .ok loaded ∧
    o.override loaded = .ok s ∧ s.Accepted

theorem ScansWith.accepted (h : ScansWith w o s) : s.Accepted := by
  obtain ⟨-, -, -, haccepted⟩ := h
  exact haccepted

/-- A scan is prepared with the settings that it works with and with the catalog of the project. -/
theorem prepareScan_eq_ok_iff :
    prepareScan w o (projectRoot w o) = .ok (s, c) ↔
      ScansWith w o s ∧ Catalog.ofSettings s (some (projectOf w o)) = .ok c := by
  simp only [prepareScan, settingsOf, catalogOf, bind_eq_ok_iff, pure_eq_ok_iff, lifted_eq_ok_iff,
    ScansWith, ← Settings.check_eq_ok_iff]
  constructor
  · intro h
    obtain ⟨loaded, hloaded, s', hs, _, hcheck, c', hc, hpair⟩ := h
    obtain ⟨rfl, rfl⟩ := Prod.mk.inj hpair
    exact ⟨⟨loaded, hloaded, hs, hcheck⟩, hc⟩
  · intro h
    obtain ⟨⟨loaded, hloaded, hs, hcheck⟩, hc⟩ := h
    exact ⟨loaded, hloaded, s, hs, (), hcheck, c, hc, rfl⟩

/-- **What a scan is given is fit**: paths can be followed, the directory of rules can be listed,
files can be read and have values of the kinds that are meant, times are within bounds, the report
can be written where it is wanted, and none of its numbers has too many digits.  And the terminal
takes whatever the scan shows. -/
structure IsFit (takes : Printed → Bool) (w : Workplace) (o : ScanOptions) : Prop where
  settingsFile : Settings.FileConforms w.tree (projectRoot w o) o.config
  environment : Settings.GivesNumber w.environment
  rulesDirectory : ∀ s, ScansWith w o s → s.rules.customDir.IsText
  foundRules : ∀ s, ScansWith w o s →
    CatalogBuilder.HasRuleFiles w.tree ((projectOf w o).rulesDirectory s)
  ruleFiles : ∀ s, ScansWith w o s →
    ∀ path ∈ CatalogBuilder.ruleFiles w.tree ((projectOf w o).rulesDirectory s),
      CatalogBuilder.IsProperFile w.tree path
  policyFiles : ∃ files, Iam.allFilesOf w.tree (o.policies.map Path.ofString) = .ok files ∧
    ∀ path ∈ files, ¬ Iam.HasLongNumber w.tree path
  policyAge : ∀ s, ScansWith w o s → Audit.TellsStale s
  timeout : ∀ s, ScansWith w o s → Audit.CanWait s.scan.timeout
  output : ∀ name, said o.output = some name →
    ∀ bytes, ∃ t, w.tree.write (Path.ofString name) bytes = .ok t
  numbers : ∀ s a request report, Reports w o s a request report → report.HasShortNumbers
  terminal : ∀ e, runScan w o = .ok e → ∀ p ∈ e.printed, takes p = true

namespace IsFit

variable (h : IsFit takes w o)
include h

/-- What is loaded is of the kinds that are meant. -/
theorem hasKinds {loaded : Settings}
    (hloaded : Settings.load w.tree w.environment (projectRoot w o) o.config = .ok loaded) :
    loaded.HasKinds :=
  Settings.hasKinds_gathered h.settingsFile h.environment (Settings.load_eq_ok_iff.mp hloaded).1

/-- The settings that a scan works with have lists of texts. -/
theorem isReady (hs : ScansWith w o s) : IsReady s := by
  obtain ⟨loaded, hloaded, hoverride, -⟩ := hs
  exact .of_override (h.hasKinds hloaded) hoverride

/-- The catalog of a scan is not refused. -/
theorem refusesOnly_catalog (hs : ScansWith w o s) :
    RefusesOnly q (Catalog.ofSettings s (some (projectOf w o))) :=
  Catalog.refusesOnly_ofSettings (h.rulesDirectory s hs) (h.foundRules s hs)
    (fun path hpath r => (h.ruleFiles s hs path hpath).not_refuses r) (h.isReady hs).lists

/-- A scan is prepared, or there is a problem with its settings or its rules. -/
theorem refusesOnly_prepareScan : RefusesOnly q (prepareScan w o (projectRoot w o)) := by
  have hload : RefusesOnly q (settingsOf w (projectRoot w o) o.config) :=
    refusesOnly_lifted <| Settings.refusesOnly_load.mono fun r hr =>
      (Settings.not_loadRefuses h.settingsFile h.environment r hr).elim
  refine hload.bind fun loaded hloaded => ?_
  have hloaded := lifted_eq_ok_iff.mp hloaded
  have hkinds := h.hasKinds hloaded
  refine (refusesOnly_lifted (ScanOptions.refusesOnly_override hkinds)).bind fun s hs => ?_
  have hs := lifted_eq_ok_iff.mp hs
  have hready := IsReady.of_override hkinds hs
  refine RefusesOnly.bind (refusesOnly_lifted (Settings.refusesOnly_check.mono fun r hr => ?_))
    fun _ hcheck => ?_
  · obtain ⟨-, hincomparable⟩ | ⟨-, v, hv, hlong⟩ := hr
    · exact (hincomparable hready.comparable).elim
    · cases (hready.named v hv).symm.trans hlong
  have haccepted := Settings.check_eq_ok_iff.mp (lifted_eq_ok_iff.mp hcheck)
  exact (refusesOnly_lifted (h.refusesOnly_catalog ⟨loaded, hloaded, hs, haccepted⟩)).bind
    fun _ _ => refusesOnly_ok _

/-- What a scan looks at can be told. -/
theorem exists_request (hpath : w.tree.exists_ (Path.ofString o.path) = .ok true) :
    ∃ request, requestOf w o = .ok request := by
  obtain ⟨collected, hcollected⟩ := Audit.exists_collect hpath
  obtain ⟨files, hfiles, hshort⟩ := h.policyFiles
  obtain ⟨loaded, hloaded⟩ := Iam.exists_loadFiles hshort
  simp only [requestOf, Iam.load, hcollected, hfiles, hloaded, bind, Except.bind]
  exact ⟨_, rfl⟩

/-- A report that is made of texts and of short numbers is made public, and the scan ends. -/
theorem exists_conclude {failOn : String} (hfailOn : s.scan.failOn = .text failOn)
    (hreport : report.IsTextual) (hshort : report.HasShortNumbers) :
    ∃ e, conclude w o s report = .ok e := by
  obtain ⟨text, htext⟩ := hreport.exists_text hshort failOn
  obtain ⟨shown, hshown⟩ : ∃ shown, shownBy s report = .ok shown := by
    unfold shownBy
    rw [hfailOn]
    split
    · exact hreport.exists_shown failOn _
    · exact ⟨_, rfl⟩
  obtain ⟨output, houtput⟩ : ∃ output, outputBy s report = .ok output := by
    unfold outputBy
    rw [hfailOn, htext]
    split <;> exact ⟨_, rfl⟩
  obtain ⟨forFile, hforFile⟩ : ∃ forFile, textFor o s report = .ok forFile := by
    unfold textFor
    rw [hfailOn, htext]
    split <;> exact ⟨_, rfl⟩
  obtain ⟨⟨file, more⟩, hfile⟩ : ∃ file, written w o forFile = .ok file := by
    unfold written
    cases hname : said o.output with
    | none => exact ⟨_, rfl⟩
    | some name =>
        obtain ⟨t, ht⟩ := h.output name hname (Text.utf8Bytes forFile.toList)
        simp only [ht]
        exact ⟨_, rfl⟩
  obtain ⟨code, hcode, -⟩ := report.codeOf_text failOn
  rw [← hfailOn] at hcode
  exact ⟨_, conclude_eq_ok_iff.mpr
    ⟨shown, output, forFile, file, more, code, hshown, houtput, hforFile, hfile, hcode, rfl⟩⟩

end IsFit

/-! ## How a scan ends -/

/-- A scan gets to a report with a finding that reaches the level on which scans fail. -/
def Fails (w : Workplace) (o : ScanOptions) : Prop :=
  ∃ s a request report failOn, Reports w o s a request report ∧
    s.scan.failOn = .text failOn ∧ report.FailsAt failOn

/-- A scan gets to a report. -/
def GetsToReport (w : Workplace) (o : ScanOptions) : Prop :=
  ∃ s a request report, Reports w o s a request report

/-- The policies that a scan looks at can be named. -/
theorem canBeNamed_of_requestOf (h : requestOf w o = .ok request) :
    ∀ p ∈ request.policies, p.canBeNamed = true := by
  obtain ⟨collected, -, h⟩ := bind_eq_ok_iff.mp h
  obtain ⟨loaded, hloaded, h⟩ := bind_eq_ok_iff.mp h
  obtain ⟨files, -, hloaded⟩ := bind_eq_ok_iff.mp hloaded
  obtain rfl := pure_eq_ok_iff.mp h
  refine List.forall_mem_map.mpr fun doc hdoc => ?_
  exact PolicySource.canBeNamed_of_isJson (Iam.isJson_of_loadFiles hloaded doc hdoc)

/-- The audit of a scan is put together from settings that pass the check. -/
theorem ofSettings_of_scansWith (hs : ScansWith w o s) (ha : Audit.assemble s c w.now = .ok a) :
    Audit.ofSettings s c w.now = .ok a := by
  obtain ⟨-, -, -, haccepted⟩ := hs
  rw [Audit.ofSettings, Settings.check_eq_ok_iff.mpr haccepted, ha]
  rfl

/-- A scan that gets to a report and comes to its end makes the report public, and its code says
whether the report fails. -/
theorem Reports.ends {e : Ending} (h : Reports w o s a request report)
    (hwords : Command.ofWords? words = some (.scan o)) (hends : run w words = .ok e) :
    Presents s report e ∧ ∃ failOn, s.scan.failOn = .text failOn ∧
      (e.code = 0 ∨ e.code = 1) ∧ (e.code = 1 ↔ report.FailsAt failOn) := by
  obtain ⟨failOn, -, hfailOn⟩ := h.exists_levels
  obtain ⟨before, hrun⟩ := h.run_eq hwords
  obtain ⟨e', hconclude, rfl⟩ := map_eq_ok_iff.mp (hrun.symm.trans hends)
  obtain ⟨hcode, hpresents⟩ := conclude_presents hconclude
  obtain ⟨code, hcode', hvalues, hfails⟩ := report.codeOf_text failOn
  rw [hfailOn] at hcode
  obtain rfl : code = e'.code := Except.ok.inj (hcode'.symm.trans hcode)
  exact ⟨hpresents.after before, failOn, hfailOn, hvalues, hfails⟩

/-- A scan that comes to its end without a report ends with two. -/
theorem code_of_no_report {e : Ending} (hwords : Command.ofWords? words = some (.scan o))
    (hpath : w.tree.exists_ (Path.ofString o.path) = .ok true) (hends : run w words = .ok e)
    (hnone : ¬ GetsToReport w o) : e.code = 2 := by
  rw [run, hwords] at hends
  simp only [runCommand, runScan_eq hpath] at hends
  unfold withPrepared at hends
  split at hends
  · rename_i prepared hprepared
    obtain ⟨s, c⟩ := prepared
    obtain ⟨e', hrunPrepared, rfl⟩ := map_eq_ok_iff.mp hends
    simp only [runPrepared, bind_eq_ok_iff] at hrunPrepared
    obtain ⟨request, hrequest, a, ha, hrun⟩ := hrunPrepared
    split at hrun
    · rename_i report hran
      exact (hnone ⟨s, a, request, report, hpath, ⟨c, hprepared, ha⟩, hrequest, hran⟩).elim
    · obtain rfl := pure_eq_ok_iff.mp hrun
      rfl
    · cases hrun
  · obtain rfl := Except.ok.inj hends
    rfl
  · cases hends

/-- What has been prepared for a scan is run to its end. -/
theorem IsFit.exists_runPrepared (hfit : IsFit takes w o)
    (hpath : w.tree.exists_ (Path.ofString o.path) = .ok true) (hs : ScansWith w o s)
    (hc : Catalog.ofSettings s (some (projectOf w o)) = .ok c) :
    ∃ e, runPrepared w o s c = .ok e := by
  have hlists := (hfit.isReady hs).lists
  have hexclusions := (Settings.forall_lists_iff.mp hlists).2.1
  have hgives : (projectOf w o).GivesTexts s :=
    Project.givesTexts_of_proper (hfit.ruleFiles s hs)
  have htextual := Catalog.isTextual_of_ofSettings hgives hc
  obtain ⟨request, hrequest⟩ := hfit.exists_request hpath
  obtain ⟨a, hassembled⟩ :=
    Audit.exists_assemble hs.accepted hlists (hfit.policyAge s hs) c w.now
  have ha := ofSettings_of_scansWith hs hassembled
  unfold runPrepared
  simp only [hrequest, hassembled, bind, Except.bind]
  obtain ⟨p, hp⟩ | ⟨report, hreport⟩ := problem_or_ok <|
    Audit.refusesOnly_run ha htextual hexclusions (hfit.timeout s hs) w.occasion
      (canBeNamed_of_requestOf hrequest)
  · rw [hp]
    exact ⟨_, rfl⟩
  · rw [hreport]
    obtain ⟨level, -, hfailOn⟩ := hs.accepted.failOn
    have hreports : Reports w o s a request report :=
      ⟨hpath, ⟨c, prepareScan_eq_ok_iff.mpr ⟨hs, hc⟩, hassembled⟩, hrequest, hreport⟩
    exact hfit.exists_conclude hfailOn (Audit.run_isTextual ha htextual hreport)
      (hfit.numbers s a request report hreports)

/-- **A scan comes to its end when what it is given is fit.** -/
theorem IsFit.exists_ending (hfit : IsFit takes w o)
    (hwords : Command.ofWords? words = some (.scan o))
    (hpath : w.tree.exists_ (Path.ofString o.path) = .ok true) : ∃ e, run w words = .ok e := by
  rw [run, hwords]
  simp only [runCommand, runScan_eq hpath]
  obtain ⟨p, hp⟩ | ⟨⟨s, c⟩, hprepared⟩ := problem_or_ok hfit.refusesOnly_prepareScan
  · rw [hp]
    exact ⟨_, rfl⟩
  · obtain ⟨hs, hc⟩ := prepareScan_eq_ok_iff.mp hprepared
    obtain ⟨e, he⟩ := hfit.exists_runPrepared hpath hs hc
    rw [hprepared]
    refine ⟨e.after (introduction o s c), ?_⟩
    simp only [withPrepared, he]
    rfl

/-- What a command leads to is not shown: a value is refused before its end, or the terminal does
not take something that is shown at its end. -/
def BreaksOff (takes : Printed → Bool) (result : Except Refusal Ending) : Prop :=
  ∀ e, result = .ok e → ∃ p ∈ e.printed, takes p = false

/-- The exit status is one for a command that breaks off, and for any other it is the code. -/
theorem exitStatus_eq_iff {result : Except Refusal Ending} {n : Nat} :
    exitStatus takes result = n ↔
      (BreaksOff takes result ∧ n = 1) ∨
        ¬ BreaksOff takes result ∧ ∃ e, result = .ok e ∧ e.code = n := by
  cases result with
  | error r =>
      have hbreaks : BreaksOff takes (.error r) := fun e h => nomatch h
      simp [exitStatus, hbreaks, eq_comm]
  | ok e =>
      have hbreaks : BreaksOff takes (.ok e) ↔ e.printed.all takes = false := by
        simp [BreaksOff]
      rw [hbreaks]
      cases hall : e.printed.all takes <;> simp [exitStatus, hall, eq_comm]

/-- The exit status is one for a report that fails and for a scan that breaks off. -/
theorem exitStatus_eq_one_iff (takes : Printed → Bool)
    (hwords : Command.ofWords? words = some (.scan o))
    (hpath : w.tree.exists_ (Path.ofString o.path) = .ok true) :
    exitStatus takes (run w words) = 1 ↔ Fails w o ∨ BreaksOff takes (run w words) := by
  rw [exitStatus_eq_iff]
  constructor
  · rintro (⟨hbreaks, -⟩ | ⟨-, e, hrun, hcode⟩)
    · exact .inr hbreaks
    · by_cases hgets : GetsToReport w o
      · obtain ⟨s, a, request, report, hreports⟩ := hgets
        obtain ⟨-, failOn, hfailOn, -, hfails⟩ := hreports.ends hwords hrun
        exact .inl ⟨s, a, request, report, failOn, hreports, hfailOn, hfails.mp hcode⟩
      · have htwo := code_of_no_report hwords hpath hrun hgets
        omega
  · intro h
    by_cases hbreaks : BreaksOff takes (run w words)
    · exact .inl ⟨hbreaks, rfl⟩
    · obtain ⟨s, a, request, report, failOn, hreports, hfailOn, hfails⟩ := h.resolve_right hbreaks
      cases hrun : run w words with
      | error r => exact (hbreaks fun e he => nomatch hrun.symm.trans he).elim
      | ok e =>
          obtain ⟨-, failOn', hfailOn', -, hcode⟩ := hreports.ends hwords hrun
          obtain rfl := Value.text.inj (hfailOn.symm.trans hfailOn')
          exact .inr ⟨hrun ▸ hbreaks, e, rfl, hcode.mpr hfails⟩

/-- The exit status is two for a scan that comes to its end without a report. -/
theorem exitStatus_eq_two_iff (takes : Printed → Bool)
    (hwords : Command.ofWords? words = some (.scan o))
    (hpath : w.tree.exists_ (Path.ofString o.path) = .ok true) :
    exitStatus takes (run w words) = 2 ↔
      ¬ GetsToReport w o ∧ ¬ BreaksOff takes (run w words) := by
  rw [exitStatus_eq_iff]
  constructor
  · rintro (⟨-, hcode⟩ | ⟨hbreaks, e, hrun, hcode⟩)
    · cases hcode
    · refine ⟨?_, hbreaks⟩
      rintro ⟨s, a, request, report, hreports⟩
      obtain ⟨-, _, -, hvalues, -⟩ := hreports.ends hwords hrun
      omega
  · rintro ⟨hnone, hbreaks⟩
    cases hrun : run w words with
    | error r => exact (hbreaks fun e he => nomatch hrun.symm.trans he).elim
    | ok e => exact .inr ⟨hrun ▸ hbreaks, e, rfl, code_of_no_report hwords hpath hrun hnone⟩

/-- A scan does not break off when what it is given is fit. -/
theorem IsFit.not_breaksOff (hfit : IsFit takes w o)
    (hwords : Command.ofWords? words = some (.scan o))
    (hpath : w.tree.exists_ (Path.ofString o.path) = .ok true) :
    ¬ BreaksOff takes (run w words) := by
  intro hbreaks
  obtain ⟨e, hends⟩ := hfit.exists_ending hwords hpath
  obtain ⟨p, hp, hnot⟩ := hbreaks e hends
  have hscan : run w words = runScan w o := by
    rw [run, hwords]
    rfl
  cases (hfit.terminal e (hscan.symm.trans hends) p hp).symm.trans hnot

/-- **What the exit status of a scan means.**  Let the path be there.  The exit status is one when
there is a report with a finding that reaches the level on which scans fail, and also when a value
is refused before the scan comes to its end or the terminal does not take what is shown then;
nothing else leads to it.  It is two when the scan comes to its end without a report.  A report that
there is at the end has been made public as it was asked for.

If what the scan is given is fit, the scan does not break off: one is for findings alone then, and
two for whatever keeps the scan from a report. -/
theorem exitStatus_scan (takes : Printed → Bool)
    (hwords : Command.ofWords? words = some (.scan o))
    (hpath : w.tree.exists_ (Path.ofString o.path) = .ok true) :
    (exitStatus takes (run w words) = 1 ↔
      Fails w o ∨ (∃ r, run w words = .error r) ∨
        ∃ e, run w words = .ok e ∧ ∃ p ∈ e.printed, takes p = false) ∧
    (exitStatus takes (run w words) = 2 ↔
      ¬ GetsToReport w o ∧ ∃ e, run w words = .ok e ∧ ∀ p ∈ e.printed, takes p = true) ∧
    (∀ s a request report e, Reports w o s a request report → run w words = .ok e →
      Presents s report e) ∧
    (IsFit takes w o → (∃ e, run w words = .ok e) ∧
      (exitStatus takes (run w words) = 1 ↔ Fails w o) ∧
      (exitStatus takes (run w words) = 2 ↔ ¬ GetsToReport w o)) := by
  have hone := exitStatus_eq_one_iff takes hwords hpath
  have htwo := exitStatus_eq_two_iff takes hwords hpath
  refine ⟨?_, ?_, fun s a request report e hreports hends => ?_, fun hfit => ?_⟩
  · rw [hone]
    cases run w words <;> simp [BreaksOff]
  · rw [htwo]
    cases run w words <;> simp [BreaksOff]
  · exact (hreports.ends hwords hends).1
  · have hends := hfit.not_breaksOff hwords hpath
    exact ⟨hfit.exists_ending hwords hpath, hone.trans (or_iff_left hends),
      htwo.trans (and_iff_left hends)⟩

theorem hasFile_policyOptions : openDesk.tree.hasFile
    (Settings.placeOf (projectRoot openDesk policyOptions) policyOptions.config) = .ok false :=
  rfl

theorem findFile_policyOptions : Settings.findFile openDesk.tree
    (projectRoot openDesk policyOptions) policyOptions.config = .ok none := by
  rw [Settings.findFile, hasFile_policyOptions]
  rfl

/-- Nothing but the options says with which settings that scan works. -/
theorem eq_of_scansWith_policyOptions (hs : ScansWith openDesk policyOptions s) :
    s = policyOptions.appliedTo {} (.list []) := by
  obtain ⟨loaded, hloaded, hoverride, -⟩ := hs
  have hgathered := (Settings.load_eq_ok_iff.mp hloaded).1
  rw [Settings.gathered, findFile_policyOptions] at hgathered
  obtain rfl := Except.ok.inj hgathered
  exact (Except.ok.inj hoverride).symm

/-- The numbers in the report of that scan are short. -/
theorem hasShortNumbers_policyOptions
    (h : Reports openDesk policyOptions s a request report) : report.HasShortNumbers := by
  have hshort : ((prepareScan openDesk policyOptions
      (projectRoot openDesk policyOptions)).toOption.all fun p =>
        (Audit.assemble p.1 p.2 openDesk.now).toOption.all fun a =>
          (requestOf openDesk policyOptions).toOption.all fun request =>
            (a.run openDesk.occasion request).toOption.all fun report =>
              report.entries.all fun e => e.2.isWritable) = true := by
    simp only [Audit.run, Report.aggregate, Finding.sorted, Report.sortedSuppressions,
      Audit.circumstances, Sorting.mergeSort_eq_sortWithin]
    decide +kernel
  obtain ⟨-, ⟨c, hprepared, hassembled⟩, hrequest, hran⟩ := h
  simp only [hprepared, hassembled, hrequest, hran, Except.toOption, Option.all_some] at hshort
  exact List.all_eq_true.mp hshort

/-- What the scan of the policy that grants everything is given is fit, on a terminal that takes
everything. -/
theorem isFit_policyOptions : IsFit (fun _ => true) openDesk policyOptions := by
  have hnofile : ∀ path, Settings.findFile openDesk.tree (projectRoot openDesk policyOptions)
      policyOptions.config ≠ .ok (some path) := by
    intro path h
    rw [findFile_policyOptions] at h
    cases h
  have hsettings : ∀ s, ScansWith openDesk policyOptions s →
      s = policyOptions.appliedTo {} (.list []) := fun _ => eq_of_scansWith_policyOptions
  constructor
  case settingsFile =>
    exact ⟨⟨false, hasFile_policyOptions⟩, fun path h => (hnofile path h).elim,
      fun path h => (hnofile path h).elim⟩
  case environment =>
    intro value x hvalue
    cases hvalue
  case rulesDirectory =>
    intro s hs
    rw [hsettings s hs]
    exact ⟨_, rfl⟩
  case foundRules =>
    intro s hs
    rw [hsettings s hs]
    exact ⟨_, rfl⟩
  case ruleFiles =>
    intro s hs
    have hempty : CatalogBuilder.ruleFiles openDesk.tree
        ((projectOf openDesk policyOptions).rulesDirectory
          (policyOptions.appliedTo {} (.list []))) = [] := by
      apply List.isEmpty_iff.mp
      decide +kernel
    rw [hsettings s hs, hempty]
    exact List.forall_mem_nil _
  case policyFiles =>
    have hfiles : Iam.allFilesOf openDesk.tree (policyOptions.policies.map Path.ofString) =
        .ok [Path.ofString "admin.json"] := rfl
    have hread : ∀ path ∈ [Path.ofString "admin.json"],
        (Iam.readFile openDesk.tree path).toOption.isSome = true := by
      decide +kernel
    refine ⟨_, hfiles, fun path hpath => ?_⟩
    apply Iam.exists_readFile_iff.mp
    cases hv : Iam.readFile openDesk.tree path with
    | ok v => exact ⟨v, rfl⟩
    | error e =>
        have hsome := hread path hpath
        rw [hv] at hsome
        cases hsome
  case policyAge =>
    intro s hs _
    rw [hsettings s hs]
    exact ⟨_, rfl⟩
  case timeout =>
    intro s hs t ht
    rw [hsettings s hs] at ht
    obtain rfl := Option.some.inj ht
    decide +kernel
  case output =>
    intro name hname
    cases hname
  case numbers => exact fun _ _ _ _ => hasShortNumbers_policyOptions
  case terminal => exact fun _ _ _ _ => rfl

/-- The scan of the policy ends with one because of what is found in it. -/
theorem exitStatus_scan_open :
    IsFit (fun _ => true) openDesk policyOptions ∧ Fails openDesk policyOptions ∧
      exitStatus (fun _ => true)
        (run openDesk ["scan", "admin.json", "-p", "admin.json", "-t", "iam"]) = 1 := by
  have hwords : Command.ofWords? ["scan", "admin.json", "-p", "admin.json", "-t", "iam"] =
      some (.scan policyOptions) := rfl
  have hpath : openDesk.tree.exists_ (Path.ofString policyOptions.path) = .ok true := rfl
  have hcode : exitStatus (fun _ => true)
      (run openDesk ["scan", "admin.json", "-p", "admin.json", "-t", "iam"]) = 1 := by
    rw [run, hwords]
    simp only [runCommand, runScan, runPrepared, Audit.run, Report.aggregate, Finding.sorted,
      Report.sortedSuppressions, Audit.circumstances, Sorting.mergeSort_eq_sortWithin]
    decide +kernel
  obtain ⟨-, -, -, hfit⟩ := exitStatus_scan (fun _ => true) hwords hpath
  obtain ⟨-, hone, -⟩ := hfit isFit_policyOptions
  exact ⟨isFit_policyOptions, hone.mp hcode, hcode⟩

/-- A working directory with a project whose settings are no text. -/
def illegibleDesk : Workplace where
  tree := {
    root := .directory [("p", .directory [(Settings.fileName,
      .file (Text.utf8Bytes "[scan]\n".toList ++ [255]))])] }
  now := ⟨0, some 0⟩
  occasion := { id := "1" }

/-- Settings that are no text end a scan with one, whatever the terminal takes, and there is no
report. -/
theorem exitStatus_illegible :
    Command.ofWords? ["scan", "p"] = some (.scan { path := "p" }) ∧
      illegibleDesk.tree.exists_ (Path.ofString "p") = .ok true ∧
      (∀ takes, exitStatus takes (run illegibleDesk ["scan", "p"]) = 1) ∧
      ¬ Fails illegibleDesk { path := "p" } := by
  have hnone : (prepareScan illegibleDesk { path := "p" }
      (projectRoot illegibleDesk { path := "p" })).toOption.isSome = false := by
    decide +kernel
  have hprepared : ∀ p, prepareScan illegibleDesk { path := "p" }
      (projectRoot illegibleDesk { path := "p" }) ≠ .ok p := by
    intro p hp
    rw [hp] at hnone
    cases hnone
  have hrefused : (run illegibleDesk ["scan", "p"]).toOption.isSome = false := by
    decide +kernel
  refine ⟨rfl, rfl, fun takes => ?_, ?_⟩
  · cases hrun : run illegibleDesk ["scan", "p"] with
    | error r => rfl
    | ok e =>
        rw [hrun] at hrefused
        cases hrefused
  intro hfails
  obtain ⟨s, a, request, report, failOn, hreports, -⟩ := hfails
  obtain ⟨c, hok, -⟩ := hreports.prepared
  exact hprepared _ hok

end Cli

end SecurityAudit
