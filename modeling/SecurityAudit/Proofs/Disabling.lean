import Mathlib.Data.List.Flatten
import SecurityAudit.Proofs.Limit
import SecurityAudit.Proofs.Omission
import SecurityAudit.Rule.Builtin

/-!
# Disabling a rule takes away what it finds

When one more id is disabled, the catalog lacks the rules and the secret patterns of that id, and
has all others as before.  Each rule is run on a file on its own, and so is each pattern, so what is
found in a file lacks the findings that go by the id, and has all others as before.
-/

namespace SecurityAudit

/-- The settings with some disabled ids in the place of those that they have. -/
def Settings.withDisabled (s : Settings) (ids : List Value) : Settings :=
  { s with rules := { s.rules with disable := .list ids } }

/-- An id is in force: it is not disabled, and if some ids are enabled, it is one of them. -/
structure Settings.IsInForce (s : Settings) (id : Value) : Prop where
  not_disabled : ∀ ids, s.rules.disable.elements? = some ids → id.isAmong ids = false
  enabled : ∀ ids, s.rules.enable.elements? = some ids → ids ≠ [] → id.isAmong ids = true

/-- The catalog without the rules and the secret patterns of an id. -/
def Catalog.without (c : Catalog) (id : Value) : Catalog where
  rules := c.rules.filter fun r => !r.id.isAmong [id]
  secrets := c.secrets.filter fun p => !p.id.isAmong [id]
  actions := c.actions

/-- A search for secrets without the patterns of an id. -/
def Detect.SecretScan.without (scan : Detect.SecretScan) (id : Value) : Detect.SecretScan :=
  { scan with patterns := scan.patterns.filter fun p => !p.id.isAmong [id] }

/-- What runs on files, without the rules and the secret patterns of an id. -/
def FileDetector.without (id : Value) : FileDetector → FileDetector
  | .vulnerabilities rules cap =>
    .vulnerabilities (rules.filter fun r => !r.id.isAmong [id]) cap
  | .secrets scan => .secrets (scan.without id)

/-- What has been found, without the findings and the suppressions that go by an id. -/
def Found.without (found : Found) (id : Value) : Found where
  findings := found.findings.filter fun x => !x.ruleId.isAmong [id]
  suppressed := found.suppressed.filter fun s => !s.rule.isAmong [id]

/-! ## The catalog -/

namespace CatalogBuilder

variable {before after : List Value} {id : Value}

/-- With one more disabled id, that id is not in force, and the others are as before. -/
theorem isEnabled_disable (b : CatalogBuilder) (x : Value) :
    ({ b with disable := before ++ id :: after } : CatalogBuilder).isEnabled x =
      (({ b with disable := before ++ after } : CatalogBuilder).isEnabled x &&
        !x.isAmong [id]) := by
  simp only [isEnabled, Value.isAmong, List.any_append, List.any_cons, List.any_nil,
    Bool.or_false]
  cases before.any (·.isFoundAs x) <;> cases id.isFoundAs x <;> cases after.any (·.isFoundAs x) <;>
    simp

/-- With one more disabled id, a catalog lacks what has that id. -/
theorem build_disable (b : CatalogBuilder) :
    ({ b with disable := before ++ id :: after } : CatalogBuilder).build =
      ({ b with disable := before ++ after } : CatalogBuilder).build.without id := by
  simp only [build, Catalog.without, isEnabled_disable, List.filter_filter, Bool.and_comm]

theorem itemsOf_eq_ok_iff {v : Value} {items : List Value} :
    itemsOf v = .ok items ↔ v.elements? = some items :=
  orRefuse_eq_ok_iff

/-- Load the custom rules of a project, if there is one. -/
def load (s : Settings) : Option Project → Step Unit
  | none => pure ()
  | some p => loadCustom s p

/-- A catalog is built from the rules that have been loaded, by the choice of the settings. -/
theorem ofSettings_eq (s : Settings) (ids : List Value) (project : Option Project) :
    Catalog.ofSettings (s.withDisabled ids) project =
      match (load s project).run.run Builtin.builder with
      | (.error f, _) => .error f
      | (.ok (), b) => do
        let enable ← itemsOf s.rules.enable
        let actions ← itemsOf s.iam.extraDangerousActions
        return ({ b with
          enable
          disable := ids
          actions := withActions b.actions actions } : CatalogBuilder).build := by
  have hprepare : prepare (s.withDisabled ids) project =
      load s project >>= fun _ => applySettings (s.withDisabled ids) := by
    cases project <;> rfl
  have henable : itemsOf (s.withDisabled ids).rules.enable = itemsOf s.rules.enable := rfl
  have hactions : itemsOf (s.withDisabled ids).iam.extraDangerousActions =
      itemsOf s.iam.extraDangerousActions := rfl
  rw [Catalog.ofSettings, hprepare]
  simp only [ExceptT.run_bind, StateT.run_bind, applySettings, addActions, henable, hactions]
  obtain ⟨result, b⟩ := (load s project).run.run Builtin.builder
  cases result with
  | error f => rfl
  | ok =>
      cases itemsOf s.rules.enable with
      | error f => rfl
      | ok enable => cases itemsOf s.iam.extraDangerousActions <;> rfl

/-- With one more disabled id, the catalog of a project lacks what has that id. -/
theorem ofSettings_disable (s : Settings) (before after : List Value) (id : Value)
    (project : Option Project) :
    Catalog.ofSettings (s.withDisabled (before ++ id :: after)) project =
      (Catalog.ofSettings (s.withDisabled (before ++ after)) project).map (·.without id) := by
  rw [ofSettings_eq, ofSettings_eq]
  obtain ⟨result, b⟩ := (load s project).run.run Builtin.builder
  cases result with
  | error f => rfl
  | ok =>
      cases itemsOf s.rules.enable with
      | error f => rfl
      | ok enable =>
          cases itemsOf s.iam.extraDangerousActions with
          | error f => rfl
          | ok actions =>
              exact congrArg Except.ok (build_disable
                { b with enable, actions := withActions b.actions actions })

/-- What is in a catalog is in force. -/
theorem isInForce_of_ofSettings {s : Settings} {ids : List Value} {project : Option Project}
    {c : Catalog} (h : Catalog.ofSettings (s.withDisabled ids) project = .ok c) :
    (∀ r ∈ c.rules, (s.withDisabled ids).IsInForce r.id) ∧
      ∀ p ∈ c.secrets, (s.withDisabled ids).IsInForce p.id := by
  rw [ofSettings_eq] at h
  generalize (load s project).run.run Builtin.builder = loaded at h
  obtain ⟨result, b⟩ := loaded
  cases result with
  | error f => cases h
  | ok =>
      simp only [bind_eq_ok_iff, pure_eq_ok_iff, itemsOf_eq_ok_iff] at h
      obtain ⟨enable, henable, actions, -, rfl⟩ := h
      have hchoice (id : Value) (hid : ({ b with
          enable
          disable := ids
          actions := withActions b.actions actions } : CatalogBuilder).isEnabled id = true) :
          (s.withDisabled ids).IsInForce id := by
        simp only [isEnabled, Bool.and_eq_true, Bool.not_eq_true', Bool.or_eq_true,
          List.isEmpty_iff] at hid
        refine ⟨fun items hitems => ?_, fun items hitems hsome => ?_⟩
        · obtain rfl := Option.some.inj hitems
          exact hid.1
        · obtain rfl := Option.some.inj (henable.symm.trans hitems)
          exact hid.2.resolve_left hsome
      exact ⟨fun r hr => hchoice r.id (List.mem_filter.mp hr).2,
        fun p hp => hchoice p.id (List.mem_filter.mp hp).2⟩

end CatalogBuilder

/-! ## What is found in a file -/

/-- If each item has answers that are all kept or all left out, leaving out items leaves out their
answers. -/
theorem mapM_filter {ε α β : Type} {f : α → Except ε (List β)} {p : α → Bool} {q : β → Bool}
    (h : ∀ a bs, f a = .ok bs → ∀ b ∈ bs, q b = p a) {as : List α} {bss : List (List β)}
    (hall : as.mapM f = .ok bss) :
    ∃ kept, (as.filter p).mapM f = .ok kept ∧ kept.flatten = bss.flatten.filter q := by
  rw [mapM_eq_ok_iff] at hall
  induction hall with
  | nil => exact ⟨[], rfl, rfl⟩
  | @cons a bs _ _ ha _ ih =>
      obtain ⟨kept, hkept, hflatten⟩ := ih
      cases hp : p a with
      | true =>
          have hbs : bs.filter q = bs :=
            List.filter_eq_self.mpr fun b hb => (h a bs ha b hb).trans hp
          refine ⟨bs :: kept, ?_, ?_⟩
          · rw [List.filter_cons_of_pos hp, List.mapM_cons, ha, hkept]
            rfl
          · rw [List.flatten_cons, List.flatten_cons, List.filter_append, hbs, hflatten]
      | false =>
          have hbs : bs.filter q = [] := List.filter_eq_nil_iff.mpr fun b hb => by
            simp [h a bs ha b hb, hp]
          refine ⟨kept, ?_, ?_⟩
          · rwa [List.filter_cons_of_neg (by simp [hp])]
          · rw [List.flatten_cons, List.filter_append, hbs, hflatten, List.nil_append]

namespace Detect

variable {now : Calendar.Moment} {f : SourceFile}

/-- What a rule finds goes by its id. -/
theorem ruleId_of_mem_findings {r : Rule} {path : RawText} {lines : List (List Char)}
    {fs : List Finding} (h : r.findings now path lines = .ok fs) : ∀ x ∈ fs, x.ruleId = r.id := by
  obtain ⟨-, rfl⟩ | ⟨-, -, rfl⟩ := Rule.findings_eq_ok_iff.mp h
  · exact List.forall_mem_nil _
  · exact List.forall_mem_map.mpr fun _ _ => rfl

/-- Without the rules of an id, the findings that go by it are missing. -/
theorem vulnerabilities_without {rules : List Rule} {cap : Value} {fs : List Finding}
    (h : vulnerabilities rules cap now f = .ok fs) (id : Value) :
    vulnerabilities (rules.filter fun r => !r.id.isAmong [id]) cap now f =
      .ok (fs.filter fun x => !x.ruleId.isAmong [id]) := by
  simp only [vulnerabilities, bind_eq_ok_iff, pure_eq_ok_iff] at h ⊢
  obtain ⟨lines, hlines, found, hfound, rfl⟩ := h
  obtain ⟨kept, hkept, hflatten⟩ := mapM_filter (p := fun r => !r.id.isAmong [id])
    (q := fun x => !x.ruleId.isAmong [id])
    (fun r fs hr x hx => by rw [ruleId_of_mem_findings hr x hx]) hfound
  exact ⟨lines, hlines, kept, hkept, hflatten⟩

/-- Without the patterns of an id, the candidates on a line are those of the other patterns. -/
theorem candidatesOn_without (scan : SecretScan) (line : List Char) (id : Value) :
    (scan.without id).candidatesOn line =
      (scan.candidatesOn line).filter fun pc => !pc.1.id.isAmong [id] := by
  have hsame : (scan.without id).skips line = scan.skips line := rfl
  simp only [SecretScan.candidatesOn, hsame]
  split
  · rfl
  · simp only [SecretScan.without, List.filterMap_filter, List.filter_filterMap]
    refine List.filterMap_congr fun p _ => ?_
    cases (candidates p line).head? with
    | none => simp
    | some c => simp [Option.filter_some]

/-- Without the patterns of an id, the findings on a line that go by it are missing. -/
theorem findingsOn_without {scan : SecretScan} {path : RawText} {number : Nat} {line : List Char}
    {fs : List Finding} (h : scan.findingsOn now path number line = .ok fs) (id : Value) :
    (scan.without id).findingsOn now path number line =
      .ok (fs.filter fun x => !x.ruleId.isAmong [id]) := by
  rw [SecretScan.findingsOn_eq_ok_iff, candidatesOn_without] at *
  obtain ⟨hreport, rfl⟩ := h
  refine ⟨fun pc hpc => hreport pc (List.mem_filter.mp hpc).1, ?_⟩
  rw [List.filter_map]
  rfl

/-- Without the patterns of an id, the findings that go by it are missing. -/
theorem SecretScan.run_without {scan : SecretScan} {fs : List Finding}
    (h : scan.run now f = .ok fs) (id : Value) :
    (scan.without id).run now f = .ok (fs.filter fun x => !x.ruleId.isAmong [id]) := by
  have hpath : (scan.without id).skipsPath f.path = scan.skipsPath f.path := rfl
  simp only [run, hpath] at h ⊢
  split at h
  next hskips =>
    obtain rfl := pure_eq_ok_iff.mp h
    rw [if_pos hskips]
    rfl
  next hskips =>
    simp only [bind_eq_ok_iff, pure_eq_ok_iff] at h
    obtain ⟨found, hfound, rfl⟩ := h
    simp only [if_neg hskips, bind_eq_ok_iff, pure_eq_ok_iff]
    refine ⟨found.map (List.filter fun x => !x.ruleId.isAmong [id]), ?_,
      List.filter_flatten.symm⟩
    refine mapM_eq_ok_iff.mpr (List.forall₂_map_right_iff.mpr ?_)
    refine (mapM_eq_ok_iff.mp hfound).imp fun line onLine hon => ?_
    obtain ⟨cut, hcut, hon⟩ := bind_eq_ok_iff.mp hon
    exact bind_eq_ok_iff.mpr ⟨cut, hcut, findingsOn_without hon id⟩

end Detect

/-- What a detector finds without an id is what it finds, without what goes by the id. -/
theorem FileDetector.run_without {d : FileDetector} {now : Calendar.Moment} {f : SourceFile}
    {fs : List Finding} (h : d.run now f = .ok fs) (id : Value) :
    (d.without id).run now f = .ok (fs.filter fun x => !x.ruleId.isAmong [id]) := by
  cases d with
  | vulnerabilities rules cap => exact Detect.vulnerabilities_without h id
  | secrets scan => exact Detect.SecretScan.run_without h id

/-- Findings are suppressed one by one. -/
theorem Found.sift_without {cs : Coverings} {fs : List Finding} {found : Found}
    (h : Found.sift cs fs = .ok found) (id : Value) :
    Found.sift cs (fs.filter fun x => !x.ruleId.isAmong [id]) = .ok (found.without id) := by
  obtain ⟨hchecked, rfl⟩ := sift_eq_ok_iff.mp h
  refine sift_eq_ok_iff.mpr ⟨fun x hx => hchecked x (List.mem_filter.mp hx).1, ?_⟩
  have hrecorded : (fs.filter fun x => !x.ruleId.isAmong [id]).filterMap
      (Suppression.recordOf cs) =
        (fs.filterMap (Suppression.recordOf cs)).filter fun s => !s.rule.isAmong [id] := by
    rw [List.filterMap_filter, List.filter_filterMap]
    refine List.filterMap_congr fun x hx => ?_
    cases hrecord : Suppression.recordOf cs x with
    | none => simp
    | some s =>
        have hrule := (Suppression.check?_eq (hrecord ▸ hchecked x hx)).1
        simp [Option.filter_some, hrule]
  rw [without, hrecorded, List.filter_filter, List.filter_filter]
  simp only [Bool.and_comm]

namespace Audit

variable {a : Audit} {occasion : Occasion} {request : Request}

/-- An audit with other settings, without the rules and the secret patterns of an id. -/
def without (a : Audit) (s : Settings) (id : Value) : Audit :=
  { a with settings := s, detectors := a.detectors.map (FileDetector.without id) }

theorem sifted_without {f : SourceFile} {d : FileDetector} {found : Found}
    (h : a.sifted f d = .ok found) (s : Settings) (id : Value) :
    (a.without s id).sifted f (d.without id) = .ok (found.without id) := by
  simp only [sifted, bind_eq_ok_iff] at h ⊢
  obtain ⟨fs, hfs, hfound⟩ := h
  exact ⟨_, FileDetector.run_without hfs id, Found.sift_without hfound id⟩

theorem joined_map_without (finds : List Found) (id : Value) :
    Found.joined (finds.map (·.without id)) = (Found.joined finds).without id := by
  simp [Found.joined, Found.without, List.flatMap_map, List.filter_flatMap]

/-- What becomes of a target without an id. -/
def trimmed (id : Value) : Target × Outcome → Target × Outcome
  | (.file path content, .scanned found) => (.file path content, .scanned (found.without id))
  | p => p

theorem scan_without {t : Target} {outcome : Outcome} {after : Budget}
    (h : a.scan { limit := none } t = .ok (outcome, after)) (s : Settings) (id : Value) :
    (a.without s id).scan { limit := none } t = .ok ((trimmed id (t, outcome)).2, after) := by
  cases t with
  | file path content =>
      rw [scan_file_eq_ok_iff] at h ⊢
      simp only [scanFile] at h ⊢
      cases hread : SourceFile.read .utf8 path content with
      | error p =>
          rw [hread] at h
          cases h
          rfl
      | ok f =>
          rw [hread] at h
          simp only [scanSource_eq, bind_eq_ok_iff, map_eq_ok_iff, pure_eq_ok_iff] at h ⊢
          obtain ⟨_, ⟨finds, hfinds, rfl⟩, h⟩ := h
          cases h
          refine ⟨_, ⟨finds.map (·.without id), ?_, rfl⟩, ?_⟩
          · refine mapM_eq_ok_iff.mpr (List.forall₂_map_left_iff.mpr
              (List.forall₂_map_right_iff.mpr ?_))
            exact (mapM_eq_ok_iff.mp hfinds).imp fun d found h => sifted_without h s id
          · rw [joined_map_without]
            rfl
  | policy label source =>
      rw [scan_policy_eq_ok_iff] at h ⊢
      exact h

theorem trimmed_timedOut (id : Value) (t : Target) :
    trimmed id (t, .timedOut) = (t, .timedOut) := by
  cases t <;> rfl

@[simp]
theorem trimmed_fst (id : Value) (p : Target × Outcome) : (trimmed id p).1 = p.1 := by
  obtain ⟨t, outcome⟩ := p
  cases t <;> cases outcome <;> rfl

/-- Seeing to a target without an id. -/
theorem attend_without {workers : Nat} {t : Target} {outcome : Outcome} {r : Resources}
    (h : a.attend occasion ⟨workers, { limit := none }⟩ t = .ok (outcome, r)) (s : Settings)
    (id : Value) :
    (a.without s id).attend occasion ⟨workers, { limit := none }⟩ t =
        .ok ((trimmed id (t, outcome)).2, r) ∧
      r.budget = { limit := none } := by
  cases workers with
  | zero =>
      cases h
      rw [trimmed_timedOut]
      exact ⟨rfl, rfl⟩
  | succ free =>
      simp only [attend] at h ⊢
      split at h
      next hkeeps =>
        obtain ⟨rfl, rfl⟩ := Prod.mk.inj (pure_eq_ok_iff.mp h)
        rw [trimmed_timedOut, if_pos hkeeps]
        exact ⟨rfl, rfl⟩
      next hkeeps =>
        obtain ⟨⟨_, after⟩, hscan, h⟩ := bind_eq_ok_iff.mp h
        obtain ⟨rfl, rfl⟩ := Prod.mk.inj (pure_eq_ok_iff.mp h)
        rw [if_neg hkeeps, scan_without hscan s id]
        exact ⟨rfl, scan_budget rfl hscan⟩

/-- Seeing to targets without an id. -/
theorem attendAll_without {workers : Nat} {ts : List Target} {outcomes : List (Target × Outcome)}
    {after : Budget}
    (h : a.attendAll occasion ⟨workers, { limit := none }⟩ ts = .ok (outcomes, after))
    (s : Settings) (id : Value) :
    (a.without s id).attendAll occasion ⟨workers, { limit := none }⟩ ts =
      .ok (outcomes.map (trimmed id), after) := by
  induction ts generalizing workers outcomes with
  | nil =>
      cases h
      rfl
  | cons t ts ih =>
      simp only [attendAll, bind_eq_ok_iff, pure_eq_ok_iff] at h ⊢
      obtain ⟨⟨outcome, r⟩, hfirst, ⟨rest, _⟩, hrest, h⟩ := h
      obtain ⟨rfl, rfl⟩ := Prod.mk.inj h
      obtain ⟨hfirst, hbudget⟩ := attend_without hfirst s id
      obtain ⟨free, _⟩ := r
      obtain rfl := hbudget
      refine ⟨_, hfirst, _, ih hrest, ?_⟩
      rw [List.map_cons]
      congr 2
      exact Prod.ext (trimmed_fst id (t, outcome)).symm rfl

/-- A file or a policy is in the queue as well without an id. -/
theorem ofRequest_without {s : Settings} (hscan : s.scan = a.settings.scan) (id : Value)
    (request : Request) : Queue.ofRequest (a.without s id) request = Queue.ofRequest a request := by
  have hfile : Queue.ofFile (a.without s id) = Queue.ofFile a := by
    funext path content
    simp only [Queue.ofFile, without, hscan, List.isEmpty_map]
  have hpolicy : Queue.ofPolicy (a.without s id) = Queue.ofPolicy a := rfl
  simp only [Queue.ofRequest, hfile, hpolicy]

/-- What becomes of the targets of a request without an id. -/
theorem outcomesOf_without {s : Settings} (hscan : s.scan = a.settings.scan)
    (hlimit : a.settings.scan.maxFindings = .null) {outcomes : List (Target × Outcome)}
    {after : Budget} (h : a.outcomesOf occasion request = .ok (outcomes, after)) (id : Value) :
    (a.without s id).outcomesOf occasion request = .ok (outcomes.map (trimmed id), after) := by
  obtain ⟨queue, budget, workers, hqueue, hbudget, hworkers, htimeout, hall⟩ :=
    outcomesOf_eq_ok_iff.mp h
  have hnone : budget = { limit := none } := by
    rw [hlimit] at hbudget
    exact (Except.ok.inj hbudget).symm
  subst hnone
  refine outcomesOf_eq_ok_iff.mpr ⟨queue, _, workers, (ofRequest_without hscan id request).trans
    hqueue, ?_, ?_, ?_, attendAll_without hall s id⟩
  · rwa [without, hscan]
  · rwa [without, hscan]
  · rwa [without, hscan]

/-! ## What is found in the files of a request -/

/-- The suppressions in targets, in the order in which the targets were seen to. -/
def suppressedOf (outcomes : List (Target × Outcome)) : List Suppression :=
  outcomes.flatMap fun p => p.2.found.suppressed

theorem suppressedOf_eq (outcomes : List (Target × Outcome)) :
    suppressedOf outcomes = (Found.joined (outcomes.map fun p => p.2.found)).suppressed := by
  simp only [suppressedOf, Found.joined, List.flatMap_map]

/-- Nothing that is found about a policy is suppressed. -/
theorem suppressed_of_policy {label : RawText} {source : PolicySource} {outcome : Outcome}
    (h : Attended a (.policy label source, outcome)) : outcome.found.suppressed = [] := by
  rcases h with rfl | ⟨before, after, hscan⟩
  · rfl
  · cases outcome with
    | scanned found => exact (exists_remark_of_policy (scan_policy_eq_ok_iff.mp hscan).1).2
    | left w => rfl
    | timedOut => rfl

/-- Without an id, the findings in files that go by it are missing. -/
theorem findingsOf_file_trimmed (id : Value) (outcomes : List (Target × Outcome)) :
    findingsOf "file" (outcomes.map (trimmed id)) =
      (findingsOf "file" outcomes).filter fun x => !x.ruleId.isAmong [id] := by
  induction outcomes with
  | nil => rfl
  | cons p outcomes ih =>
      rw [List.map_cons, findingsOf_cons, ih, findingsOf_cons "file" p, List.filter_append]
      congr 1
      obtain ⟨t, outcome⟩ := p
      cases t with
      | file path content =>
          cases outcome with
          | scanned found => simp [trimmed, Found.without]
          | left w => simp [trimmed]
          | timedOut => rfl
      | policy label source => simp [trimmed]

/-- Without an id, the findings about policies are as before. -/
theorem findingsOf_policy_trimmed (id : Value) (outcomes : List (Target × Outcome)) :
    findingsOf "policy" (outcomes.map (trimmed id)) = findingsOf "policy" outcomes := by
  induction outcomes with
  | nil => rfl
  | cons p outcomes ih =>
      rw [List.map_cons, findingsOf_cons, ih, findingsOf_cons "policy" p]
      congr 1
      obtain ⟨t, outcome⟩ := p
      cases t <;> cases outcome <;> simp [trimmed]

/-- Without an id, the suppressions that go by it are missing. -/
theorem suppressedOf_trimmed (id : Value) {outcomes : List (Target × Outcome)}
    (h : ∀ p ∈ outcomes, Attended a p) :
    suppressedOf (outcomes.map (trimmed id)) =
      (suppressedOf outcomes).filter fun s => !s.rule.isAmong [id] := by
  rw [suppressedOf, suppressedOf, List.flatMap_map, List.filter_flatMap]
  refine List.flatMap_congr fun p hp => ?_
  obtain ⟨t, outcome⟩ := p
  cases t with
  | file path content => cases outcome <;> rfl
  | policy label source =>
      have hsame : trimmed id (.policy label source, outcome) =
          (.policy label source, outcome) := by
        cases outcome <;> rfl
      simp only [hsame, suppressed_of_policy (h _ hp), List.filter_nil]

/-- What is found in a target without an id is some of what is found in it. -/
theorem sublist_trimmed (id : Value) (p : Target × Outcome) :
    (trimmed id p).2.found.findings.Sublist p.2.found.findings ∧
      (trimmed id p).2.found.suppressed.Sublist p.2.found.suppressed := by
  obtain ⟨t, outcome⟩ := p
  cases t with
  | file path content =>
      cases outcome with
      | scanned found => exact ⟨List.filter_sublist, List.filter_sublist⟩
      | left w => exact ⟨List.Sublist.refl _, List.Sublist.refl _⟩
      | timedOut => exact ⟨List.Sublist.refl _, List.Sublist.refl _⟩
  | policy label source =>
      cases outcome <;> exact ⟨List.Sublist.refl _, List.Sublist.refl _⟩

/-- There is a report without an id if there is one with it. -/
theorem exists_run_without {s : Settings} (hscan : s.scan = a.settings.scan)
    (hlimit : a.settings.scan.maxFindings = .null) {outcomes : List (Target × Outcome)}
    {after : Budget} (h : a.outcomesOf occasion request = .ok (outcomes, after)) {report : Report}
    (hrun : a.run occasion request = .ok report) (id : Value) :
    ∃ report', (a.without s id).run occasion request = .ok report' ∧
      report'.suppressed.Perm (report.suppressed.filter fun s => !s.rule.isAmong [id]) := by
  obtain ⟨queue, outcomes', after', hqueue, h', hreport⟩ := run_eq_ok_iff_outcomesOf.mp hrun
  cases h.symm.trans h'
  obtain ⟨htells, -⟩ := tells_of_reportOn hreport
  have htell : (a.without s id).CanTell
      (Found.joined ((outcomes.map (trimmed id)).map fun p => p.2.found)) := by
    refine ⟨Finding.exists_sorted_of_sublist (List.Sublist.filter _ ?_) htells.findings,
      Report.exists_sortedSuppressions_of_sublist ?_ htells.suppressed⟩
    · simp only [Found.joined, List.flatMap_map]
      exact List.Sublist.flatMap_right _ fun p _ => (sublist_trimmed id p).1
    · simp only [Found.joined, List.flatMap_map]
      exact List.Sublist.flatMap_right _ fun p _ => (sublist_trimmed id p).2
  obtain ⟨report', hreport'⟩ := exists_reportOn htell
  obtain ⟨htells', -⟩ := tells_of_reportOn hreport'
  refine ⟨report', run_eq_ok_iff_outcomesOf.mpr ⟨queue, _, after,
    (ofRequest_without hscan id request).trans hqueue, outcomesOf_without hscan hlimit h id,
    hreport'⟩, ?_⟩
  have hsuppressed := Report.sortedSuppressions_perm htells.suppressed
  have hsuppressed' := Report.sortedSuppressions_perm htells'.suppressed
  rw [← suppressedOf_eq] at hsuppressed hsuppressed'
  obtain ⟨_, _, _, -, -, -, -, hall⟩ := outcomesOf_eq_ok_iff.mp h
  rw [suppressedOf_trimmed id (attendAll_spec hall).2] at hsuppressed'
  exact hsuppressed'.trans (hsuppressed.symm.filter _)

/-- What has been found in files is in files. -/
theorem exists_inFile_of_mem {outcomes : List (Target × Outcome)}
    (h : ∀ p ∈ outcomes, Attended a p) {x : Finding} (hx : x ∈ findingsOf "file" outcomes) :
    ∃ f, a.InFile f x := by
  obtain ⟨found, hfound, hx⟩ := List.mem_flatMap.mp hx
  obtain ⟨⟨t, outcome⟩, hp, hfound⟩ := List.mem_filterMap.mp hfound
  obtain ⟨hp, hkind⟩ := List.mem_filter.mp hp
  cases t with
  | file path content =>
      obtain ⟨f, -, hmade⟩ := madeOf_of_file rfl (h _ hp) hfound
      exact ⟨f, hmade.findings x hx⟩
  | policy label source => cases hkind

/-- An audit that is put together from settings and a catalog is put together without an id when the
settings and the catalog are without it. -/
theorem ofSettings_without {s : Settings} {ids ids' : List Value} {c : Catalog}
    {now : Calendar.Moment} (ha : Audit.ofSettings (s.withDisabled ids) c now = .ok a)
    (id : Value) :
    Audit.ofSettings (s.withDisabled ids') (c.without id) now =
      .ok (a.without (s.withDisabled ids') id) := by
  obtain ⟨hcheck, hdetectors, hreview, hthreshold, hsettings, rfl⟩ := ofSettings_eq_ok_iff.mp ha
  refine ofSettings_eq_ok_iff.mpr ⟨hcheck, ?_, hreview, hthreshold, rfl, rfl⟩
  have hrules : vulnerabilitiesFor (s.withDisabled ids') (c.without id) =
      (vulnerabilitiesFor (s.withDisabled ids) c).map (FileDetector.without id) := by
    rw [vulnerabilitiesFor, vulnerabilitiesFor, apply_ite (List.map (FileDetector.without id))]
    rfl
  rw [detectorsFor_eq_ok_iff] at hdetectors ⊢
  obtain ⟨hnone, hds⟩ | ⟨scan, hsome, hscan, hds⟩ := hdetectors
  · exact .inl ⟨hnone, by rw [without, hds, hrules]⟩
  · refine .inr ⟨scan.without id, hsome, ?_, by rw [without, hds, hrules, List.map_append]; rfl⟩
    simp only [Detect.SecretScan.ofSettings, bind_eq_ok_iff, pure_eq_ok_iff] at hscan ⊢
    obtain ⟨lineMarkers, hlines, pathMarkers, hpaths, rfl⟩ := hscan
    exact ⟨lineMarkers, hlines, pathMarkers, hpaths, rfl⟩

/-- **Disabling a rule takes away what it finds, and nothing else.**  Let findings not be limited,
and let the targets of a request be seen to.  With one more disabled id there are a catalog and an
audit as well, and the targets are seen to as well:
* the findings in files, before any are left out for their severity, are those from before without
  the ones that go by the id, in the same order, and so are the suppressions;
* the findings about policies are those from before.

If there is a report from before, there is one with the id disabled; it has the suppressions from
before without the ones that go by the id, and puts in order what has been found.

No finding in a file goes by a disabled id, and if some ids are enabled, all go by one of them. -/
theorem run_disabling {s : Settings} {before after : List Value} {id : Value}
    {project : Option Project} {c : Catalog} {now : Calendar.Moment} {a : Audit}
    (hc : Catalog.ofSettings (s.withDisabled (before ++ after)) project = .ok c)
    (ha : Audit.ofSettings (s.withDisabled (before ++ after)) c now = .ok a)
    (hlimit : s.scan.maxFindings = .null) {occasion : Occasion} {request : Request}
    {outcomes : List (Target × Outcome)} {free : Budget}
    (h : a.outcomesOf occasion request = .ok (outcomes, free)) :
    (∃ c' a' outcomes',
      Catalog.ofSettings (s.withDisabled (before ++ id :: after)) project = .ok c' ∧
      Audit.ofSettings (s.withDisabled (before ++ id :: after)) c' now = .ok a' ∧
      a'.outcomesOf occasion request = .ok (outcomes', free) ∧
      findingsOf "file" outcomes' =
        (findingsOf "file" outcomes).filter (fun x => !x.ruleId.isAmong [id]) ∧
      findingsOf "policy" outcomes' = findingsOf "policy" outcomes ∧
      suppressedOf outcomes' = (suppressedOf outcomes).filter (fun s => !s.rule.isAmong [id]) ∧
      ∀ report, a.run occasion request = .ok report →
        ∃ report', a'.run occasion request = .ok report' ∧
          report'.suppressed.Perm (report.suppressed.filter fun s => !s.rule.isAmong [id]) ∧
          Finding.sorted (Report.kept a.threshold
            (findingsOf "file" outcomes' ++ findingsOf "policy" outcomes')) =
              .ok report'.findings) ∧
    ∀ x ∈ findingsOf "file" outcomes,
      (s.withDisabled (before ++ after)).IsInForce x.ruleId := by
  have hsettings : a.settings = s.withDisabled (before ++ after) := (detectors_of_ofSettings ha).1
  have hlimit : a.settings.scan.maxFindings = .null := hsettings ▸ hlimit
  have hscan : (s.withDisabled (before ++ id :: after)).scan = a.settings.scan := by
    rw [hsettings]
    rfl
  have hcatalog : Catalog.ofSettings (s.withDisabled (before ++ id :: after)) project =
      .ok (c.without id) := by
    rw [CatalogBuilder.ofSettings_disable, hc]
    rfl
  have houtcomes := outcomesOf_without hscan hlimit h id
  obtain ⟨_, _, _, -, -, -, -, hall⟩ := outcomesOf_eq_ok_iff.mp h
  have hattended := (attendAll_spec hall).2
  refine ⟨⟨_, _, _, hcatalog, ofSettings_without ha id, houtcomes,
    findingsOf_file_trimmed id outcomes, findingsOf_policy_trimmed id outcomes,
    suppressedOf_trimmed id hattended, fun report hrun => ?_⟩, fun x hx => ?_⟩
  · obtain ⟨report', hrun', hsuppressed⟩ := exists_run_without hscan hlimit h hrun id
    exact ⟨report', hrun', hsuppressed, (report_of_outcomesOf houtcomes hrun').2⟩
  · obtain ⟨hrules, hsecrets⟩ := CatalogBuilder.isInForce_of_ofSettings hc
    obtain ⟨f, hx⟩ := exists_inFile_of_mem hattended hx
    obtain ⟨r, hr, hid⟩ | ⟨p, hp, hid⟩ := exists_id_of_inFile ha hx
    · exact hid ▸ hrules r hr
    · exact hid ▸ hsecrets p hp

namespace Zap

/-- A rule file with two rules. -/
def rules : String :=
  "- id: A\n  category: injection\n  pattern: zap\n" ++
    "- id: B\n  category: injection\n  pattern: z\n"

/-- The project of the rule file. -/
def project : Project where
  root := ⟨"", []⟩
  tree := {
    root := .directory [(".vulnaudit-rules",
      .directory [("zap.yaml", .file rules.toUTF8.toList)])] }

/-- The settings that ask for vulnerabilities and enable the two rules alone. -/
def settings : Settings where
  scan := { scanTypes := .texts ["owasp"] }
  rules := { enable := .texts ["A", "B"] }

/-- A file on which both rules match twice, the second time on a line with a marker. -/
def page : Request where
  files := [("a.py", .text "zap\nzap # nosec".toList)]

end Zap

/-- Both rules match; with one of them disabled the other still does. -/
theorem run_disabling_zap :
    ∃ c a outcomes free,
      Catalog.ofSettings (Zap.settings.withDisabled []) (some Zap.project) = .ok c ∧
      Audit.ofSettings (Zap.settings.withDisabled []) c ⟨0, none⟩ = .ok a ∧
      a.outcomesOf { id := "1" } Zap.page = .ok (outcomes, free) ∧
      (findingsOf "file" outcomes).length = 2 ∧ (suppressedOf outcomes).length = 2 ∧
      ∃ c' a' outcomes',
        Catalog.ofSettings (Zap.settings.withDisabled [.text "B"]) (some Zap.project) = .ok c' ∧
        Audit.ofSettings (Zap.settings.withDisabled [.text "B"]) c' ⟨0, none⟩ = .ok a' ∧
        a'.outcomesOf { id := "1" } Zap.page = .ok (outcomes', free) ∧
        (findingsOf "file" outcomes').length = 1 ∧ (suppressedOf outcomes').length = 1 := by
  have hrun : ((Catalog.ofSettings (Zap.settings.withDisabled []) (some Zap.project)).toOption.any
      fun c => (Audit.ofSettings (Zap.settings.withDisabled []) c ⟨0, none⟩).toOption.any fun a =>
        (a.outcomesOf { id := "1" } Zap.page).toOption.any fun result =>
          (findingsOf "file" result.1).length == 2 && (suppressedOf result.1).length == 2 &&
          ((findingsOf "file" result.1).filter fun x =>
            !x.ruleId.isAmong [.text "B"]).length == 1 &&
          ((suppressedOf result.1).filter fun s =>
            !s.rule.isAmong [.text "B"]).length == 1) = true := by
    decide +kernel
  obtain ⟨c, hc, hrun⟩ := any_toOption_iff.mp hrun
  obtain ⟨a, ha, hrun⟩ := any_toOption_iff.mp hrun
  obtain ⟨⟨outcomes, free⟩, houtcomes, hrun⟩ := any_toOption_iff.mp hrun
  simp only [Bool.and_eq_true, beq_iff_eq] at hrun
  obtain ⟨⟨⟨hfindings, hsuppressed⟩, hfindings'⟩, hsuppressed'⟩ := hrun
  obtain ⟨⟨c', a', outcomes', hc', ha', houtcomes', hfile, -, hsuppressions, -⟩, -⟩ :=
    @run_disabling Zap.settings [] [] (.text "B") _ _ _ _ hc ha rfl _ _ _ _ houtcomes
  exact ⟨c, a, outcomes, free, hc, ha, houtcomes, hfindings, hsuppressed, c', a', outcomes', hc',
    ha', houtcomes', by rw [hfile, hfindings'], by rw [hsuppressions, hsuppressed']⟩

end Audit

end SecurityAudit
