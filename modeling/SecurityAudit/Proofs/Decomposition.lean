import SecurityAudit.Proofs.Acceptance
import SecurityAudit.Proofs.Disclosure
import SecurityAudit.Proofs.Omission
import SecurityAudit.Proofs.Unlimited

/-!
# Kinds of scan do not touch each other

What an audit looks for in files and in policies is made of what each kind of scan that is asked for
looks for.  Without a limit the kinds share nothing, so in every target the audit finds what audits
of one kind each find there, and a report on all of it tells what their reports tell
(`Audit.run_decomposes`).
-/

namespace SecurityAudit

/-- A step succeeds on all items with the answers of a function that it succeeds with on each. -/
theorem mapM_eq_ok_iff_map {ε α β : Type} [Inhabited β] {f : α → Except ε β} {as : List α}
    {bs : List β} :
    as.mapM f = .ok bs ↔ ∃ answer, (∀ a ∈ as, f a = .ok (answer a)) ∧ as.map answer = bs := by
  rw [mapM_eq_ok_iff]
  constructor
  · intro h
    refine ⟨fun a => (f a).toOption.getD default, fun a ha => ?_, ?_⟩
    · obtain ⟨b, -, hb⟩ := exists_of_forall₂_of_mem h.flip ha
      simp only [hb]
      rfl
    · induction h with
      | nil => rfl
      | cons hb _ ih => rw [List.map_cons, ih, hb]; rfl
  · rintro ⟨answer, hanswer, rfl⟩
    exact List.forall₂_map_right_iff.mpr (List.forall₂_same.mpr hanswer)

/-- A step succeeds on the items of several lists when it does on each of the lists. -/
theorem mapM_flatMap_eq_ok_iff {ε ι α β : Type} {f : α → Except ε β} {g : ι → List α}
    {is : List ι} {bs : List β} :
    (is.flatMap g).mapM f = .ok bs ↔
      ∃ answers, (∀ i ∈ is, (g i).mapM f = .ok (answers i)) ∧ is.flatMap answers = bs := by
  have hmapM : (is.flatMap g).mapM f = (is.mapM fun i => (g i).mapM f).map List.flatten := by
    induction is with
    | nil => rfl
    | cons i is ih =>
        rw [List.flatMap_cons, List.mapM_append, ih, List.mapM_cons]
        cases (g i).mapM f with
        | error e => rfl
        | ok first => cases is.mapM fun i => (g i).mapM f <;> rfl
  simp only [hmapM, map_eq_ok_iff, mapM_eq_ok_iff_map]
  constructor
  · rintro ⟨_, ⟨answers, hanswers, rfl⟩, rfl⟩
    exact ⟨answers, hanswers, rfl⟩
  · rintro ⟨answers, hanswers, rfl⟩
    exact ⟨_, ⟨answers, hanswers, rfl⟩, rfl⟩

/-! ## What has been found in parts -/

namespace Found

/-- All that has been found is what several parts have found, each in the same order. -/
structure IsSum {ι : Type} (whole : Found) (parts : List ι) (part : ι → Found) : Prop where
  findings : whole.findings.Perm (parts.flatMap fun i => (part i).findings)
  suppressed : whole.suppressed.Perm (parts.flatMap fun i => (part i).suppressed)
  findings_sublist : ∀ i ∈ parts, (part i).findings.Sublist whole.findings
  suppressed_sublist : ∀ i ∈ parts, (part i).suppressed.Sublist whole.suppressed

variable {ι : Type} {parts : List ι} {part part' : ι → Found} {whole whole' : Found}

theorem IsSum.empty (parts : List ι) : IsSum {} parts fun _ => {} where
  findings := by simp
  suppressed := by simp
  findings_sublist := by simp
  suppressed_sublist := by simp

theorem isSum_joined (parts : List ι) (part : ι → Found) :
    IsSum (joined (parts.map part)) parts part where
  findings := by simp [joined, List.flatMap_map]
  suppressed := by simp [joined, List.flatMap_map]
  findings_sublist := fun i hi => by
    simp only [joined, List.flatMap_def]
    exact List.sublist_flatten_of_mem (List.mem_map_of_mem (List.mem_map_of_mem hi))
  suppressed_sublist := fun i hi => by
    simp only [joined, List.flatMap_def]
    exact List.sublist_flatten_of_mem (List.mem_map_of_mem (List.mem_map_of_mem hi))

/-- What has been found and then more is what the parts have found and then more. -/
theorem IsSum.append (h : IsSum whole parts part) (h' : IsSum whole' parts part') :
    IsSum (whole.append whole') parts fun i => (part i).append (part' i) where
  findings := (h.findings.append h'.findings).trans (List.flatMap_append_perm _ _ _)
  suppressed := (h.suppressed.append h'.suppressed).trans (List.flatMap_append_perm _ _ _)
  findings_sublist := fun i hi => (h.findings_sublist i hi).append (h'.findings_sublist i hi)
  suppressed_sublist := fun i hi => (h.suppressed_sublist i hi).append (h'.suppressed_sublist i hi)

end Found

namespace Audit

variable {a : Audit}

/-! ## Audits made of parts -/

/-- An audit looks for what some parts of it look for, and goes about it in the same way. -/
structure IsSum {ι : Type} (a : Audit) (parts : List ι) (part : ι → Audit) : Prop where
  exclusions : ∀ i ∈ parts,
    (part i).settings.scan.exclusions = a.settings.scan.exclusions
  maxFindings : ∀ i ∈ parts,
    (part i).settings.scan.maxFindings = a.settings.scan.maxFindings
  timeout : ∀ i ∈ parts, (part i).settings.scan.timeout = a.settings.scan.timeout
  workers : ∀ i ∈ parts, (part i).settings.scan.workers = a.settings.scan.workers
  threshold : ∀ i ∈ parts, (part i).threshold = a.threshold
  now : ∀ i ∈ parts, (part i).now = a.now
  detectors : a.detectors = parts.flatMap fun i => (part i).detectors
  review : a.review.toList = parts.flatMap fun i => (part i).review.toList

variable {ι : Type} {parts : List ι} {part : ι → Audit}

/-- Each share of the whole is one of a part. -/
theorem IsSum.shares_eq (h : a.IsSum parts part) (t : Target) :
    a.shares t = parts.flatMap fun i => (part i).shares t := by
  cases t with
  | file path content =>
      simp only [shares]
      cases SourceFile.read .utf8 path content with
      | error p => simp
      | ok f =>
          simp only [h.detectors, List.map_flatMap]
          refine List.flatMap_congr fun i hi => ?_
          have hsifted : (part i).sifted f = a.sifted f := by
            funext d
            simp only [sifted, h.now i hi]
          rw [hsifted]
  | policy label source =>
      simp only [shares]
      cases readPolicy source with
      | error e =>
          cases e with
          | problem p => simp
          | refused r => simp only [h.review, List.map_flatMap]
      | ok p => simp only [h.review, List.map_flatMap]

/-- In a target the parts find together what the whole finds. -/
theorem IsSum.exists_foundIn (h : a.IsSum parts part) {t : Target} {found : Found}
    (hfound : a.foundIn t = .ok found) :
    ∃ each, (∀ i ∈ parts, (part i).foundIn t = .ok (each i)) ∧
      Found.joined (parts.map each) = found := by
  rw [foundIn_eq_ok_iff, h.shares_eq] at hfound
  obtain ⟨finds, hfinds, rfl⟩ := hfound
  obtain ⟨each, heach, rfl⟩ := mapM_flatMap_eq_ok_iff.mp hfinds
  refine ⟨fun i => Found.joined (each i),
    fun i hi => foundIn_eq_ok_iff.mpr ⟨_, heach i hi, rfl⟩, ?_⟩
  simp [Found.joined, List.flatMap_map, List.flatMap_assoc]

/-- Where each part succeeds the whole does. -/
theorem IsSum.exists_foundIn_whole (h : a.IsSum parts part) {t : Target}
    (hparts : ∀ i ∈ parts, ∃ found, (part i).foundIn t = .ok found) :
    ∃ found, a.foundIn t = .ok found := by
  have hfinds : ∀ i ∈ parts, ∃ finds, ((part i).shares t).mapM id = .ok finds := by
    intro i hi
    obtain ⟨found, hfound⟩ := hparts i hi
    obtain ⟨finds, hfinds, -⟩ := foundIn_eq_ok_iff.mp hfound
    exact ⟨finds, hfinds⟩
  choose! finds hfinds using hfinds
  have hall : (a.shares t).mapM id = .ok (parts.flatMap finds) := by
    rw [h.shares_eq]
    exact mapM_flatMap_eq_ok_iff.mpr ⟨finds, hfinds, rfl⟩
  exact ⟨_, foundIn_eq_ok_iff.mpr ⟨_, hall, rfl⟩⟩

/-- In targets the parts find together what the whole finds. -/
theorem IsSum.exists_foundAmong (h : a.IsSum parts part) {ts : List Target} {found : Found}
    (hfound : a.foundAmong ts = .ok found) :
    ∃ each, (∀ i ∈ parts, (part i).foundAmong ts = .ok (each i)) ∧ found.IsSum parts each := by
  induction ts generalizing found with
  | nil =>
      cases hfound
      exact ⟨fun _ => {}, fun _ _ => rfl, .empty parts⟩
  | cons t ts ih =>
      obtain ⟨first, rest, hfirst, hrest, rfl⟩ := foundAmong_cons_eq_ok_iff.mp hfound
      obtain ⟨each, heach, rfl⟩ := h.exists_foundIn hfirst
      obtain ⟨others, hothers, hsum⟩ := ih hrest
      refine ⟨fun i => (each i).append (others i), fun i hi => ?_,
        (Found.isSum_joined parts each).append hsum⟩
      exact foundAmong_cons_eq_ok_iff.mpr ⟨_, _, heach i hi, hothers i hi, rfl⟩

/-- In targets in which each part succeeds the whole does. -/
theorem IsSum.exists_foundAmong_whole (h : a.IsSum parts part) {ts : List Target}
    (hparts : ∀ i ∈ parts, ∃ found, (part i).foundAmong ts = .ok found) :
    ∃ found, a.foundAmong ts = .ok found := by
  induction ts with
  | nil => exact ⟨_, foundAmong_nil⟩
  | cons t ts ih =>
      simp only [foundAmong_cons_eq_ok_iff] at hparts ⊢
      obtain ⟨first, hfirst⟩ := h.exists_foundIn_whole (t := t) fun i hi => by
        obtain ⟨_, first, _, hfirst, -⟩ := hparts i hi
        exact ⟨first, hfirst⟩
      obtain ⟨rest, hrest⟩ := ih fun i hi => by
        obtain ⟨_, _, rest, -, hrest, -⟩ := hparts i hi
        exact ⟨rest, hrest⟩
      exact ⟨_, first, rest, hfirst, hrest, rfl⟩

/-- The whole sees to the targets that some part sees to. -/
theorem IsSum.sees_iff (h : a.IsSum parts part) {t : Target} :
    a.sees t = true ↔ ∃ i ∈ parts, (part i).sees t = true := by
  cases t with
  | file path content =>
      simp only [sees, Bool.not_eq_true', List.isEmpty_eq_false_iff_exists_mem, h.detectors,
        List.mem_flatMap]
      grind
  | policy label source =>
      have hmem (b : Audit) : b.review.isSome = true ↔ ∃ review, review ∈ b.review.toList := by
        simp [Option.isSome_iff_exists]
      simp only [sees, hmem, h.review, List.mem_flatMap]
      grind

/-- The targets of a request are the same for the parts as for the whole. -/
theorem IsSum.candidates_eq (h : a.IsSum parts part) {i : ι} (hi : i ∈ parts)
    (request : Request) : (part i).candidates request = a.candidates request := by
  have hone : (part i).candidateOf = a.candidateOf := by
    funext file
    simp only [candidateOf, h.exclusions i hi]
  simp only [candidates, hone]

/-- A part manages the targets that it sees to if the whole manages its own. -/
theorem IsSum.manages (h : a.IsSum parts part) {i : ι} (hi : i ∈ parts) {ts : List Target}
    (hmanages : a.Manages (ts.filter a.sees)) : (part i).Manages (ts.filter (part i).sees) := by
  refine hmanages.of_length_le (h.workers i hi) (h.timeout i hi) ?_
  rw [← List.countP_eq_length_filter, ← List.countP_eq_length_filter]
  exact List.countP_mono_left fun t _ hsees => h.sees_iff.mpr ⟨i, hi, hsees⟩

/-- The whole manages the targets that it sees to if they can be waited for, and if each part
manages its own. -/
theorem IsSum.manages_whole (h : a.IsSum parts part) {ts : List Target}
    (hnumber : ∃ n, a.settings.scan.workers.number? = some n)
    (hwaits : checkTimeout a.settings.scan.timeout (ts.filter a.sees) = .ok ())
    (hparts : ∀ i ∈ parts, (part i).Manages (ts.filter (part i).sees)) :
    a.Manages (ts.filter a.sees) := by
  obtain ⟨n, hn⟩ := hnumber
  refine ⟨⟨n, hn, or_iff_not_imp_left.mpr fun hne => ?_⟩, hwaits⟩
  obtain ⟨t, ht⟩ := List.exists_mem_of_ne_nil _ hne
  obtain ⟨hmem, hsees⟩ := List.mem_filter.mp ht
  obtain ⟨i, hi, hsees⟩ := h.sees_iff.mp hsees
  obtain ⟨n', hn', hsome⟩ := (hparts i hi).workers
  rw [h.workers i hi, hn, Option.some.injEq] at hn'
  rw [hn']
  exact hsome.resolve_left (List.ne_nil_of_mem (List.mem_filter.mpr ⟨hmem, hsees⟩))

/-- What a part has found can be told if what the whole has found can. -/
theorem IsSum.canTell (h : a.IsSum parts part) {found : Found} {each : ι → Found}
    (hsum : found.IsSum parts each) {report : Report} (htells : a.Tells found report) {i : ι}
    (hi : i ∈ parts) : (part i).CanTell (each i) := by
  refine ⟨Finding.exists_sorted_of_sublist ?_ htells.findings,
    Report.exists_sortedSuppressions_of_sublist (hsum.suppressed_sublist i hi) htells.suppressed⟩
  rw [h.threshold i hi]
  exact (hsum.findings_sublist i hi).filter _

/-- What is told about the whole is what is told about the parts. -/
theorem IsSum.tells (h : a.IsSum parts part) {found : Found} {each : ι → Found}
    (hsum : found.IsSum parts each) {report : Report} {reports : ι → Report}
    (htells : a.Tells found report) (heach : ∀ i ∈ parts, (part i).Tells (each i) (reports i)) :
    report.findings.Perm (parts.flatMap fun i => (reports i).findings) ∧
      report.rawCount = (parts.map fun i => (reports i).rawCount).sum ∧
      report.suppressed.Perm (parts.flatMap fun i => (reports i).suppressed) := by
  refine ⟨?_, ?_, ?_⟩
  · refine (Finding.sorted_perm htells.findings).trans ((hsum.findings.filter _).trans ?_)
    rw [List.filter_flatMap]
    refine List.Perm.flatMap_left _ fun i hi => ?_
    have hkept := Finding.sorted_perm (heach i hi).findings
    rw [h.threshold i hi] at hkept
    exact hkept.symm
  · rw [htells.rawCount, hsum.findings.length_eq, List.length_flatMap]
    congr 1
    exact List.map_congr_left fun i hi => (heach i hi).rawCount.symm
  · refine (Report.sortedSuppressions_perm htells.suppressed).trans (hsum.suppressed.trans ?_)
    exact List.Perm.flatMap_left _ fun i hi =>
      (Report.sortedSuppressions_perm (heach i hi).suppressed).symm

/-- **The runs of the parts.**  When a run of the whole without a limit ends before the time is
over, so do runs of the parts, and what they report is together what the run of the whole does. -/
theorem IsSum.run (h : a.IsSum parts part) (hlimit : a.settings.scan.maxFindings = .null)
    {occasion : Occasion} {occasions : ι → Occasion} (hslow : occasion.slow = [])
    (hslows : ∀ i ∈ parts, (occasions i).slow = []) {request : Request} {report : Report}
    (hrun : a.run occasion request = .ok report) (hcomplete : report.totals.incomplete = false) :
    (∀ i ∈ parts, ∃ report', (part i).run (occasions i) request = .ok report' ∧
      report'.totals.incomplete = false) ∧
    ∀ reports : ι → Report, (∀ i ∈ parts, (part i).run (occasions i) request = .ok (reports i)) →
      report.findings.Perm (parts.flatMap fun i => (reports i).findings) ∧
      report.rawCount = (parts.map fun i => (reports i).rawCount).sum ∧
      report.suppressed.Perm (parts.flatMap fun i => (reports i).suppressed) := by
  obtain ⟨ts, found, hts, hmanages, hfound, htells⟩ :=
    exists_found_of_run hlimit hslow hrun hcomplete
  obtain ⟨each, heach, hsum⟩ := h.exists_foundAmong hfound
  have hparts (i : ι) (hi : i ∈ parts) : ∃ report', (part i).run (occasions i) request =
      .ok report' ∧ report'.totals.incomplete = false ∧ (part i).Tells (each i) report' :=
    exists_run_of_found ((h.maxFindings i hi).trans hlimit) (hslows i hi)
      ((h.candidates_eq hi request).trans hts) (h.manages hi hmanages) (heach i hi)
      (h.canTell hsum htells hi)
  refine ⟨fun i hi => ?_, fun reports hreports => h.tells hsum htells fun i hi => ?_⟩
  · obtain ⟨report', hrun', hcomplete', -⟩ := hparts i hi
    exact ⟨report', hrun', hcomplete'⟩
  · obtain ⟨report', hrun', -, htells'⟩ := hparts i hi
    obtain rfl := Except.ok.inj (hrun'.symm.trans (hreports i hi))
    exact htells'

/-- What is found in targets goes by texts, or by rules like those that there may be something to
find by in a file. -/
theorem madeOf_foundAmong {P : Value → Prop} (htexts : ∀ id, P (.text id))
    (hrules : ∀ f x, a.InFile f x → P x.ruleId) {ts : List Target} {found : Found}
    (hfound : a.foundAmong ts = .ok found) : found.MadeOf fun x => P x.ruleId := by
  induction ts generalizing found with
  | nil =>
      cases hfound
      exact Found.madeOf_nil _
  | cons t ts ih =>
      obtain ⟨_, rest, hfirst, hrest, rfl⟩ := foundAmong_cons_eq_ok_iff.mp hfound
      refine Found.MadeOf.append ?_ (ih hrest) (List.Subset.refl _)
      obtain hsees | hsees := Bool.eq_false_or_eq_true (a.sees t)
      swap
      · obtain rfl := Except.ok.inj ((foundIn_of_not_sees hsees).symm.trans hfirst)
        exact Found.madeOf_nil _
      rw [foundIn_of_sees hsees] at hfirst
      obtain ⟨⟨outcome, after⟩, hscan, rfl⟩ := map_eq_ok_iff.mp hfirst
      have hmade : Found.MadeOf (fun x => P x.ruleId) outcome.found := by
        cases outcome with
        | scanned first =>
            exact madeOf_of_attended (P := fun x => P x.ruleId) (p := (t, .scanned first))
              (fun _ _ _ _ => htexts _) hrules (.inr ⟨_, after, hscan⟩) rfl
        | left w => exact Found.madeOf_nil _
        | timedOut => exact Found.madeOf_nil _
      exact hmade

/-- What is found can be told if every rule that there may be something to find by is a text. -/
theorem canTell_of_texts (htexts : ∀ f x, a.InFile f x → ∃ id, x.ruleId = .text id)
    {ts : List Target} {found : Found} (hfound : a.foundAmong ts = .ok found) :
    a.CanTell found := by
  have hmade := madeOf_foundAmong (P := fun v => ∃ id, v = .text id) (fun id => ⟨id, rfl⟩) htexts
    hfound
  refine ⟨Finding.exists_sorted_of_texts fun x hx => hmade.findings x (List.mem_of_mem_filter hx),
    Report.exists_sortedSuppressions_of_texts fun s hs => ?_⟩
  obtain ⟨x, hx, hrule, -⟩ := hmade.suppressed s hs
  exact hrule ▸ hx

/-- **The run of the whole.**  When runs of all parts without a limit end before the time is over,
so does one of the whole, if its targets can be waited for and every rule is a text. -/
theorem IsSum.exists_run_whole (h : a.IsSum parts part)
    (hlimit : a.settings.scan.maxFindings = .null)
    (hnumber : ∃ n, a.settings.scan.workers.number? = some n)
    (hwaits : ∀ ts, checkTimeout a.settings.scan.timeout ts = .ok ())
    (htexts : ∀ f x, a.InFile f x → ∃ id, x.ruleId = .text id)
    {occasion : Occasion} {occasions : ι → Occasion} (hslow : occasion.slow = [])
    (hslows : ∀ i ∈ parts, (occasions i).slow = []) {request : Request} (hne : parts ≠ [])
    (hruns : ∀ i ∈ parts, ∃ report, (part i).run (occasions i) request = .ok report ∧
      report.totals.incomplete = false) :
    ∃ report, a.run occasion request = .ok report ∧ report.totals.incomplete = false := by
  have hparts (i : ι) (hi : i ∈ parts) : ∃ ts, a.candidates request = .ok ts ∧
      (part i).Manages (ts.filter (part i).sees) ∧ ∃ found, (part i).foundAmong ts = .ok found := by
    obtain ⟨report, hrun, hcomplete⟩ := hruns i hi
    obtain ⟨ts, found, hts, hmanages, hfound, -⟩ :=
      exists_found_of_run ((h.maxFindings i hi).trans hlimit) (hslows i hi) hrun hcomplete
    exact ⟨ts, (h.candidates_eq hi request).symm.trans hts, hmanages, found, hfound⟩
  -- The parts have the same targets, so those of one part stand for those of all.
  obtain ⟨i, hi⟩ := List.exists_mem_of_ne_nil _ hne
  obtain ⟨ts, hts, -⟩ := hparts i hi
  have hfinds (i : ι) (hi : i ∈ parts) : (part i).Manages (ts.filter (part i).sees) ∧
      ∃ found, (part i).foundAmong ts = .ok found := by
    obtain ⟨ts', hts', hrest⟩ := hparts i hi
    obtain rfl := Except.ok.inj (hts'.symm.trans hts)
    exact hrest
  obtain ⟨found, hfound⟩ := h.exists_foundAmong_whole fun i hi => (hfinds i hi).2
  have hmanages := h.manages_whole hnumber (hwaits _) fun i hi => (hfinds i hi).1
  obtain ⟨report, hrun, hcomplete, -⟩ :=
    exists_run_of_found hlimit hslow hts hmanages hfound (canTell_of_texts htexts hfound)
  exact ⟨report, hrun, hcomplete⟩

end Audit

/-! ## One kind of scan alone -/

namespace Settings

/-- The kinds of scan, without the one that stands for all of them. -/
def basicKinds : List String :=
  ["owasp", "secrets", "iam"]

/-- The kinds of scan that settings ask for, each of them once. -/
def kinds (s : Settings) : List String :=
  basicKinds.filter s.scan.enabled

/-- The settings that ask for one kind of scan alone. -/
def only (s : Settings) (kind : String) : Settings :=
  { s with scan := { s.scan with scanTypes := .texts [kind] } }

theorem enabled_only (s : Settings) {kind other : String} (hkind : kind ∈ basicKinds)
    (hother : other ∈ basicKinds) : (s.only kind).scan.enabled other = (other == kind) := by
  simp only [basicKinds, List.mem_cons, List.not_mem_nil, or_false] at hkind hother
  obtain rfl | rfl | rfl := hkind <;> obtain rfl | rfl | rfl := hother <;> rfl

/-- Settings that make sense still do when one kind of scan alone is asked for. -/
theorem check_only {s : Settings} (h : s.check = .ok ()) {kind : String}
    (hkind : kind ∈ basicKinds) : (s.only kind).check = .ok () := by
  have hknown : ∀ kind ∈ basicKinds, kind ∈ scanTypes := by decide
  have haccepted := check_eq_ok_iff.mp h
  have htypes : PassesForTypes (.texts [kind]) :=
    ⟨[kind], List.cons_ne_nil _ _, List.forall_mem_singleton.mpr (hknown kind hkind), rfl⟩
  exact check_eq_ok_iff.mpr { haccepted with scanTypes := htypes }

/-- Every name of a kind of scan stands for one of the basic kinds, or for all of them. -/
theorem exists_basicKind : ∀ name ∈ scanTypes, ∃ kind ∈ basicKinds, name = "all" ∨ name = kind := by
  decide

/-- A kind of scan is asked for when its name is among those that settings give. -/
theorem enabled_of_mem {scan : Scan} {items : List Value} {name kind : String}
    (hitems : scan.scanTypes.elements? = some items) (hmem : .text name ∈ items)
    (hname : name = "all" ∨ name = kind) : scan.enabled kind = true := by
  have hfound : (Value.text name).isFoundAs (.text name) = true := by
    simp [Value.isFoundAs, Value.isNaN, Value.number?, Value.same]
  have hamong : (Value.text name).isAmong items = true :=
    List.any_eq_true.mpr ⟨_, hmem, hfound⟩
  rw [Scan.enabled, hitems, Option.getD_some, Bool.or_eq_true]
  obtain rfl | rfl := hname
  · exact .inl hamong
  · exact .inr hamong

/-- Settings that make sense ask for some kind of scan. -/
theorem kinds_ne_nil {s : Settings} (h : s.check = .ok ()) : s.kinds ≠ [] := by
  obtain ⟨types, hsome, hknown, hitems⟩ := (check_eq_ok_iff.mp h).scanTypes
  obtain ⟨name, hname⟩ := List.exists_mem_of_ne_nil _ hsome
  obtain ⟨kind, hkind, heq⟩ := exists_basicKind name (hknown name hname)
  exact List.ne_nil_of_mem
    (List.mem_filter.mpr ⟨hkind, enabled_of_mem hitems (List.mem_map_of_mem hname) heq⟩)

end Settings

/-- The kind of scan that a detector is for. -/
def FileDetector.kind : FileDetector → String
  | .vulnerabilities _ _ => "owasp"
  | .secrets _ => "secrets"

namespace Audit

/-- The part of an audit that is for one kind of scan. -/
def only (a : Audit) (kind : String) : Audit where
  settings := a.settings.only kind
  threshold := a.threshold
  detectors := a.detectors.filter fun d => d.kind == kind
  review := if kind = "iam" then a.review else none
  now := a.now

/-- The part of an audit that is for one of the kinds of scan is the audit of the settings that ask
for that kind alone. -/
theorem ofSettings_only {s : Settings} {c : Catalog} {now : Calendar.Moment} {a : Audit}
    (ha : Audit.ofSettings s c now = .ok a) {kind : String} (hkind : kind ∈ s.kinds) :
    Audit.ofSettings (s.only kind) c now = .ok (a.only kind) := by
  obtain ⟨hbasic, henabled⟩ := List.mem_filter.mp hkind
  obtain ⟨hcheck, hdetectors, hreview, hthreshold, rfl, rfl⟩ := ofSettings_eq_ok_iff.mp ha
  have honly (other : String) (hother : other ∈ Settings.basicKinds) :
      (a.settings.only kind).scan.enabled other = (other == kind) :=
    a.settings.enabled_only hbasic hother
  refine ofSettings_eq_ok_iff.mpr
    ⟨Settings.check_only hcheck hbasic, ?_, ?_, hthreshold, rfl, rfl⟩
  · simp only [detectorsFor_eq_ok_iff, vulnerabilitiesFor, honly "secrets" (by decide),
      honly "owasp" (by decide), only] at hdetectors ⊢
    simp only [Settings.basicKinds, List.mem_cons, List.not_mem_nil, or_false] at hbasic
    obtain rfl | rfl | rfl := hbasic
    · refine .inl ⟨rfl, ?_⟩
      obtain ⟨-, hds⟩ | ⟨scan, -, -, hds⟩ := hdetectors <;>
        simp [hds, henabled, FileDetector.kind, Settings.only]
    · obtain ⟨hnone, -⟩ | ⟨scan, -, hscan, hds⟩ := hdetectors
      · rw [hnone] at henabled
        cases henabled
      · refine .inr ⟨scan, rfl, hscan, ?_⟩
        rw [hds]
        cases a.settings.scan.enabled "owasp" <;> simp [FileDetector.kind]
    · refine .inl ⟨rfl, ?_⟩
      obtain ⟨-, hds⟩ | ⟨scan, -, -, hds⟩ := hdetectors <;>
        cases a.settings.scan.enabled "owasp" <;> simp [hds, FileDetector.kind]
  · simp only [reviewFor, honly "iam" (by decide), only] at hreview ⊢
    by_cases hiam : kind = "iam"
    · subst hiam
      rw [henabled] at hreview
      exact hreview
    · simp [hiam, Ne.symm hiam, pure_eq_ok_iff]

/-- An audit that is put together from settings and a catalog is made of the parts for the kinds of
scan that the settings ask for. -/
theorem isSum_only {s : Settings} {c : Catalog} {now : Calendar.Moment} {a : Audit}
    (ha : Audit.ofSettings s c now = .ok a) : a.IsSum s.kinds a.only := by
  obtain ⟨hcheck, hdetectors, hreview, hthreshold, rfl, rfl⟩ := ofSettings_eq_ok_iff.mp ha
  have hfiles : a.detectors = a.settings.kinds.flatMap fun kind => (a.only kind).detectors := by
    rw [detectorsFor_eq_ok_iff, vulnerabilitiesFor] at hdetectors
    simp only [only, Settings.kinds, Settings.basicKinds]
    obtain ⟨hsecrets, hds⟩ | ⟨scan, hsecrets, -, hds⟩ := hdetectors <;>
      cases howasp : a.settings.scan.enabled "owasp" <;>
      cases hiam : a.settings.scan.enabled "iam" <;>
      simp [howasp, hiam, hsecrets, hds, FileDetector.kind]
  have hpolicies : a.review.toList =
      a.settings.kinds.flatMap fun kind => (a.only kind).review.toList := by
    cases hiam : a.settings.scan.enabled "iam" with
    | true =>
        simp only [only, Settings.kinds, Settings.basicKinds]
        cases howasp : a.settings.scan.enabled "owasp" <;>
          cases hsecrets : a.settings.scan.enabled "secrets" <;>
          simp [howasp, hiam, hsecrets]
    | false =>
        rw [reviewFor, hiam] at hreview
        have hnone : a.review = none := (pure_eq_ok_iff.mp hreview).symm
        simp [only, hnone]
  exact {
    exclusions := fun _ _ => rfl
    maxFindings := fun _ _ => rfl
    timeout := fun _ _ => rfl
    workers := fun _ _ => rfl
    threshold := fun _ _ => rfl
    now := fun _ _ => rfl
    detectors := hfiles
    review := hpolicies }

/-- **Kinds of scan add up.**  Let findings not be limited, and let no file be slow.  For each of
the kinds of scan that the settings ask for there is an audit of the settings that ask for that kind
alone.  When a run of the whole audit ends with a report before the time is over, so do runs of
these.  The findings of the report are those of their reports together, each as often as there, and
so are the suppressed ones; the number of findings before any were left out is the sum of theirs.
When runs of these audits all end so, a run of the whole does as well, if targets can be waited for
and the ids of the catalog are texts. -/
theorem run_decomposes {s : Settings} {c : Catalog} {now : Calendar.Moment} {a : Audit}
    (ha : Audit.ofSettings s c now = .ok a) (hlimit : s.scan.maxFindings = .null)
    {occasion : Occasion} {occasions : String → Occasion} (hslow : occasion.slow = [])
    (hslows : ∀ kind ∈ s.kinds, (occasions kind).slow = []) (request : Request) :
    (∀ kind ∈ s.kinds, Audit.ofSettings (s.only kind) c now = .ok (a.only kind)) ∧
    (∀ report, a.run occasion request = .ok report → report.totals.incomplete = false →
      (∀ kind ∈ s.kinds, ∃ report', (a.only kind).run (occasions kind) request = .ok report' ∧
        report'.totals.incomplete = false) ∧
      ∀ reports : String → Report,
        (∀ kind ∈ s.kinds, (a.only kind).run (occasions kind) request = .ok (reports kind)) →
        report.findings.Perm (s.kinds.flatMap fun kind => (reports kind).findings) ∧
        report.rawCount = (s.kinds.map fun kind => (reports kind).rawCount).sum ∧
        report.suppressed.Perm (s.kinds.flatMap fun kind => (reports kind).suppressed)) ∧
    ((∀ ts, checkTimeout s.scan.timeout ts = .ok ()) → (∀ r ∈ c.rules, ∃ id, r.id = .text id) →
      (∀ p ∈ c.secrets, ∃ id, p.id = .text id) →
      (∀ kind ∈ s.kinds, ∃ report', (a.only kind).run (occasions kind) request = .ok report' ∧
        report'.totals.incomplete = false) →
      ∃ report, a.run occasion request = .ok report ∧ report.totals.incomplete = false) := by
  have hsum := isSum_only ha
  obtain ⟨hcheck, -, -, -, rfl, -⟩ := ofSettings_eq_ok_iff.mp ha
  refine ⟨fun kind hkind => ofSettings_only ha hkind,
    fun report hrun hcomplete => hsum.run hlimit hslow hslows hrun hcomplete,
    fun hwaits hrules hsecrets hruns => ?_⟩
  obtain ⟨workers, hworkers, -⟩ := (Settings.check_eq_ok_iff.mp hcheck).workers
  refine hsum.exists_run_whole hlimit ⟨workers, hworkers⟩ hwaits (fun f x hx => ?_) hslow hslows
    (Settings.kinds_ne_nil hcheck) hruns
  obtain ⟨r, hr, hid⟩ | ⟨p, hp, hid⟩ := exists_id_of_inFile ha hx
  · exact hid ▸ hrules r hr
  · exact hid ▸ hsecrets p hp

namespace Login

/-- The settings that ask for everything. -/
def everything : Settings where
  scan := { scanTypes := .texts ["all", "owasp", "all"] }

/-- The audit of everything. -/
def whole : Audit :=
  { audit with
    settings := everything
    review := some { dangerous := [], staleAfter := 7776000000000, now := ⟨0, none⟩ } }

/-- The page and a policy that grants everything. -/
def pageAndPolicy : Request where
  files := [("login.py", .text line)]
  policies := [.policy {
    name := "all"
    provider := "aws"
    permissions := [{ action := "*", resource := "*" }]
    lastUsed := none }]

theorem ofSettings_everything :
    Audit.ofSettings everything catalog ⟨0, none⟩ = .ok whole := by
  rfl

end Login

/-- The kinds of scan find one thing each on the page, and two in the policy. -/
theorem run_decomposes_login :
    ∃ (report : Report) (reports : String → Report),
      Login.whole.run { id := "1" } Login.pageAndPolicy = .ok report ∧
      report.findings.Perm ((reports "owasp").findings ++ (reports "secrets").findings ++
        (reports "iam").findings) ∧
      ∀ kind ∈ ["owasp", "secrets", "iam"],
        Audit.ofSettings (Login.everything.only kind) Login.catalog ⟨0, none⟩ =
          .ok (Login.whole.only kind) ∧
        (Login.whole.only kind).run { id := kind } Login.pageAndPolicy = .ok (reports kind) ∧
        (reports kind).findings.length = if kind = "iam" then 2 else 1 := by
  have hkinds : Login.everything.kinds = ["owasp", "secrets", "iam"] := by decide
  have hall : (["owasp", "secrets", "iam"].all fun kind =>
      ((Login.whole.only kind).run { id := kind } Login.pageAndPolicy).toOption.any fun report =>
        !report.totals.incomplete &&
          report.findings.length == if kind = "iam" then 2 else 1) = true := by
    simp only [Audit.run, Report.aggregate, Finding.sorted, Report.sortedSuppressions,
      circumstances, Sorting.mergeSort_eq_sortWithin]
    decide +kernel
  have hparts (kind : String) (hkind : kind ∈ ["owasp", "secrets", "iam"]) :
      ∃ report, (Login.whole.only kind).run { id := kind } Login.pageAndPolicy = .ok report ∧
        report.totals.incomplete = false ∧
        report.findings.length = if kind = "iam" then 2 else 1 := by
    obtain ⟨report, hreport, h⟩ := any_toOption_iff.mp (List.all_eq_true.mp hall kind hkind)
    rw [Bool.and_eq_true, Bool.not_eq_true', beq_iff_eq] at h
    exact ⟨report, hreport, h⟩
  have : Nonempty Report := ⟨(hparts "iam" (by decide)).choose⟩
  choose! reports hreports using hparts
  have hslow : ({ id := "1" } : Occasion).slow = [] := rfl
  have hslows : ∀ kind ∈ Login.everything.kinds,
      ({ id := kind } : Occasion).slow = [] := fun _ _ => rfl
  obtain ⟨hof, hsum, hwhole⟩ :=
    run_decomposes Login.ofSettings_everything rfl hslow hslows Login.pageAndPolicy
  rw [hkinds] at hof hsum hwhole
  obtain ⟨report, hreport, hcomplete⟩ := hwhole checkTimeout_default
    (List.forall_mem_singleton.mpr ⟨_, rfl⟩) (List.forall_mem_singleton.mpr ⟨_, rfl⟩)
    fun kind hkind => ⟨reports kind, (hreports kind hkind).1, (hreports kind hkind).2.1⟩
  obtain ⟨hfindings, -, -⟩ :=
    (hsum report hreport hcomplete).2 reports fun kind hkind => (hreports kind hkind).1
  simp only [List.flatMap_cons, List.flatMap_nil, List.append_nil, ← List.append_assoc] at hfindings
  exact ⟨report, reports, hreport, hfindings, fun kind hkind =>
    ⟨hof kind hkind, (hreports kind hkind).1, (hreports kind hkind).2.2⟩⟩

end Audit

end SecurityAudit
