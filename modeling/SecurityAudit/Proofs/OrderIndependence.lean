import Mathlib.Data.String.Basic
import SecurityAudit.Proofs.Arrangement
import SecurityAudit.Proofs.Assembly
import SecurityAudit.Proofs.Budget
import SecurityAudit.Proofs.SortWithin

/-!
# The order of the files does not matter

Without a limit on findings the budget never changes, so what is found in a target does not depend
on the targets before it.  The files in another order then have the same outcomes in that order, and
a report puts everything it lists in an order of its own: the findings and the suppressions by
place, rule and id, the warnings and the skipped files by what they say.  Findings that tie are in
one file, and those of one file come in the same order either way.
-/

namespace SecurityAudit

/-- Items in another order are related to the other items in another order. -/
theorem exists_forall₂_of_perm {α β : Type} {R : α → β → Prop} {as as' : List α} {bs : List β}
    (h : List.Forall₂ R as bs) (hperm : as.Perm as') :
    ∃ bs', List.Forall₂ R as' bs' ∧ bs.Perm bs' := by
  obtain ⟨bs', hbs', hperm'⟩ := List.perm_comp_forall₂ hperm.symm h
  exact ⟨bs', hbs', hperm'.symm⟩

/-- A step succeeds on some items and then others when it succeeds on both. -/
theorem mapM_append_eq_ok_iff {ε α β : Type} {f : α → Except ε β} {as as' : List α} {bs : List β} :
    (as ++ as').mapM f = .ok bs ↔
      ∃ xs ys, as.mapM f = .ok xs ∧ as'.mapM f = .ok ys ∧ xs ++ ys = bs := by
  simp only [List.mapM_append, bind_eq_ok_iff, pure_eq_ok_iff]
  constructor
  · rintro ⟨xs, hxs, ys, hys, rfl⟩
    exact ⟨xs, ys, hxs, hys, rfl⟩
  · rintro ⟨xs, ys, hxs, hys, rfl⟩
    exact ⟨xs, hxs, ys, hys, rfl⟩

namespace Audit

/-! ## Runs without a limit -/

/-- Without a limit a detector leaves the budget as it is. -/
theorem detect_budget {a : Audit} {f : SourceFile} {cs : Coverings} {found found' : Found}
    {b b' : Budget} {d : FileDetector} (hb : b.limit = none)
    (h : a.detect f cs (found, b) d = .ok (found', b')) : b' = b := by
  simp only [detect, Budget.not_isExhausted_of_no_limit hb, Bool.false_eq_true, if_false,
    bind_eq_ok_iff, pure_eq_ok_iff, Budget.accept_of_no_limit hb, Except.ok.injEq,
    Prod.mk.injEq] at h
  obtain ⟨_, _, _, _, ⟨_, _⟩, ⟨-, rfl⟩, -, rfl⟩ := h
  rfl

/-- Without a limit scanning a target leaves the budget as it is. -/
theorem scan_budget {a : Audit} {b b' : Budget} {t : Target} {outcome : Outcome}
    (hb : b.limit = none) (h : a.scan b t = .ok (outcome, b')) : b' = b := by
  cases t with
  | file path content =>
      rcases scanFile_cases h with ⟨_, -, -, rfl⟩ | ⟨f, found, -, hscan, -⟩
      · rfl
      · refine foldlM_invariant (P := fun state => state.2 = b) ?_ rfl hscan
        rintro d - ⟨found, _⟩ ⟨found', b'⟩ rfl hdetect
        exact detect_budget hb hdetect
  | policy label source => exact (scan_policy_eq_ok_iff.mp h).2

/-- What becomes of a target when there is no limit and no file is slow: without workers the time is
over for it, else it is scanned. -/
def settle (a : Audit) (workers : Nat) (b : Budget) (t : Target) :
    Except (Fault Problem) (Target × Outcome) :=
  if workers = 0 then .ok (t, .timedOut) else (a.scan b t).map fun r => (t, r.1)

/-- What becomes of a target is the outcome of that target, and one that it can have. -/
theorem settle_spec {a : Audit} {workers : Nat} {b : Budget} {t : Target} {p : Target × Outcome}
    (h : a.settle workers b t = .ok p) : p.1 = t ∧ Attended a p := by
  simp only [settle] at h
  split at h
  · cases h
    exact ⟨rfl, .inl rfl⟩
  · obtain ⟨⟨outcome, after⟩, hscan, rfl⟩ := map_eq_ok_iff.mp h
    exact ⟨rfl, .inr ⟨b, after, hscan⟩⟩

/-- The targets that are settled have one outcome each, and one that they can have. -/
theorem settled_spec {a : Audit} {workers : Nat} {b : Budget} {ts : List Target}
    {ps : List (Target × Outcome)}
    (h : List.Forall₂ (fun t p => a.settle workers b t = .ok p) ts ps) :
    ps.map Prod.fst = ts ∧ ∀ p ∈ ps, Attended a p := by
  induction h with
  | nil => simp
  | cons hp _ ih =>
      obtain ⟨htarget, hattended⟩ := settle_spec hp
      exact ⟨by rw [List.map_cons, htarget, ih.1], List.forall_mem_cons.mpr ⟨hattended, ih.2⟩⟩

/-- Without a limit, seeing to a target settles it and leaves everything else as it is. -/
theorem attend_eq_settle {a : Audit} {occasion : Occasion} (hslow : occasion.slow = [])
    {workers : Nat} {b : Budget} (hb : b.limit = none) (t : Target) :
    a.attend occasion ⟨workers, b⟩ t =
      (a.settle workers b t).map fun p => (p.2, ⟨workers, b⟩) := by
  cases workers with
  | zero => rfl
  | succ free =>
      rw [attend_of_not_slow hslow]
      simp only [settle, Nat.add_eq_zero_iff, Nat.one_ne_zero, and_false, if_false]
      cases hscan : a.scan b t with
      | error e => rfl
      | ok r =>
          obtain ⟨outcome, after⟩ := r
          obtain rfl := scan_budget hb hscan
          rfl

/-- Without a limit the targets are settled independently of each other. -/
theorem attendAll_eq_ok_iff {a : Audit} {occasion : Occasion} (hslow : occasion.slow = [])
    {workers : Nat} {b after : Budget} (hb : b.limit = none) {ts : List Target}
    {outcomes : List (Target × Outcome)} :
    a.attendAll occasion ⟨workers, b⟩ ts = .ok (outcomes, after) ↔
      ts.mapM (a.settle workers b) = .ok outcomes ∧ after = b := by
  induction ts generalizing outcomes with
  | nil =>
      simp only [attendAll, List.mapM_nil, pure_eq_ok_iff, Except.ok.injEq, Prod.mk.injEq]
      exact and_congr_right fun _ => eq_comm
  | cons t ts ih =>
      simp only [attendAll, attend_eq_settle hslow hb, List.mapM_cons, bind_eq_ok_iff,
        pure_eq_ok_iff, map_eq_ok_iff, Prod.mk.injEq]
      constructor
      · rintro ⟨_, ⟨p, hp, rfl⟩, ⟨rest, _⟩, hrest, rfl, rfl⟩
        obtain ⟨hrest, rfl⟩ := ih.mp hrest
        obtain ⟨rfl, -⟩ := settle_spec hp
        exact ⟨⟨p, hp, rest, hrest, rfl⟩, rfl⟩
      · rintro ⟨⟨p, hp, rest, hrest, rfl⟩, rfl⟩
        obtain ⟨rfl, -⟩ := settle_spec hp
        exact ⟨_, ⟨p, hp, rfl⟩, (rest, after), ih.mpr ⟨hrest, rfl⟩, rfl, rfl⟩

/-! ## What the files of a request lead to -/

/-- What becomes of a file in the queue: it is skipped, or it is a target. -/
theorem ofFile_cases {a : Audit} {path : String} {content : Content} {q : Queue}
    (h : Queue.ofFile a path content = .ok q) :
    (∃ entry, q = { skipped := [entry] }) ∨ q = { targets := [.file path content] } := by
  simp only [Queue.ofFile, bind_eq_ok_iff] at h
  obtain ⟨covered, -, h⟩ := h
  split at h
  · exact .inl ⟨_, (pure_eq_ok_iff.mp h).symm⟩
  · split at h
    · exact .inl ⟨_, (pure_eq_ok_iff.mp h).symm⟩
    · exact .inr (pure_eq_ok_iff.mp h).symm

/-- The targets that come from files are files. -/
theorem exists_file_of_mem_targets {a : Audit} {files : List (String × Content)} {qs : List Queue}
    (h : List.Forall₂ (fun f q => Queue.ofFile a f.1 f.2 = .ok q) files qs) :
    ∀ t ∈ (Queue.joined qs).targets, ∃ path content, t = .file path content := by
  intro t ht
  obtain ⟨q, hq, ht⟩ := List.mem_flatMap.mp ht
  obtain ⟨⟨path, content⟩, -, hq⟩ := exists_of_forall₂_of_mem h hq
  rcases ofFile_cases hq with ⟨entry, rfl⟩ | rfl
  · cases ht
  · exact ⟨path, content, List.mem_singleton.mp ht⟩

/-- The targets that come from files are named after them, in their order. -/
theorem labels_sublist {a : Audit} {files : List (String × Content)} {qs : List Queue}
    (h : List.Forall₂ (fun f q => Queue.ofFile a f.1 f.2 = .ok q) files qs) :
    ((Queue.joined qs).targets.map fun t => t.label.readable).Sublist (files.map Prod.fst) := by
  induction h with
  | nil => exact .slnil
  | cons hq _ ih =>
      rw [Queue.joined_cons, Queue.append, List.map_append, List.map_cons]
      rcases ofFile_cases hq with ⟨entry, rfl⟩ | rfl
      · exact ih.cons _
      · exact ih.cons_cons _

/-- The queues of files in another order hold the same, in another order. -/
theorem joined_perm {qs qs' : List Queue} (h : qs.Perm qs') :
    (Queue.joined qs).targets.Perm (Queue.joined qs').targets ∧
      (Queue.joined qs).skipped.Perm (Queue.joined qs').skipped ∧
      (Queue.joined qs).warnings.Perm (Queue.joined qs').warnings :=
  ⟨h.flatMap_right _, h.flatMap_right _, h.flatMap_right _⟩

/-- **What has been found in each file** is the same, whatever the order of the files, if they have
names of their own.  What has been found about the policies comes after it. -/
theorem filter_found_eq {α : Type} {a : Audit} (items : Found → List α) (file : α → String)
    (hitems : ∀ f found, Found.MadeOf (a.InFile f) found → ∀ x ∈ items found,
      file x = f.path.readable)
    {ofFiles ofFiles' : List (Target × Outcome)} (hperm : ofFiles.Perm ofFiles')
    (hnodup : (ofFiles.map fun p => p.1.label.readable).Nodup)
    (hfiles : ∀ p ∈ ofFiles, (∃ path content, p.1 = .file path content) ∧ Attended a p)
    (ofPolicies : List (Target × Outcome)) (path : String) :
    (((ofFiles ++ ofPolicies).filterMap foundOf?).flatMap items).filter
        (fun x => file x == path) =
      (((ofFiles' ++ ofPolicies).filterMap foundOf?).flatMap items).filter
        fun x => file x == path := by
  -- What has been found, target by target: nothing about a target that has not been scanned.
  simp only [List.filterMap_eq_flatMap_toList, List.flatMap_append, List.flatMap_assoc,
    List.filter_append]
  congr 1
  refine Sorting.filter_flatMap_eq_of_perm hperm hnodup (fun p hp x hx => ?_) path
  obtain ⟨⟨name, content, htarget⟩, hattended⟩ := hfiles p hp
  obtain ⟨found, hfound, hx⟩ := List.mem_flatMap.mp hx
  obtain ⟨f, hf, hmade⟩ := madeOf_of_file htarget hattended (Option.mem_toList.mp hfound)
  rw [hitems f found hmade x hx, hf, htarget]
  rfl

/-- Warnings are compared by what they say. -/
theorem warningOrder_eq :
    warningOrder = compareLex (compareOn Warning.kind)
      (compareLex (compareOn Warning.target) (compareOn Warning.message)) := rfl

instance : Std.TransCmp warningOrder := by
  rw [warningOrder_eq]
  infer_instance

/-- Warnings that tie say the same. -/
theorem eq_of_warningOrder (v w : Warning) (h : warningOrder v w = .eq) : v = w := by
  rw [warningOrder_eq] at h
  obtain ⟨hkind, h⟩ := compareLex_eq_eq.mp h
  obtain ⟨htarget, hmessage⟩ := compareLex_eq_eq.mp h
  obtain ⟨kind, target, message⟩ := v
  obtain ⟨kind', target', message'⟩ := w
  obtain rfl : kind = kind' := Std.LawfulEqOrd.eq_of_compare hkind
  obtain rfl : target = target' := Std.LawfulEqOrd.eq_of_compare htarget
  obtain rfl : message = message' := Std.LawfulEqOrd.eq_of_compare hmessage
  rfl

/-- Texts in another order are the same when they are sorted. -/
theorem mergeSort_texts_eq {as bs : List String} (h : as.Perm bs) :
    as.mergeSort = bs.mergeSort := by
  refine List.Perm.eq_of_pairwise (fun a b _ _ hab hba => ?_)
    (Sorting.pairwise_mergeSort_texts as) (Sorting.pairwise_mergeSort_texts bs) ?_
  · exact le_antisymm hab hba
  · exact (List.mergeSort_perm as _).trans (h.trans (List.mergeSort_perm bs _).symm)

/-- The outcomes of files in another order make the same report, but for its id and for the time
that it took. -/
theorem reportOn_perm {a : Audit} {occasion occasion' : Occasion} {request : Request}
    {queue queue' : Queue} {ofFiles ofFiles' ofPolicies : List (Target × Outcome)} {b : Budget}
    {report : Report} (hnumbers : ∀ f x, a.InFile f x → x.ruleId.isNaN = false)
    (hskipped : queue.skipped.Perm queue'.skipped) (hwarnings : queue.warnings.Perm queue'.warnings)
    (hperm : ofFiles.Perm ofFiles') (hnodup : (ofFiles.map fun p => p.1.label.readable).Nodup)
    (hfiles : ∀ p ∈ ofFiles, (∃ path content, p.1 = .file path content) ∧ Attended a p)
    (hpolicies : ∀ p ∈ ofPolicies, Attended a p) (files' : List (String × Content))
    (hreport : a.reportOn occasion request queue (ofFiles ++ ofPolicies) b = .ok report) :
    a.reportOn occasion' { request with files := files' } queue' (ofFiles' ++ ofPolicies) b =
      .ok { report with id := occasion'.id, duration := occasion'.duration } := by
  obtain ⟨findings, suppressed, hfindings, hsuppressed, rfl⟩ :=
    Report.aggregate_eq_ok_iff.mp hreport
  have hall : (ofFiles ++ ofPolicies).Perm (ofFiles' ++ ofPolicies) := hperm.append_right _
  have hmade : ∀ found ∈ (ofFiles ++ ofPolicies).filterMap foundOf?,
      Found.MadeOf (fun x => x.ruleId.isNaN = false) found := by
    intro found hfound
    obtain ⟨p, hp, hfound⟩ := List.mem_filterMap.mp hfound
    rcases List.mem_append.mp hp with hp | hp
    · exact madeOf_of_attended (P := fun x => x.ruleId.isNaN = false) (fun _ _ _ _ => rfl) hnumbers
        (hfiles p hp).2 hfound
    · exact madeOf_of_attended (P := fun x => x.ruleId.isNaN = false) (fun _ _ _ _ => rfl) hnumbers
        (hpolicies p hp) hfound
  rw [← List.flatMap_def] at hfindings
  refine Report.aggregate_eq_ok_iff.mpr ⟨findings, suppressed, ?_, ?_, ?_⟩
  · rw [← List.flatMap_def]
    refine Finding.sorted_eq_of_filter_eq (fun path => ?_) (fun x hx => ?_) hfindings
    · have h := filter_found_eq Found.findings Finding.file
        (fun f found hmade x hx => (hmade.findings x hx).file_eq) hperm hnodup hfiles ofPolicies
        path
      rw [Report.kept, Report.kept, List.filter_comm, h, List.filter_comm]
    · obtain ⟨found, hfound, hx⟩ := List.mem_flatMap.mp (List.mem_filter.mp hx).1
      exact (hmade found hfound).findings x hx
  · refine Report.sortedSuppressions_eq_of_filter_eq (fun path => ?_) (fun s hs => ?_) hsuppressed
    · refine filter_found_eq Found.suppressed Suppression.file
        (fun f found hmade s hs => ?_) hperm hnodup hfiles ofPolicies path
      obtain ⟨x, hx, -, hfile⟩ := hmade.suppressed s hs
      rw [hfile, hx.file_eq]
    · obtain ⟨found, hfound, hs⟩ := List.mem_flatMap.mp hs
      obtain ⟨x, hx, hrule, -⟩ := (hmade found hfound).suppressed s hs
      rw [hrule]
      exact hx
  · have hcount :
        (((ofFiles' ++ ofPolicies).filterMap foundOf?).map Found.findings).flatten.length =
        (((ofFiles ++ ofPolicies).filterMap foundOf?).map Found.findings).flatten.length :=
      (((hall.filterMap foundOf?).map Found.findings).flatten).length_eq.symm
    rw [hcount]
    refine Report.ofSorted_congr rfl rfl ?_ (mergeSort_texts_eq hskipped.symm) ?_
    · refine (Sorting.mergeSort_eq_of_perm eq_of_warningOrder ?_).symm
      refine List.Perm.append_right _ (List.Perm.append ?_ (hall.filterMap _))
      exact hwarnings.append_left _
    · simp only [circumstances, hall.countP_eq, hall.any_eq]

/-- Whether the targets can be waited for depends on how many they are. -/
theorem checkTimeout_eq_of_length {timeout : Value} {ts ts' : List Target}
    (h : ts.length = ts'.length) : checkTimeout timeout ts = checkTimeout timeout ts' := by
  simp only [checkTimeout]
  cases timeout.number? with
  | none => rfl
  | some t =>
      match ts, ts', h with
      | [], [], _ => rfl
      | [_], [_], _ => rfl
      | _ :: _ :: _, _ :: _ :: _, _ => rfl

/-- The files in another order make the same report, but for its id and for the time that it took,
if no rule that there may be something to find by is a float that is no number. -/
theorem run_perm {a : Audit} {occasion occasion' : Occasion} {request : Request} {report : Report}
    {files' : List (String × Content)} (hlimit : a.settings.scan.maxFindings = .null)
    (hnumbers : ∀ f x, a.InFile f x → x.ruleId.isNaN = false) (hslow : occasion.slow = [])
    (hslow' : occasion'.slow = []) (hnodup : (request.files.map Prod.fst).Nodup)
    (hperm : request.files.Perm files') (hrun : a.run occasion request = .ok report) :
    a.run occasion' { request with files := files' } =
      .ok { report with id := occasion'.id, duration := occasion'.duration } := by
  obtain ⟨queue, b, workers, outcomes, after, hqueue, hb, hworkers, htimeout, hall, hreport⟩ :=
    run_eq_ok_iff.mp hrun
  have hunlimited : b.limit = none := by
    rw [hlimit] at hb
    cases hb
    rfl
  obtain ⟨qs, hqs, hnamed, rfl⟩ := Queue.ofRequest_eq_ok_iff.mp hqueue
  obtain ⟨qs', hqs', hjoined⟩ := exists_forall₂_of_perm hqs hperm
  obtain ⟨htargets, hskipped, hwarnings⟩ := joined_perm hjoined
  -- The outcomes of the files, and those of the policies, which stay as they are.
  obtain ⟨hsettled, rfl⟩ := (attendAll_eq_ok_iff hslow hunlimited).mp hall
  obtain ⟨ofFiles, ofPolicies, hofFiles, hofPolicies, rfl⟩ := mapM_append_eq_ok_iff.mp hsettled
  have hofFiles := mapM_eq_ok_iff.mp hofFiles
  obtain ⟨ofFiles', hofFiles', houtcomes⟩ := exists_forall₂_of_perm hofFiles htargets
  obtain ⟨hnames, hattended⟩ := settled_spec hofFiles
  have hlabels : (ofFiles.map fun p => p.1.label.readable).Nodup := by
    have hmap : (ofFiles.map fun p => p.1.label.readable) =
        (Queue.joined qs).targets.map fun t => t.label.readable := by
      rw [← hnames, List.map_map]
      rfl
    rw [hmap]
    exact (labels_sublist hqs).nodup hnodup
  have hfiles : ∀ p ∈ ofFiles, (∃ path content, p.1 = .file path content) ∧ Attended a p := by
    intro p hp
    refine ⟨exists_file_of_mem_targets hqs p.1 ?_, hattended p hp⟩
    rw [← hnames]
    exact List.mem_map_of_mem hp
  have hlength := (htargets.append_right (Queue.joined
    (request.policies.zipIdx.map fun p => Queue.ofPolicy a p.2 p.1)).targets).length_eq
  refine run_eq_ok_iff.mpr ⟨_, after, workers, ofFiles' ++ ofPolicies, after,
    Queue.ofRequest_eq_ok_iff.mpr ⟨qs', hqs', hnamed, rfl⟩, hb, ?_, ?_, ?_, ?_⟩
  · rw [← hworkers]
    exact congrArg _ hlength.symm
  · rw [← htimeout]
    exact checkTimeout_eq_of_length hlength.symm
  · refine (attendAll_eq_ok_iff hslow' hunlimited).mpr ⟨?_, rfl⟩
    exact mapM_append_eq_ok_iff.mpr
      ⟨ofFiles', ofPolicies, mapM_eq_ok_iff.mpr hofFiles', hofPolicies, rfl⟩
  · refine reportOn_perm hnumbers (hskipped.append_right _) (hwarnings.append_right _) houtcomes
      hlabels hfiles ?_ files' hreport
    exact (settled_spec (mapM_eq_ok_iff.mp hofPolicies)).2

/-- **The order of the files does not matter.**  Let findings not be limited, let no file be slow,
and let no id of the catalog be a float that is no number.  When the files of a request all have
names of their own, a report on them in one order is the report on them in any other order, but for
its id and for the time that it took. -/
theorem run_order_independent {s : Settings} {c : Catalog} {now : Calendar.Moment} {a : Audit}
    (ha : Audit.ofSettings s c now = .ok a) (hlimit : s.scan.maxFindings = .null)
    (hrules : ∀ r ∈ c.rules, r.id.isNaN = false) (hsecrets : ∀ p ∈ c.secrets, p.id.isNaN = false)
    {occasion occasion' : Occasion} (hslow : occasion.slow = []) (hslow' : occasion'.slow = [])
    {request : Request} {files' : List (String × Content)}
    (hnodup : (request.files.map Prod.fst).Nodup) (hperm : request.files.Perm files')
    {report : Report} (hrun : a.run occasion request = .ok report) :
    a.run occasion' { request with files := files' } =
      .ok { report with id := occasion'.id, duration := occasion'.duration } := by
  obtain ⟨hsettings, hdetectors⟩ := detectors_of_ofSettings ha
  refine run_perm (by rw [hsettings, hlimit]) (fun f x hx => ?_) hslow hslow' hnodup hperm hrun
  cases hx with
  | rule hit =>
      obtain ⟨detector, rule, -, -, -⟩ := hit
      rcases hdetectors _ detector with ⟨_, heq⟩ | ⟨_, heq, -⟩
      · cases heq
        exact hrules _ rule
      · cases heq
  | secret hit =>
      obtain ⟨detector, pattern, -, -, -, -, -⟩ := hit
      rcases hdetectors _ detector with ⟨_, heq⟩ | ⟨_, heq, hpatterns⟩
      · cases heq
      · cases heq
        exact hsecrets _ (hpatterns ▸ pattern)

/-! ## Three rules and four files -/

namespace Shelf

/-- The pattern of a letter. -/
def letter (c : Char) : Pattern.Node :=
  .char (.single .exact c.toNat)

/-- The rule of an id for words of three letters, of which the second may vary. -/
def rule (id : Value) (second : Pattern.Node) : Rule where
  id := id
  name := .text "Word"
  description := .text "A word."
  category := .injection
  cwe := "CWE-74"
  pattern := ⟨"", .seq (letter 'z') (.seq second (letter 'p')), []⟩
  remediation := .text ""
  metrics := { confidentiality := .high }
  references := []
  filePatterns := none
  window := 1
  window_pos := Nat.le_refl 1

/-- The catalog of a rule for one word, others for that word, and a rule for two words. -/
def catalog (others : List Value) : Catalog where
  rules := rule (.int 2) (letter 'a') :: others.map (fun id => rule id (letter 'a')) ++
    [rule (.int 1) (.alt (letter 'a') (letter 'i'))]
  secrets := []
  actions := []

/-- The settings that ask for vulnerabilities. -/
def settings : Settings where
  scan := { scanTypes := .texts ["owasp"] }

/-- The audit of the settings and the catalog. -/
def audit (others : List Value) : Audit where
  settings := settings
  threshold := "low"
  detectors := [.vulnerabilities (catalog others).rules (.int 4096)]
  review := none
  now := ⟨0, none⟩

/-- Three files with the one word and one with the other, which comes last. -/
def request : Request where
  files := [("a.txt", .text ['z', 'i', 'p']), ("b.txt", .text ['z', 'i', 'p']),
    ("y.txt", .text ['z', 'i', 'p']), ("f.txt", .text ['z', 'a', 'p'])]

/-- The files in the order of their names. -/
def files : List (String × Content) :=
  [("a.txt", .text ['z', 'i', 'p']), ("b.txt", .text ['z', 'i', 'p']),
    ("f.txt", .text ['z', 'a', 'p']), ("y.txt", .text ['z', 'i', 'p'])]

theorem ofSettings_eq (others : List Value) :
    Audit.ofSettings settings (catalog others) ⟨0, none⟩ = .ok (audit others) := by
  rfl

theorem names_nodup : (request.files.map Prod.fst).Nodup := by
  decide

theorem files_perm : request.files.Perm files :=
  .cons _ (.cons _ (.swap _ _ _))

end Shelf

/-- With numbers for ids, the files of the shelf may come in either order. -/
theorem run_order_independent_shelf :
    ∃ report, (Shelf.audit []).run { id := "1" } Shelf.request = .ok report ∧
      (Shelf.audit []).run { id := "2" } { Shelf.request with files := Shelf.files } =
        .ok { report with id := "2", duration := .float 0.0 } := by
  have hrun : (((Shelf.audit []).run { id := "1" } Shelf.request).toOption.any fun report =>
      report.findings.length == 5) = true := by
    simp only [Audit.run, Report.aggregate, Finding.sorted, Report.sortedSuppressions,
      circumstances, Sorting.mergeSort_eq_sortWithin]
    decide +kernel
  obtain ⟨report, hreport, -⟩ := any_toOption_iff.mp hrun
  have hrules : ∀ r ∈ (Shelf.catalog []).rules, r.id.isNaN = false := by
    decide +kernel
  exact ⟨report, hreport, run_order_independent (Shelf.ofSettings_eq []) rfl hrules
    (fun _ h => absurd h List.not_mem_nil) rfl rfl Shelf.names_nodup Shelf.files_perm hreport⟩

/-- **An id that is no number at all makes the order matter.**  A float that is no number is not
before any id, and no id is before it, so where the rules of one file end up depends on what they
are compared with. -/
theorem exists_run_order_dependent :
    ∃ (s : Settings) (c : Catalog) (a : Audit) (request : Request)
      (files' : List (String × Content)) (report report' : Report),
      Audit.ofSettings s c a.now = .ok a ∧ s.scan.maxFindings = .null ∧
      (request.files.map Prod.fst).Nodup ∧ request.files.Perm files' ∧
      a.run { id := "1" } request = .ok report ∧
      a.run { id := "1" } { request with files := files' } = .ok report' ∧
      report'.findings ≠ report.findings := by
  let others : List Value := [.float Decimal.notANumber]
  have hrun : (((Shelf.audit others).run { id := "1" } Shelf.request).toOption.any fun report =>
      report.findings.map (fun x => x.ruleId.isNaN) ==
        [false, false, false, false, true, false]) = true := by
    simp only [Audit.run, Report.aggregate, Finding.sorted, Report.sortedSuppressions,
      circumstances, Sorting.mergeSort_eq_sortWithin]
    decide +kernel
  have hrun' : (((Shelf.audit others).run { id := "1" }
      { Shelf.request with files := Shelf.files }).toOption.any fun report =>
      report.findings.map (fun x => x.ruleId.isNaN) ==
        [false, false, false, true, false, false]) = true := by
    simp only [Audit.run, Report.aggregate, Finding.sorted, Report.sortedSuppressions,
      circumstances, Sorting.mergeSort_eq_sortWithin]
    decide +kernel
  obtain ⟨report, hreport, hnumbers⟩ := any_toOption_iff.mp hrun
  obtain ⟨report', hreport', hnumbers'⟩ := any_toOption_iff.mp hrun'
  refine ⟨_, _, _, _, _, report, report', Shelf.ofSettings_eq others, rfl, Shelf.names_nodup,
    Shelf.files_perm, hreport, hreport', fun heq => ?_⟩
  rw [heq, eq_of_beq hnumbers] at hnumbers'
  exact absurd hnumbers' (by decide)

end Audit

end SecurityAudit
