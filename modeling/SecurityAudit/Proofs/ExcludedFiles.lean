import SecurityAudit.Proofs.Exclusions
import SecurityAudit.Proofs.OrderIndependence

/-!
# Excluded files

A file that is excluded is named among the skipped ones when the queue is filled, and that is all
that becomes of it: no target stands for it, so no worker is on it and the budget is as it was.  The
report on some files is therefore the report on them without those that are excluded, with one more
entry for each of these (`run_insert_excluded`, `run_included`).

What is excluded stays so in a directory, and with more globs (`exclusion_carries_over`).
-/

namespace SecurityAudit.Audit

variable {a : Audit} {request request' : Request} {occasion occasion' : Occasion}
  {entries : List String} {path : String}

/-- The exclusions of an audit are for a path. -/
def Excludes (a : Audit) (path : String) : Prop :=
  Exclusion.covers a.settings.scan.exclusions path = .ok true

instance (a : Audit) : DecidablePred a.Excludes := fun _ =>
  inferInstanceAs (Decidable (_ = _))

/-- How an excluded file is named among the skipped ones. -/
def excludedEntry (path : String) : String :=
  path ++ " (excluded)"

/-! ## The queue -/

/-- One queue names more files as skipped than another one, and is no different else; or neither can
be filled, for the same reason. -/
inductive SkipsMore (entries : List String) : Except Refusal Queue → Except Refusal Queue → Prop
  | filled (q : Queue) {skipped : List String}
      (skipped_perm : skipped.Perm (entries ++ q.skipped)) :
      SkipsMore entries (.ok q) (.ok { q with skipped })
  | refused (r : Refusal) : SkipsMore entries (.error r) (.error r)

theorem SkipsMore.refl (q : Except Refusal Queue) : SkipsMore [] q q := by
  cases q with
  | error r => exact .refused r
  | ok q => exact .filled q (.refl _)

/-- All that becomes of an excluded file is that it is named as skipped. -/
theorem ofFile_of_excludes (h : a.Excludes path) (content : Content) :
    Queue.ofFile a path content = .ok { skipped := [excludedEntry path] } := by
  rw [Queue.ofFile, h]
  rfl

/-- One more excluded file is one more entry. -/
theorem skipsMore_insert (before after : List (String × Content)) (h : a.Excludes path)
    (content : Content) :
    SkipsMore [excludedEntry path] (Queue.ofRequest a { request with files := before ++ after })
      (Queue.ofRequest a { request with files := before ++ (path, content) :: after }) := by
  obtain ⟨r, hrefused, hrefused'⟩ | ⟨qs, rs, hfilled, hfilled'⟩ :=
    Queue.ofRequest_insert request before after (ofFile_of_excludes h content)
  · rw [hrefused, hrefused']
    exact .refused r
  · have hmore : Queue.joined (qs ++ { skipped := [excludedEntry path] } :: rs) =
        { Queue.joined (qs ++ rs) with
          skipped := (Queue.joined qs).skipped ++
            excludedEntry path :: (Queue.joined rs).skipped } := by
      simp [Queue.joined_append, Queue.joined_cons, Queue.append]
    rw [hfilled, hfilled', hmore]
    refine .filled _ ?_
    rw [Queue.joined_append, Queue.append]
    exact List.perm_middle

/-! ## The report -/

/-- A report with more entries of skipped files, on another occasion. -/
def withSkipped (occasion : Occasion) (entries : List String) (report : Report) : Report :=
  { report with
    id := occasion.id
    duration := occasion.duration
    skippedFiles := (entries ++ report.skippedFiles).mergeSort }

/-- Entries can be added one part after the other. -/
theorem withSkipped_withSkipped (occasion occasion' : Occasion) (entries others : List String)
    (report : Report) :
    withSkipped occasion' entries (withSkipped occasion others report) =
      withSkipped occasion' (entries ++ others) report := by
  have hentries : (entries ++ (others ++ report.skippedFiles).mergeSort).mergeSort =
      (entries ++ others ++ report.skippedFiles).mergeSort := by
    apply mergeSort_texts_eq
    rw [List.append_assoc]
    exact (List.mergeSort_perm _ _).append_left entries
  simp only [withSkipped, hentries]

/-- More entries in the queue are more entries in the report, and make no difference else. -/
theorem reportOn_skipped {queue : Queue} {skipped : List String}
    (hscope : request'.scope = request.scope) (hgiven : request'.warnings = request.warnings)
    (hskipped : skipped.Perm (entries ++ queue.skipped)) (outcomes : List (Target × Outcome))
    (b : Budget) :
    a.reportOn occasion' request' { queue with skipped } outcomes b =
      (a.reportOn occasion request queue outcomes b).map (withSkipped occasion' entries) := by
  have hentries : skipped.mergeSort = (entries ++ queue.skipped.mergeSort).mergeSort :=
    mergeSort_texts_eq (hskipped.trans ((List.mergeSort_perm _ _).symm.append_left entries))
  apply Report.aggregate_map
  · rfl
  · intro rawCount findings suppressed
    simp only [Report.ofSorted, circumstances, hscope, hgiven, hentries, withSkipped]

/-! ## The run -/

/-- A run with more files that are skipped gives the report with more entries, and no report for the
same reason. -/
theorem run_skipped (hslow : occasion'.slow = occasion.slow)
    (hscope : request'.scope = request.scope) (hgiven : request'.warnings = request.warnings)
    (hqueue : SkipsMore entries (Queue.ofRequest a request) (Queue.ofRequest a request')) :
    a.run occasion' request' = (a.run occasion request).map (withSkipped occasion' entries) := by
  simp only [run]
  generalize Queue.ofRequest a request = q, Queue.ofRequest a request' = q' at hqueue ⊢
  cases hqueue with
  | refused r => rfl
  | @filled queue skipped skipped_perm =>
      have hreport : ∀ (outcomes : List (Target × Outcome)) (b : Budget),
          (allowing (a.reportOn occasion' request' { queue with skipped } outcomes b) :
            Except (Fault Problem) Report) =
          withSkipped occasion' entries <$>
            allowing (a.reportOn occasion request queue outcomes b) := by
        intro outcomes b
        rw [reportOn_skipped hscope hgiven skipped_perm]
        cases a.reportOn occasion request queue outcomes b <;> rfl
      have hallowed : ∀ q : Queue, (allowing (.ok q) : Except (Fault Problem) Queue) = pure q :=
        fun _ => rfl
      simp only [reportOn] at hreport
      change _ = withSkipped occasion' entries <$> _
      simp only [hallowed, pure_bind, map_bind, attendAll_congr hslow, hreport]

/-- **An excluded file is passed over.**  One more of them, wherever it is among the files, makes
for one more entry in the report. -/
theorem run_insert_excluded (hslow : occasion'.slow = occasion.slow) (request : Request)
    (before after : List (String × Content)) (h : a.Excludes path) (content : Content) :
    a.run occasion' { request with files := before ++ (path, content) :: after } =
      (a.run occasion { request with files := before ++ after }).map
        (withSkipped occasion' [excludedEntry path]) :=
  run_skipped hslow rfl rfl (skipsMore_insert before after h content)

/-- The files that are not excluded. -/
def included (a : Audit) (files : List (String × Content)) : List (String × Content) :=
  files.filter fun f => ¬ a.Excludes f.1

/-- The entries for the files that are excluded. -/
def excludedEntries (a : Audit) (files : List (String × Content)) : List String :=
  (files.filter fun f => a.Excludes f.1).map fun f => excludedEntry f.1

/-- After some files, the excluded ones among others are passed over one after another. -/
theorem run_append_included (hslow : occasion'.slow = occasion.slow) (request : Request)
    (kept files : List (String × Content)) :
    a.run occasion' { request with files := kept ++ files } =
      (a.run occasion { request with files := kept ++ a.included files }).map
        (withSkipped occasion' (a.excludedEntries files)) := by
  induction files generalizing kept with
  | nil => exact run_skipped hslow rfl rfl (.refl _)
  | cons f files ih =>
      obtain ⟨path, content⟩ := f
      by_cases hf : a.Excludes path
      · have hincluded : a.included ((path, content) :: files) = a.included files := by
          simp [included, hf]
        have hentries : a.excludedEntries ((path, content) :: files) =
            [excludedEntry path] ++ a.excludedEntries files := by
          simp [excludedEntries, hf]
        rw [hincluded, hentries, run_insert_excluded rfl request kept files hf content, ih]
        cases a.run occasion { request with files := kept ++ a.included files } with
        | error e => rfl
        | ok report => exact congrArg Except.ok (withSkipped_withSkipped _ _ _ _ report)
      · have hincluded : a.included ((path, content) :: files) =
            (path, content) :: a.included files := by
          simp [included, hf]
        have hentries : a.excludedEntries ((path, content) :: files) =
            a.excludedEntries files := by
          simp [excludedEntries, hf]
        have hkept := ih (kept ++ [(path, content)])
        rw [List.append_assoc, List.append_assoc] at hkept
        rw [hincluded, hentries]
        exact hkept

/-- **Only the files that are not excluded matter.**  The report on some files is the report on
those among them that are not excluded, with an entry for each of the others. -/
theorem run_included (hslow : occasion'.slow = occasion.slow) (request : Request) :
    a.run occasion' request =
      (a.run occasion { request with files := a.included request.files }).map
        (withSkipped occasion' (a.excludedEntries request.files)) :=
  run_append_included hslow request [] request.files

/-- **Exclusion carries over.**  What globs exclude stays excluded in any directory, whether the
path there is written out or made of its parts, and it stays excluded with more globs; in which
order and how often they are given does not matter.  And a run with one more excluded file, wherever
it is among the files, is the run without it, with one more entry among the skipped files, but for
the id and for the time that it took. -/
theorem exclusion_carries_over :
    (∀ (globs : List String) (d p : String), p.toList.head? ≠ some '/' →
      Exclusion.covers (.texts globs) p = .ok true →
      Exclusion.covers (.texts globs) (d ++ "/" ++ p) = .ok true ∧
      Exclusion.covers (.texts globs) ((Path.ofString d).append (Path.ofString p)).text =
        .ok true) ∧
    (∀ (globs more : List String) (path : String), globs ⊆ more →
      Exclusion.covers (.texts globs) path = .ok true →
      Exclusion.covers (.texts more) path = .ok true) ∧
    (∀ (globs others : List String) (path : String), (∀ g, g ∈ globs ↔ g ∈ others) →
      Exclusion.covers (.texts globs) path = Exclusion.covers (.texts others) path) ∧
    ∀ (a : Audit) (occasion occasion' : Occasion) (request : Request)
      (before after : List (String × Content)) (path : String) (content : Content),
      occasion'.slow = occasion.slow → a.Excludes path →
      a.run occasion' { request with files := before ++ (path, content) :: after } =
        (a.run occasion { request with files := before ++ after }).map
          (withSkipped occasion' [excludedEntry path]) := by
  refine ⟨?_, ?_, ?_, ?_⟩
  · intro globs d p hrelative hcovers
    have hroot : (Path.ofString p).root = "" := Path.rootOf_eq_empty_iff.mpr hrelative
    exact ⟨Exclusion.covers_of_suffix hcovers (Path.parts_suffix_below d hroot),
      Exclusion.covers_of_suffix hcovers (Path.parts_suffix_append d hroot)⟩
  · intro globs more path hmore hcovers
    exact Exclusion.covers_mono hmore hcovers
  · intro globs others path hsame
    exact Exclusion.covers_congr hsame path
  · intro a occasion occasion' request before after path content hslow hexcluded
    exact run_insert_excluded hslow request before after hexcluded content

namespace Shelf

/-- The settings that ask for vulnerabilities outside a directory of others. -/
def excluding : Settings where
  scan := { scanTypes := .texts ["owasp"], exclusions := .texts ["vendor/*"] }

/-- The audit of these settings. -/
def narrowed : Audit :=
  { audit [] with settings := excluding }

end Shelf

/-- A file in a directory of others, wherever that directory is, makes for one more entry. -/
theorem exclusion_carries_over_vendor :
    Exclusion.covers (.texts ["vendor/*"]) "vendor/d.txt" = .ok true ∧
    Exclusion.covers (.texts ["vendor/*", "*.min.js", "vendor/*"]) "web/vendor/d.txt" =
      .ok true ∧
    ∃ report, Shelf.narrowed.run { id := "1" } Shelf.request = .ok report ∧
      report.findings.length = 5 ∧
      Shelf.narrowed.run { id := "2" } { Shelf.request with
        files := Shelf.request.files.take 2 ++ ("web/vendor/d.txt", .text ['z', 'i', 'p']) ::
          Shelf.request.files.drop 2 } =
        .ok (withSkipped { id := "2" } ["web/vendor/d.txt (excluded)"] report) := by
  obtain ⟨hbelow, hmore, hsame, hrun⟩ := exclusion_carries_over
  have hreport : ((Shelf.narrowed.run { id := "1" } Shelf.request).toOption.any fun report =>
      report.findings.length == 5) = true := by
    simp only [Audit.run, Report.aggregate, Finding.sorted, Report.sortedSuppressions,
      circumstances, Sorting.mergeSort_eq_sortWithin]
    decide +kernel
  obtain ⟨report, hreport, hfive⟩ := any_toOption_iff.mp hreport
  have hvendor : Exclusion.covers (.texts ["vendor/*"]) "vendor/d.txt" = .ok true := by
    rw [Exclusion.covers_texts, Except.ok.injEq]
    decide +kernel
  have hweb : Exclusion.covers (.texts ["vendor/*"]) "web/vendor/d.txt" = .ok true :=
    (hbelow ["vendor/*"] "web" "vendor/d.txt" (by decide) hvendor).1
  have hmany : Exclusion.covers (.texts ["*.min.js", "vendor/*"]) "web/vendor/d.txt" =
      .ok true :=
    hmore _ _ _ (by simp) hweb
  refine ⟨hvendor, (hsame _ _ _ (by simp)).trans hmany, report, hreport, eq_of_beq hfive, ?_⟩
  rw [hrun Shelf.narrowed { id := "1" } { id := "2" } Shelf.request _ _ _ _ rfl hweb,
    List.take_append_drop, hreport]
  rfl

end SecurityAudit.Audit
