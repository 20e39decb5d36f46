import SecurityAudit.Proofs.Registration
import SecurityAudit.Proofs.SortWithin
import SecurityAudit.Proofs.Unlimited
import SecurityAudit.Proofs.VectorText
import SecurityAudit.Proofs.WindowedMatching

/-!
# Findings are well formed

Findings are made in three places: from rules, from secret patterns and in the review of policies.
Rules and patterns may be those of a project, with metrics, categories and severities of its own.
All three places keep to the same form: what is scored has the severity of its score and a vector
that can be read again, and what is not scored is a secret.  Each finding is at a line that is
there, and what is found in a file goes by a rule or a pattern of the catalog.
-/

namespace SecurityAudit

/-! ## Scores -/

namespace Cvss

/-- A tenth of a number up to a hundred is between zero and ten. -/
theorem tenth_bounds :
    ∀ n : Fin 101, (0.0 : Float) ≤ n.val.toFloat / 10.0 ∧ n.val.toFloat / 10.0 ≤ 10.0 := by
  decide +kernel

/-- The score of metrics is between zero and ten. -/
theorem Score.value_bounds (m : Metrics) :
    0.0 ≤ (Score.ofMetrics m).value ∧ (Score.ofMetrics m).value ≤ 10.0 := by
  have hmost : m.tenths < 101 := Nat.lt_succ_of_le (Nat.min_le_right _ _)
  exact tenth_bounds ⟨m.tenths, hmost⟩

end Cvss

/-- What a score has to do with the severity of a finding and with the text of its vector. -/
structure Cvss.Score.Fits (score : Cvss.Score) (severity : String) : Prop where
  severity : severity = (Severity.ofScore (.float score.value)).label
  vector : Cvss.Metrics.ofVector score.metrics.vector = .ok score.metrics
  least : 0.0 ≤ score.value
  most : score.value ≤ 10.0

/-- The score of metrics fits the severity that it has. -/
theorem Cvss.Score.fits_ofMetrics (m : Cvss.Metrics) :
    (Cvss.Score.ofMetrics m).Fits (Cvss.Score.ofMetrics m).severity.label where
  severity := rfl
  vector := Cvss.Metrics.ofVector_vector m
  least := (Cvss.Score.value_bounds m).1
  most := (Cvss.Score.value_bounds m).2

/-! ## The form of a finding -/

namespace Finding

/-- A finding is open, and it is either scored, with the severity of its score, or a secret, with a
severity of secrets and an entropy. -/
structure WellFormed (x : Finding) : Prop where
  scored : x.cvss = none ↔ x.category = secretCategory
  score : ∀ score, x.cvss = some score → score.Fits x.severity
  secret : x.category = secretCategory →
    x.severity ∈ ["critical", "high", "medium"] ∧ ∃ n, x.entropy = some n
  status : x.status = "open"

/-- What is scored is well formed unless it counts as a secret. -/
theorem WellFormed.of_score {x : Finding} {m : Cvss.Metrics} (hcvss : x.cvss = some (.ofMetrics m))
    (hseverity : x.severity = (Cvss.Score.ofMetrics m).severity.label)
    (hcategory : x.category ≠ secretCategory) (hstatus : x.status = "open") : x.WellFormed where
  scored := by
    rw [hcvss]
    exact iff_of_false (by simp) hcategory
  score := by
    intro score hscore
    rw [hcvss] at hscore
    obtain rfl := Option.some.inj hscore
    rw [hseverity]
    exact Cvss.Score.fits_ofMetrics m
  secret h := absurd h hcategory
  status := hstatus

end Finding

/-- No category of rules is that of secrets. -/
theorem Category.label_ne_secretCategory (c : Category) : c.label ≠ Finding.secretCategory := by
  cases c <;> decide

/-- The category of policies is not that of secrets. -/
theorem Finding.policyCategory_ne_secretCategory :
    Finding.policyCategory ≠ Finding.secretCategory := by
  decide

/-- The finding of a rule is well formed. -/
theorem Rule.finding_wellFormed (r : Rule) (now : Calendar.Moment) (path : RawText) (h : Hit) :
    (r.findingOf now path h).WellFormed :=
  .of_score rfl rfl r.category.label_ne_secretCategory rfl

/-- The finding of a secret is well formed. -/
theorem SecretPattern.finding_wellFormed (p : SecretPattern) (now : Calendar.Moment)
    (path : RawText) (line : Nat) (c : Detect.Candidate) :
    (p.findingOf now path line c).WellFormed where
  scored := iff_of_true rfl rfl
  score := by
    intro score hscore
    cases hscore
  secret := by
    intro _
    refine ⟨?_, _, rfl⟩
    simp only [findingOf, findingAs]
    cases p.severity <;> decide
  status := rfl

/-- The finding of a remark about a policy is well formed. -/
theorem Iam.Review.finding_wellFormed (r : Iam.Review) (policy : Iam.Policy) (line : Nat)
    (m : Iam.Review.Remark) : (r.findingOf policy line m).WellFormed :=
  .of_score rfl rfl Finding.policyCategory_ne_secretCategory rfl

/-! ## Lines -/

/-- Lines are numbered from one on. -/
theorem SourceFile.number_of_mem_numbered {f : SourceFile} {number : Nat} {line : List Char}
    (h : (number, line) ∈ f.numbered) : 1 ≤ number ∧ number ≤ f.lines.length := by
  obtain ⟨⟨line', i⟩, hmem, hpair⟩ := List.mem_map.mp h
  obtain ⟨rfl, rfl⟩ := Prod.mk.inj hpair
  have hlt := List.snd_lt_of_mem_zipIdx hmem
  exact ⟨Nat.le_add_left 1 i, by omega⟩

namespace Audit

/-- What there may be to find in a file is at one of its lines. -/
theorem InFile.line_bounds {a : Audit} {f : SourceFile} {x : Finding} (h : a.InFile f x) :
    1 ≤ x.line ∧ x.line ≤ f.lines.length := by
  cases h with
  | @rule r h hit _ =>
      obtain ⟨-, -, -, hcut, hmem⟩ := hit
      have hlength := (mapM_eq_ok_iff.mp hcut).length_eq
      rw [Rule.hits_eq] at hmem
      obtain ⟨hleast, hmost⟩ := Rule.line_of_mem_hitsFrom hmem
      simp only [Rule.findingOf, Rule.findingAs]
      exact ⟨by omega, by omega⟩
  | @secret p number c hit _ =>
      obtain ⟨-, -, -, hline, -, -, -⟩ := hit
      obtain ⟨hleast, hmost⟩ := SourceFile.number_of_mem_numbered hline
      simp only [SecretPattern.findingOf, SecretPattern.findingAs]
      exact ⟨by omega, by omega⟩

/-- What there may be to find in a file is well formed. -/
theorem InFile.wellFormed {a : Audit} {f : SourceFile} {x : Finding} (h : a.InFile f x) :
    x.WellFormed := by
  cases h with
  | rule => exact Rule.finding_wellFormed _ _ _ _
  | secret => exact SecretPattern.finding_wellFormed _ _ _ _ _

end Audit

/-- What is found about a policy that is scanned is what a review finds in it, after it has been
read. -/
theorem Audit.exists_review_of_scanPolicy {a : Audit} {label : RawText} {source : PolicySource}
    {found : Found} (h : a.scanPolicy label source = .ok (.scanned found)) {x : Finding}
    (hx : x ∈ found.findings) :
    ∃ (policy : Iam.Policy) (review : Iam.Review), readPolicy source = .ok policy ∧
      review.run policy = .ok found.findings := by
  simp only [scanPolicy] at h
  split at h
  · cases h
  · cases h
  · rename_i policy hread
    split at h
    · cases h
      cases hx
    · simp only [bind_eq_ok_iff, pure_eq_ok_iff] at h
      obtain ⟨findings, hrun, h⟩ := h
      cases h
      exact ⟨policy, _, hread, hrun⟩

/-! ## The findings of a report -/

namespace Finding

/-- A finding is in a file: at one of its lines, and by the one rule of the catalog, or the one
secret pattern, that goes by its id. -/
structure IsInFile (c : Catalog) (path : String) (f : SourceFile) (x : Finding) : Prop where
  file : x.file = path
  least : 1 ≤ x.line
  most : x.line ≤ f.lines.length
  catalog :
    (∃ r ∈ c.rules, x.ruleId = r.id ∧ x.category = r.category.label ∧ x.cvss = some r.score ∧
      ∀ r' ∈ c.rules, r'.id.isFoundAs x.ruleId = true → r' = r) ∨
    ∃ p ∈ c.secrets, x.ruleId = p.id ∧ x.category = secretCategory ∧
      x.severity = p.severity.level.label ∧
      ∀ p' ∈ c.secrets, p'.id.isFoundAs x.ruleId = true → p' = p

/-- A finding is about a policy: at one of its permissions, or at line zero. -/
structure IsAboutPolicy (policy : Iam.Policy) (x : Finding) : Prop where
  file : policy.location = .sound x.file
  category : x.category = policyCategory
  least : 0 ≤ x.line
  most : x.line ≤ policy.permissions.length

end Finding

namespace Audit

/-- What there may be to find in a file is by a rule or a secret pattern of the catalog. -/
theorem InFile.isInFile {s s' : Settings} {project : Option Project} {c : Catalog}
    {now : Calendar.Moment} {a : Audit} (hcatalog : Catalog.ofSettings s' project = .ok c)
    (ha : Audit.ofSettings s c now = .ok a) {f : SourceFile} {x : Finding} (h : a.InFile f x) :
    x.IsInFile c f.path.readable f := by
  obtain ⟨hrules, hsecrets⟩ := Catalog.registered_of_ofSettings hcatalog
  obtain ⟨-, hdetectors⟩ := detectors_of_ofSettings ha
  obtain ⟨hleast, hmost⟩ := h.line_bounds
  refine ⟨h.file_eq, hleast, hmost, ?_⟩
  cases h with
  | @rule r h hit _ =>
      obtain ⟨detector, rule, -, -, -⟩ := hit
      obtain ⟨_, heq⟩ | ⟨_, heq, -⟩ := hdetectors _ detector
      · cases heq
        exact .inl ⟨r, rule, rfl, rfl, rfl, fun r' hr' hfound =>
          hrules.eq_of_isFoundAs hr' rule hfound⟩
      · cases heq
  | @secret p _ _ hit _ =>
      obtain ⟨detector, pattern, -, -, -, -, -⟩ := hit
      obtain ⟨_, heq⟩ | ⟨_, heq, hpatterns⟩ := hdetectors _ detector
      · cases heq
      · cases heq
        have hp := hpatterns ▸ pattern
        exact .inr ⟨p, hp, rfl, rfl, rfl, fun p' hp' hfound =>
          hsecrets.eq_of_isFoundAs hp' hp hfound⟩

/-- **Every finding of a report is well formed.**  Let a catalog be built from the built-in rules
and whatever rules a project brings, and let an audit be put together from it with settings that
make sense.  Then every finding of every report has the form of a finding, and its severity is at or
above the threshold.  It is in one of the files that were given, at a line that the file has, by the
one rule or secret pattern of the catalog that has its id; or it is about one of the policies that
were given, at one of its permissions or at the policy as a whole. -/
theorem run_wellFormed {s s' : Settings} {project : Option Project} {c : Catalog}
    {now : Calendar.Moment} {a : Audit} (hcatalog : Catalog.ofSettings s' project = .ok c)
    (ha : Audit.ofSettings s c now = .ok a) {occasion : Occasion} {request : Request}
    {report : Report} (hrun : a.run occasion request = .ok report) :
    ∃ threshold, s.scan.severityThreshold = .text threshold ∧
      ∀ x ∈ report.findings, x.WellFormed ∧
        Severity.atOrAbove x.severity threshold = true ∧
        ((∃ path content f, (path, content) ∈ request.files ∧
            SourceFile.read .utf8 path content = .ok f ∧ x.IsInFile c path f) ∨
          ∃ source ∈ request.policies, ∃ policy, readPolicy source = .ok policy ∧
            x.IsAboutPolicy policy) := by
  obtain ⟨-, -, -, hthreshold, -, -⟩ := ofSettings_eq_ok_iff.mp ha
  refine ⟨a.threshold, ?_, fun x hx => ?_⟩
  · cases hvalue : s.scan.severityThreshold <;> rw [hvalue] at hthreshold <;> cases hthreshold
    rfl
  obtain ⟨files, policies, haccounts⟩ := accounts_of_run hrun
  have hkept := (List.mem_filter.mp (haccounts.findings.mem_iff.mp hx)).2
  cases run_source hrun hx with
  | @file path content f _ file read found =>
      have hin := found.isInFile hcatalog ha
      rw [path_of_read read] at hin
      exact ⟨found.wellFormed, hkept, .inl ⟨path, content, f, file, read, hin⟩⟩
  | @policy source label found _ hsource scan hmem =>
      obtain ⟨policy, review, hread, hreview⟩ := exists_review_of_scanPolicy scan hmem
      obtain ⟨hlocated, line, m, hline, rfl⟩ := Iam.Review.exists_remark_of_mem hreview hmem
      refine ⟨Iam.Review.finding_wellFormed review policy line m, hkept,
        .inr ⟨source, hsource, policy, hread, ?_, rfl, ?_, ?_⟩⟩
      · exact RawText.eq_sound_of_isSound hlocated
      · exact Int.natCast_nonneg line
      · exact Int.ofNat_le.mpr hline

namespace Desk

/-- A project with a rule of its own. -/
def project : Project where
  tree := {
    root := .directory [(".vulnaudit-rules", .directory [("own.yaml", .file (Text.utf8Bytes
      "id: TODO_LEFT\ncategory: xss\npattern: TODO\n".toList))])] }
  root := Path.ofString "."

/-- The settings that enable nothing but that rule.  What an entropy comes to is out of the kernel's
reach, so that no secret pattern is enabled. -/
def settings : Settings where
  rules := { enable := .texts ["TODO_LEFT"] }

/-- A line with something left to do, and a policy that grants everything. -/
def request : Request where
  files := [("page.py", .text "x = 1 # TODO".toList)]
  policies := [.policy {
    name := "all"
    provider := "aws"
    permissions := [{ action := "*", resource := "*" }]
    lastUsed := none }]

end Desk

/-- The rule of the project makes one finding and the review of the policy makes three, all of them
well formed. -/
theorem run_wellFormed_desk :
    ∃ c a report,
      Catalog.ofSettings Desk.settings (some Desk.project) = .ok c ∧
      Audit.ofSettings Desk.settings c ⟨0, none⟩ = .ok a ∧
      a.run { id := "1" } Desk.request = .ok report ∧
      report.findings.length = 4 ∧ ∀ x ∈ report.findings, x.WellFormed := by
  have hsteps : ((Catalog.ofSettings Desk.settings (some Desk.project)).toOption.any fun c =>
      (Audit.ofSettings Desk.settings c ⟨0, none⟩).toOption.any fun a =>
        (a.run { id := "1" } Desk.request).toOption.any fun report =>
          report.findings.length == 4) = true := by
    simp only [Catalog.ofSettings, CatalogBuilder.prepare, CatalogBuilder.loadCustom,
      CatalogBuilder.loadDirectory, Audit.run, Report.aggregate, Finding.sorted,
      Report.sortedSuppressions, circumstances, Sorting.mergeSort_eq_sortWithin]
    decide +kernel
  obtain ⟨c, hcatalog, hsteps⟩ := any_toOption_iff.mp hsteps
  obtain ⟨a, haudit, hsteps⟩ := any_toOption_iff.mp hsteps
  obtain ⟨report, hrun, hfour⟩ := any_toOption_iff.mp hsteps
  obtain ⟨threshold, -, hall⟩ := run_wellFormed hcatalog haudit hrun
  exact ⟨c, a, report, hcatalog, haudit, hrun, eq_of_beq hfour, fun x hx => (hall x hx).1⟩

end Audit

end SecurityAudit
