import SecurityAudit.Proofs.CatalogHistory
import SecurityAudit.Proofs.Completion

/-!
# Checked settings and audits

Settings with values of the declared types that pass the check make an audit, with every catalog
that a builder can make, but for one number that the check lets through.  It asks for at least one
day after which a policy is stale and for no upper bound, and a length of time of more than
999999999 days there is not.  So settings that have policies reviewed after more days than that pass
the check and are refused when the audit is put together (`ofSettings_of_declared`).
-/

namespace SecurityAudit

/-! ## Declared types -/

/-- A value counts as a whole number, however large; a truth value does. -/
def Value.IsInteger (v : Value) : Prop :=
  ∃ n, v.number? = some (.int n)

namespace Settings

/-- The options that are texts. -/
def textOptions (s : Settings) : List Value :=
  [s.scan.severityThreshold, s.scan.failOn, s.rules.customDir, s.output.format]

/-- Every option has a value of its declared type.  A time may be what is no number. -/
structure HasDeclaredTypes (s : Settings) : Prop where
  texts : ∀ v ∈ s.textOptions, v.IsText
  lists : ∀ v ∈ s.lists, v.IsTexts
  counts : ∀ v ∈ s.counts, v.IsInteger
  maxFindings : s.scan.maxFindings = .null ∨ s.scan.maxFindings.IsInteger
  timeout : s.scan.timeout = .null ∨ ∃ n, s.scan.timeout.number? = some n
  showSummary : ∃ b, s.output.showSummary = .bool b

end Settings

/-! ## Builders -/

/-- A builder that is made by calls and by loading directories, from a new one or from the one with
the built-in rules.  A step may have failed halfway. -/
inductive CatalogBuilder.IsReached : CatalogBuilder → Prop
  | empty : IsReached .empty
  | builtin : IsReached Builtin.builder
  | told {b : CatalogBuilder} (call : Call) (hb : IsReached b) : IsReached (b.told call)
  | loaded {b : CatalogBuilder} (t : Tree) (directory : Path) (hb : IsReached b) :
      IsReached ((loadDirectory t directory).run.run b).2

/-- However a builder is made, it holds every id once. -/
theorem CatalogBuilder.IsReached.isRegistered {b : CatalogBuilder} (h : b.IsReached) :
    b.IsRegistered := by
  induction h with
  | empty => exact after_isRegistered []
  | builtin => exact Builtin.builder_isRegistered
  | told call _ ih => exact told_isRegistered ih call
  | loaded t directory _ ih => exact loadDirectory_keeps t directory _ ih

/-! ## Lengths of time -/

/-- A number of days is a length of time of that many whole days. -/
theorem Calendar.wholeDays_mul_day (n : Int) : wholeDays (n * day) = n :=
  Int.mul_fdiv_cancel n (by decide)

/-- **A length of time of some days** is one of at most 999999999 days. -/
theorem Iam.Review.ofDays_of_integer {v : Value} {n : Int} (hv : v.number? = some (.int n))
    (hn : 1 ≤ n) :
    ofDays v = if 999999999 < n then .error .tooLarge else .ok (n * Calendar.day) := by
  have hbound : (n < -maxDays || maxDays < n) = decide (999999999 < n) := by
    have hlower : ¬n < -maxDays := by
      rw [maxDays]
      omega
    rw [decide_eq_false hlower, Bool.false_or, maxDays]
  rw [ofDays, hv]
  simp only [bounded, Calendar.wholeDays_mul_day, hbound, decide_eq_true_eq]

namespace Audit

variable {s : Settings} {b : CatalogBuilder}

/-- Settings have policies reviewed, and call them stale after more days than a length of time can
have. -/
def AsksTooLong (s : Settings) : Prop :=
  s.scan.enabled "iam" = true ∧
    ∃ n : Int, s.iam.staleAfterDays.number? = some (.int n) ∧ 999999999 < n

/-- An audit is the one that settings and a catalog describe: it has their threshold, what they
enable runs on files, with the rules, the secret patterns and the markers, and if they have policies
reviewed, it is with the dangerous actions and after the number of days. -/
structure IsBuiltFrom (a : Audit) (s : Settings) (c : Catalog) (moment : Calendar.Moment) :
    Prop where
  settings : a.settings = s
  now : a.now = moment
  threshold : s.scan.severityThreshold = .text a.threshold
  detectors : ∃ lineMarkers pathMarkers, s.secrets.skipMarkers = .texts lineMarkers ∧
    s.secrets.skipPathMarkers = .texts pathMarkers ∧
    a.detectors = detectorsWith s c lineMarkers pathMarkers
  review : ∃ n, s.iam.staleAfterDays.number? = some (.int n) ∧
    a.review = if s.scan.enabled "iam" then some ⟨c.actions, n * Calendar.day, moment⟩ else none

/-- How policies are reviewed after a whole number of days. -/
theorem reviewFor_of_integer {n : Int} (hv : s.iam.staleAfterDays.number? = some (.int n))
    (hn : 1 ≤ n) (c : Catalog) (now : Calendar.Moment) :
    reviewFor s c now =
      if s.scan.enabled "iam" = true ∧ 999999999 < n then .error .tooLarge
      else
        .ok (if s.scan.enabled "iam" then some ⟨c.actions, n * Calendar.day, now⟩ else none) := by
  rw [reviewFor]
  cases s.scan.enabled "iam" with
  | false => simp [pure, Except.pure]
  | true =>
      rw [if_pos rfl, if_pos rfl, Iam.Review.make, Iam.Review.ofDays_of_integer hv hn]
      simp only [true_and]
      split <;> rfl

/-- **Checked settings with values of the declared types make the audit that they describe**, with
every catalog that a builder makes, unless they have policies reviewed after more than 999999999
days; then they are refused.  In the catalog every id can be a key and names one rule, so there can
be a table of what the rules score. -/
theorem ofSettings_of_declared (htypes : s.HasDeclaredTypes) (hcheck : s.check = .ok ())
    (hb : b.IsReached) (now : Calendar.Moment) :
    (¬AsksTooLong s → ∃ a, Audit.ofSettings s b.build now = .ok a ∧ a.IsBuiltFrom s b.build now) ∧
      (AsksTooLong s → Audit.ofSettings s b.build now = .error (.refused .tooLarge)) ∧
      CatalogBuilder.Registered Rule.id b.build.rules := by
  have haccepted := Settings.check_eq_ok_iff.mp hcheck
  obtain ⟨-, -, -, -, ⟨lineMarkers, hline⟩, ⟨pathMarkers, hpath⟩, -⟩ :=
    Settings.forall_lists_iff.mp htypes.lists
  obtain ⟨-, -, n, hn⟩ := Settings.forall_counts_iff.mp htypes.counts
  obtain ⟨level, -, hthreshold⟩ := haccepted.threshold
  have hleast : 1 ≤ n := haccepted.staleAfterDays.one_le hn
  have hlong : AsksTooLong s ↔ s.scan.enabled "iam" = true ∧ 999999999 < n := by
    simp [AsksTooLong, hn]
  have hbuilt : Audit.ofSettings s b.build now =
      allowing ((reviewFor s b.build now).map fun review =>
        ⟨s, level.label, detectorsWith s b.build lineMarkers pathMarkers, review, now⟩) := by
    rw [Audit.ofSettings, hcheck,
      assemble_eq_map (detectorsFor_of_texts hline hpath b.build) hthreshold]
    rfl
  rw [reviewFor_of_integer hn hleast] at hbuilt
  refine ⟨fun h => ?_, fun h => ?_, hb.isRegistered.build.1⟩
  · rw [if_neg (mt hlong.mpr h)] at hbuilt
    exact ⟨_, hbuilt, rfl, rfl, hthreshold, ⟨_, _, hline, hpath, rfl⟩, ⟨n, hn, rfl⟩⟩
  · rw [if_pos (hlong.mp h)] at hbuilt
    exact hbuilt

/-- The settings that hold when nothing is said, but for the days after which a policy is stale. -/
def withStaleDays (n : Int) : Settings :=
  { iam := { staleAfterDays := .int n } }

theorem hasDeclaredTypes_withStaleDays (n : Int) : (withStaleDays n).HasDeclaredTypes where
  texts := by simp [Settings.textOptions, withStaleDays, Value.IsText]
  lists := Settings.hasKinds_default.lists
  counts := Settings.forall_counts_iff.mpr ⟨⟨4, rfl⟩, ⟨4096, rfl⟩, ⟨n, rfl⟩⟩
  maxFindings := .inl rfl
  timeout := .inr ⟨_, rfl⟩
  showSummary := ⟨true, rfl⟩

theorem check_withStaleDays {n : Int} (hn : 1 ≤ n) : (withStaleDays n).check = .ok () := by
  have hbelow : (Number.int n).below (.int 1) = false := by
    rw [Number.below_int, decide_eq_false_iff_not]
    omega
  have hpasses : (({} : Settings).check.toOption.any fun _ => true) = true := by decide +kernel
  obtain ⟨_, hdefault, -⟩ := any_toOption_iff.mp hpasses
  exact Settings.check_eq_ok_iff.mpr
    { Settings.check_eq_ok_iff.mp hdefault with staleAfterDays := ⟨.int n, rfl, hbelow⟩ }

/-- With the longest time there is and the built-in rules, there is an audit. -/
theorem ofSettings_longest_time :
    (withStaleDays 999999999).HasDeclaredTypes ∧ (withStaleDays 999999999).check = .ok () ∧
      Builtin.builder.IsReached ∧
      ∃ a, Audit.ofSettings (withStaleDays 999999999) Builtin.builder.build ⟨0, some 0⟩ = .ok a ∧
        a.IsBuiltFrom (withStaleDays 999999999) Builtin.builder.build ⟨0, some 0⟩ := by
  have htypes := hasDeclaredTypes_withStaleDays 999999999
  have hcheck : (withStaleDays 999999999).check = .ok () := check_withStaleDays (by decide)
  have hshort : ¬AsksTooLong (withStaleDays 999999999) := by
    rintro ⟨-, n, hn, hlong⟩
    obtain rfl : (999999999 : Int) = n := by simpa [withStaleDays, Value.number?] using hn
    exact absurd hlong (by decide)
  obtain ⟨hbuilt, -, -⟩ := ofSettings_of_declared htypes hcheck .builtin ⟨0, some 0⟩
  exact ⟨htypes, hcheck, .builtin, hbuilt hshort⟩

/-- One more day passes the check, and the audit is refused. -/
theorem ofSettings_beyond_longest_time :
    (withStaleDays 1000000000).HasDeclaredTypes ∧ (withStaleDays 1000000000).check = .ok () ∧
      Builtin.builder.IsReached ∧
      Audit.ofSettings (withStaleDays 1000000000) Builtin.builder.build ⟨0, some 0⟩ =
        .error (.refused .tooLarge) := by
  have hcheck : (withStaleDays 1000000000).check = .ok () := check_withStaleDays (by decide)
  refine ⟨hasDeclaredTypes_withStaleDays _, hcheck, .builtin, ?_⟩
  have hdetectors := detectorsFor_of_texts (s := withStaleDays 1000000000) rfl rfl
    Builtin.builder.build
  rw [Audit.ofSettings, hcheck, assemble_eq_map hdetectors rfl,
    reviewFor_of_integer (n := 1000000000) rfl (by decide), if_pos (by decide)]
  rfl

end Audit

end SecurityAudit
