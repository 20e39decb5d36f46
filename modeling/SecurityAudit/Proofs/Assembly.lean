import SecurityAudit.Proofs.Provenance

/-!
# How an audit is put together

An audit has its parts from the settings and the catalog: what runs on files, how policies are
reviewed, and the threshold.  Each is described once here, and so is what follows for what the audit
finds in files: it goes by the rules and the secret patterns of the catalog.
-/

namespace SecurityAudit

namespace Audit

/-- An audit is put together from settings that make sense, with what runs on files, with how
policies are reviewed, and with a threshold. -/
theorem ofSettings_eq_ok_iff {s : Settings} {c : Catalog} {now : Calendar.Moment} {a : Audit} :
    Audit.ofSettings s c now = .ok a ↔
      s.check = .ok () ∧ detectorsFor s c = .ok a.detectors ∧ reviewFor s c now = .ok a.review ∧
        s.scan.severityThreshold.text? = some a.threshold ∧ a.settings = s ∧ a.now = now := by
  simp only [Audit.ofSettings, assemble, bind_eq_ok_iff, allowing_eq_ok_iff]
  constructor
  · rintro ⟨_, hcheck, detectors, hdetectors, review, hreview, h⟩
    split at h
    · cases h
      exact ⟨hcheck, hdetectors, hreview, by assumption, rfl, rfl⟩
    · cases h
  · rintro ⟨hcheck, hdetectors, hreview, hthreshold, rfl, rfl⟩
    refine ⟨(), hcheck, _, hdetectors, _, hreview, ?_⟩
    simp only [hthreshold]
    rfl

/-- What looks for vulnerabilities in files, if the settings ask for it. -/
def vulnerabilitiesFor (s : Settings) (c : Catalog) : List FileDetector :=
  if s.scan.enabled "owasp" then [.vulnerabilities c.rules s.scan.maxLineLength] else []

/-- What runs on files: what looks for vulnerabilities, and after it what looks for secrets if the
settings ask for it. -/
theorem detectorsFor_eq_ok_iff {s : Settings} {c : Catalog} {ds : List FileDetector} :
    detectorsFor s c = .ok ds ↔
      (s.scan.enabled "secrets" = false ∧ ds = vulnerabilitiesFor s c) ∨
      ∃ scan, s.scan.enabled "secrets" = true ∧
        Detect.SecretScan.ofSettings c.secrets s = .ok scan ∧
        ds = vulnerabilitiesFor s c ++ [.secrets scan] := by
  rw [detectorsFor, ← vulnerabilitiesFor]
  cases hsecrets : s.scan.enabled "secrets" with
  | true =>
      simp only [if_true, bind_eq_ok_iff, pure_eq_ok_iff]
      simp [eq_comm (a := ds)]
  | false => simp [pure_eq_ok_iff, eq_comm (a := ds)]

/-- An audit that is put together from settings and a catalog has the settings, and what it looks
for in files is in the catalog. -/
theorem detectors_of_ofSettings {s : Settings} {c : Catalog} {now : Calendar.Moment} {a : Audit}
    (h : Audit.ofSettings s c now = .ok a) :
    a.settings = s ∧ ∀ d ∈ a.detectors, (∃ cap, d = .vulnerabilities c.rules cap) ∨
      ∃ scan, d = .secrets scan ∧ scan.patterns = c.secrets := by
  obtain ⟨-, hdetectors, -, -, hsettings, -⟩ := ofSettings_eq_ok_iff.mp h
  have hrules : ∀ d ∈ vulnerabilitiesFor s c, ∃ cap, d = .vulnerabilities c.rules cap := by
    intro d hd
    rw [vulnerabilitiesFor] at hd
    split at hd
    · exact ⟨_, List.mem_singleton.mp hd⟩
    · cases hd
  refine ⟨hsettings, fun d hd => ?_⟩
  obtain ⟨-, hds⟩ | ⟨scan, -, hscan, hds⟩ := detectorsFor_eq_ok_iff.mp hdetectors
  · exact .inl (hrules d (hds ▸ hd))
  · rw [hds, List.mem_append, List.mem_singleton] at hd
    simp only [Detect.SecretScan.ofSettings, bind_eq_ok_iff, pure_eq_ok_iff] at hscan
    obtain ⟨_, -, _, -, rfl⟩ := hscan
    exact hd.imp (hrules d) fun hd => ⟨_, hd, rfl⟩

/-- What is found in files is the finding of a rule or of a secret pattern of the catalog. -/
theorem exists_of_inFile {s : Settings} {c : Catalog} {now : Calendar.Moment} {a : Audit}
    (ha : Audit.ofSettings s c now = .ok a) {f : SourceFile} {x : Finding} (hx : a.InFile f x) :
    (∃ r ∈ c.rules, ∃ h, x = r.findingOf a.now f.path h) ∨
      ∃ p ∈ c.secrets, ∃ number candidate, x = p.findingOf a.now f.path number candidate := by
  have hdetectors := (detectors_of_ofSettings ha).2
  cases hx with
  | @rule r h hit =>
      obtain ⟨detector, rule, -, -, -⟩ := hit
      obtain ⟨_, heq⟩ | ⟨_, heq, -⟩ := hdetectors _ detector
      · cases heq
        exact .inl ⟨r, rule, h, rfl⟩
      · cases heq
  | @secret p number candidate hit =>
      obtain ⟨detector, pattern, -, -, -, -, -⟩ := hit
      obtain ⟨_, heq⟩ | ⟨_, heq, hpatterns⟩ := hdetectors _ detector
      · cases heq
      · cases heq
        exact .inr ⟨p, hpatterns ▸ pattern, number, candidate, rfl⟩

/-- What is found in files goes by the ids of the catalog. -/
theorem exists_id_of_inFile {s : Settings} {c : Catalog} {now : Calendar.Moment} {a : Audit}
    (ha : Audit.ofSettings s c now = .ok a) {f : SourceFile} {x : Finding} (hx : a.InFile f x) :
    (∃ r ∈ c.rules, x.ruleId = r.id) ∨ ∃ p ∈ c.secrets, x.ruleId = p.id := by
  rcases exists_of_inFile ha hx with ⟨r, hr, h, rfl⟩ | ⟨p, hp, number, candidate, rfl⟩
  · exact .inl ⟨r, hr, rfl⟩
  · exact .inr ⟨p, hp, rfl⟩

end Audit

end SecurityAudit
