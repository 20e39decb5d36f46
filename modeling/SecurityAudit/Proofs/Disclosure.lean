import SecurityAudit.Proofs.Provenance
import SecurityAudit.Proofs.SortWithin
import SecurityAudit.Rule.Builtin

/-!
# What the evidence of a report discloses

The evidence of a secret is masked, the evidence of a rule is what the rule has matched, and nobody
compares the two.  So the findings of secrets disclose no long text, but for one that holds a star
itself; what a rule has matched may hold a secret, and a report then shows it.
-/

namespace SecurityAudit

namespace Detect

/-- A masked text is as long as the text. -/
theorem length_masked (w : List Char) : (masked w).length = w.length := by
  by_cases hshort : w.length ≤ 2 * 4
  · simp [masked, shownEnds, hshort]
  · simp only [masked, shownEnds, hshort, if_false, List.length_append, List.length_take,
      List.length_replicate, List.length_drop]
    omega

/-- Between its ends a masked text has stars. -/
theorem masked_getElem {w : List Char} {i : Nat} (hfirst : 4 ≤ i) (hlast : i + 4 < w.length) :
    (masked w)[i]? = some '*' := by
  have hlong : ¬ w.length ≤ 2 * 4 := by omega
  have htake : (w.take 4).length = 4 := by
    rw [List.length_take]
    omega
  simp only [masked, shownEnds, hlong, if_false]
  rw [List.getElem?_append_left (by simp; omega), List.getElem?_append_right (by omega),
    List.getElem?_replicate_of_lt (by omega)]

/-- **A long part of a masked text has a star.** -/
theorem star_mem_of_infix_masked {v w : List Char} (h : v <:+: masked w) (hv : 8 < v.length) :
    '*' ∈ v := by
  obtain ⟨before, after, hw⟩ := h
  have hlength := congrArg List.length hw
  simp only [List.length_append, length_masked] at hlength
  -- The fifth character of the masked text is a star, and so is every one after it up to the last
  -- four; the first of them that is not before the part belongs to the part.
  have hstar : v[4 - before.length]? = some '*' := by
    rw [← masked_getElem (w := w) (i := before.length + (4 - before.length)) (by omega) (by omega),
      ← hw, List.append_assoc, List.getElem?_append_right (by omega),
      List.getElem?_append_left (by omega)]
    congr 1
    omega
  exact List.mem_of_getElem? hstar

/-- A text with a star in the right place is its own mask. -/
example : masked "abcd*wxyz".toList = "abcd*wxyz".toList := by decide

end Detect

/-- The evidence of a finding shows a text. -/
def Finding.Discloses (x : Finding) (v : List Char) : Prop :=
  v <:+: x.evidence.toList

instance (x : Finding) (v : List Char) : Decidable (x.Discloses v) :=
  inferInstanceAs (Decidable (v <:+: x.evidence.toList))

/-- The finding of a hit discloses what the evidence of the hit holds. -/
theorem Rule.finding_discloses_iff {r : Rule} {now : Calendar.Moment} {path : RawText} {h : Hit}
    {v : List Char} : (r.findingOf now path h).Discloses v ↔ v <:+: Detect.evidence h.text := by
  simp [Finding.Discloses, findingOf, findingAs]

/-- The finding of a secret discloses what the masked secret holds. -/
theorem SecretPattern.finding_discloses_iff {p : SecretPattern} {now : Calendar.Moment}
    {path : RawText} {number : Nat} {c : Detect.Candidate} {v : List Char} :
    (p.findingOf now path number c).Discloses v ↔ v <:+: Detect.masked c.value := by
  simp [Finding.Discloses, findingOf, findingAs]

namespace Audit

/-- **Where a long text is disclosed.**  A report shows a text of more than eight characters in what
a rule has matched in one of the files, or in what a policy grants.  The evidence of a secret shows
such a text only if the text holds a star. -/
theorem discloses_iff {a : Audit} {occasion : Occasion} {request : Request} {report : Report}
    (h : a.run occasion request = .ok report) {v : List Char} (hv : 8 < v.length) :
    (∃ x ∈ report.findings, x.Discloses v) ↔
      (∃ path content f r hit, (path, content) ∈ request.files ∧
        SourceFile.read .utf8 path content = .ok f ∧ a.RuleHit f r hit ∧
        r.findingOf a.now f.path hit ∈ report.findings ∧ v <:+: Detect.evidence hit.text) ∨
      ('*' ∈ v ∧ ∃ path content f p number c, (path, content) ∈ request.files ∧
        SourceFile.read .utf8 path content = .ok f ∧ a.SecretHit f p number c ∧
        p.findingOf a.now f.path number c ∈ report.findings ∧ v <:+: Detect.masked c.value) ∨
      (∃ source ∈ request.policies, ∃ label found,
        a.scanPolicy label source = .ok (.scanned found) ∧
        ∃ x ∈ found.findings, x ∈ report.findings ∧ x.Discloses v) := by
  constructor
  · rintro ⟨x, hx, hdiscloses⟩
    cases run_source h hx with
    | @file path content f _ hfile hread hfound =>
        cases hfound with
        | @rule r hit hhit _ =>
            exact .inl ⟨path, content, f, r, hit, hfile, hread, hhit, hx,
              Rule.finding_discloses_iff.mp hdiscloses⟩
        | @secret p number c hhit _ =>
            have hmasked := SecretPattern.finding_discloses_iff.mp hdiscloses
            exact .inr (.inl ⟨Detect.star_mem_of_infix_masked hmasked hv, path, content, f, p,
              number, c, hfile, hread, hhit, hx, hmasked⟩)
    | @policy source label found _ hpolicy hscan hfound =>
        exact .inr (.inr ⟨source, hpolicy, label, found, hscan, x, hfound, hx, hdiscloses⟩)
  · rintro (⟨_, _, f, r, hit, -, -, -, hx, hdiscloses⟩ |
      ⟨-, _, _, f, p, number, c, -, -, -, hx, hdiscloses⟩ |
      ⟨_, -, _, _, -, x, -, hx, hdiscloses⟩)
    · exact ⟨_, hx, Rule.finding_discloses_iff.mpr hdiscloses⟩
    · exact ⟨_, hx, SecretPattern.finding_discloses_iff.mpr hdiscloses⟩
    · exact ⟨x, hx, hdiscloses⟩

/-! ## A page that discloses a password -/

namespace Login

/-- A line that sets a password, and hashes it with a fast digest. -/
def line : List Char :=
  "password = \"abcdefghijklmnop\"; digest = md5(password)".toList

/-- The password. -/
def password : List Char :=
  "abcdefghijklmnop".toList

/-- The request to look at the page. -/
def request : Request where
  files := [("login.py", .text line)]

/-- The settings that ask for vulnerabilities and for secrets. -/
def settings : Settings where
  scan := { scanTypes := .texts ["owasp", "secrets"] }

/-- A rule about passwords and the pattern of passwords. -/
def catalog : Catalog where
  rules := [Builtin.weakPasswordHash]
  secrets := [Builtin.hardcodedPassword]
  actions := []

/-- The audit of the settings and the catalog. -/
def audit : Audit where
  settings := settings
  threshold := "low"
  detectors := [.vulnerabilities [Builtin.weakPasswordHash] (.int 4096),
    .secrets {
      patterns := [Builtin.hardcodedPassword]
      lineMarkers := ["example".toList, "placeholder".toList, "dummy".toList]
      pathMarkers := ["test".toList, "spec".toList, "mock".toList, "fixture".toList]
      cap := .int 4096 }]
  review := none
  now := ⟨0, none⟩

/-- The page. -/
def page : SourceFile where
  path := .sound "login.py"
  lines := [line]
  language := "python"

theorem ofSettings_eq : Audit.ofSettings settings catalog ⟨0, none⟩ = .ok audit := by
  rfl

theorem read_eq : SourceFile.read .utf8 "login.py" (.text line) = .ok page := by
  rfl

/-- There is a report on the page, and it discloses the password. -/
theorem exists_report :
    ∃ report, audit.run { id := "1" } request = .ok report ∧
      ∃ x ∈ report.findings, x.Discloses password := by
  have hrun : ((audit.run { id := "1" } request).toOption.any fun report =>
      report.findings.any fun x => x.Discloses password) = true := by
    simp only [Audit.run, Report.aggregate, Finding.sorted, Report.sortedSuppressions,
      circumstances, Sorting.mergeSort_eq_sortWithin]
    decide +kernel
  obtain ⟨report, hreport, hany⟩ := any_toOption_iff.mp hrun
  obtain ⟨x, hx, hdiscloses⟩ := List.any_eq_true.mp hany
  exact ⟨report, hreport, x, hx, of_decide_eq_true hdiscloses⟩

/-- The password is a secret that the audit reports. -/
theorem exists_secretHit :
    ∃ c, audit.SecretHit page Builtin.hardcodedPassword 1 c ∧ c.value = password := by
  have hfirst : ((Detect.candidates Builtin.hardcodedPassword line).head?.map
      Detect.Candidate.value) = some password := by
    decide +kernel
  obtain ⟨c, hc, hvalue⟩ := Option.map_eq_some_iff.mp hfirst
  exact ⟨c, .intro (List.mem_cons_of_mem _ List.mem_cons_self) List.mem_cons_self
    (by decide +kernel) List.mem_cons_self rfl (by decide +kernel) hc, hvalue⟩

end Login

/-- **A reported secret is not always masked.**  The pattern of passwords reports the password on
the page, and a rule whose match holds the password shows it. -/
theorem exists_secret_disclosed :
    ∃ (s : Settings) (c : Catalog) (a : Audit) (request : Request) (report : Report)
      (f : SourceFile) (p : SecretPattern) (number : Nat) (secret : Detect.Candidate),
      Audit.ofSettings s c a.now = .ok a ∧ s.scan.enabled "owasp" = true ∧
      s.scan.enabled "secrets" = true ∧ a.run { id := "1" } request = .ok report ∧
      (∃ path content, (path, content) ∈ request.files ∧
        SourceFile.read .utf8 path content = .ok f) ∧
      a.SecretHit f p number secret ∧ 8 < secret.value.length ∧
      ∃ x ∈ report.findings, x.Discloses secret.value := by
  obtain ⟨report, hreport, hdiscloses⟩ := Login.exists_report
  obtain ⟨secret, hsecret, hvalue⟩ := Login.exists_secretHit
  refine ⟨Login.settings, Login.catalog, Login.audit, Login.request, report, Login.page,
    Builtin.hardcodedPassword, 1, secret, Login.ofSettings_eq, rfl, rfl, hreport,
    ⟨_, _, List.mem_cons_self, Login.read_eq⟩, hsecret, ?_, ?_⟩
  · rw [hvalue]
    decide
  · rw [hvalue]
    exact hdiscloses

/-- The password on the page has no star and there is no policy, so what shows it is a rule. -/
theorem discloses_iff_login :
    ∃ report, Login.audit.run { id := "1" } Login.request = .ok report ∧
      ∃ path content f r hit, (path, content) ∈ Login.request.files ∧
        SourceFile.read .utf8 path content = .ok f ∧ Login.audit.RuleHit f r hit ∧
        r.findingOf Login.audit.now f.path hit ∈ report.findings ∧
        Login.password <:+: Detect.evidence hit.text := by
  obtain ⟨report, hreport, hdiscloses⟩ := Login.exists_report
  refine ⟨report, hreport, ?_⟩
  rcases (discloses_iff hreport (v := Login.password) (by decide)).mp hdiscloses with
    hrule | ⟨hstar, -⟩ | ⟨source, hsource, -⟩
  · exact hrule
  · exact absurd hstar (by decide)
  · cases hsource

end Audit

end SecurityAudit
