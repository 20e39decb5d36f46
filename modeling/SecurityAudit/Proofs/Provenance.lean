import SecurityAudit.Proofs.Accounting
import SecurityAudit.Proofs.PolicyReview
import SecurityAudit.Proofs.Reportable

/-!
# Where findings come from

Every finding of a report is that of a rule at a hit, that of a secret pattern at a secret that is
random enough, or one of the review of a policy.  Budgets, suppressions and thresholds take findings
away and never change one.
-/

namespace SecurityAudit

/-- What a budget admits is the beginning of what it is offered. -/
theorem Budget.accept_prefix {α : Type} {b b' : Budget} {offered admitted : List α}
    (h : b.accept offered = .ok (admitted, b')) : admitted <+: offered := by
  simp only [Budget.accept, bind_eq_ok_iff] at h
  obtain ⟨room, -, h⟩ := h
  cases room with
  | none =>
      simp only [pure_eq_ok_iff, Prod.mk.injEq] at h
      obtain ⟨rfl, -⟩ := h
      exact List.prefix_rfl
  | some n =>
      simp only [pure_eq_ok_iff, Prod.mk.injEq] at h
      obtain ⟨rfl, -⟩ := h
      exact List.take_prefix n offered

/-- What has been found is made of findings with some property: those that stay, and those that the
suppressions are about. -/
structure Found.MadeOf (P : Finding → Prop) (found : Found) : Prop where
  findings : ∀ x ∈ found.findings, P x
  suppressed : ∀ s ∈ found.suppressed, ∃ x, P x ∧ s.rule = x.ruleId ∧ s.file = x.file

/-- Nothing has been found yet. -/
theorem Found.madeOf_nil (P : Finding → Prop) : Found.MadeOf P {} where
  findings := by simp
  suppressed := by simp

/-- What has been found, and then some of what has been found besides. -/
theorem Found.MadeOf.append {P : Finding → Prop} {a b : Found} (ha : a.MadeOf P) (hb : b.MadeOf P)
    {admitted : List Finding} (hadmitted : admitted ⊆ b.findings) :
    (a.append { b with findings := admitted }).MadeOf P where
  findings := by
    intro x hx
    rcases List.mem_append.mp hx with hx | hx
    · exact ha.findings x hx
    · exact hb.findings x (hadmitted hx)
  suppressed := by
    intro s hs
    rcases List.mem_append.mp hs with hs | hs
    · exact ha.suppressed s hs
    · exact hb.suppressed s hs

/-- The record of a suppression names the rule and the file. -/
theorem Suppression.check?_eq {cs : Coverings} {rule : Value} {file : String} {line : Int}
    {s : Suppression} (h : Suppression.check? cs rule file line = .ok (some s)) :
    s.rule = rule ∧ s.file = file := by
  simp only [Suppression.check?] at h
  split at h
  · cases h
  · split at h
    · cases h
    · split at h
      · cases h
        exact ⟨rfl, rfl⟩
      · cases h

/-- The record that a finding leaves when it is covered, if it can be told and is. -/
def Suppression.recordOf (cs : Coverings) (x : Finding) : Option Suppression :=
  (check? cs x.ruleId x.file x.line).toOption.join

theorem Suppression.recordOf_of_check? {cs : Coverings} {x : Finding}
    {record : Option Suppression} (h : check? cs x.ruleId x.file x.line = .ok record) :
    recordOf cs x = record := by
  rw [recordOf, h]
  rfl

/-- **How findings are put aside.**  For each of them it can be told whether it is covered; those
that leave no record stay, and the records of the others are kept. -/
theorem Found.sift_eq_ok_iff {cs : Coverings} {fs : List Finding} {found : Found} :
    Found.sift cs fs = .ok found ↔
      (∀ x ∈ fs, Suppression.check? cs x.ruleId x.file x.line =
        .ok (Suppression.recordOf cs x)) ∧
      { findings := fs.filter fun x => (Suppression.recordOf cs x).isNone
        suppressed := fs.filterMap (Suppression.recordOf cs) } = found := by
  induction fs generalizing found with
  | nil => simp [Found.sift]
  | cons x fs ih =>
      simp only [Found.sift, bind_eq_ok_iff, ih, List.forall_mem_cons]
      cases hcheck : Suppression.check? cs x.ruleId x.file x.line with
      | error r => simp
      | ok record =>
          rw [Suppression.recordOf_of_check? hcheck]
          cases record <;> simp [Suppression.recordOf_of_check? hcheck, pure_eq_ok_iff]

/-- Putting aside what is covered makes nothing up. -/
theorem Found.madeOf_sift {P : Finding → Prop} {cs : Coverings} {fs : List Finding} {found : Found}
    (h : Found.sift cs fs = .ok found) (hfs : ∀ x ∈ fs, P x) : found.MadeOf P := by
  obtain ⟨hchecked, rfl⟩ := sift_eq_ok_iff.mp h
  refine ⟨fun x hx => hfs x (List.mem_filter.mp hx).1, fun s hs => ?_⟩
  obtain ⟨x, hx, hrecord⟩ := List.mem_filterMap.mp hs
  exact ⟨x, hfs x hx, Suppression.check?_eq (hrecord ▸ hchecked x hx)⟩

namespace Detect

/-- The vulnerabilities in a file are the findings of its rules at their hits. -/
theorem mem_vulnerabilities {rules : List Rule} {cap : Value} {now : Calendar.Moment}
    {f : SourceFile} {fs : List Finding} {x : Finding}
    (h : vulnerabilities rules cap now f = .ok fs) (hx : x ∈ fs) :
    ∃ lines, f.lines.mapM (cutUnlessWithin cap) = .ok lines ∧
      ∃ r ∈ rules, r.appliesTo f.path.readable = .ok true ∧ Finding.CanName r.id f.path ∧
        ∃ hit ∈ r.hits lines, r.findingOf now f.path hit = x := by
  simp only [vulnerabilities, bind_eq_ok_iff, pure_eq_ok_iff] at h
  obtain ⟨lines, hlines, found, hfound, rfl⟩ := h
  obtain ⟨ofRule, hofRule, hx⟩ := List.mem_flatten.mp hx
  obtain ⟨r, hr, hrule⟩ := exists_of_mem_mapM hfound hofRule
  rcases Rule.findings_eq_ok_iff.mp hrule with ⟨-, rfl⟩ | ⟨happlies, hnamed, rfl⟩
  · cases hx
  · obtain ⟨hit, hhit, rfl⟩ := List.mem_map.mp hx
    exact ⟨lines, hlines, r, hr, happlies, hnamed hit hhit, hit, hhit, rfl⟩

/-- The candidates on a line are those of the patterns at the first match that is random enough. -/
theorem SecretScan.mem_candidatesOn {s : SecretScan} {line : List Char} {p : SecretPattern}
    {c : Candidate} :
    (p, c) ∈ s.candidatesOn line ↔
      s.skips line = false ∧ p ∈ s.patterns ∧ (candidates p line).head? = some c := by
  rw [candidatesOn]
  cases s.skips line <;> simp

/-- The secrets on a line are the findings of the candidates there. -/
theorem SecretScan.mem_findingsOn {s : SecretScan} {now : Calendar.Moment} {path : RawText}
    {number : Nat} {line : List Char} {fs : List Finding} {x : Finding}
    (h : s.findingsOn now path number line = .ok fs) :
    x ∈ fs ↔ s.skips line = false ∧ ∃ p ∈ s.patterns, ∃ c,
      (candidates p line).head? = some c ∧ p.CanReport path ∧
        p.findingOf now path number c = x := by
  obtain ⟨hreportable, rfl⟩ := findingsOn_eq_ok_iff.mp h
  simp only [List.mem_map, Prod.exists, mem_candidatesOn]
  constructor
  · rintro ⟨p, c, ⟨hseen, hp, hc⟩, rfl⟩
    exact ⟨hseen, p, hp, c, hc, hreportable (p, c) (mem_candidatesOn.mpr ⟨hseen, hp, hc⟩), rfl⟩
  · rintro ⟨hseen, p, hp, c, hc, -, rfl⟩
    exact ⟨p, c, ⟨hseen, hp, hc⟩, rfl⟩

/-- The secrets in a file are those on its lines, unless its path is marked. -/
theorem SecretScan.mem_run {s : SecretScan} {now : Calendar.Moment} {f : SourceFile}
    {fs : List Finding} {x : Finding} (h : s.run now f = .ok fs) (hx : x ∈ fs) :
    s.skipsPath f.path = false ∧
      ∃ number line cut onLine, (number, line) ∈ f.numbered ∧ cutIfBeyond s.cap line = .ok cut ∧
        s.findingsOn now f.path number cut = .ok onLine ∧ x ∈ onLine := by
  cases hmarked : s.skipsPath f.path with
  | true =>
      simp only [run, hmarked, if_true, pure_eq_ok_iff] at h
      subst h
      cases hx
  | false =>
      simp only [run, hmarked, Bool.false_eq_true, if_false, bind_eq_ok_iff,
        pure_eq_ok_iff] at h
      obtain ⟨found, hfound, rfl⟩ := h
      obtain ⟨onLine, honLine, hx⟩ := List.mem_flatten.mp hx
      obtain ⟨⟨number, line⟩, hline, h⟩ := exists_of_mem_mapM hfound honLine
      obtain ⟨cut, hcut, h⟩ := bind_eq_ok_iff.mp h
      exact ⟨rfl, number, line, cut, onLine, hline, hcut, h, hx⟩

end Detect

/-- What a review finds is a remark at one of the permissions, or at the policy as a whole. -/
theorem Iam.Review.exists_remark_of_mem {r : Iam.Review} {policy : Iam.Policy} {fs : List Finding}
    (h : r.run policy = .ok fs) {x : Finding} (hx : x ∈ fs) :
    policy.location.isSound = true ∧
      ∃ line m, line ≤ policy.permissions.length ∧ x = r.findingOf policy line m := by
  simp only [Iam.Review.run, bind_eq_ok_iff, pure_eq_ok_iff] at h
  obtain ⟨found, hfound, old, -, ofAge, hofAge, rfl⟩ := h
  rcases List.mem_append.mp hx with hx | hx
  · obtain ⟨ofPermission, hmem, hx⟩ := List.mem_flatten.mp hx
    obtain ⟨⟨p, i⟩, hpermission, hp⟩ := exists_of_mem_mapM hfound hmem
    obtain ⟨remarks, -, hp⟩ := bind_eq_ok_iff.mp hp
    obtain ⟨hlocated, m, -, rfl⟩ := Review.exists_remark_of_mapM_finding hp hx
    have hlt := List.snd_lt_of_mem_zipIdx hpermission
    exact ⟨hlocated, i + 1, m, by omega, rfl⟩
  · obtain ⟨hlocated, m, -, rfl⟩ := Review.exists_remark_of_mapM_finding hofAge hx
    exact ⟨hlocated, 0, m, Nat.zero_le _, rfl⟩

namespace Audit

/-- A rule of an audit is for a file and matches on one of its lines. -/
inductive RuleHit (a : Audit) (f : SourceFile) (r : Rule) (h : Hit) : Prop
  | intro {rules : List Rule} {cap : Value} {lines : List (List Char)}
      (detector : FileDetector.vulnerabilities rules cap ∈ a.detectors) (rule : r ∈ rules)
      (applies : r.appliesTo f.path.readable = .ok true)
      (cut : f.lines.mapM (Detect.cutUnlessWithin cap) = .ok lines) (hit : h ∈ r.hits lines)

/-- A secret pattern of an audit reports a secret on the line of a file with a number. -/
inductive SecretHit (a : Audit) (f : SourceFile) (p : SecretPattern) (number : Nat)
    (c : Detect.Candidate) : Prop
  | intro {scan : Detect.SecretScan} {line cut : List Char}
      (detector : FileDetector.secrets scan ∈ a.detectors) (pattern : p ∈ scan.patterns)
      (unmarked : scan.skipsPath f.path = false)
      (line_mem : (number, line) ∈ f.numbered)
      (cut_eq : Detect.cutIfBeyond scan.cap line = .ok cut) (looked : scan.skips cut = false)
      (first : (Detect.candidates p cut).head? = some c)

/-- What there may be to find in a file. -/
inductive InFile (a : Audit) (f : SourceFile) : Finding → Prop
  | rule {r : Rule} {h : Hit} (hit : a.RuleHit f r h) (named : Finding.CanName r.id f.path) :
      InFile a f (r.findingOf a.now f.path h)
  | secret {p : SecretPattern} {number : Nat} {c : Detect.Candidate}
      (hit : a.SecretHit f p number c) (reportable : p.CanReport f.path) :
      InFile a f (p.findingOf a.now f.path number c)

/-- What a detector of an audit finds is what there may be to find. -/
theorem inFile_of_mem {a : Audit} {f : SourceFile} {d : FileDetector} {fs : List Finding}
    {x : Finding} (hd : d ∈ a.detectors) (h : d.run a.now f = .ok fs) (hx : x ∈ fs) :
    a.InFile f x := by
  cases d with
  | vulnerabilities rules cap =>
      obtain ⟨lines, hlines, r, hr, happlies, hnamed, hit, hhit, rfl⟩ :=
        Detect.mem_vulnerabilities h hx
      exact .rule (.intro hd hr happlies hlines hhit) hnamed
  | secrets scan =>
      obtain ⟨hpath, number, line, cut, onLine, hline, hcut, honLine, hx⟩ :=
        Detect.SecretScan.mem_run h hx
      obtain ⟨hskips, p, hp, c, hc, hreportable, rfl⟩ :=
        (Detect.SecretScan.mem_findingsOn honLine).mp hx
      exact .secret (.intro hd hp hpath hline hcut hskips hc) hreportable

/-- A detector that has its turn adds only what there may be to find. -/
theorem madeOf_detect {a : Audit} {f : SourceFile} {cs : Coverings} {found found' : Found}
    {b b' : Budget} {d : FileDetector} (hd : d ∈ a.detectors)
    (h : a.detect f cs (found, b) d = .ok (found', b')) (hfound : found.MadeOf (a.InFile f)) :
    found'.MadeOf (a.InFile f) := by
  simp only [detect] at h
  split at h
  · simp only [pure_eq_ok_iff, Prod.mk.injEq] at h
    rwa [← h.1]
  · simp only [bind_eq_ok_iff, pure_eq_ok_iff, Prod.mk.injEq] at h
    obtain ⟨fs, hfs, more, hmore, ⟨admitted, budget⟩, hadmitted, rfl, -⟩ := h
    exact hfound.append (Found.madeOf_sift hmore fun x => inFile_of_mem hd hfs)
      (Budget.accept_prefix hadmitted).subset

/-- What scanning a file finds is what there may be to find. -/
theorem madeOf_scanSource {a : Audit} {f : SourceFile} {before after : Budget} {found : Found}
    (h : a.scanSource before f = .ok (found, after)) : found.MadeOf (a.InFile f) := by
  refine foldlM_invariant (P := fun state => state.1.MadeOf (a.InFile f)) ?_
    (Found.madeOf_nil _) h
  rintro d hd ⟨found, b⟩ ⟨found', b'⟩ hfound hdetect
  exact madeOf_detect hd hdetect hfound

/-- A file that has been read goes by its path. -/
theorem path_of_read {encoding : Text.Encoding} {path : String} {content : Content}
    {f : SourceFile} (h : SourceFile.read encoding path content = .ok f) : f.path = path := by
  obtain ⟨_, -, rfl⟩ := map_eq_ok_iff.mp h
  rfl

/-- What there may be to find in a file is in that file. -/
theorem InFile.file_eq {a : Audit} {f : SourceFile} {x : Finding} (h : a.InFile f x) :
    x.file = f.path.readable := by
  cases h <;> rfl

/-- What has been found about a file is what there may be to find in it. -/
theorem madeOf_of_file {a : Audit} {path : String} {content : Content} {p : Target × Outcome}
    {found : Found} (hp : p.1 = .file path content) (hattended : Attended a p)
    (hfound : foundOf? p = some found) :
    ∃ f : SourceFile, f.path = path ∧ found.MadeOf (a.InFile f) := by
  obtain ⟨t, outcome⟩ := p
  obtain rfl : t = .file path content := hp
  rcases hattended with rfl | ⟨before, after, hscan⟩
  · cases hfound
  · rcases scanFile_cases hscan with ⟨_, _, rfl, -⟩ | ⟨f, found', hread, hsource, rfl⟩
    · cases hfound
    · cases hfound
      exact ⟨f, path_of_read hread, madeOf_scanSource hsource⟩

/-- What has been found about a policy is made of remarks of a review, and none of it is
suppressed. -/
theorem exists_remark_of_policy {a : Audit} {label : RawText} {source : PolicySource}
    {found : Found} (h : a.scanPolicy label source = .ok (.scanned found)) :
    (∀ x ∈ found.findings, ∃ (review : Iam.Review) (policy : Iam.Policy) (line : Nat)
      (m : Iam.Review.Remark), x = review.findingOf policy line m) ∧ found.suppressed = [] := by
  simp only [scanPolicy] at h
  split at h
  · cases pure_eq_ok_iff.mp h
  · cases h
  · split at h
    · cases pure_eq_ok_iff.mp h
      exact ⟨by simp, rfl⟩
    · simp only [bind_eq_ok_iff, pure_eq_ok_iff] at h
      obtain ⟨findings, hrun, h⟩ := h
      cases h
      refine ⟨fun x hx => ?_, rfl⟩
      obtain ⟨-, line, m, -, rfl⟩ := Iam.Review.exists_remark_of_mem hrun hx
      exact ⟨_, _, line, m, rfl⟩

/-- **What has been found about a target** has a property that what there may be to find in a file
and the remarks of a review have. -/
theorem madeOf_of_attended {a : Audit} {P : Finding → Prop}
    (hremarks : ∀ (review : Iam.Review) policy line m, P (review.findingOf policy line m))
    (hfiles : ∀ f x, a.InFile f x → P x) {p : Target × Outcome} {found : Found}
    (hattended : Attended a p) (hfound : foundOf? p = some found) : found.MadeOf P := by
  cases htarget : p.1 with
  | file path content =>
      obtain ⟨f, -, hmade⟩ := madeOf_of_file htarget hattended hfound
      refine ⟨fun x hx => hfiles f x (hmade.findings x hx), fun s hs => ?_⟩
      obtain ⟨x, hx, hs⟩ := hmade.suppressed s hs
      exact ⟨x, hfiles f x hx, hs⟩
  | policy label source =>
      obtain ⟨t, outcome⟩ := p
      obtain rfl : t = .policy label source := htarget
      rcases hattended with rfl | ⟨before, after, hscan⟩
      · cases hfound
      · cases outcome with
        | scanned found' =>
            cases hfound
            obtain ⟨hmade, hnone⟩ := exists_remark_of_policy (scan_policy_eq_ok_iff.mp hscan).1
            refine ⟨fun x hx => ?_, fun s hs => ?_⟩
            · obtain ⟨review, policy, line, m, rfl⟩ := hmade x hx
              exact hremarks review policy line m
            · rw [hnone] at hs
              cases hs
        | left | timedOut => cases hfound

/-- The places that the findings of a report come from: the files and the policies that the audit
was asked to look at. -/
inductive Source (a : Audit) (request : Request) : Finding → Prop
  | file {path : String} {content : Content} {f : SourceFile} {x : Finding}
      (file : (path, content) ∈ request.files) (read : SourceFile.read .utf8 path content = .ok f)
      (found : a.InFile f x) : Source a request x
  | policy {source : PolicySource} {label : RawText} {found : Found} {x : Finding}
      (policy : source ∈ request.policies)
      (scan : a.scanPolicy label source = .ok (.scanned found)) (found : x ∈ found.findings) :
      Source a request x

/-- **Every finding of a report has a source.** -/
theorem run_source {a : Audit} {occasion : Occasion} {request : Request} {report : Report}
    (h : a.run occasion request = .ok report) {x : Finding} (hx : x ∈ report.findings) :
    a.Source request x := by
  obtain ⟨files, policies, haccounts⟩ := accounts_of_run h
  have hkept := (List.mem_filter.mp (haccounts.findings.mem_iff.mp hx)).1
  obtain ⟨found, hfound, hx⟩ := List.mem_flatMap.mp hkept
  obtain ⟨fate, hfate, hfound⟩ := List.mem_filterMap.mp hfound
  rcases List.mem_append.mp hfate with hfate | hfate
  · obtain ⟨⟨path, content⟩, hfile, hfate⟩ :=
      exists_of_forall₂_of_mem haccounts.files_fate hfate
    cases hfate with
    | scanned wanted read scan =>
        cases hfound
        exact .file hfile read ((madeOf_scanSource scan).findings x hx)
    | excluded | undetected | unreadable | timedOut => cases hfound
  · obtain ⟨⟨source, index⟩, hpolicy, hfate⟩ :=
      exists_of_forall₂_of_mem haccounts.policies_fate hfate
    cases hfate with
    | scanned reviewed scan =>
        cases hfound
        exact .policy (List.fst_mem_of_mem_zipIdx hpolicy) scan hx
    | unreviewed | unreadable | timedOut => cases hfound

end Audit

end SecurityAudit
