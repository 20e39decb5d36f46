import SecurityAudit.Proofs.Registration
import SecurityAudit.Proofs.WellFormed
import SecurityAudit.Proofs.WindowedMatching

/-!
# One finding for each id and line

A rule matches on a line once at most, and no id is that of two rules; so what the rules find in a
file differs in the id or in the line.  A secret pattern reports one secret of a line, and no id is
that of two secret patterns, so the same is true of the secrets in a file.

An id may be that of a rule and of a secret pattern, though, since these are registered apart.  When
both report on one line, the file has two findings with that id on that line, and only then
(`findings_distinct`).
-/

namespace SecurityAudit

/-- What is related item by item to items that are pairwise apart is pairwise apart itself. -/
theorem pairwise_of_forall₂ {α β : Type} {R : α → β → Prop} {S : α → α → Prop} {T : β → β → Prop}
    {as : List α} {bs : List β} (h : List.Forall₂ R as bs) (has : as.Pairwise S)
    (hST : ∀ a b a' b', R a b → R a' b' → S a a' → T b b') : bs.Pairwise T := by
  induction h with
  | nil => exact .nil
  | @cons a b as bs hab hrest ih =>
      obtain ⟨hfirst, has⟩ := List.pairwise_cons.mp has
      refine List.pairwise_cons.mpr ⟨fun b' hb' => ?_, ih has⟩
      obtain ⟨a', ha', hab'⟩ := exists_of_forall₂_of_mem hrest hb'
      exact hST a b a' b' hab hab' (hfirst a' ha')

namespace Text

theorem length_hexDigits (width n : Nat) : (hexDigits width n).length = width := by
  induction width generalizing n with
  | zero => rfl
  | succ width ih => rw [hexDigits, List.length_append, ih, List.length_singleton]

end Text

theorem Digest.length_hex (text : List Char) : (hex text).length = 40 := by
  simp [hex, Text.length_hexDigits]

namespace Finding

variable {x y : Finding}

/-- Findings with one id have rule ids that look the same. -/
theorem rule_eq_of_idText_eq {rule file line rule' file' line' : String}
    (h : idText rule file line = idText rule' file' line') : rule = rule' := by
  have hlist := congrArg String.toList h
  simp only [idText, String.toList_append, String.toList_ofList] at hlist
  have hends := List.append_inj_left' hlist (by simp [Digest.length_hex])
  exact String.toList_inj.mp (List.append_inj_left' hends rfl)

/-- Two findings of a file go by one id and are on one line. -/
def Coincide (x y : Finding) : Prop :=
  x.ruleId.isFoundAs y.ruleId = true ∧ x.line = y.line

/-- Findings of which no two go by one id on one line. -/
def AreDistinct (fs : List Finding) : Prop :=
  fs.Pairwise fun x y => ¬ Coincide x y

end Finding

/-- What a value is found as is a key when it is one itself. -/
theorem Value.isKey_of_isFoundAs {a b : Value} (hb : b.isKey = true) (h : a.isFoundAs b = true) :
    a.isKey = true := by
  cases ofOneKind_of_kind_eq (kind_eq_of_same (isFoundAs_iff.mp h).2) with
  | noKey _ hb' => cases hb.symm.trans hb'
  | number hx =>
      cases a <;> first | rfl | cases hx
  | text ha =>
      cases a <;> first | rfl | cases ha
  | null | date | time | moment => rfl

/-- A value names one of registered items at most. -/
theorem CatalogBuilder.Registered.eq_of_names {α : Type} {id : α → Value} {items : List α}
    (h : Registered id items) {v : Value} {x y : α} (hx : x ∈ items) (hy : y ∈ items)
    (hvx : v.isFoundAs (id x) = true) (hvy : v.isFoundAs (id y) = true) : x = y := by
  have hkey := Value.isKey_of_isFoundAs (h.isKey x hx) hvx
  exact h.eq_of_isFoundAs hx hy (Value.isFoundAs_trans (Value.isFoundAs_symm hkey hvx) hvy)

/-! ## Vulnerabilities -/

/-- The findings of a rule go by its id, and no two of them are on one line. -/
theorem Rule.distinct_findings {r : Rule} {now : Calendar.Moment} {path : RawText}
    {lines : List (List Char)} {fs : List Finding} (h : r.findings now path lines = .ok fs) :
    (∀ x ∈ fs, x.ruleId = r.id) ∧ Finding.AreDistinct fs := by
  obtain ⟨-, rfl⟩ | ⟨-, -, rfl⟩ := findings_eq_ok_iff.mp h
  · exact ⟨List.forall_mem_nil _, .nil⟩
  · refine ⟨List.forall_mem_map.mpr fun _ _ => rfl, ?_⟩
    rw [hits_eq]
    refine List.pairwise_map.mpr ((r.pairwise_hitsFrom 1 lines).imp fun {h h'} hlt hboth => ?_)
    have hline : (h.line : Int) = h'.line := hboth.2
    omega

namespace Detect

variable {rules : List Rule} {cap : Value} {now : Calendar.Moment} {f : SourceFile}
  {fs : List Finding} {scan : SecretScan}

/-- No two vulnerabilities in a file go by one id on one line. -/
theorem vulnerabilities_distinct (hrules : CatalogBuilder.Registered Rule.id rules)
    (h : vulnerabilities rules cap now f = .ok fs) : Finding.AreDistinct fs := by
  simp only [vulnerabilities, bind_eq_ok_iff, pure_eq_ok_iff] at h
  obtain ⟨lines, -, found, hfound, rfl⟩ := h
  refine List.pairwise_flatten.mpr ⟨fun ofRule hmem => ?_, ?_⟩
  · obtain ⟨r, -, hrule⟩ := exists_of_mem_mapM hfound hmem
    exact (Rule.distinct_findings hrule).2
  · refine pairwise_of_forall₂ (mapM_eq_ok_iff.mp hfound) hrules.distinct ?_
    intro r ofRule r' ofRule' hrule hrule' hapart x hx y hy hboth
    rw [Finding.Coincide, (Rule.distinct_findings hrule).1 x hx,
      (Rule.distinct_findings hrule').1 y hy, hapart] at hboth
    cases hboth.1

/-! ## Secrets -/

/-- The secrets on a line are on that line, and no two of them go by one id. -/
theorem findingsOn_distinct (hpatterns : CatalogBuilder.Registered SecretPattern.id scan.patterns)
    {path : RawText} {number : Nat} {line : List Char}
    (h : scan.findingsOn now path number line = .ok fs) :
    (∀ x ∈ fs, x.line = number) ∧ Finding.AreDistinct fs := by
  obtain ⟨-, rfl⟩ := SecretScan.findingsOn_eq_ok_iff.mp h
  refine ⟨List.forall_mem_map.mpr fun _ _ => rfl, List.pairwise_map.mpr ?_⟩
  rw [SecretScan.candidatesOn]
  split
  · exact .nil
  · refine List.pairwise_filterMap.mpr (hpatterns.distinct.imp ?_)
    intro p p' hapart pc hpc pc' hpc' hboth
    obtain ⟨c, -, rfl⟩ := Option.map_eq_some_iff.mp hpc
    obtain ⟨c', -, rfl⟩ := Option.map_eq_some_iff.mp hpc'
    have hfound : p.id.isFoundAs p'.id = true := hboth.1
    rw [hapart] at hfound
    cases hfound

/-- Lines are numbered in their order. -/
theorem pairwise_numbered (f : SourceFile) :
    f.numbered.Pairwise fun line line' => line.1 < line'.1 := by
  rw [SourceFile.numbered, List.pairwise_map, List.pairwise_iff_getElem]
  intro i j _ _ hlt
  simpa using hlt

/-- No two secrets in a file go by one id on one line. -/
theorem run_distinct (hpatterns : CatalogBuilder.Registered SecretPattern.id scan.patterns)
    (h : scan.run now f = .ok fs) : Finding.AreDistinct fs := by
  rw [SecretScan.run] at h
  split at h
  · cases h
    exact .nil
  · simp only [bind_eq_ok_iff, pure_eq_ok_iff] at h
    obtain ⟨found, hfound, rfl⟩ := h
    refine List.pairwise_flatten.mpr ⟨fun onLine hmem => ?_, ?_⟩
    · obtain ⟨⟨number, line⟩, -, hline⟩ := exists_of_mem_mapM hfound hmem
      obtain ⟨cut, -, hon⟩ := bind_eq_ok_iff.mp hline
      exact (findingsOn_distinct hpatterns hon).2
    · refine pairwise_of_forall₂ (mapM_eq_ok_iff.mp hfound) (pairwise_numbered f) ?_
      rintro ⟨number, line⟩ onLine ⟨number', line'⟩ onLine' hon hon' hlt x hx y hy hboth
      obtain ⟨cut, -, hon⟩ := bind_eq_ok_iff.mp hon
      obtain ⟨cut', -, hon'⟩ := bind_eq_ok_iff.mp hon'
      have hx := (findingsOn_distinct hpatterns hon).1 x hx
      have hy := (findingsOn_distinct hpatterns hon').1 y hy
      have hline := hboth.2
      rw [hx, hy] at hline
      omega

/-! ## Vulnerabilities and secrets together -/

/-- Where a rule that is for a file matches, there is a finding. -/
theorem finding_mem_vulnerabilities (h : vulnerabilities rules cap now f = .ok fs)
    {lines : List (List Char)} (hlines : f.lines.mapM (cutUnlessWithin cap) = .ok lines)
    {r : Rule} (hr : r ∈ rules) (happlies : r.appliesTo f.path.readable = .ok true) {hit : Hit}
    (hhit : hit ∈ r.hits lines) : r.findingOf now f.path hit ∈ fs := by
  simp only [vulnerabilities, hlines, bind_eq_ok_iff, pure_eq_ok_iff, Except.ok.injEq,
    exists_eq_left'] at h
  obtain ⟨found, hfound, rfl⟩ := h
  obtain ⟨ofRule, hmem, hrule⟩ := exists_of_forall₂_of_mem (mapM_eq_ok_iff.mp hfound).flip hr
  obtain ⟨hnot, -⟩ | ⟨-, -, rfl⟩ := Rule.findings_eq_ok_iff.mp hrule
  · cases hnot.symm.trans happlies
  · exact List.mem_flatten_of_mem hmem (List.mem_map_of_mem hhit)

/-- What is found on a line is found in the file, unless its path is marked. -/
theorem SecretScan.findingOf_mem_run (h : scan.run now f = .ok fs)
    (hunmarked : scan.skipsPath f.path = false) {number : Nat}
    {line cut : List Char} (hline : (number, line) ∈ f.numbered)
    (hcut : cutIfBeyond scan.cap line = .ok cut) {p : SecretPattern} {c : Candidate}
    (hc : (p, c) ∈ scan.candidatesOn cut) : p.findingOf now f.path number c ∈ fs := by
  simp only [run, hunmarked, Bool.false_eq_true, if_false, bind_eq_ok_iff, pure_eq_ok_iff] at h
  obtain ⟨found, hfound, rfl⟩ := h
  obtain ⟨onLine, hmem, hon⟩ := exists_of_forall₂_of_mem (mapM_eq_ok_iff.mp hfound).flip hline
  simp only [hcut, bind_eq_ok_iff, Except.ok.injEq, exists_eq_left'] at hon
  obtain ⟨-, rfl⟩ := findingsOn_eq_ok_iff.mp hon
  exact List.mem_flatten_of_mem hmem
    (List.mem_map_of_mem (f := fun pc : SecretPattern × Candidate =>
      pc.1.findingOf now f.path number pc.2) hc)

/-- A rule and a secret pattern that go by one id both report on one line of a file. -/
inductive Meet (rules : List Rule) (cap : Value) (scan : SecretScan) (f : SourceFile) : Prop
  | intro {r : Rule} {p : SecretPattern} {lines : List (List Char)} {hit : Hit}
      {line cut : List Char} {c : Candidate}
      (rule : r ∈ rules) (pattern : p ∈ scan.patterns) (oneId : r.id.isFoundAs p.id = true)
      (applies : r.appliesTo f.path.readable = .ok true)
      (cutLines : f.lines.mapM (cutUnlessWithin cap) = .ok lines) (matched : hit ∈ r.hits lines)
      (unmarked : scan.skipsPath f.path = false)
      (oneLine : (hit.line, line) ∈ f.numbered) (cutLine : cutIfBeyond scan.cap line = .ok cut)
      (seen : scan.skips cut = false) (secret : (candidates p cut).head? = some c)

/-- A vulnerability and a secret coincide when a rule and a secret pattern meet. -/
theorem exists_coincide_iff {vs ss : List Finding} (hvs : vulnerabilities rules cap now f = .ok vs)
    (hss : scan.run now f = .ok ss) :
    (∃ x ∈ vs, ∃ y ∈ ss, x.Coincide y) ↔ Meet rules cap scan f := by
  constructor
  · rintro ⟨x, hx, y, hy, hid, hline⟩
    obtain ⟨lines, hlines, r, hr, happlies, -, hit, hhit, rfl⟩ := mem_vulnerabilities hvs hx
    obtain ⟨hunmarked, number, line, cut, onLine, hnumbered, hcut, hon, hy⟩ :=
      SecretScan.mem_run hss hy
    obtain ⟨hseen, p, hp, c, hc, -, rfl⟩ := (SecretScan.mem_findingsOn hon).mp hy
    have hnumber : (hit.line : Int) = number := hline
    obtain rfl : hit.line = number := by omega
    exact ⟨hr, hp, hid, happlies, hlines, hhit, hunmarked, hnumbered, hcut, hseen, hc⟩
  · rintro ⟨hr, hp, hid, happlies, hlines, hhit, hunmarked, hnumbered, hcut, hseen, hc⟩
    refine ⟨_, finding_mem_vulnerabilities hvs hlines hr happlies hhit, _,
      SecretScan.findingOf_mem_run hss hunmarked hnumbered hcut
        (SecretScan.mem_candidatesOn.mpr ⟨hseen, hp, hc⟩), hid, rfl⟩

/-- Vulnerabilities and secrets have the ids of their rules and lines in the file. -/
theorem id_eq_of_mem {vs ss : List Finding} (hvs : vulnerabilities rules cap now f = .ok vs)
    (hss : scan.run now f = .ok ss) {x : Finding} (hx : x ∈ vs ++ ss) :
    x.id = Finding.idText x.ruleId.shown f.path.readable (toString x.line) := by
  rcases List.mem_append.mp hx with hx | hx
  · obtain ⟨_, -, r, -, -, -, hit, -, rfl⟩ := mem_vulnerabilities hvs hx
    rfl
  · obtain ⟨-, _, _, _, _, -, -, hon, hx⟩ := SecretScan.mem_run hss hx
    obtain ⟨-, p, -, c, -, -, rfl⟩ := (SecretScan.mem_findingsOn hon).mp hx
    rfl

end Detect

/-! ## Catalogs -/

/-- No rule of a catalog has an id with one of its secret patterns. -/
def Catalog.IsApart (c : Catalog) : Prop :=
  ∀ r ∈ c.rules, ∀ p ∈ c.secrets, r.id.isFoundAs p.id = false

/-- What is built in is apart, and so is every catalog without rules of a project. -/
theorem Catalog.isApart_of_builtin {s : Settings} {c : Catalog}
    (h : Catalog.ofSettings s none = .ok c) : c.IsApart := by
  have hbuiltin : ∀ r ∈ Builtin.builder.rules, ∀ p ∈ Builtin.builder.secrets,
      r.id.isFoundAs p.id = false := by decide +kernel
  have hprepared : CatalogBuilder.Keeps
      (fun b => b.rules = Builtin.builder.rules ∧ b.secrets = Builtin.builder.secrets)
      (CatalogBuilder.prepare s none) :=
    (CatalogBuilder.Keeps.pure ()).bind fun _ => CatalogBuilder.applySettings_keeps_of
      (fun _ _ hrules hsecrets h => ⟨hrules.trans h.1, hsecrets.trans h.2⟩) s
  have hkept := hprepared Builtin.builder ⟨rfl, rfl⟩
  rw [Catalog.ofSettings] at h
  split at h
  · rename_i b hb
    cases h
    rw [hb] at hkept
    intro r hr p hp
    have hr : r ∈ b.rules := (List.mem_filter.mp hr).1
    have hp : p ∈ b.secrets := (List.mem_filter.mp hp).1
    exact hbuiltin r (hkept.1 ▸ hr) p (hkept.2 ▸ hp)
  · cases h

/-- **One finding for each id and line.**  Take the catalog of a project, and what its rules and its
secret patterns find in a file.  No two vulnerabilities go by one id on one line, and no two secrets
do; a vulnerability and a secret do only if a rule and a secret pattern that go by one id both
report on a line.  So all findings are distinct when the ids of rules and secret patterns are, as
they are without rules of the project.

A value names one rule at most and one secret pattern at most, and findings with one id have rule
ids that look the same. -/
theorem Detect.findings_distinct {s : Settings} {project : Option Project} {c : Catalog}
    {scan : SecretScan} {now : Calendar.Moment} {f : SourceFile} {vs ss : List Finding}
    (hcatalog : Catalog.ofSettings s project = .ok c)
    (hscan : SecretScan.ofSettings c.secrets s = .ok scan)
    (hvs : vulnerabilities c.rules s.scan.maxLineLength now f = .ok vs)
    (hss : scan.run now f = .ok ss) :
    Finding.AreDistinct vs ∧ Finding.AreDistinct ss ∧
    (Finding.AreDistinct (vs ++ ss) ↔ ¬ Meet c.rules s.scan.maxLineLength scan f) ∧
    (project = none ∨ c.IsApart → Finding.AreDistinct (vs ++ ss)) ∧
    (∀ v : Value,
      (∀ r ∈ c.rules, ∀ r' ∈ c.rules, v.isFoundAs r.id = true → v.isFoundAs r'.id = true → r = r') ∧
      (∀ p ∈ c.secrets, ∀ p' ∈ c.secrets,
        v.isFoundAs p.id = true → v.isFoundAs p'.id = true → p = p')) ∧
    (∀ x ∈ vs ++ ss, ∀ y ∈ vs ++ ss, x.id = y.id → x.ruleId.shown = y.ruleId.shown) := by
  obtain ⟨hrules, hsecrets⟩ := Catalog.registered_of_ofSettings hcatalog
  have hpatterns : scan.patterns = c.secrets := by
    simp only [SecretScan.ofSettings, bind_eq_ok_iff, pure_eq_ok_iff] at hscan
    obtain ⟨_, -, _, -, rfl⟩ := hscan
    rfl
  have hv := vulnerabilities_distinct hrules hvs
  have hs := run_distinct (hpatterns ▸ hsecrets) hss
  have hboth : Finding.AreDistinct (vs ++ ss) ↔ ¬ Meet c.rules s.scan.maxLineLength scan f := by
    rw [← exists_coincide_iff hvs hss, Finding.AreDistinct, List.pairwise_append]
    simp only [not_exists, not_and]
    exact ⟨fun h => h.2.2, fun h => ⟨hv, hs, h⟩⟩
  refine ⟨hv, hs, hboth, fun happart => hboth.mpr ?_, fun v => ⟨?_, ?_⟩, ?_⟩
  · rintro ⟨rule, pattern, oneId, -, -, -, -, -, -, -, -⟩
    have happart : c.IsApart := happart.elim
      (fun hnone => Catalog.isApart_of_builtin (hnone ▸ hcatalog)) id
    cases (happart _ rule _ (hpatterns ▸ pattern)).symm.trans oneId
  · exact fun r hr r' hr' => hrules.eq_of_names hr hr'
  · exact fun p hp p' hp' => hsecrets.eq_of_names hp hp'
  · intro x hx y hy heq
    rw [id_eq_of_mem hvs hss hx, id_eq_of_mem hvs hss hy] at heq
    exact Finding.rule_eq_of_idText_eq heq

namespace Token

/-- A rule file with a rule and a secret pattern, which match the same text. -/
def rules (secretId : String) : String :=
  "- id: TOKEN\n  category: injection\n  pattern: zz\n" ++
    "- id: " ++ secretId ++ "\n  kind: secret\n  pattern: zz\n  entropy_threshold: 0.0\n"

/-- The project of the rule file. -/
def project (secretId : String) : Project where
  root := ⟨"", []⟩
  tree := {
    root := .directory [(".vulnaudit-rules",
      .directory [("own.yaml", .file (rules secretId).toUTF8.toList)])] }

/-- The settings that enable the rule and the secret pattern alone. -/
def settings (secretId : String) : Settings where
  rules := { enable := .texts ["TOKEN", secretId] }

/-- A file with that text. -/
def page : SourceFile where
  path := "a.py"
  lines := ["zz".toList]
  language := "python"

/-- The catalog of the project, and what it finds in the file. -/
structure Yields (secretId : String) (c : Catalog) (scan : Detect.SecretScan)
    (vs ss : List Finding) : Prop where
  catalog : Catalog.ofSettings (settings secretId) (some (project secretId)) = .ok c
  prepared : Detect.SecretScan.ofSettings c.secrets (settings secretId) = .ok scan
  vulnerabilities : Detect.vulnerabilities c.rules (settings secretId).scan.maxLineLength ⟨0, none⟩
    page = .ok vs
  secrets : scan.run ⟨0, none⟩ page = .ok ss

/-- The catalog and what is found pass a check. -/
def passes (secretId : String) (check : Catalog → List Finding → List Finding → Bool) : Bool :=
  (Catalog.ofSettings (settings secretId) (some (project secretId))).toOption.any fun c =>
    (Detect.SecretScan.ofSettings c.secrets (settings secretId)).toOption.any fun scan =>
      (Detect.vulnerabilities c.rules (settings secretId).scan.maxLineLength ⟨0, none⟩
        page).toOption.any fun vs =>
          (scan.run ⟨0, none⟩ page).toOption.any fun ss => check c vs ss

theorem exists_yields_of_passes {secretId : String}
    {check : Catalog → List Finding → List Finding → Bool} (h : passes secretId check = true) :
    ∃ c scan vs ss, Yields secretId c scan vs ss ∧ check c vs ss = true := by
  obtain ⟨c, hcatalog, h⟩ := any_toOption_iff.mp h
  obtain ⟨scan, hscan, h⟩ := any_toOption_iff.mp h
  obtain ⟨vs, hvs, h⟩ := any_toOption_iff.mp h
  obtain ⟨ss, hss, h⟩ := any_toOption_iff.mp h
  exact ⟨c, scan, vs, ss, ⟨hcatalog, hscan, hvs, hss⟩, h⟩

end Token

/-- Of a rule and a secret pattern with different ids, both report on a line, and their findings are
distinct. -/
theorem Detect.findings_distinct_token :
    ∃ c scan vs ss, Token.Yields "KEY" c scan vs ss ∧ vs.length = 1 ∧ ss.length = 1 ∧
      Finding.AreDistinct (vs ++ ss) := by
  have hpasses : Token.passes "KEY" (fun c vs ss => vs.length == 1 && ss.length == 1 &&
      c.rules.all fun r => c.secrets.all fun p => !r.id.isFoundAs p.id) = true := by
    decide +kernel
  obtain ⟨c, scan, vs, ss, hyields, hcheck⟩ := Token.exists_yields_of_passes hpasses
  simp only [Bool.and_eq_true, beq_iff_eq, List.all_eq_true, Bool.not_eq_true'] at hcheck
  obtain ⟨⟨hvs, hss⟩, happart⟩ := hcheck
  obtain ⟨-, -, -, hdistinct, -, -⟩ := findings_distinct hyields.catalog hyields.prepared
    hyields.vulnerabilities hyields.secrets
  exact ⟨c, scan, vs, ss, hyields, hvs, hss, hdistinct (.inr happart)⟩

/-- **A rule and a secret pattern may go by one id.**  Then there are two findings with that id on a
line, and they have the same finding id. -/
theorem Detect.exists_findings_coincide :
    ∃ c scan vs ss, Token.Yields "TOKEN" c scan vs ss ∧
      (∃ x ∈ vs, ∃ y ∈ ss, x.Coincide y ∧ x.id = y.id ∧ x.category ≠ y.category) ∧
      ¬ Finding.AreDistinct (vs ++ ss) := by
  have hpasses : Token.passes "TOKEN" (fun _ vs ss => vs.any fun x => ss.any fun y =>
      x.ruleId.isFoundAs y.ruleId && x.line == y.line && x.id == y.id &&
        x.category != y.category) = true := by
    decide +kernel
  obtain ⟨c, scan, vs, ss, hyields, hcheck⟩ := Token.exists_yields_of_passes hpasses
  simp only [List.any_eq_true, Bool.and_eq_true, beq_iff_eq, bne_iff_ne] at hcheck
  obtain ⟨x, hx, y, hy, ⟨⟨hid, hline⟩, hsame⟩, hcategory⟩ := hcheck
  refine ⟨c, scan, vs, ss, hyields, ⟨x, hx, y, hy, ⟨hid, hline⟩, hsame, hcategory⟩, ?_⟩
  exact fun hdistinct => (List.pairwise_append.mp hdistinct).2.2 x hx y hy ⟨hid, hline⟩

end SecurityAudit
