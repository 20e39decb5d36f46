import Mathlib.Data.Finset.Card
import Mathlib.Order.Interval.Finset.Nat
import SecurityAudit.Proofs.Disclosure
import SecurityAudit.Proofs.Exposures

/-!
# What a finding tells of a secret

The finding of a secret tells its length, its entropy, and the characters at its ends if it is long
enough to have a middle.  Secrets that agree in all this cannot be told apart by their findings
(`SecretPattern.finding_congr`), so neither can files, if the patterns find such secrets in the same
places: `run_masked` says that all findings are the same, in every field.  It also says how little
of a secret is shown, which is eight characters at most.
-/

namespace SecurityAudit

namespace Detect

/-! ## What is shown -/

/-- The places of a text of some length that are shown when it is masked. -/
def shownPlaces (n : Nat) : Finset Nat :=
  if n ≤ 2 * shownEnds then ∅ else Finset.range shownEnds ∪ Finset.Ico (n - shownEnds) n

/-- No more is shown than both ends. -/
theorem card_shownPlaces_le (n : Nat) : (shownPlaces n).card ≤ 2 * shownEnds := by
  rw [shownPlaces]
  split
  · exact Nat.zero_le _
  · refine (Finset.card_union_le _ _).trans ?_
    rw [Finset.card_range, Nat.card_Ico]
    omega

/-- **What a masked text shows**: the characters at the places that are shown, and stars at all
others. -/
theorem getElem?_masked {w : List Char} {i : Nat} (hi : i < w.length) :
    (masked w)[i]? = if i ∈ shownPlaces w.length then w[i]? else some '*' := by
  by_cases hshort : w.length ≤ 2 * shownEnds
  · rw [masked, if_pos hshort, shownPlaces, if_pos hshort, if_neg (Finset.notMem_empty i),
      List.getElem?_replicate_of_lt hi]
  · have hmem : i ∈ shownPlaces w.length ↔ i < shownEnds ∨ w.length - shownEnds ≤ i := by
      rw [shownPlaces, if_neg hshort, Finset.mem_union, Finset.mem_range, Finset.mem_Ico]
      exact or_congr_right (and_iff_left hi)
    rw [shownEnds] at hshort
    have htake : (w.take 4).length = 4 := by
      rw [List.length_take]
      omega
    have hfront : (w.take 4 ++ List.replicate (w.length - 2 * 4) '*').length = w.length - 4 := by
      rw [List.length_append, htake, List.length_replicate]
      omega
    have hmasked : masked w =
        w.take 4 ++ List.replicate (w.length - 2 * 4) '*' ++ w.drop (w.length - 4) := by
      simp only [masked, shownEnds, hshort, if_false]
    by_cases hfirst : i < 4
    · rw [if_pos (hmem.mpr (.inl hfirst)), hmasked, List.getElem?_append_left (by omega),
        List.getElem?_append_left (by omega), List.getElem?_take_of_lt hfirst]
    · by_cases hlast : w.length - 4 ≤ i
      · rw [if_pos (hmem.mpr (.inr hlast)), hmasked, List.getElem?_append_right (by omega), hfront,
          List.getElem?_drop]
        congr 1
        omega
      · rw [if_neg (by rw [hmem, shownEnds]; omega)]
        exact masked_getElem (by omega) (by omega)

/-! ## Secrets that look alike -/

/-- Two secrets look alike: they are equally long and equally random, and if they are long enough to
show their ends, these are the same. -/
structure Candidate.LooksLike (c d : Candidate) : Prop where
  length_eq : c.value.length = d.value.length
  entropy_eq : c.entropy = d.entropy
  ends_eq : 8 < c.value.length → c.value.take 4 = d.value.take 4 ∧
    c.value.drop (c.value.length - 4) = d.value.drop (d.value.length - 4)

variable {c d : Candidate}

/-- Secrets that look alike are masked alike. -/
theorem Candidate.LooksLike.masked_eq (h : c.LooksLike d) : masked c.value = masked d.value := by
  by_cases hshort : c.value.length ≤ 2 * shownEnds
  · rw [masked, masked, if_pos hshort, ← h.length_eq, if_pos hshort]
  · obtain ⟨hfirst, hlast⟩ := h.ends_eq (Nat.lt_of_not_le hshort)
    rw [masked, masked, if_neg hshort, if_neg (h.length_eq ▸ hshort)]
    simp only [shownEnds]
    rw [hfirst, hlast, h.length_eq]

end Detect

/-- **Secrets that look alike have the same finding.** -/
theorem SecretPattern.finding_congr {c d : Detect.Candidate} (h : c.LooksLike d) (p : SecretPattern)
    (now : Calendar.Moment) (path : RawText) (line : Nat) :
    p.finding now path line c = p.finding now path line d := by
  simp only [finding, findingAs, h.entropy_eq, h.masked_eq]

namespace Detect.SecretScan

variable {s : SecretScan} {now : Calendar.Moment} {f g : SourceFile}

/-- Two lines look alike to a search: it passes over both, or over neither, and then each pattern
finds no secret that is random enough on both, or first ones that look alike. -/
structure LooksAlike (s : SecretScan) (text text' : List Char) : Prop where
  skips_eq : s.skips text = s.skips text'
  first : s.skips text = false → ∀ p ∈ s.patterns,
    Option.Rel Candidate.LooksLike (candidates p text).head? (candidates p text').head?

/-- Two files of one path have as many lines, and these look alike as far as the cap. -/
structure SeesAlike (s : SecretScan) (f g : SourceFile) : Prop where
  path_eq : f.path = g.path
  lines : List.Forall₂ (fun whole whole' => ∃ text text', cutIfBeyond s.cap whole = .ok text ∧
    cutIfBeyond s.cap whole' = .ok text' ∧ s.LooksAlike text text') f.lines g.lines

/-- On lines that look alike the same patterns have a candidate, and the candidates look alike. -/
theorem LooksAlike.candidatesOn {text text' : List Char} (h : s.LooksAlike text text') :
    List.Forall₂ (fun pc pc' => pc.1 = pc'.1 ∧ pc.2.LooksLike pc'.2) (s.candidatesOn text)
      (s.candidatesOn text') := by
  rw [SecretScan.candidatesOn, SecretScan.candidatesOn, ← h.skips_eq]
  cases hskips : s.skips text with
  | true => exact .nil
  | false =>
      have hsame : List.Forall₂ (fun p p' => p = p' ∧ p ∈ s.patterns) s.patterns s.patterns :=
        List.forall₂_same.mpr fun p hp => ⟨rfl, hp⟩
      refine List.rel_filterMap ?_ hsame
      rintro p _ ⟨rfl, hp⟩
      have hfirst := h.first hskips p hp
      dsimp only
      generalize (candidates p text).head? = first at hfirst ⊢
      generalize (candidates p text').head? = first' at hfirst ⊢
      cases hfirst with
      | none => exact .none
      | some hlooks => exact .some ⟨rfl, hlooks⟩

/-- On lines that look alike there are the same findings. -/
theorem findingsOn_congr {text text' : List Char} (h : s.LooksAlike text text')
    (now : Calendar.Moment) (path : RawText) (line : Nat) :
    s.findingsOn now path line text = s.findingsOn now path line text' := by
  refine mapM_eq_of_forall₂ (h.candidatesOn.imp ?_)
  rintro ⟨p, c⟩ ⟨_, c'⟩ ⟨rfl, hlooks⟩
  exact p.finding_congr hlooks now path line

/-- Lists that are related item by item are so with the numbers of the items. -/
theorem forall₂_zipIdx {α β : Type} {R : α → β → Prop} {as : List α} {bs : List β}
    (h : List.Forall₂ R as bs) (start : Nat) :
    List.Forall₂ (fun a b => a.2 = b.2 ∧ R a.1 b.1) (as.zipIdx start) (bs.zipIdx start) := by
  induction h generalizing start with
  | nil => exact .nil
  | cons hab _ ih => exact .cons ⟨rfl, hab⟩ (ih (start + 1))

/-- Lines that look alike are numbered alike. -/
theorem SeesAlike.numbered (h : s.SeesAlike f g) :
    List.Forall₂ (fun line line' => line.1 = line'.1 ∧
      ∃ text text', cutIfBeyond s.cap line.2 = .ok text ∧
        cutIfBeyond s.cap line'.2 = .ok text' ∧ s.LooksAlike text text') f.numbered g.numbered := by
  rw [SourceFile.numbered, SourceFile.numbered, List.forall₂_map_left_iff,
    List.forall₂_map_right_iff]
  refine (forall₂_zipIdx h.lines 0).imp ?_
  rintro ⟨whole, i⟩ ⟨whole', i'⟩ ⟨rfl, halike⟩
  exact ⟨rfl, halike⟩

/-- **Files that look alike have the same findings.** -/
theorem run_eq_of_seesAlike (h : s.SeesAlike f g) (now : Calendar.Moment) :
    s.run now f = s.run now g := by
  have hlines : List.Forall₂ (fun line line' =>
      (do s.findingsOn now f.path line.1 (← cutIfBeyond s.cap line.2)) =
        (do s.findingsOn now f.path line'.1 (← cutIfBeyond s.cap line'.2))) f.numbered
      g.numbered := by
    refine h.numbered.imp ?_
    rintro ⟨line, whole⟩ ⟨line', whole'⟩ ⟨rfl, text, text', hcut, hcut', hlooks⟩
    simp only [hcut, hcut']
    exact findingsOn_congr hlooks now f.path line
  simp only [run, ← h.path_eq, mapM_eq_of_forall₂ hlines]

/-- In a file that looks like some file to a search, every line can be cut. -/
theorem SeesAlike.exists_cut (h : s.SeesAlike f g) :
    ∀ whole ∈ f.lines, ∃ text, cutIfBeyond s.cap whole = .ok text := by
  intro whole hwhole
  obtain ⟨whole', -, text, -, hcut, -, -⟩ := exists_of_forall₂_of_mem h.lines.flip hwhole
  exact ⟨text, hcut⟩

/-- There is an answer about a file of which every line can be cut, if each pattern can report what
it finds there. -/
theorem exists_run_of_canReport
    (hcut : ∀ whole ∈ f.lines, ∃ text, cutIfBeyond s.cap whole = .ok text)
    (hreport : ∀ p ∈ s.patterns, p.CanReport f.path) (now : Calendar.Moment) :
    ∃ found, s.run now f = .ok found := by
  cases hskips : s.skipsPath f.path with
  | true => exact ⟨[], run_eq_ok_iff.mpr (.inl ⟨hskips, rfl⟩)⟩
  | false =>
      obtain ⟨es, hes⟩ := exists_exposures_iff.mpr hcut
      refine ⟨_, run_eq_ok_iff.mpr (.inr ⟨hskips, es, hes, fun e he => ?_, rfl⟩)⟩
      obtain ⟨_, _, -, -, he⟩ := (mem_exposures hes).mp he
      exact hreport _ (List.mem_of_getElem? (mem_exposuresOn.mp he).2.2.1)

/-- **The middle of a secret is hidden.**  Files that look alike to a search have findings with the
same documents, and there are such findings if each pattern can report what it finds.  And the
evidence of a finding is as long as the secret that it is about, and shows the characters at eight
of its places at most, of a short secret none; all others are stars. -/
theorem run_masked (s : SecretScan) (now : Calendar.Moment) :
    (∀ f g, s.SeesAlike f g →
      (s.run now f).map (List.map Finding.document) =
        (s.run now g).map (List.map Finding.document) ∧
      ((∀ p ∈ s.patterns, p.CanReport f.path) → ∃ documents,
        (s.run now f).map (List.map Finding.document) = .ok documents ∧
        (s.run now g).map (List.map Finding.document) = .ok documents)) ∧
    ∀ f found, s.run now f = .ok found → ∀ x ∈ found,
      ∃ line whole text p c, (line, whole) ∈ f.numbered ∧ cutIfBeyond s.cap whole = .ok text ∧
        p ∈ s.patterns ∧ (candidates p text).head? = some c ∧ x = p.findingOf now f.path line c ∧
        x.evidence.toList.length = c.value.length ∧
        ∃ shown : Finset Nat, shown.card ≤ 8 ∧ (c.value.length ≤ 8 → shown = ∅) ∧
          ∀ i, i < c.value.length →
            x.evidence.toList[i]? = if i ∈ shown then c.value[i]? else some '*' := by
  constructor
  · intro f g h
    have hsame := run_eq_of_seesAlike h now
    refine ⟨by rw [hsame], fun hreport => ?_⟩
    obtain ⟨found, hfound⟩ := exists_run_of_canReport h.exists_cut hreport now
    exact ⟨found.map Finding.document, map_eq_ok_iff.mpr ⟨found, hfound, rfl⟩,
      map_eq_ok_iff.mpr ⟨found, hsame ▸ hfound, rfl⟩⟩
  · intro f found h x hx
    obtain ⟨-, line, whole, text, onLine, hline, hcut, hon, hx⟩ := mem_run h hx
    obtain ⟨-, p, hp, c, hc, -, rfl⟩ := (mem_findingsOn hon).mp hx
    have hevidence : (p.findingOf now f.path line c).evidence.toList = masked c.value :=
      String.toList_ofList
    refine ⟨line, whole, text, p, c, hline, hcut, hp, hc, rfl, ?_, shownPlaces c.value.length,
      card_shownPlaces_le _, fun hshort => if_pos hshort, fun i hi => ?_⟩
    · rw [hevidence, length_masked]
    · rw [hevidence, getElem?_masked hi]

end Detect.SecretScan

/-! ## Passwords that look alike -/

namespace Detect

/-- How random a text is depends on how long it is and how often its characters come. -/
theorem entropy_congr {cs ds : List Char} (hlength : cs.length = ds.length)
    (hcounts : (counts cs).map Prod.snd = (counts ds).map Prod.snd) : entropy cs = entropy ds := by
  have hsum : ∀ (n : Nat) (es : List (Char × Nat)),
      es.foldl (fun sum e => sum + share n e.2) 0.0 =
        (es.map Prod.snd).foldl (fun sum k => sum + share n k) 0.0 := by
    intro n es
    rw [List.foldl_map]
  have hempty : cs.isEmpty = ds.isEmpty := by
    rw [Bool.eq_iff_iff, List.isEmpty_iff_length_eq_zero, List.isEmpty_iff_length_eq_zero, hlength]
  rw [entropy, entropy, hempty, hsum, hsum, hcounts, hlength]

theorem entropy_of_head?_candidates {p : SecretPattern} {text : List Char} {c : Candidate}
    (h : (candidates p text).head? = some c) : c.entropy = entropy c.value := by
  cases head?_candidates_eq_some_iff.mp h
  rfl

/-- A line looks like itself. -/
theorem SecretScan.LooksAlike.refl (s : SecretScan) (text : List Char) :
    s.LooksAlike text text where
  skips_eq := rfl
  first := by
    intro _ p _
    cases (candidates p text).head? with
    | none => exact .none
    | some c => exact .some ⟨rfl, rfl, fun _ => ⟨rfl, rfl⟩⟩

namespace Vault

/-- The search for keys: letters after an equals sign. -/
def scan : SecretScan where
  patterns := [{
    id := .text "KEY"
    name := .text "Key"
    description := .text "Key in a file."
    pattern := {
      source := "=(?P<secret>[A-Za-z]+)"
      node := .seq (.char (.single .exact '='.toNat))
        (.group 1 (.rep .greedy 1 none
          (.char ⟨false, [.range 'A'.toNat 'Z'.toNat, .range 'a'.toNat 'z'.toNat], .exact⟩)))
      names := [("secret", 1)] }
    severity := .high
    entropyThreshold := 3.0 }]
  lineMarkers := ["example".toList]
  pathMarkers := ["test".toList]
  cap := .int 4096

/-- A page with a key. -/
def page (key : List Char) : SourceFile where
  path := "login.py"
  lines := ["import vault".toList, "key=".toList ++ key]
  language := "python"

/-- Two keys with the same ends. -/
def keys : List (List Char) :=
  ["abcdefghijklmnop".toList, "abcdEFGHIJKLmnop".toList]

/-- Each of the keys is found. -/
theorem candidate_of_key {key : List Char} (h : key ∈ keys) {p : SecretPattern}
    (hp : p ∈ scan.patterns) :
    ∃ c, (candidates p ("key=".toList ++ key)).head? = some c ∧ c.value = key := by
  have hfound : ∀ key ∈ keys, ∀ p ∈ scan.patterns,
      (candidates p ("key=".toList ++ key)).head?.map Candidate.value = some key := by
    decide +kernel
  exact Option.map_eq_some_iff.mp (hfound key h p hp)

/-- The keys are equally long, their characters come equally often, and they have the same ends. -/
theorem alike_of_keys {key key' : List Char} (h : key ∈ keys) (h' : key' ∈ keys) :
    key.length = key'.length ∧ (counts key).map Prod.snd = (counts key').map Prod.snd ∧
      key.take 4 = key'.take 4 ∧ key.drop (key.length - 4) = key'.drop (key'.length - 4) := by
  have hall : ∀ key ∈ keys, ∀ key' ∈ keys,
      key.length = key'.length ∧ (counts key).map Prod.snd = (counts key').map Prod.snd ∧
        key.take 4 = key'.take 4 ∧ key.drop (key.length - 4) = key'.drop (key'.length - 4) := by
    decide +kernel
  exact hall key h key' h'

/-- Pages with the keys look alike. -/
theorem seesAlike {key key' : List Char} (h : key ∈ keys) (h' : key' ∈ keys) :
    scan.SeesAlike (page key) (page key') := by
  have hcut : ∀ key ∈ keys, cutIfBeyond scan.cap ("key=".toList ++ key) =
      .ok ("key=".toList ++ key) := by
    intro key h
    have hshort : ∀ key ∈ keys, ¬ (4096 : Int) < ("key=".toList ++ key).length := by
      decide +kernel
    rw [scan, cutIfBeyond_whole, if_neg (hshort key h)]
  have hskips : ∀ key ∈ keys, scan.skips ("key=".toList ++ key) = false := by
    decide +kernel
  refine ⟨rfl, .cons ⟨_, _, rfl, rfl, .refl scan _⟩
    (.cons ⟨_, _, hcut key h, hcut key' h', ?_⟩ .nil)⟩
  refine ⟨(hskips key h).trans (hskips key' h').symm, fun _ p hp => ?_⟩
  obtain ⟨c, hc, rfl⟩ := candidate_of_key h hp
  obtain ⟨c', hc', rfl⟩ := candidate_of_key h' hp
  obtain ⟨hlength, hcounts, hends⟩ := alike_of_keys h h'
  rw [hc, hc']
  refine .some ⟨hlength, ?_, fun _ => hends⟩
  rw [entropy_of_head?_candidates hc, entropy_of_head?_candidates hc',
    entropy_congr hlength hcounts]

end Vault

/-- The keys on the two pages are told by the same documents, of which there is one. -/
theorem run_masked_vault :
    ∃ documents, (Vault.scan.run ⟨0, none⟩ (Vault.page "abcdefghijklmnop".toList)).map
        (List.map Finding.document) = .ok documents ∧
      (Vault.scan.run ⟨0, none⟩ (Vault.page "abcdEFGHIJKLmnop".toList)).map
        (List.map Finding.document) = .ok documents ∧ documents.length = 1 := by
  have halike : Vault.scan.SeesAlike (Vault.page "abcdefghijklmnop".toList)
      (Vault.page "abcdEFGHIJKLmnop".toList) := Vault.seesAlike (by decide) (by decide)
  have hreport : ∀ p ∈ Vault.scan.patterns,
      p.CanReport (Vault.page "abcdefghijklmnop".toList).path :=
    List.forall_mem_singleton.mpr ⟨⟨rfl, rfl, rfl⟩, rfl, rfl⟩
  obtain ⟨documents, hfirst, hsecond⟩ :=
    ((SecretScan.run_masked Vault.scan ⟨0, none⟩).1 _ _ halike).2 hreport
  refine ⟨documents, hfirst, hsecond, ?_⟩
  have hone : ((Vault.scan.run ⟨0, none⟩ (Vault.page "abcdefghijklmnop".toList)).toOption.any
      fun found => found.length == 1) = true := by
    decide +kernel
  obtain ⟨found, hfound, hlength⟩ := any_toOption_iff.mp hone
  obtain ⟨found', hfound', rfl⟩ := map_eq_ok_iff.mp hfirst
  obtain rfl := Except.ok.inj (hfound.symm.trans hfound')
  rw [List.length_map]
  exact beq_iff_eq.mp hlength

end Detect

end SecurityAudit
