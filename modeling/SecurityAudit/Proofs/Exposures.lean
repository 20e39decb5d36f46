import SecurityAudit.Proofs.Acceptance
import SecurityAudit.Proofs.DistinctFindings
import SecurityAudit.Proofs.Provenance
import SecurityAudit.Proofs.SuccessiveMatches

/-!
# Which secrets are reported

The search for secrets goes through the lines of a file, through the patterns on each line, and
through the matches of each pattern.  A line that is a comment or has a marker is passed over as a
whole, and so is a file whose path has one.  A match whose secret is not random enough is passed
over alone: the matches after it still count, and so do the patterns and lines after it.

What is reported is told by a list of `Exposure`s, which come line by line and on each line pattern
by pattern.  The main statement, `run_exposes`, says when a pattern reports a line, and which of its
matches it reports.
-/

namespace SecurityAudit.Detect

/-! ## The first match that is random enough -/

/-- The secret in a match is random enough for its pattern. -/
def IsRandom (p : SecretPattern) (text : List Char) (m : Pattern.Match) : Prop :=
  p.entropyThreshold ≤ entropy (p.extract m text)

instance (p : SecretPattern) (text : List Char) (m : Pattern.Match) :
    Decidable (IsRandom p text m) :=
  inferInstanceAs (Decidable (_ ≤ _))

/-- The secret in a match, with its entropy. -/
def candidateOf (p : SecretPattern) (text : List Char) (m : Pattern.Match) : Candidate where
  value := p.extract m text
  entropy := entropy (p.extract m text)

/-- A candidate is the secret in the first match of a text that is random enough: of the matches
that come one after another, those before it are not. -/
inductive IsFirstRandom (p : SecretPattern) (text : List Char) : Candidate → Prop
  | intro {weaker later : List Pattern.Match} {m : Pattern.Match}
      (matched : p.pattern.Succession text 0 false (weaker ++ m :: later))
      (weak : ∀ m' ∈ weaker, ¬ IsRandom p text m') (random : IsRandom p text m) :
      IsFirstRandom p text (candidateOf p text m)

variable {p : SecretPattern} {text : List Char} {c : Candidate}

/-- The candidates of a line are the secrets in its matches that are random enough. -/
theorem candidates_eq (p : SecretPattern) (text : List Char) :
    candidates p text =
      ((Pattern.allMatches p.pattern text).filter fun m => IsRandom p text m).map
        (candidateOf p text) := by
  rw [candidates, List.filter_map]
  rfl

/-- The first candidate is the secret in the first match that is random enough. -/
theorem head?_candidates_eq_some_iff :
    (candidates p text).head? = some c ↔ IsFirstRandom p text c := by
  rw [candidates_eq, List.head?_map, List.head?_filter, Option.map_eq_some_iff]
  constructor
  · rintro ⟨m, hm, rfl⟩
    obtain ⟨hrandom, weaker, later, hmatches, hweak⟩ := List.find?_eq_some_iff_append.mp hm
    refine .intro (Pattern.succession_iff.mpr hmatches.symm) (fun m' hm' => ?_)
      (of_decide_eq_true hrandom)
    simpa using hweak m' hm'
  · rintro ⟨hmatched, hweak, hrandom⟩
    rename_i weaker later m
    refine ⟨m, List.find?_eq_some_iff_append.mpr ⟨decide_eq_true hrandom, weaker, later,
      (Pattern.succession_iff.mp hmatched).symm, fun m' hm' => ?_⟩, rfl⟩
    simpa using hweak m' hm'

/-- There is a candidate when some match is random enough. -/
theorem exists_head?_candidates_iff :
    (∃ c, (candidates p text).head? = some c) ↔
      ∃ ms, p.pattern.Succession text 0 false ms ∧ ∃ m ∈ ms, IsRandom p text m := by
  constructor
  · rintro ⟨c, hc⟩
    obtain ⟨hmatched, -, hrandom⟩ := head?_candidates_eq_some_iff.mp hc
    exact ⟨_, hmatched, _, List.mem_append_right _ List.mem_cons_self, hrandom⟩
  · rintro ⟨ms, hmatched, m, hm, hrandom⟩
    have hmem : candidateOf p text m ∈ candidates p text := by
      rw [candidates_eq, ← Pattern.succession_iff.mp hmatched]
      exact List.mem_map_of_mem (List.mem_filter.mpr ⟨hm, decide_eq_true hrandom⟩)
    cases hcandidates : candidates p text with
    | nil =>
        rw [hcandidates] at hmem
        cases hmem
    | cons c cs => exact ⟨c, rfl⟩

/-! ## Markers -/

namespace SecretScan

/-- A text holds another one when that is a part of it. -/
theorem holds_iff {part cs : List Char} : holds part cs = true ↔ part <:+: cs := by
  induction cs with
  | nil => rw [holds, List.isEmpty_iff, List.infix_nil]
  | cons c rest ih =>
      rw [holds, Bool.or_eq_true, ih, List.isPrefixOf_iff_prefix, List.infix_cons_iff]

/-- A text is marked when one of the markers is a part of it in small letters. -/
theorem isMarked_iff {markers : List (List Char)} {cs : List Char} :
    isMarked markers cs = true ↔ ∃ marker ∈ markers, marker <:+: Text.lowerChars cs := by
  simp only [isMarked, List.any_eq_true, holds_iff]

/-- The search for secrets with markers in whatever letter case. -/
def ofMarkers (patterns : List SecretPattern) (lineMarkers pathMarkers : List (List Char))
    (cap : Value) : SecretScan where
  patterns := patterns
  lineMarkers := lineMarkers.map Text.lowerChars
  pathMarkers := pathMarkers.map Text.lowerChars
  cap := cap

/-- Settings whose markers are texts ask for the search with these markers. -/
theorem ofSettings_eq (patterns : List SecretPattern) {s : Settings}
    {lineMarkers pathMarkers : List String} (hline : s.secrets.skipMarkers = .texts lineMarkers)
    (hpath : s.secrets.skipPathMarkers = .texts pathMarkers) :
    ofSettings patterns s = .ok (ofMarkers patterns (lineMarkers.map String.toList)
      (pathMarkers.map String.toList) s.scan.maxLineLength) := by
  have hmarkers : ∀ items : List String,
      markersOf (.texts items) = .ok ((items.map String.toList).map Text.lowerChars) := by
    intro items
    rw [markersOf, Value.elements?_of_texts]
    refine mapM_eq_ok_iff.mpr ?_
    rw [List.forall₂_map_left_iff, List.map_map, List.forall₂_map_right_iff]
    exact List.forall₂_same.mpr fun item _ => rfl
  rw [ofSettings, hline, hpath, hmarkers, hmarkers]
  rfl

end SecretScan

/-! ## Lines -/

/-- What a search looks at of a line of a file: the line as far as the cap, if it is no comment and
has none of the markers in whatever letter case. -/
inductive LooksAt (f : SourceFile) (cap : Value) (lineMarkers : List (List Char)) (line : Nat)
    (text : List Char) : Prop
  | intro {whole : List Char} (numbered : (line, whole) ∈ f.numbered)
      (cut : cutIfBeyond cap whole = .ok text) (code : isCommentLine text = false)
      (unmarked : ∀ marker ∈ lineMarkers, ¬ Text.lowerChars marker <:+: Text.lowerChars text)

/-- A pattern has found a secret on a line: the numbers of the line and of the pattern, the pattern
and the secret. -/
structure Exposure where
  line : Nat
  index : Nat
  pattern : SecretPattern
  candidate : Candidate

namespace Exposure

/-- The finding of an exposure. -/
def finding (now : Calendar.Moment) (path : RawText) (e : Exposure) : Finding :=
  e.pattern.findingOf now path e.line e.candidate

/-- An exposure comes before another one: on a line before, or on the same line and of a pattern
before. -/
def Precedes (e e' : Exposure) : Prop :=
  e.line < e'.line ∨ e.line = e'.line ∧ e.index < e'.index

end Exposure

namespace SecretScan

variable {s : SecretScan} {f : SourceFile} {es : List Exposure} {e : Exposure}

/-- The exposures on a line that is looked at, pattern by pattern. -/
def exposuresOn (s : SecretScan) (line : Nat) (text : List Char) : List Exposure :=
  if s.skips text then []
  else
    s.patterns.zipIdx.filterMap fun (p, i) =>
      (candidates p text).head?.map fun c => ⟨line, i, p, c⟩

/-- The exposures on the lines of a file, line by line. -/
def exposures (s : SecretScan) (f : SourceFile) : Except Refusal (List Exposure) :=
  (f.numbered.mapM fun (line, whole) =>
    (cutIfBeyond s.cap whole).map (s.exposuresOn line)).map List.flatten

/-- The candidates on a line are those of its exposures. -/
theorem candidatesOn_eq (s : SecretScan) (line : Nat) (text : List Char) :
    s.candidatesOn text = (s.exposuresOn line text).map fun e => (e.pattern, e.candidate) := by
  rw [candidatesOn, exposuresOn]
  split
  · rfl
  · have hpatterns : s.patterns = s.patterns.zipIdx.map Prod.fst :=
      (List.zipIdx_map_fst 0 s.patterns).symm
    conv_lhs => rw [hpatterns, List.filterMap_map]
    rw [List.map_filterMap]
    simp only [Option.map_map]
    rfl

/-- What is found on a line are the findings of the exposures, when all of them can be reported. -/
theorem findingsOn_eq_ok_iff_exposures {now : Calendar.Moment} {path : RawText} {line : Nat}
    {text : List Char} {fs : List Finding} :
    s.findingsOn now path line text = .ok fs ↔
      (∀ e ∈ s.exposuresOn line text, e.pattern.CanReport path) ∧
        (s.exposuresOn line text).map (Exposure.finding now path) = fs := by
  have hline : ∀ e ∈ s.exposuresOn line text, e.line = line := by
    intro e he
    rw [exposuresOn] at he
    split at he
    · cases he
    · obtain ⟨⟨p, i⟩, -, he⟩ := List.mem_filterMap.mp he
      obtain ⟨c, -, rfl⟩ := Option.map_eq_some_iff.mp he
      rfl
  rw [findingsOn_eq_ok_iff, candidatesOn_eq s line, List.forall_mem_map, List.map_map,
    List.map_congr_left fun e he => by
      rw [Function.comp_apply, ← hline e he]]
  rfl

/-- **What is found in a file** are the findings of the exposures, when all of them can be reported,
unless its path is marked. -/
theorem run_eq_ok_iff {now : Calendar.Moment} {fs : List Finding} :
    s.run now f = .ok fs ↔
      (s.skipsPath f.path = true ∧ fs = []) ∨
        s.skipsPath f.path = false ∧ ∃ es, s.exposures f = .ok es ∧
          (∀ e ∈ es, e.pattern.CanReport f.path) ∧
            es.map (Exposure.finding now f.path) = fs := by
  have hline (line : Nat × List Char) (fs : List Finding) :
      (do s.findingsOn now f.path line.1 (← cutIfBeyond s.cap line.2)) = .ok fs ↔
        ∃ es, (cutIfBeyond s.cap line.2).map (s.exposuresOn line.1) = .ok es ∧
          (∀ e ∈ es, e.pattern.CanReport f.path) ∧
            es.map (Exposure.finding now f.path) = fs := by
    simp only [bind_eq_ok_iff, findingsOn_eq_ok_iff_exposures, map_eq_ok_iff]
    constructor
    · rintro ⟨text, hcut, hreport, hfs⟩
      exact ⟨_, ⟨text, hcut, rfl⟩, hreport, hfs⟩
    · rintro ⟨_, ⟨text, hcut, rfl⟩, hreport, hfs⟩
      exact ⟨text, hcut, hreport, hfs⟩
  cases hskips : s.skipsPath f.path with
  | true =>
      simp only [run, hskips, if_true, pure_eq_ok_iff, true_and, Bool.true_eq_false, false_and,
        or_false, eq_comm (a := fs) (b := [])]
  | false =>
      simp only [run, hskips, Bool.false_eq_true, if_false, false_and, false_or, true_and,
        bind_eq_ok_iff, pure_eq_ok_iff, mapM_eq_ok_iff_of_steps hline, exposures, map_eq_ok_iff]
      constructor
      · rintro ⟨_, ⟨ess, hess, hreport, rfl⟩, rfl⟩
        refine ⟨_, ⟨ess, hess, rfl⟩, fun e he => ?_, List.map_flatten⟩
        obtain ⟨es, hes, he⟩ := List.mem_flatten.mp he
        exact hreport es hes e he
      · rintro ⟨_, ⟨ess, hess, rfl⟩, hreport, rfl⟩
        exact ⟨_, ⟨ess, hess, fun es hes e he => hreport e (List.mem_flatten_of_mem hes he), rfl⟩,
          List.map_flatten.symm⟩

/-- The exposures on a line are those of its patterns that have a candidate. -/
theorem mem_exposuresOn {line : Nat} {text : List Char} :
    e ∈ s.exposuresOn line text ↔
      s.skips text = false ∧ e.line = line ∧ s.patterns[e.index]? = some e.pattern ∧
        (candidates e.pattern text).head? = some e.candidate := by
  obtain ⟨line', index, p, c⟩ := e
  rw [exposuresOn]
  cases hskips : s.skips text with
  | true => simp
  | false =>
      simp only [Bool.false_eq_true, if_false, List.mem_filterMap, Prod.exists,
        List.mem_zipIdx_iff_getElem?, Option.map_eq_some_iff, Exposure.mk.injEq, true_and]
      constructor
      · rintro ⟨p, i, hp, c, hc, rfl, rfl, rfl, rfl⟩
        exact ⟨rfl, hp, hc⟩
      · rintro ⟨rfl, hp, hc⟩
        exact ⟨p, index, hp, c, hc, rfl, rfl, rfl, rfl⟩

/-- The exposures in a file are those on its lines, as far as the cap. -/
theorem mem_exposures (h : s.exposures f = .ok es) :
    e ∈ es ↔ ∃ whole text, (e.line, whole) ∈ f.numbered ∧ cutIfBeyond s.cap whole = .ok text ∧
      e ∈ s.exposuresOn e.line text := by
  obtain ⟨found, hfound, rfl⟩ := map_eq_ok_iff.mp h
  have hlines := mapM_eq_ok_iff.mp hfound
  rw [List.mem_flatten]
  constructor
  · rintro ⟨onLine, honLine, he⟩
    obtain ⟨⟨line, whole⟩, hline, h⟩ := exists_of_forall₂_of_mem hlines honLine
    obtain ⟨text, hcut, rfl⟩ := map_eq_ok_iff.mp h
    obtain rfl := (mem_exposuresOn.mp he).2.1
    exact ⟨whole, text, hline, hcut, he⟩
  · rintro ⟨whole, text, hline, hcut, he⟩
    obtain ⟨onLine, honLine, h⟩ := exists_of_forall₂_of_mem hlines.flip hline
    obtain ⟨text', hcut', rfl⟩ := map_eq_ok_iff.mp h
    obtain rfl := Except.ok.inj (hcut.symm.trans hcut')
    exact ⟨_, honLine, he⟩

/-- The exposures on a line come pattern by pattern. -/
theorem pairwise_exposuresOn (s : SecretScan) (line : Nat) (text : List Char) :
    (s.exposuresOn line text).Pairwise Exposure.Precedes := by
  rw [exposuresOn]
  split
  · exact .nil
  · have hindices : s.patterns.zipIdx.Pairwise fun p p' => p.2 < p'.2 := by
      rw [← List.pairwise_map (f := Prod.snd) (R := (· < ·)), List.zipIdx_map_snd]
      exact List.pairwise_lt_range' 1
    refine List.pairwise_filterMap.mpr (hindices.imp fun {p p'} hlt e he e' he' => ?_)
    obtain ⟨c, -, rfl⟩ := Option.map_eq_some_iff.mp he
    obtain ⟨c', -, rfl⟩ := Option.map_eq_some_iff.mp he'
    exact .inr ⟨rfl, hlt⟩

/-- The exposures in a file come line by line, and on each line pattern by pattern. -/
theorem pairwise_exposures (h : s.exposures f = .ok es) : es.Pairwise Exposure.Precedes := by
  obtain ⟨found, hfound, rfl⟩ := map_eq_ok_iff.mp h
  refine List.pairwise_flatten.mpr ⟨fun onLine honLine => ?_, ?_⟩
  · obtain ⟨⟨line, whole⟩, -, h⟩ := exists_of_mem_mapM hfound honLine
    obtain ⟨text, -, rfl⟩ := map_eq_ok_iff.mp h
    exact s.pairwise_exposuresOn line text
  · refine pairwise_of_forall₂ (mapM_eq_ok_iff.mp hfound) (pairwise_numbered f) ?_
    rintro ⟨line, whole⟩ onLine ⟨line', whole'⟩ onLine' h h' hlt e he e' he'
    obtain ⟨text, -, rfl⟩ := map_eq_ok_iff.mp h
    obtain ⟨text', -, rfl⟩ := map_eq_ok_iff.mp h'
    left
    rw [(mem_exposuresOn.mp he).2.1, (mem_exposuresOn.mp he').2.1]
    exact hlt

/-- The exposures in a file can be told when each of its lines can be cut. -/
theorem exists_exposures_iff :
    (∃ es, s.exposures f = .ok es) ↔
      ∀ whole ∈ f.lines, ∃ text, cutIfBeyond s.cap whole = .ok text := by
  constructor
  · rintro ⟨es, h⟩ whole hwhole
    obtain ⟨found, hfound, -⟩ := map_eq_ok_iff.mp h
    obtain ⟨i, hi⟩ := List.mem_iff_getElem?.mp hwhole
    have hline : (i + 1, whole) ∈ f.numbered :=
      List.mem_map.mpr ⟨(whole, i), List.mem_zipIdx_iff_getElem?.mpr hi, rfl⟩
    obtain ⟨onLine, -, h⟩ :=
      exists_of_forall₂_of_mem (mapM_eq_ok_iff.mp hfound).flip hline
    obtain ⟨text, hcut, -⟩ := map_eq_ok_iff.mp h
    exact ⟨text, hcut⟩
  · intro h
    have hlines : ∀ line ∈ f.numbered,
        ∃ onLine, (cutIfBeyond s.cap line.2).map (s.exposuresOn line.1) = .ok onLine := by
      intro line hline
      obtain ⟨⟨whole, i⟩, hwhole, rfl⟩ := List.mem_map.mp hline
      obtain ⟨text, hcut⟩ := h whole (List.fst_mem_of_mem_zipIdx hwhole)
      exact ⟨_, map_eq_ok_iff.mpr ⟨text, hcut, rfl⟩⟩
    obtain ⟨found, hfound⟩ := exists_mapM hlines
    exact ⟨found.flatten, map_eq_ok_iff.mpr ⟨found, hfound, rfl⟩⟩

variable {patterns : List SecretPattern} {lineMarkers pathMarkers : List (List Char)} {cap : Value}

/-- A text is marked with markers in whatever letter case. -/
theorem isMarked_map_lowerChars_iff {markers : List (List Char)} {cs : List Char} :
    isMarked (markers.map Text.lowerChars) cs = true ↔
      ∃ marker ∈ markers, Text.lowerChars marker <:+: Text.lowerChars cs := by
  rw [isMarked_iff]
  constructor
  · rintro ⟨small, hsmall, hpart⟩
    obtain ⟨marker, hmarker, rfl⟩ := List.mem_map.mp hsmall
    exact ⟨marker, hmarker, hpart⟩
  · rintro ⟨marker, hmarker, hpart⟩
    exact ⟨_, List.mem_map_of_mem hmarker, hpart⟩

/-- A line is looked at when it is no comment and has no marker. -/
theorem skips_ofMarkers_iff {text : List Char} :
    (ofMarkers patterns lineMarkers pathMarkers cap).skips text = false ↔
      isCommentLine text = false ∧
        ∀ marker ∈ lineMarkers, ¬ Text.lowerChars marker <:+: Text.lowerChars text := by
  rw [skips, Bool.or_eq_false_iff, ofMarkers, ← Bool.not_eq_true (isMarked _ _),
    isMarked_map_lowerChars_iff]
  simp only [not_exists, not_and]

end SecretScan

/-- A whole number as cap cuts every line. -/
theorem cutIfBeyond_whole (n : Int) (line : List Char) :
    cutIfBeyond (.int n) line = .ok (if n < line.length then firstChars n line else line) := by
  have hcap : (Value.int n).number? = some (.int n) := rfl
  have hbelow : (Number.int n).below (lengthOf line) = decide (n < line.length) :=
    Number.below_int _ _
  simp only [cutIfBeyond, hcap, hbelow, decide_eq_true_eq]
  split
  · rfl
  · rfl

/-- Exposures are those of a file: they come line by line, and on each line pattern by pattern;
there is one of a pattern on a line when the line is looked at and the secret in some match of the
pattern there is random enough, of the matches that come one after another; and what it shows is the
secret in the first such match. -/
structure AreExposures (patterns : List SecretPattern) (lineMarkers : List (List Char))
    (cap : Value) (f : SourceFile) (es : List Exposure) : Prop where
  ordered : es.Pairwise Exposure.Precedes
  reported : ∀ line index, (∃ e ∈ es, e.line = line ∧ e.index = index) ↔
    ∃ text p, LooksAt f cap lineMarkers line text ∧ patterns[index]? = some p ∧
      ∃ ms, p.pattern.Succession text 0 false ms ∧ ∃ m ∈ ms, IsRandom p text m
  shown : ∀ e ∈ es, patterns[e.index]? = some e.pattern ∧
    ∃ text, LooksAt f cap lineMarkers e.line text ∧ IsFirstRandom e.pattern text e.candidate

namespace SecretScan

variable {patterns : List SecretPattern} {lineMarkers pathMarkers : List (List Char)} {cap : Value}
  {f : SourceFile} {es : List Exposure}

/-- The exposures that are searched for are those of the file. -/
theorem areExposures_of_exposures
    (h : (ofMarkers patterns lineMarkers pathMarkers cap).exposures f = .ok es) :
    AreExposures patterns lineMarkers cap f es := by
  have hmem : ∀ e, e ∈ es ↔ patterns[e.index]? = some e.pattern ∧
      ∃ text, LooksAt f cap lineMarkers e.line text ∧
        IsFirstRandom e.pattern text e.candidate := by
    intro e
    rw [mem_exposures h]
    simp only [mem_exposuresOn, skips_ofMarkers_iff, head?_candidates_eq_some_iff]
    constructor
    · rintro ⟨whole, text, hline, hcut, ⟨hcode, hunmarked⟩, -, hpattern, hfirst⟩
      exact ⟨hpattern, text, ⟨hline, hcut, hcode, hunmarked⟩, hfirst⟩
    · rintro ⟨hpattern, text, ⟨hline, hcut, hcode, hunmarked⟩, hfirst⟩
      exact ⟨_, text, hline, hcut, ⟨hcode, hunmarked⟩, trivial, hpattern, hfirst⟩
  refine ⟨pairwise_exposures h, fun line index => ?_, fun e he => (hmem e).mp he⟩
  constructor
  · rintro ⟨e, he, rfl, rfl⟩
    obtain ⟨hpattern, text, hlooked, hfirst⟩ := (hmem e).mp he
    exact ⟨text, e.pattern, hlooked, hpattern,
      exists_head?_candidates_iff.mp ⟨_, head?_candidates_eq_some_iff.mpr hfirst⟩⟩
  · rintro ⟨text, p, hlooked, hpattern, hrandom⟩
    obtain ⟨c, hc⟩ := exists_head?_candidates_iff.mpr hrandom
    exact ⟨⟨line, index, p, c⟩,
      (hmem _).mpr ⟨hpattern, text, hlooked, head?_candidates_eq_some_iff.mp hc⟩, rfl, rfl⟩

/-- A path is marked when a marker, in whatever letter case, is a part of what lies between its
halves. -/
theorem skipsPath_ofMarkers_iff {path : RawText} :
    (ofMarkers patterns lineMarkers pathMarkers cap).skipsPath path = true ↔
      ∃ marker ∈ pathMarkers, ∃ piece ∈ path.pieces,
        Text.lowerChars marker <:+: Text.lowerChars piece.toList := by
  simp only [skipsPath, ofMarkers, List.any_eq_true, isMarked_map_lowerChars_iff]
  constructor
  · rintro ⟨piece, hpiece, marker, hmarker, hpart⟩
    exact ⟨marker, hmarker, piece, hpiece, hpart⟩
  · rintro ⟨marker, hmarker, piece, hpiece, hpart⟩
    exact ⟨piece, hpiece, marker, hmarker, hpart⟩

/-- All exposures of a file can be reported when that is possible for each pattern that has found a
secret on a line that is looked at. -/
theorem canReport_iff (h : AreExposures patterns lineMarkers cap f es) :
    (∀ e ∈ es, e.pattern.CanReport f.path) ↔
      ∀ line text p, LooksAt f cap lineMarkers line text → p ∈ patterns →
        (∃ ms, p.pattern.Succession text 0 false ms ∧ ∃ m ∈ ms, IsRandom p text m) →
          p.CanReport f.path := by
  constructor
  · intro hreport line text p hlooked hp hrandom
    obtain ⟨index, hindex⟩ := List.mem_iff_getElem?.mp hp
    obtain ⟨e, he, -, rfl⟩ := (h.reported line index).mpr ⟨text, p, hlooked, hindex, hrandom⟩
    obtain rfl := Option.some.inj ((h.shown e he).1.symm.trans hindex)
    exact hreport e he
  · intro hreport e he
    obtain ⟨hpattern, text, hlooked, hfirst⟩ := h.shown e he
    exact hreport e.line text e.pattern hlooked (List.mem_of_getElem? hpattern)
      (exists_head?_candidates_iff.mp ⟨_, head?_candidates_eq_some_iff.mpr hfirst⟩)

/-- **Which secrets are reported.**  In a file whose path has one of the markers, none.  In any
other file there is an answer when every line can be cut, as it can when the cap is a whole number,
and every pattern that has found a secret can report it: its id, name and description can be written
out, and there is no half of a surrogate pair in the id or in the path.  Then the findings are those
of the exposures in the file: each shows the ends of the secret that it is about and tells its
entropy. -/
theorem run_exposes (patterns : List SecretPattern) (lineMarkers pathMarkers : List (List Char))
    (cap : Value) (now : Calendar.Moment) (f : SourceFile) :
    ((∃ marker ∈ pathMarkers, ∃ piece ∈ f.path.pieces,
        Text.lowerChars marker <:+: Text.lowerChars piece.toList) →
      (ofMarkers patterns lineMarkers pathMarkers cap).run now f = .ok []) ∧
    ((∀ marker ∈ pathMarkers, ∀ piece ∈ f.path.pieces,
        ¬ Text.lowerChars marker <:+: Text.lowerChars piece.toList) →
      ((∃ found, (ofMarkers patterns lineMarkers pathMarkers cap).run now f = .ok found) ↔
        (∀ whole ∈ f.lines, ∃ text, cutIfBeyond cap whole = .ok text) ∧
          ∀ line text p, LooksAt f cap lineMarkers line text → p ∈ patterns →
            (∃ ms, p.pattern.Succession text 0 false ms ∧ ∃ m ∈ ms, IsRandom p text m) →
              p.CanReport f.path) ∧
      ∀ found, (ofMarkers patterns lineMarkers pathMarkers cap).run now f = .ok found →
        ∃ es, AreExposures patterns lineMarkers cap f es ∧
          found = es.map (Exposure.finding now f.path)) ∧
    (∀ e : Exposure, (e.finding now f.path).line = e.line ∧
      (e.finding now f.path).evidence = String.ofList (masked e.candidate.value) ∧
      (e.finding now f.path).entropy = some (.float e.candidate.entropy)) ∧
    ∀ (n : Int) (whole : List Char), cap = .int n →
      cutIfBeyond cap whole = .ok (if n < whole.length then firstChars n whole else whole) := by
  refine ⟨fun hmarked => run_eq_ok_iff.mpr (.inl ⟨skipsPath_ofMarkers_iff.mpr hmarked, rfl⟩),
    fun hunmarked => ⟨?_, fun found h => ?_⟩, fun _ => ⟨rfl, rfl, rfl⟩, ?_⟩
  · have hseen : (ofMarkers patterns lineMarkers pathMarkers cap).skipsPath f.path = false := by
      rw [← Bool.not_eq_true, skipsPath_ofMarkers_iff]
      rintro ⟨marker, hmarker, piece, hpiece, hpart⟩
      exact hunmarked marker hmarker piece hpiece hpart
    have htold : (∃ es, (ofMarkers patterns lineMarkers pathMarkers cap).exposures f = .ok es) ↔
        ∀ whole ∈ f.lines, ∃ text, cutIfBeyond cap whole = .ok text := exists_exposures_iff
    rw [← htold]
    constructor
    · rintro ⟨found, h⟩
      obtain ⟨hmarked, -⟩ | ⟨-, es, hes, hreport, -⟩ := run_eq_ok_iff.mp h
      · cases hseen.symm.trans hmarked
      · exact ⟨⟨es, hes⟩, (canReport_iff (areExposures_of_exposures hes)).mp hreport⟩
    · rintro ⟨⟨es, hes⟩, hreport⟩
      exact ⟨_, run_eq_ok_iff.mpr (.inr ⟨hseen, es, hes,
        (canReport_iff (areExposures_of_exposures hes)).mpr hreport, rfl⟩)⟩
  · obtain ⟨hmarked, -⟩ | ⟨-, es, hes, -, rfl⟩ := run_eq_ok_iff.mp h
    · obtain ⟨marker, hmarker, piece, hpiece, hpart⟩ := skipsPath_ofMarkers_iff.mp hmarked
      cases hunmarked marker hmarker piece hpiece hpart
    · exact ⟨es, areExposures_of_exposures hes, rfl⟩
  · rintro n whole rfl
    exact cutIfBeyond_whole n whole

end SecretScan

/-- The project of a rule file with one secret pattern, whose id is half of a surrogate pair. -/
def Token.nameless : Project where
  root := ⟨"", []⟩
  tree := {
    root := .directory [(".vulnaudit-rules", .directory [("own.yaml", .file
      "- id: \"\\ud800\"\n  kind: secret\n  pattern: zz\n  entropy_threshold: 0.0\n".toUTF8.toList)])] }

/-- **A secret that is found is not always reported.**  A rule file is loaded, and its pattern has a
secret on a line of a file; but the finding can have no id, so nothing is reported about the file.
-/
theorem exists_secret_refused :
    ∃ c, Catalog.ofSettings {} (some Token.nameless) = .ok c ∧
      (∃ p ∈ c.secrets, ∃ text, LooksAt Token.page (.int 2000) [] 1 text ∧
        ∃ ms, p.pattern.Succession text 0 false ms ∧ ∃ m ∈ ms, IsRandom p text m) ∧
      (SecretScan.ofMarkers c.secrets [] [] (.int 2000)).run ⟨0, none⟩ Token.page =
        .error .unencodable := by
  have hpasses : ((Catalog.ofSettings {} (some Token.nameless)).toOption.any fun c =>
      (c.secrets.any fun p => (candidates p "zz".toList).head?.isSome) &&
        match (SecretScan.ofMarkers c.secrets [] [] (.int 2000)).run ⟨0, none⟩ Token.page with
        | .ok _ => false
        | .error r => r == .unencodable) = true := by
    decide +kernel
  obtain ⟨c, hcatalog, hchecks⟩ := any_toOption_iff.mp hpasses
  obtain ⟨hfound, hrun⟩ := (Bool.and_eq_true _ _).mp hchecks
  obtain ⟨p, hp, hcandidate⟩ := List.any_eq_true.mp hfound
  refine ⟨c, hcatalog, ⟨p, hp, "zz".toList, ⟨List.mem_cons_self, rfl, rfl, nofun⟩,
    exists_head?_candidates_iff.mp (Option.isSome_iff_exists.mp hcandidate)⟩, ?_⟩
  split at hrun
  next => cases hrun
  next r hrefused => rw [hrefused, eq_of_beq hrun]

end SecurityAudit.Detect
