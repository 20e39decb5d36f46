import Mathlib.Data.List.Chain
import Mathlib.Logic.Relation
import SecurityAudit.Detect.Evidence
import SecurityAudit.Proofs.TextPieces

/-!
# Evidence is tidy

The evidence of a match is its words with one space between them, cut to 160 characters.  The words
are the stretches of a text without blanks, and everything about them follows from one equation: a
blank divides the words into those before it and those after it (`words_append_cons`).  So neither
blanks that become one space nor blanks that are taken off the ends change them.

A text is tidy if it has no blanks but single spaces between its words, and a tidy text is what its
words make with one space between them (`IsTidy.spaced_eq`).  Replacing the runs of blanks and
trimming leaves a tidy text with the words that there were (`trimChars_singleSpaced`), and a tidy
text that is cut and ends in dots is tidy again, also where the cut leaves a space before the dots.
-/

namespace SecurityAudit.Text

variable {c : Char} {cs ds gap : List Char}

/-! ## Words -/

/-- The words of a text: its stretches without blanks. -/
def words (cs : List Char) : List (List Char) :=
  (cs.splitOnP isBlank).filter fun word => !word.isEmpty

/-- The words of a text with one space between them. -/
def spaced (cs : List Char) : List Char :=
  [' '].intercalate (words cs)

@[simp]
theorem words_nil : words [] = [] := by
  rw [words, List.splitOnP_nil]
  rfl

/-- **A blank divides the words.** -/
theorem words_append_cons (hc : isBlank c = true) (cs ds : List Char) :
    words (cs ++ c :: ds) = words cs ++ words ds := by
  rw [words, List.splitOnP_append_cons cs ds hc, List.filter_append, words, words]

/-- A text without blanks is one word. -/
theorem words_of_not_blank (hne : cs ≠ []) (h : ∀ c ∈ cs, isBlank c = false) :
    words cs = [cs] := by
  have hone : cs.splitOnP isBlank = [cs] :=
    List.splitOnP_eq_singleton fun c hc => by simp [h c hc]
  rw [words, hone, List.filter_cons_of_pos (by simpa using hne), List.filter_nil]

/-- A blank in front is in no word. -/
theorem words_cons (hc : isBlank c = true) (cs : List Char) : words (c :: cs) = words cs := by
  rw [← List.nil_append (c :: cs), words_append_cons hc, words_nil, List.nil_append]

/-- Blanks in front are in no word. -/
theorem words_blanks_append (hgap : ∀ c ∈ gap, isBlank c = true) (cs : List Char) :
    words (gap ++ cs) = words cs := by
  induction gap with
  | nil => rfl
  | cons c gap ih =>
      obtain ⟨hc, hgap⟩ := List.forall_mem_cons.mp hgap
      rw [List.cons_append, words_cons hc, ih hgap]

/-- Any blanks between two texts divide the words in the same way. -/
theorem words_append_blanks_append (hne : gap ≠ []) (hgap : ∀ c ∈ gap, isBlank c = true)
    (cs ds : List Char) : words (cs ++ gap ++ ds) = words cs ++ words ds := by
  obtain ⟨c, gap, rfl⟩ := List.exists_cons_of_ne_nil hne
  obtain ⟨hc, hgap⟩ := List.forall_mem_cons.mp hgap
  rw [List.append_assoc, List.cons_append, words_append_cons hc, words_blanks_append hgap]

/-- Blanks behind are in no word. -/
theorem words_append_blanks (hgap : ∀ c ∈ gap, isBlank c = true) (cs : List Char) :
    words (cs ++ gap) = words cs := by
  by_cases hne : gap = []
  · rw [hne, List.append_nil]
  · have hdivide := words_append_blanks_append hne hgap cs []
    rwa [List.append_nil, words_nil, List.append_nil] at hdivide

/-- Trimming takes off no word. -/
theorem words_trimChars (cs : List Char) : words (trimChars cs) = words cs := by
  obtain ⟨before, after, hbefore, hafter, heq⟩ := exists_blanks_around cs
  have hwords : words (before ++ trimChars cs ++ after) = words (trimChars cs) := by
    rw [words_append_blanks hafter, words_blanks_append hbefore]
  rw [← hwords, ← heq]

/-! ## Tidy texts -/

/-- A text has no blanks but spaces, and no two of them are next to each other. -/
structure IsSingleSpaced (cs : List Char) : Prop where
  spaces : ∀ c ∈ cs, isBlank c = true → c = ' '
  apart : cs.IsChain fun c d => isBlank c = true → isBlank d = false

/-- A text has no blanks but single spaces, none at its beginning and none at its end. -/
structure IsTidy (cs : List Char) : Prop extends IsSingleSpaced cs where
  head : ∀ c, cs.head? = some c → isBlank c = false
  last : ∀ c, cs.getLast? = some c → isBlank c = false

/-- A stretch of a text with single spaces has single spaces. -/
theorem IsSingleSpaced.of_infix (h : IsSingleSpaced cs) (hds : ds <:+: cs) : IsSingleSpaced ds where
  spaces c hc := h.spaces c (hds.subset hc)
  apart := h.apart.infix hds

/-- A text with single spaces is tidy when it is trimmed. -/
theorem IsSingleSpaced.isTidy_trimChars (h : IsSingleSpaced cs) : IsTidy (trimChars cs) := by
  obtain ⟨before, after, -, -, heq⟩ := exists_blanks_around cs
  have htrimmed : trimChars (trimChars cs) = trimChars cs :=
    (trimChars_trimRight (trimLeft cs)).trans (trimChars_trimLeft cs)
  exact
    { h.of_infix ⟨before, after, heq.symm⟩ with
      head := fun c hc => not_isBlank_of_head? htrimmed hc
      last := fun c hc => not_isBlank_of_getLast? htrimmed hc }

/-- What follows a space in a tidy text is tidy, and it is not empty. -/
theorem IsTidy.after_blank (h : IsTidy (cs ++ c :: ds)) (hc : isBlank c = true) :
    IsTidy ds ∧ ds ≠ [] := by
  have hne : ds ≠ [] := by
    rintro rfl
    exact Bool.false_ne_true ((h.last c (by simp)).symm.trans hc)
  obtain ⟨d, rest, rfl⟩ := List.exists_cons_of_ne_nil hne
  refine ⟨?_, hne⟩
  have hchain := List.isChain_append_cons_cons.mp h.apart
  exact
    { h.toIsSingleSpaced.of_infix ⟨cs ++ [c], [], by simp⟩ with
      head := fun e he => Option.some.inj he ▸ hchain.2.1 hc
      last := fun e he => h.last e (by simpa using he) }

/-- A text is a word, with nothing after it or a blank and the rest. -/
theorem exists_first_word (cs : List Char) :
    ∃ word, (∀ c ∈ word, isBlank c = false) ∧
      (cs = word ∨ ∃ c rest, isBlank c = true ∧ cs = word ++ c :: rest) := by
  refine ⟨cs.takeWhile (!isBlank ·), fun c hc => by simpa using List.mem_takeWhile_imp hc, ?_⟩
  have hcut := List.takeWhile_append_dropWhile (p := (!isBlank ·)) (l := cs)
  have hstop := List.head?_dropWhile_not (!isBlank ·) cs
  cases hrest : cs.dropWhile (!isBlank ·) with
  | nil =>
      rw [hrest, List.append_nil] at hcut
      exact .inl hcut.symm
  | cons c rest =>
      rw [hrest] at hcut hstop
      exact .inr ⟨c, rest, by simpa using hstop, hcut.symm⟩

/-- **A tidy text is its words with one space between them.** -/
theorem IsTidy.spaced_eq (h : IsTidy cs) : spaced cs = cs := by
  -- A tidy text that is more than a word is its first word, a space and a shorter tidy text.
  induction hn : cs.length using Nat.strong_induction_on generalizing cs with
  | _ n ih =>
      obtain ⟨word, hsolid, rfl | ⟨c, rest, hc, rfl⟩⟩ := exists_first_word cs
      · by_cases hword : cs = []
        · rw [hword, spaced, words_nil, List.intercalate_nil]
        · rw [spaced, words_of_not_blank hword hsolid, List.intercalate_singleton]
      · have hspace : c = ' ' := h.spaces c (by simp) hc
        have hword : word ≠ [] := by
          rintro rfl
          exact Bool.false_ne_true ((h.head c rfl).symm.trans hc)
        obtain ⟨hrest, hne⟩ := h.after_blank hc
        have hshorter : rest.length < n := by
          rw [← hn, List.length_append, List.length_cons]
          omega
        have heq : spaced rest = rest := ih rest.length hshorter hrest rfl
        obtain ⟨next, later, hnext⟩ : ∃ next later, words rest = next :: later := by
          refine List.exists_cons_of_ne_nil fun hnone => hne ?_
          rw [← heq, spaced, hnone, List.intercalate_nil]
        calc
          spaced (word ++ c :: rest) = [' '].intercalate (word :: next :: later) := by
            rw [spaced, words_append_cons hc, words_of_not_blank hword hsolid, hnext,
              List.singleton_append]
          _ = word ++ ' ' :: spaced rest := by
            rw [List.intercalate_cons_cons, ← hnext, ← spaced, List.append_assoc,
              List.singleton_append]
          _ = word ++ c :: rest := by rw [heq, hspace]

/-- A tidy text that is cut short and is continued without a blank is tidy. -/
theorem IsTidy.take_append (h : IsTidy cs) (n : Nat) (hne : ds ≠ [])
    (hds : ∀ c ∈ ds, isBlank c = false) : IsTidy (cs.take n ++ ds) where
  spaces c hc hblank := by
    rcases List.mem_append.mp hc with hc | hc
    · exact h.spaces c (List.mem_of_mem_take hc) hblank
    · exact absurd ((hds c hc).symm.trans hblank) Bool.false_ne_true
  apart := by
    have hsolid : ds.Pairwise fun c d => isBlank c = true → isBlank d = false :=
      List.pairwise_of_forall_mem_list fun _ _ d hd _ => hds d hd
    exact (h.apart.take n).append hsolid.isChain fun _ _ d hd _ => hds d (List.mem_of_mem_head? hd)
  head c hc := by
    rw [List.head?_append] at hc
    rcases Option.or_eq_some_iff.mp hc with hc | ⟨-, hc⟩
    · rw [List.head?_take, Option.ite_none_left_eq_some] at hc
      exact h.head c hc.2
    · exact hds c (List.mem_of_mem_head? hc)
  last c hc := by
    rw [List.getLast?_append_of_ne_nil _ hne] at hc
    exact hds c (List.mem_of_getLast? hc)

end SecurityAudit.Text

namespace SecurityAudit.Detect

open Text

variable {c : Char} {cs ds : List Char}

/-! ## One space for each run of blanks -/

theorem singleSpaced_cons (hc : ¬isBlank c = true) (cs : List Char) :
    singleSpaced (c :: cs) = c :: singleSpaced cs := by
  rw [singleSpaced.eq_def]
  exact if_neg hc

/-- **Replacing the runs of blanks changes no word.** -/
theorem words_append_singleSpaced (cs ds : List Char) :
    words (cs ++ singleSpaced ds) = words (cs ++ ds) := by
  -- A character that is not blank belongs to the same word as what stands before it, so the
  -- induction is for whatever stands before.
  fun_induction singleSpaced ds generalizing cs with
  | case1 => rfl
  | case2 c hc => rw [words_append_cons rfl, words_append_cons hc]
  | case3 c hc d rest hd ih =>
      rw [ih, words_append_cons hd, words_append_cons hc, words_cons hd]
  | case4 c hc d rest _ ih =>
      have hrest : words (singleSpaced (d :: rest)) = words (d :: rest) := ih []
      rw [words_append_cons rfl, words_append_cons hc, hrest]
  | case5 c rest _ ih => rw [List.append_cons, ih, ← List.append_cons]

/-- Replacing the runs of blanks leaves single spaces. -/
theorem isSingleSpaced_singleSpaced (cs : List Char) : IsSingleSpaced (singleSpaced cs) := by
  fun_induction singleSpaced cs with
  | case1 => exact ⟨by simp, .nil⟩
  | case2 => exact ⟨by simp, .singleton _⟩
  | case3 _ _ _ _ _ ih => exact ih
  | case4 c hc d rest hd ih =>
      refine ⟨List.forall_mem_cons.mpr ⟨fun _ => rfl, ih.spaces⟩, ih.apart.cons fun e he _ => ?_⟩
      rw [singleSpaced_cons hd] at he
      rw [← Option.some.inj he]
      exact eq_false_of_ne_true hd
  | case5 c rest hc ih =>
      exact ⟨List.forall_mem_cons.mpr ⟨fun h => absurd h hc, ih.spaces⟩,
        ih.apart.cons fun _ _ h => absurd h hc⟩

/-- **Replacing the runs of blanks and trimming leaves the words with one space between them.** -/
theorem trimChars_singleSpaced (cs : List Char) : trimChars (singleSpaced cs) = spaced cs := by
  have hwords : words (trimChars (singleSpaced cs)) = words cs := by
    rw [words_trimChars]
    exact words_append_singleSpaced [] cs
  have htidy := (isSingleSpaced_singleSpaced cs).isTidy_trimChars.spaced_eq
  rw [← htidy, spaced, hwords, spaced]

theorem isTidy_spaced (cs : List Char) : IsTidy (spaced cs) := by
  rw [← trimChars_singleSpaced]
  exact (isSingleSpaced_singleSpaced cs).isTidy_trimChars

/-! ## Evidence -/

/-- Evidence is the words with one space between them, or the beginning of that and dots. -/
theorem evidence_eq (cs : List Char) :
    evidence cs =
      if 160 < (spaced cs).length then (spaced cs).take 157 ++ "...".toList else spaced cs := by
  rw [evidence, trimChars_singleSpaced]
  rfl

theorem length_evidence_le (cs : List Char) : (evidence cs).length ≤ 160 := by
  rw [evidence_eq]
  split
  case isTrue h =>
    rw [List.length_append, List.length_take]
    exact Nat.add_le_add_right (Nat.min_le_left _ _) 3
  case isFalse h => omega

theorem isTidy_evidence (cs : List Char) : IsTidy (evidence cs) := by
  have hdots : ∀ c ∈ List.replicate 3 '.', isBlank c = false := fun c hc => by
    rw [List.eq_of_mem_replicate hc]
    rfl
  rw [evidence_eq]
  split
  · exact (isTidy_spaced cs).take_append 157 (List.cons_ne_nil _ _) hdots
  · exact isTidy_spaced cs

/-- A tidy text that is short enough is its own evidence. -/
theorem evidence_of_isTidy (h : IsTidy cs) (hlength : cs.length ≤ 160) : evidence cs = cs := by
  rw [evidence_eq, h.spaced_eq, if_neg (by omega)]

/-- Texts with the same words have the same evidence. -/
theorem evidence_congr (h : words cs = words ds) : evidence cs = evidence ds := by
  rw [evidence_eq, evidence_eq, spaced, spaced, h]

/-- A text is changed in its blanks only: a run of them is another one, or some are added at the
ends. -/
inductive Respaced : List Char → List Char → Prop
  | run (before after : List Char) {gap gap' : List Char} (hne : gap ≠ []) (hne' : gap' ≠ [])
      (hgap : ∀ c ∈ gap, isBlank c = true) (hgap' : ∀ c ∈ gap', isBlank c = true) :
      Respaced (before ++ gap ++ after) (before ++ gap' ++ after)
  | ends (cs : List Char) {before after : List Char} (hbefore : ∀ c ∈ before, isBlank c = true)
      (hafter : ∀ c ∈ after, isBlank c = true) : Respaced cs (before ++ cs ++ after)

/-- A change in the blanks leaves the words. -/
theorem Respaced.words_eq (h : Respaced cs ds) : words cs = words ds := by
  cases h with
  | run before after hne hne' hgap hgap' =>
      rw [words_append_blanks_append hne hgap, words_append_blanks_append hne' hgap']
  | ends cs hbefore hafter => rw [words_append_blanks hafter, words_blanks_append hbefore]

/-- Any number of changes in the blanks leave the words. -/
theorem words_eq_of_eqvGen (h : Relation.EqvGen Respaced cs ds) : words cs = words ds := by
  induction h with
  | rel _ _ h => exact h.words_eq
  | refl _ => rfl
  | symm _ _ _ ih => exact ih.symm
  | trans _ _ _ _ _ ih ih' => exact ih.trans ih'

/-- **The evidence of a text is its normal form.**  It has at most 160 characters and no blanks but
single spaces inside, it is its own evidence, and it does not depend on how long the runs of blanks
are, of which blanks, or on the blanks at the ends.  It is the words of the text with one space
between them where that is short enough, and else the first 157 characters of it and three dots. -/
theorem evidence_normal_form (cs : List Char) :
    (evidence cs).length ≤ 160 ∧ IsTidy (evidence cs) ∧ evidence (evidence cs) = evidence cs ∧
      (∀ ds, Relation.EqvGen Respaced cs ds → evidence ds = evidence cs) ∧
      ((spaced cs).length ≤ 160 → evidence cs = spaced cs) ∧
      (160 < (spaced cs).length → evidence cs = (spaced cs).take 157 ++ "...".toList) := by
  refine ⟨length_evidence_le cs, isTidy_evidence cs, ?_, ?_, ?_, ?_⟩
  · exact evidence_of_isTidy (isTidy_evidence cs) (length_evidence_le cs)
  · exact fun ds h => evidence_congr (words_eq_of_eqvGen h).symm
  · intro h
    rw [evidence_eq, if_neg (by omega)]
  · intro h
    rw [evidence_eq, if_pos h]

end SecurityAudit.Detect
