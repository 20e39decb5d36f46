import SecurityAudit.Pattern.Reader
import SecurityAudit.Proofs.SuccessiveMatches
import SecurityAudit.Proofs.TidyEvidence

/-!
# Runs of blanks are what a pattern matches

Evidence has one space in the place of each run of blanks.  These runs are the matches of a pattern
for one or more blanks: taken one after another, each begins at the first blank that is left and
ends where the blanks end.  So the text with a space in the place of each match is the text with
single spaces (`replaced_blanks`), and a blank is the same for the pattern and for trimming.
-/

namespace SecurityAudit.Pattern

open Text Detect

/-- The text from a place on, with some matches one after another replaced. -/
def replacedFrom (text new : List Char) : (place : Nat) → List Match → List Char
  | place, [] => text.drop place
  | place, m :: ms => slice text place m.first ++ new ++ replacedFrom text new m.last ms

/-- A text with all matches of a pattern replaced. -/
def replaced (p : Pattern) (new text : List Char) : List Char :=
  replacedFrom text new 0 (allMatches p text)

/-- The set of the blanks. -/
def blankSet : CharSet :=
  ⟨false, [.cls .blank false false], .exact⟩

/-- The pattern of one or more blanks, as many as there are. -/
def blanks : Pattern := .literal "\\s+"

theorem node_blanks : blanks.node = .rep .greedy 1 none (.char blankSet) := by
  decide +kernel

theorem contains_blankSet (c : Char) : blankSet.contains c = isBlank c := by
  simp [blankSet, CharSet.contains, Member.covers, CharClass.contains]

variable {text gap rest : List Char} {size : Nat}

/-- No blank comes next. -/
def StartsSolid (cs : List Char) : Prop :=
  ∀ c, cs.head? = some c → isBlank c = false

/-- A blank is passed. -/
theorem run_blankSet {s : State} {c : Char} (hafter : s.after = c :: rest)
    (hc : isBlank c = true) (k : State → Option State) :
    (Node.char blankSet).run text size s k = k (s.forward c rest) := by
  simp only [Node.run, hafter, contains_blankSet, hc, if_true]

/-- Nothing else is passed. -/
theorem run_blankSet_of_solid {s : State} (h : StartsSolid s.after)
    (k : State → Option State) : (Node.char blankSet).run text size s k = none := by
  cases hafter : s.after with
  | nil => simp only [Node.run, hafter]
  | cons c rest =>
      have hc : isBlank c = false := h c (by rw [hafter]; rfl)
      simp only [Node.run, hafter, contains_blankSet, hc, Bool.false_eq_true, if_false]

/-- The place after some characters that come next. -/
def State.past (s : State) (gap rest : List Char) : State :=
  { s with before := gap.reverse ++ s.before, after := rest, pos := s.pos + gap.length }

/-- **A repetition of blanks goes on to the end of the run.** -/
theorem greedy_blanks {fuel count : Nat} {last : Option Nat} {s t : State}
    {k : State → Option State} (hafter : s.after = gap ++ rest)
    (hgap : ∀ c ∈ gap, isBlank c = true) (hrest : StartsSolid rest) (hfuel : gap.length < fuel)
    (hcount : gap = [] → 1 ≤ count) (hlast : ∀ n, last = some n → n < s.pos)
    (hk : k (s.past gap rest) = some t) :
    greedy ((Node.char blankSet).run text size) 1 none fuel count last s k = some t := by
  induction gap generalizing fuel count last s with
  | nil =>
      obtain ⟨fuel, rfl⟩ := Nat.exists_eq_succ_of_ne_zero (Nat.ne_of_gt hfuel)
      have hhere : s.past [] rest = s := by
        cases s
        cases hafter
        rfl
      rw [hhere] at hk
      have hstart : StartsSolid s.after := hafter.symm ▸ hrest
      simp only [greedy, if_neg (Nat.not_lt.mpr (hcount rfl)), run_blankSet_of_solid hstart, hk,
        ite_self]
  | cons c gap ih =>
      obtain ⟨hc, hgap⟩ := List.forall_mem_cons.mp hgap
      obtain ⟨fuel, rfl⟩ := Nat.exists_eq_succ_of_ne_zero (Nat.ne_of_gt (Nat.zero_lt_of_lt hfuel))
      rw [List.cons_append] at hafter
      have hpast : (s.forward c (gap ++ rest)).past gap rest = s.past (c :: gap) rest := by
        simp [State.past, State.forward, Nat.add_assoc, Nat.add_comm 1]
      have hmore : ∀ count last, 1 ≤ count → (∀ n, last = some n → n < s.pos + 1) →
          greedy ((Node.char blankSet).run text size) 1 none fuel count last
            (s.forward c (gap ++ rest)) k = some t := fun count last hcount hlast =>
        ih rfl hgap (Nat.lt_of_succ_lt_succ hfuel) (fun _ => hcount) hlast (hpast ▸ hk)
      rw [greedy]
      dsimp only
      split
      · rw [run_blankSet hafter hc]
        exact hmore _ _ (Nat.le_add_left _ _) fun n hn => Nat.lt_succ_of_lt (hlast n hn)
      · have hmoved : (last != some s.pos) = true := by
          rw [bne_iff_ne]
          exact fun heq => Nat.lt_irrefl _ (hlast _ heq)
        rw [mayRepeat, hmoved, Bool.and_self, if_pos rfl, run_blankSet hafter hc,
          hmore _ _ (Nat.le_add_left _ _) fun n hn => Option.some.inj hn ▸ Nat.lt_succ_self _]

/-! ## The matches -/

/-- To match blanks is to repeat one of them as often as possible. -/
theorem matchAt?_blanks (text : List Char) (size : Nat) (advance : Bool) (s : State) :
    matchAt? blanks text size advance s =
      greedy ((Node.char blankSet).run text size) 1 none (1 + size + 3) 0 none s fun t =>
        if advance && t.pos == s.pos then none else some t := by
  rw [matchAt?, node_blanks]
  rfl

/-- Where a run of blanks begins, it is matched to its end. -/
theorem attempt?_blanks {place : Nat} (hdrop : text.drop place = gap ++ rest) (hne : gap ≠ [])
    (hgap : ∀ c ∈ gap, isBlank c = true) (hrest : StartsSolid rest) (advance : Bool) :
    blanks.attempt? text advance place = some ⟨place, place + gap.length, []⟩ := by
  have hfuel : gap.length < 1 + text.length + 3 := by
    have hlength := congrArg List.length hdrop
    rw [List.length_drop, List.length_append] at hlength
    omega
  have hend : (if advance && ((State.place text place).past gap rest).pos == place then none
      else some ((State.place text place).past gap rest)) =
        some ((State.place text place).past gap rest) := by
    have hlonger : (place + gap.length == place) = false := by
      have hpositive := List.length_pos_of_ne_nil hne
      rw [beq_eq_false_iff_ne]
      omega
    rw [State.past, State.place, hlonger, Bool.and_false]
    rfl
  rw [attempt?, matchAt?_blanks,
    greedy_blanks hdrop hgap hrest hfuel (fun h => absurd h hne) (by simp) hend]
  rfl

/-- Where no blank comes next, there is no match. -/
theorem attempt?_blanks_of_solid {place : Nat} (h : StartsSolid (text.drop place))
    (advance : Bool) : blanks.attempt? text advance place = none := by
  have hstart : StartsSolid (State.place text place).after := h
  rw [attempt?, matchAt?_blanks, greedy]
  dsimp only
  rw [if_pos Nat.one_pos, run_blankSet_of_solid hstart, Option.map_none]

theorem startsSolid_append {word : List Char} (hne : word ≠ [])
    (hword : ∀ c ∈ word, isBlank c = false) (rest : List Char) : StartsSolid (word ++ rest) := by
  obtain ⟨c, word, rfl⟩ := List.exists_cons_of_ne_nil hne
  rintro _ ⟨⟩
  exact hword c List.mem_cons_self

/-- Inside a word no blank comes next. -/
theorem startsSolid_drop {front word : List Char} (hword : ∀ c ∈ word, isBlank c = false)
    (rest : List Char) {place : Nat} (hle : front.length ≤ place)
    (hlt : place < front.length + word.length) :
    StartsSolid ((front ++ (word ++ rest)).drop place) := by
  obtain ⟨i, rfl⟩ := Nat.exists_eq_add_of_le hle
  have hi : i < word.length := Nat.lt_of_add_lt_add_left hlt
  rw [List.drop_length_add_append, List.drop_append_of_le_length (Nat.le_of_lt hi)]
  refine startsSolid_append ?_ (fun c hc => hword c (List.mem_of_mem_drop hc)) rest
  exact fun hnil => absurd (List.drop_eq_nil_iff.mp hnil) (Nat.not_le_of_lt hi)

/-- A blank begins a run of blanks, after which there is none. -/
theorem exists_blanks_append {c : Char} (hc : isBlank c = true) (later : List Char) :
    ∃ gap rest, c :: later = gap ++ rest ∧ gap ≠ [] ∧ (∀ d ∈ gap, isBlank d = true) ∧
      StartsSolid rest := by
  refine ⟨c :: later.takeWhile isBlank, later.dropWhile isBlank, ?_, List.cons_ne_nil _ _, ?_, ?_⟩
  · rw [List.cons_append, List.takeWhile_append_dropWhile]
  · exact List.forall_mem_cons.mpr ⟨hc, fun d hd => List.mem_takeWhile_imp hd⟩
  · intro d hd
    have hstop := List.head?_dropWhile_not isBlank later
    simpa only [hd] using hstop

/-- The run of blanks after a word is the match that comes next. -/
theorem isNext_blanks (front : List Char) {word : List Char}
    (hword : ∀ c ∈ word, isBlank c = false) (hne : gap ≠ [])
    (hgap : ∀ c ∈ gap, isBlank c = true) (hrest : StartsSolid rest) :
    blanks.IsNext (front ++ (word ++ (gap ++ rest))) front.length false
      ⟨front.length + word.length, front.length + word.length + gap.length, []⟩ where
  begins := Nat.le_add_right _ _
  inside := by
    simp only [List.length_append]
    omega
  found := by
    refine attempt?_blanks ?_ hne hgap hrest _
    rw [List.drop_length_add_append, List.drop_left]
  earlier k hk hlt := attempt?_blanks_of_solid (startsSolid_drop hword _ hk hlt) _

/-- After the last blank there is no match. -/
theorem noneNext_blanks (front : List Char) {word : List Char}
    (hword : ∀ c ∈ word, isBlank c = false) :
    blanks.NoneNext (front ++ word) front.length false := by
  intro k hk hmost
  refine attempt?_blanks_of_solid ?_ _
  by_cases hlt : k < front.length + word.length
  · have hsolid := startsSolid_drop hword [] hk hlt
    rwa [List.append_nil] at hsolid
  · rw [List.drop_eq_nil_of_le (by rw [List.length_append]; omega)]
    exact fun _ h => nomatch h

end SecurityAudit.Pattern

namespace SecurityAudit.Detect

open Text Pattern

variable {word gap rest : List Char}

/-- What is not blank stays as it is. -/
theorem singleSpaced_append (hword : ∀ c ∈ word, isBlank c = false) (rest : List Char) :
    singleSpaced (word ++ rest) = word ++ singleSpaced rest := by
  induction word with
  | nil => rfl
  | cons c word ih =>
      obtain ⟨hc, hword⟩ := List.forall_mem_cons.mp hword
      rw [List.cons_append, singleSpaced_cons (by simp [hc]), ih hword, List.cons_append]

/-- A run of blanks becomes one space. -/
theorem singleSpaced_blanks_append (hne : gap ≠ []) (hgap : ∀ c ∈ gap, isBlank c = true)
    (hrest : StartsSolid rest) : singleSpaced (gap ++ rest) = ' ' :: singleSpaced rest := by
  induction gap with
  | nil => exact absurd rfl hne
  | cons c gap ih =>
      obtain ⟨hc, hgap⟩ := List.forall_mem_cons.mp hgap
      cases gap with
      | nil =>
          cases rest with
          | nil => simp [singleSpaced, hc]
          | cons d rest =>
              have hd : isBlank d = false := hrest d rfl
              simp [singleSpaced, hc, hd]
      | cons d gap =>
          rw [← ih (List.cons_ne_nil d gap) hgap]
          simp [singleSpaced, hc, hgap d List.mem_cons_self]

/-- From any place on, a space in the place of each match leaves single spaces. -/
theorem exists_succession_blanks (front cs : List Char) :
    ∃ ms, blanks.Succession (front ++ cs) front.length false ms ∧
      replacedFrom (front ++ cs) [' '] front.length ms = singleSpaced cs := by
  -- What is left is a word, a run of blanks and the rest, which is shorter.
  induction hn : cs.length using Nat.strong_induction_on generalizing front cs with
  | _ n ih =>
      obtain ⟨word, hword, rfl | ⟨c, later, hc, rfl⟩⟩ := exists_first_word cs
      · refine ⟨[], .stop (noneNext_blanks front hword), ?_⟩
        have hsame := singleSpaced_append hword []
        rw [List.append_nil, singleSpaced, List.append_nil] at hsame
        rw [replacedFrom, List.drop_left, hsame]
      · obtain ⟨gap, rest, heq, hne, hgap, hrest⟩ := exists_blanks_append hc later
        rw [heq] at hn ⊢
        have hlonger := List.length_pos_of_ne_nil hne
        have hshorter : rest.length < n := by
          simp only [List.length_append] at hn
          omega
        obtain ⟨ms, hms, hreplaced⟩ := ih rest.length hshorter (front ++ word ++ gap) rest rfl
        simp only [List.append_assoc, List.length_append, ← Nat.add_assoc] at hms hreplaced
        have hmoved : (front.length + word.length ==
            front.length + word.length + gap.length) = false := by
          rw [beq_eq_false_iff_ne]
          omega
        refine ⟨_, .next (isNext_blanks front hword hne hgap hrest) (hmoved ▸ hms), ?_⟩
        rw [replacedFrom, hreplaced, singleSpaced_append hword,
          singleSpaced_blanks_append hne hgap hrest, slice, List.drop_left, Nat.add_sub_cancel_left,
          List.take_left, List.append_assoc, List.singleton_append]

/-- **Single spaces are what a space in the place of each run of blanks makes.** -/
theorem replaced_blanks (cs : List Char) : replaced blanks [' '] cs = singleSpaced cs := by
  obtain ⟨ms, hms, hreplaced⟩ := exists_succession_blanks [] cs
  rw [List.nil_append, List.length_nil] at hms hreplaced
  rw [replaced, ← succession_iff.mp hms, hreplaced]

end SecurityAudit.Detect
