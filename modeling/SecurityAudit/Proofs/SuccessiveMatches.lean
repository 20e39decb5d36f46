import SecurityAudit.Proofs.LeftmostMatch

/-!
# Matches one after another

Whatever a pattern tries, it goes forward: the place that it hands to what follows is the one where
it began, or a later one of the same text (`Node.run_forward`).  So a match ends where it begins or
later, and the search for the next match, which goes on at the end of the last one, comes to an end.

`Succession` says what it is to take all matches of a text one after another: from a place on, take
the match that begins first, and go on where it ends.  After an empty match the next one must not be
empty at the same place again.  There is one such list of matches (`Succession.unique`), and it is
what the search for all matches gives (`succession_allMatches`): the bound on its length is never
reached.
-/

namespace SecurityAudit.Pattern

variable {p : Pattern} {text : List Char} {size : Nat}

/-! ## Going forward -/

/-- A place is reached from another one: some characters have been passed, whatever is remembered.
-/
def State.Reaches (s t : State) : Prop :=
  ∃ passed, s.after = passed ++ t.after ∧ t.before = passed.reverse ++ s.before ∧
    t.pos = s.pos + passed.length

namespace State

theorem Reaches.refl (s : State) : s.Reaches s :=
  ⟨[], rfl, rfl, rfl⟩

theorem Reaches.trans {s t u : State} (h : s.Reaches t) (h' : t.Reaches u) : s.Reaches u := by
  obtain ⟨first, hafter, hbefore, hpos⟩ := h
  obtain ⟨second, hafter', hbefore', hpos'⟩ := h'
  refine ⟨first ++ second, ?_, ?_, ?_⟩
  · rw [hafter, hafter', List.append_assoc]
  · rw [hbefore', hbefore, List.reverse_append, List.append_assoc]
  · rw [hpos', hpos, List.length_append, Nat.add_assoc]

/-- What is remembered at the end makes no difference. -/
theorem Reaches.withGroups {s t : State} (h : s.Reaches t) (groups : List (Nat × (Nat × Nat))) :
    s.Reaches { t with groups := groups } :=
  h

theorem reaches_forward {s : State} {c : Char} {rest : List Char} (h : s.after = c :: rest) :
    s.Reaches (s.forward c rest) :=
  ⟨[c], h, rfl, rfl⟩

/-- A given text that comes next is passed. -/
theorem reaches_of_after? {mode : CaseMode} {cs : List Char} {s t : State}
    (h : after? mode s cs = some t) : s.Reaches t := by
  induction cs generalizing s with
  | nil =>
      cases h
      exact .refl _
  | cons c cs ih =>
      rw [after?] at h
      cases hafter : s.after with
      | nil =>
          rw [hafter] at h
          cases h
      | cons d rest =>
          rw [hafter] at h
          simp only at h
          split at h
          · exact (reaches_forward hafter).trans (ih h)
          · cases h

end State

/-- A way to go on goes forward: what follows is asked at places that are reached, and its answer is
the answer. -/
def Forward (step : Step) : Prop :=
  ∀ s k t, step s k = some t → ∃ u, s.Reaches u ∧ k u = some t

/-- Two ways to go on, one after the other, go forward when both do. -/
theorem Forward.seq {step next : Step} (h : Forward step) (h' : Forward next) :
    Forward fun s k => step s fun u => next u k := by
  intro s k t hstep
  obtain ⟨u, hu, hnext⟩ := h s _ t hstep
  obtain ⟨v, hv, hend⟩ := h' u k t hnext
  exact ⟨v, hu.trans hv, hend⟩

/-- Where a way to go on first ends is reached. -/
theorem Forward.reaches {step : Step} (h : Forward step) {s t : State}
    (hstep : step s some = some t) : s.Reaches t := by
  obtain ⟨u, hu, hend⟩ := h s some t hstep
  exact Option.some.inj hend ▸ hu

section Repetition

variable {body : Step} {least : Nat} {most : Option Nat}

theorem forward_greedy (hbody : Forward body) (fuel count : Nat) (last : Option Nat) :
    Forward (greedy body least most fuel count last) := by
  induction fuel generalizing count last with
  | zero =>
      intro s k t h
      cases h
  | succ fuel ih =>
      have honce : ∀ last, Forward fun s k =>
          body s fun u => greedy body least most fuel (count + 1) last u k :=
        fun last => hbody.seq (ih (count + 1) last)
      intro s k t h
      simp only [greedy] at h
      split at h
      · exact honce last s k t h
      · split at h
        · split at h
          · rename_i u hagain
            exact honce (some s.pos) s k t (hagain.trans h)
          · exact ⟨s, .refl s, h⟩
        · exact ⟨s, .refl s, h⟩

theorem forward_lazy (hbody : Forward body) (fuel count : Nat) (last : Option Nat) :
    Forward (lazy body least most fuel count last) := by
  induction fuel generalizing count last with
  | zero =>
      intro s k t h
      cases h
  | succ fuel ih =>
      have honce : ∀ last, Forward fun s k =>
          body s fun u => lazy body least most fuel (count + 1) last u k :=
        fun last => hbody.seq (ih (count + 1) last)
      intro s k t h
      simp only [lazy] at h
      split at h
      · exact honce last s k t h
      · split at h
        · rename_i u hnow
          exact ⟨s, .refl s, hnow.trans h⟩
        · split at h
          · exact honce (some s.pos) s k t h
          · cases h

theorem reaches_of_possessive (hbody : Forward body) {fuel count : Nat} {last : Option Nat}
    {s t : State} (h : possessive body least most fuel count last s = some t) : s.Reaches t := by
  induction fuel generalizing count last s with
  | zero => cases h
  | succ fuel ih =>
      simp only [possessive] at h
      split at h
      · split at h
        · rename_i u hu
          exact (hbody.reaches hu).trans (ih h)
        · cases h
      · split at h
        · split at h
          · rename_i u hu
            exact (hbody.reaches hu).trans (ih h)
          · cases h
            exact .refl _
        · cases h
          exact .refl _

end Repetition

/-- **A pattern goes forward.** -/
theorem Node.run_forward (node : Node) : Forward (node.run text size) := by
  induction node with
  | empty => exact fun s k t h => ⟨s, .refl s, h⟩
  | char set =>
      intro s k t h
      simp only [run] at h
      split at h
      · cases h
      · rename_i c rest hafter
        split at h
        · exact ⟨s.forward c rest, State.reaches_forward hafter, h⟩
        · cases h
  | seq a b iha ihb => exact iha.seq ihb
  | alt a b iha ihb =>
      intro s k t h
      simp only [run] at h
      split at h
      · rename_i u hfirst
        exact iha s k t (hfirst.trans h)
      · exact ihb s k t h
  | group index a iha =>
      intro s k t h
      obtain ⟨u, hu, hend⟩ := iha s _ t h
      exact ⟨u.remember index s.pos, hu.withGroups _, hend⟩
  | backref index mode =>
      intro s k t h
      simp only [run] at h
      split at h
      · cases h
      · split at h
        · cases h
        · rename_i u hu
          exact ⟨u, State.reaches_of_after? hu, h⟩
  | rep greed least most a iha =>
      cases greed with
      | greedy => exact forward_greedy iha _ _ _
      | lazy => exact forward_lazy iha _ _ _
      | possessive =>
          intro s k t h
          simp only [run] at h
          split at h
          · cases h
          · rename_i u hu
            exact ⟨u, reaches_of_possessive iha hu, h⟩
  | ahead negated a iha =>
      intro s k t h
      simp only [run] at h
      split at h <;> split at h
      · exact ⟨s, .refl s, h⟩
      · cases h
      · cases h
      · exact ⟨_, (State.Reaches.refl s).withGroups _, h⟩
  | behind negated width a iha =>
      intro s k t h
      simp only [run] at h
      split at h <;> split at h
      · exact ⟨s, .refl s, h⟩
      · cases h
      · cases h
      · exact ⟨_, (State.Reaches.refl s).withGroups _, h⟩
  | anchor a =>
      intro s k t h
      simp only [run] at h
      split at h
      · exact ⟨s, .refl s, h⟩
      · cases h
  | ifGroup index a b iha ihb =>
      intro s k t h
      simp only [run] at h
      split at h
      · exact iha s k t h
      · exact ihb s k t h
  | atomic a iha =>
      intro s k t h
      simp only [run] at h
      split at h
      · cases h
      · rename_i u hu
        exact ⟨u, iha.reaches hu, h⟩

/-! ## Places of a text -/

/-- A place is one of a text: the characters on both sides make the text. -/
structure State.Of (text : List Char) (s : State) : Prop where
  whole : s.before.reverse ++ s.after = text
  pos_eq : s.pos = s.before.length

namespace State

variable {s t : State}

theorem Of.pos_le (h : s.Of text) : s.pos ≤ text.length := by
  rw [h.pos_eq, ← h.whole, List.length_append, List.length_reverse]
  exact Nat.le_add_right _ _

/-- A place of a text is told by its number, but for what is remembered. -/
theorem Of.place_eq (h : s.Of text) : place text s.pos = { s with groups := [] } := by
  rw [place, h.pos_eq, ← List.length_reverse, ← h.whole, List.take_left, List.drop_left,
    List.reverse_reverse, List.length_reverse]

theorem of_place {first : Nat} (h : first ≤ text.length) : (place text first).Of text where
  whole := by rw [place, List.reverse_reverse, List.take_append_drop]
  pos_eq := by rw [place, List.length_reverse, List.length_take, Nat.min_eq_left h]

/-- What is reached in a text is a place of it, and none before. -/
theorem Of.reaches (h : s.Of text) (hst : s.Reaches t) : t.Of text ∧ s.pos ≤ t.pos := by
  obtain ⟨passed, hafter, hbefore, hpos⟩ := hst
  refine ⟨⟨?_, ?_⟩, ?_⟩
  · rw [hbefore, List.reverse_append, List.reverse_reverse, List.append_assoc, ← hafter, h.whole]
  · rw [hpos, hbefore, h.pos_eq, List.length_append, List.length_reverse, Nat.add_comm]
  · rw [hpos]
    exact Nat.le_add_right _ _

end State

/-- What is reached by a match at a place: a place at or after it, and another one if the match must
not be empty. -/
theorem reaches_of_matchAt? {advance : Bool} {s t : State}
    (h : matchAt? p text size advance s = some t) :
    s.Reaches t ∧ (advance = true → t.pos ≠ s.pos) := by
  obtain ⟨u, hu, hend⟩ := p.node.run_forward s _ t h
  split at hend
  · cases hend
  · rename_i hkept
    cases hend
    refine ⟨hu, fun hadvance hsame => hkept ?_⟩
    rw [hadvance, hsame, beq_self_eq_true, Bool.and_self]

/-! ## The next match -/

/-- The match of a pattern that begins at a place, if there is one; with `advance`, the first way to
match that is not empty. -/
def attempt? (p : Pattern) (text : List Char) (advance : Bool) (first : Nat) : Option Match :=
  (matchAt? p text text.length advance (State.place text first)).map fun t =>
    ⟨first, t.pos, t.groups⟩

/-- A match comes next from a place on: it begins at that place or later, and there is none that
begins before it.  With `advance`, one that begins at that place itself is not empty. -/
structure IsNext (p : Pattern) (text : List Char) (place : Nat) (advance : Bool) (m : Match) :
    Prop where
  begins : place ≤ m.first
  inside : m.first ≤ text.length
  found : p.attempt? text (advance && m.first == place) m.first = some m
  earlier : ∀ k, place ≤ k → k < m.first → p.attempt? text (advance && k == place) k = none

/-- No match comes next from a place on. -/
def NoneNext (p : Pattern) (text : List Char) (place : Nat) (advance : Bool) : Prop :=
  ∀ k, place ≤ k → k ≤ text.length → p.attempt? text (advance && k == place) k = none

variable {place : Nat} {advance : Bool} {m m' : Match}

/-- One match at most comes next. -/
theorem IsNext.unique (h : p.IsNext text place advance m) (h' : p.IsNext text place advance m') :
    m = m' := by
  have hfirst : m.first = m'.first := by
    rcases Nat.lt_trichotomy m.first m'.first with hlt | heq | hgt
    · cases (h'.earlier _ h.begins hlt).symm.trans h.found
    · exact heq
    · cases (h.earlier _ h'.begins hgt).symm.trans h'.found
  have hfound := h.found
  rw [hfirst, h'.found] at hfound
  exact (Option.some.inj hfound).symm

theorem IsNext.not_noneNext (h : p.IsNext text place advance m) :
    ¬ p.NoneNext text place advance := by
  intro hnone
  cases (hnone _ h.begins h.inside).symm.trans h.found

/-- A match that comes next ends where it begins or later, in the text.  If it must not be empty
where the search begins, it ends after that place. -/
theorem IsNext.last_bounds (h : p.IsNext text place advance m) :
    m.first ≤ m.last ∧ m.last ≤ text.length ∧ (advance = true → place < m.last) := by
  obtain ⟨t, ht, hm⟩ := Option.map_eq_some_iff.mp h.found
  obtain ⟨hreaches, hmoves⟩ := reaches_of_matchAt? ht
  obtain ⟨hof, hle⟩ := (State.of_place h.inside).reaches hreaches
  have hlast : m.last = t.pos := by rw [← hm]
  have hstart : (State.place text m.first).pos = m.first := rfl
  have hinside := hof.pos_le
  have hbegins := h.begins
  refine ⟨by omega, by omega, fun hadvance => ?_⟩
  by_cases hhere : m.first = place
  · have hmoved := hmoves (by rw [hadvance, hhere, beq_self_eq_true, Bool.and_self])
    omega
  · omega

/-- At a place itself `advance` counts, and after it no more. -/
theorem attempt?_after {k : Nat} (h : place < k) :
    p.attempt? text (advance && k == place) k = p.attempt? text false k := by
  rw [beq_eq_false_iff_ne.mpr (Nat.ne_of_gt h), Bool.and_false]

/-- When there is no match at a place, the next one is that from the place after it on. -/
theorem IsNext.of_succ (hnone : p.attempt? text advance place = none)
    (h : p.IsNext text (place + 1) false m) : p.IsNext text place advance m where
  begins := Nat.le_of_succ_le h.begins
  inside := h.inside
  found := by
    rw [attempt?_after h.begins]
    exact h.found
  earlier := by
    intro k hk hlt
    rcases Nat.eq_or_lt_of_le hk with rfl | hk
    · rw [beq_self_eq_true, Bool.and_true, hnone]
    · rw [attempt?_after hk]
      exact h.earlier k hk hlt

theorem NoneNext.of_succ (hnone : p.attempt? text advance place = none)
    (h : p.NoneNext text (place + 1) false) : p.NoneNext text place advance := by
  intro k hk hmost
  rcases Nat.eq_or_lt_of_le hk with rfl | hk
  · rw [beq_self_eq_true, Bool.and_true, hnone]
  · rw [attempt?_after hk]
    exact h k hk hmost

/-- A match at the place where the search begins comes next. -/
theorem isNext_of_matchAt? {s t : State} (hs : s.Of text)
    (h : matchAt? p text text.length advance { s with groups := [] } = some t) :
    p.IsNext text s.pos advance ⟨s.pos, t.pos, t.groups⟩ ∧ t.Of text := by
  rw [← hs.place_eq] at h
  obtain ⟨hreaches, -⟩ := reaches_of_matchAt? h
  refine ⟨⟨Nat.le_refl _, hs.pos_le, ?_, fun k hk hlt => absurd hk (Nat.not_le_of_lt hlt)⟩,
    ((State.of_place hs.pos_le).reaches hreaches).1⟩
  rw [beq_self_eq_true, Bool.and_true, attempt?, h, Option.map_some]

theorem attempt?_of_matchAt? {s : State} (hs : s.Of text)
    (h : matchAt? p text text.length advance { s with groups := [] } = none) :
    p.attempt? text advance s.pos = none := by
  rw [attempt?, hs.place_eq, h, Option.map_none]

/-- What a search from a place on finds, with the place where the match ends. -/
inductive Search (p : Pattern) (text : List Char) (place : Nat) (advance : Bool) :
    Option (Nat × State) → Prop
  | found {first : Nat} {t : State} (isNext : p.IsNext text place advance ⟨first, t.pos, t.groups⟩)
      (of : t.Of text) : Search p text place advance (some (first, t))
  | nothing (noneNext : p.NoneNext text place advance) : Search p text place advance none

theorem Search.of_succ {result : Option (Nat × State)}
    (hnone : p.attempt? text advance place = none)
    (h : p.Search text (place + 1) false result) : p.Search text place advance result := by
  cases h with
  | found isNext of => exact .found (isNext.of_succ hnone) of
  | nothing noneNext => exact .nothing (noneNext.of_succ hnone)

/-- **A search finds the match that comes next.** -/
theorem search_searchFrom {before after : List Char} {pos : Nat}
    (hs : (⟨before, after, pos, []⟩ : State).Of text) :
    p.Search text pos advance (searchFrom p text text.length before after pos advance) := by
  induction after generalizing before pos advance with
  | nil =>
      rw [searchFrom]
      cases hmatch : matchAt? p text text.length advance ⟨before, [], pos, []⟩ with
      | some t =>
          obtain ⟨hnext, hof⟩ := isNext_of_matchAt? hs hmatch
          exact .found hnext hof
      | none =>
          refine .nothing (.of_succ (attempt?_of_matchAt? hs hmatch) fun k hk hmost => ?_)
          -- The search has been at the end of the text.
          have hpos : pos = before.length := hs.pos_eq
          have hend : text.length = before.length := by
            rw [← hs.whole, List.append_nil, List.length_reverse]
          omega
  | cons c rest ih =>
      rw [searchFrom]
      cases hmatch : matchAt? p text text.length advance ⟨before, c :: rest, pos, []⟩ with
      | some t =>
          obtain ⟨hnext, hof⟩ := isNext_of_matchAt? hs hmatch
          exact .found hnext hof
      | none =>
          have hforward := (hs.reaches (State.reaches_forward rfl)).1
          exact (ih hforward).of_succ (attempt?_of_matchAt? hs hmatch)

/-! ## All matches -/

/-- Matches one after another from a place on, as many as there are.  Each is the one that comes
next from the end of the one before it; after an empty match the next one is not empty at the same
place. -/
inductive Succession (p : Pattern) (text : List Char) :
    (place : Nat) → (advance : Bool) → List Match → Prop
  | stop {place : Nat} {advance : Bool} (noneNext : p.NoneNext text place advance) :
      Succession p text place advance []
  | next {place : Nat} {advance : Bool} {m : Match} {ms : List Match}
      (isNext : p.IsNext text place advance m)
      (later : Succession p text m.last (m.first == m.last) ms) :
      Succession p text place advance (m :: ms)

variable {ms ms' : List Match}

/-- There is one way to take matches one after another. -/
theorem Succession.unique (h : p.Succession text place advance ms)
    (h' : p.Succession text place advance ms') : ms = ms' := by
  induction h generalizing ms' with
  | stop noneNext =>
      cases h' with
      | stop => rfl
      | next isNext => exact absurd noneNext isNext.not_noneNext
  | next isNext _ ih =>
      cases h' with
      | stop noneNext => exact absurd noneNext isNext.not_noneNext
      | next isNext' later' =>
          obtain rfl := isNext.unique isNext'
          rw [ih later']

/-- How many matches there may be from a place on: two at each place after it, an empty one and one
that is not, and another empty one at the place itself. -/
def room (text : List Char) (place : Nat) (advance : Bool) : Nat :=
  2 * (text.length - place) + if advance then 0 else 1

/-- After a match there is less room. -/
theorem IsNext.room_lt (h : p.IsNext text place advance m) :
    room text m.last (m.first == m.last) < room text place advance := by
  obtain ⟨hends, hinside, hmoves⟩ := h.last_bounds
  have hbegins := h.begins
  unfold room
  by_cases hempty : m.first = m.last
  · rw [beq_iff_eq.mpr hempty, if_pos rfl]
    cases advance with
    | true =>
        have hmoved := hmoves rfl
        rw [if_pos rfl]
        omega
    | false =>
        rw [if_neg Bool.false_ne_true]
        omega
  · rw [beq_eq_false_iff_ne.mpr hempty, if_neg Bool.false_ne_true]
    omega

/-- **Matches are found one after another**, if there is fuel for as many as there may be. -/
theorem succession_matchesFrom {fuel : Nat} {s : State} (hs : s.Of text)
    (hfuel : room text s.pos advance < fuel) :
    p.Succession text s.pos advance (matchesFrom p text text.length fuel s advance) := by
  induction fuel generalizing s advance with
  | zero => cases hfuel
  | succ fuel ih =>
      have hsearch : p.Search text s.pos advance
          (searchFrom p text text.length s.before s.after s.pos advance) :=
        search_searchFrom ⟨hs.whole, hs.pos_eq⟩
      rw [matchesFrom]
      cases hresult : searchFrom p text text.length s.before s.after s.pos advance with
      | none =>
          rw [hresult] at hsearch
          cases hsearch with
          | nothing noneNext => exact .stop noneNext
      | some found =>
          rw [hresult] at hsearch
          cases hsearch with
          | found isNext of =>
              have hless := Nat.lt_of_lt_of_le isNext.room_lt (Nat.lt_succ_iff.mp hfuel)
              exact .next isNext (ih of hless)

/-- **All matches of a text are those that come one after another** from its start on. -/
theorem succession_allMatches (p : Pattern) (text : List Char) :
    p.Succession text 0 false (allMatches p text) := by
  refine succession_matchesFrom (s := State.start text) ⟨rfl, rfl⟩ ?_
  rw [room, State.start, if_neg Bool.false_ne_true]
  omega

theorem succession_iff : p.Succession text 0 false ms ↔ ms = allMatches p text :=
  ⟨fun h => h.unique (succession_allMatches p text), fun h => h ▸ succession_allMatches p text⟩

/-- Matches that are taken one after another do not overlap: each ends before the next begins, or
where it begins. -/
theorem Succession.apart (h : p.Succession text place advance ms) :
    (∀ m ∈ ms, place ≤ m.first ∧ m.first ≤ m.last ∧ m.last ≤ text.length) ∧
      ms.Pairwise fun m m' => m.last ≤ m'.first := by
  induction h with
  | stop => exact ⟨List.forall_mem_nil _, .nil⟩
  | @next place advance m ms isNext later ih =>
      obtain ⟨hbounds, hapart⟩ := ih
      obtain ⟨hends, hinside, -⟩ := isNext.last_bounds
      have hbegins := isNext.begins
      refine ⟨List.forall_mem_cons.mpr ⟨⟨hbegins, hends, hinside⟩, fun m' hm' => ?_⟩,
        List.pairwise_cons.mpr ⟨fun m' hm' => (hbounds m' hm').1, hapart⟩⟩
      obtain ⟨hafter, hends', hinside'⟩ := hbounds m' hm'
      exact ⟨by omega, hends', hinside'⟩

end SecurityAudit.Pattern
