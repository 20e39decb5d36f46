import SecurityAudit.Pattern.Search

/-!
# Where a pattern matches first

A pattern is tried at one place of a text after another, each time from that place alone: what
stands before the place may be looked at, but what was tried there before is forgotten.  So a search
is told by the matches at all places (`matchFrom?`).  It finds the one that begins first and nothing
else (`search_eq_some_iff`), and when it finds none there is none anywhere (`search_eq_none_iff`).
-/

namespace SecurityAudit.Pattern

variable {p : Pattern} {text : List Char} {m : Match}

/-- The place in a text with so many characters before it. -/
def State.place (text : List Char) (first : Nat) : State :=
  ⟨(text.take first).reverse, text.drop first, first, []⟩

/-- The match of a pattern that begins at a place of a text, if there is one. -/
def matchFrom? (p : Pattern) (text : List Char) (first : Nat) : Option Match :=
  (matchAt? p text text.length false (State.place text first)).map fun t =>
    ⟨first, t.pos, t.groups⟩

/-- A match that begins at a place begins there. -/
theorem first_of_matchFrom? {first : Nat} (h : p.matchFrom? text first = some m) :
    m.first = first := by
  obtain ⟨t, -, rfl⟩ := Option.map_eq_some_iff.mp h
  rfl

/-- The match that begins first: there is a match at its place, and none at any place before. -/
structure IsLeftmost (p : Pattern) (text : List Char) (m : Match) : Prop where
  inside : m.first ≤ text.length
  found : p.matchFrom? text m.first = some m
  earlier : ∀ k, k < m.first → p.matchFrom? text k = none

/-- There is one match that begins first. -/
theorem IsLeftmost.unique {m' : Match} (h : p.IsLeftmost text m) (h' : p.IsLeftmost text m') :
    m = m' := by
  have hfirst : m.first = m'.first := by
    rcases Nat.lt_trichotomy m.first m'.first with hlt | heq | hgt
    · have hnone := h'.earlier _ hlt
      cases hnone.symm.trans h.found
    · exact heq
    · have hnone := h.earlier _ hgt
      cases hnone.symm.trans h'.found
  have hfound := h.found
  rw [hfirst, h'.found] at hfound
  exact (Option.some.inj hfound).symm

/-- The match that a search from a place on finds. -/
def foundFrom (p : Pattern) (text before after : List Char) : Option Match :=
  (searchFrom p text text.length before after before.length false).map fun (first, t) =>
    ⟨first, t.pos, t.groups⟩

/-- At the end of a text a pattern is tried once more. -/
theorem foundFrom_nil (before : List Char) :
    p.foundFrom before.reverse before [] = p.matchFrom? before.reverse before.length := by
  have hlength : before.reverse.length = before.length := List.length_reverse
  have hplace : State.place before.reverse before.length = ⟨before, [], before.length, []⟩ := by
    rw [State.place, ← hlength, List.take_length, List.drop_length, List.reverse_reverse]
  rw [foundFrom, searchFrom, matchFrom?, hplace, Option.map_map]
  rfl

/-- A search takes the match at the place where it is, and goes on if there is none. -/
theorem foundFrom_cons (before : List Char) (c : Char) (rest : List Char) :
    p.foundFrom (before.reverse ++ c :: rest) before (c :: rest) =
      (p.matchFrom? (before.reverse ++ c :: rest) before.length).or
        (p.foundFrom (before.reverse ++ c :: rest) (c :: before) rest) := by
  generalize htext : before.reverse ++ c :: rest = text
  have hplace : State.place text before.length = ⟨before, c :: rest, before.length, []⟩ := by
    rw [State.place, ← htext, ← List.length_reverse, List.take_left, List.drop_left,
      List.reverse_reverse]
  rw [foundFrom, searchFrom, matchFrom?, hplace]
  cases matchAt? p text text.length false ⟨before, c :: rest, before.length, []⟩ with
  | none => rfl
  | some t => rfl

/-- What a search from a place on finds is the first match from there on, if there is one. -/
theorem foundFrom_spec (before after : List Char) :
    match p.foundFrom (before.reverse ++ after) before after with
    | some m => before.length ≤ m.first ∧ m.first ≤ (before.reverse ++ after).length ∧
        p.matchFrom? (before.reverse ++ after) m.first = some m ∧
        ∀ k, before.length ≤ k → k < m.first → p.matchFrom? (before.reverse ++ after) k = none
    | none => ∀ k, before.length ≤ k → k ≤ (before.reverse ++ after).length →
        p.matchFrom? (before.reverse ++ after) k = none := by
  induction after generalizing before with
  | nil =>
      rw [List.append_nil, foundFrom_nil, List.length_reverse]
      cases hmatch : p.matchFrom? before.reverse before.length with
      | none =>
          intro k hleast hmost
          obtain rfl : k = before.length := by omega
          exact hmatch
      | some m =>
          have hfirst := first_of_matchFrom? hmatch
          refine ⟨by omega, by omega, hfirst.symm ▸ hmatch, ?_⟩
          intro k hleast hlt
          omega
  | cons c rest ih =>
      have ih := ih (c :: before)
      rw [List.reverse_cons, List.append_assoc, List.singleton_append, List.length_cons] at ih
      rw [foundFrom_cons]
      cases hmatch : p.matchFrom? (before.reverse ++ c :: rest) before.length with
      | some m =>
          have hfirst := first_of_matchFrom? hmatch
          have hlength : before.length ≤ (before.reverse ++ c :: rest).length := by
            rw [List.length_append, List.length_reverse]
            omega
          refine ⟨by omega, by omega, hfirst.symm ▸ hmatch, ?_⟩
          intro k hleast hlt
          omega
      | none =>
          -- The place where the search is has been tried; all others are further on.
          rw [Option.none_or]
          cases hfound : p.foundFrom (before.reverse ++ c :: rest) (c :: before) rest with
          | none =>
              rw [hfound] at ih
              intro k hleast hmost
              by_cases hk : k = before.length
              · rw [hk, hmatch]
              · exact ih k (by omega) hmost
          | some m =>
              rw [hfound] at ih
              obtain ⟨hleast, hmost, hat, hearlier⟩ := ih
              refine ⟨by omega, hmost, hat, ?_⟩
              intro k hk hlt
              by_cases hhere : k = before.length
              · rw [hhere, hmatch]
              · exact hearlier k (by omega) hlt

/-- A search from the start of a text goes through the whole of it. -/
theorem search_eq_foundFrom : search p text = p.foundFrom text [] text := rfl

/-- **A search finds the match that begins first.** -/
theorem search_eq_some_iff : search p text = some m ↔ p.IsLeftmost text m := by
  have hspec := foundFrom_spec (p := p) [] text
  rw [List.reverse_nil, List.nil_append, ← search_eq_foundFrom] at hspec
  constructor
  · intro hsearch
    rw [hsearch] at hspec
    obtain ⟨-, hinside, hfound, hearlier⟩ := hspec
    exact ⟨hinside, hfound, fun k hlt => hearlier k (Nat.zero_le k) hlt⟩
  · intro hleftmost
    cases hsearch : search p text with
    | none =>
        rw [hsearch] at hspec
        have hnone := hspec m.first (Nat.zero_le _) hleftmost.inside
        cases hnone.symm.trans hleftmost.found
    | some m' =>
        rw [hsearch] at hspec
        obtain ⟨-, hinside, hfound, hearlier⟩ := hspec
        have hleftmost' : p.IsLeftmost text m' :=
          ⟨hinside, hfound, fun k hlt => hearlier k (Nat.zero_le k) hlt⟩
        rw [hleftmost'.unique hleftmost]

/-- A search finds nothing when there is no match anywhere. -/
theorem search_eq_none_iff :
    search p text = none ↔ ∀ k, k ≤ text.length → p.matchFrom? text k = none := by
  constructor
  · intro hsearch
    have hspec := foundFrom_spec (p := p) [] text
    rw [List.reverse_nil, List.nil_append, ← search_eq_foundFrom, hsearch] at hspec
    exact fun k hmost => hspec k (Nat.zero_le k) hmost
  · intro hnone
    cases hsearch : search p text with
    | none => rfl
    | some m =>
        have hleftmost := search_eq_some_iff.mp hsearch
        cases (hnone _ hleftmost.inside).symm.trans hleftmost.found

/-- There is a match that begins within the first characters of a text when the one that begins
first of all does. -/
theorem exists_match_within_iff {n : Nat} (hn : n ≤ text.length) :
    (∃ k, k ≤ n ∧ (p.matchFrom? text k).isSome = true) ↔
      ∃ m, p.IsLeftmost text m ∧ m.first ≤ n := by
  constructor
  · rintro ⟨k, hk, hsome⟩
    cases hsearch : search p text with
    | none =>
        rw [search_eq_none_iff.mp hsearch k (by omega)] at hsome
        cases hsome
    | some m =>
        have hleftmost := search_eq_some_iff.mp hsearch
        refine ⟨m, hleftmost, ?_⟩
        by_cases hlt : k < m.first
        · rw [hleftmost.earlier k hlt] at hsome
          cases hsome
        · omega
  · rintro ⟨m, hleftmost, hwithin⟩
    exact ⟨m.first, hwithin, by rw [hleftmost.found]; rfl⟩

end SecurityAudit.Pattern
