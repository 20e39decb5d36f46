import Mathlib.Data.List.Infix
import SecurityAudit.Glob

/-!
# What globs match

A glob is taken apart into tokens, character by character as long as there are no brackets in it
(`tokens_of_bracketless`).  The empty text is matched by stars alone, and stars match every text.  A
glob that ends in a character matches nothing but texts that end in it, just as a glob that begins
with one matches nothing but texts that begin with it.  A star in place of the end of a glob
matches whatever that end did (`matchTokens_append_star`).  And every text has a glob that matches
it and no other one (`matchTokens_literal_iff`).
-/

namespace SecurityAudit.Glob

variable {glob cs : List Char} {ts : List Token} {c : Char}

/-- The token of a character that is no opening bracket. -/
def Token.ofChar (c : Char) : Token :=
  if c = '*' then .star else if c = '?' then .any else .char c

/-- **A glob without brackets is taken apart character by character.** -/
theorem tokens_of_bracketless (h : '[' ∉ glob) : tokens glob = glob.map Token.ofChar := by
  have hfrom : ∀ fuel, glob.length ≤ fuel → tokensFrom fuel glob = glob.map Token.ofChar := by
    induction glob with
    | nil => intro fuel _; cases fuel <;> rfl
    | cons c rest ih =>
        intro fuel hfuel
        obtain ⟨hbracket, hrest⟩ := List.ne_and_not_mem_of_not_mem_cons h
        cases fuel with
        | zero => cases hfuel
        | succ fuel =>
            have ih := ih hrest fuel (Nat.le_of_succ_le_succ hfuel)
            by_cases hstar : c = '*'
            · subst hstar
              rw [tokensFrom, ih]
              rfl
            · by_cases hquestion : c = '?'
              · subst hquestion
                rw [tokensFrom, ih]
                rfl
              · rw [tokensFrom, ih, List.map_cons, Token.ofChar, if_neg hstar, if_neg hquestion]
                exacts [hstar, hquestion, fun h => hbracket h.symm]
  exact hfrom glob.length le_rfl

/-- The token of a character that is neither a question mark nor an opening bracket. -/
def Token.plain (c : Char) : Token :=
  if c = '*' then .star else .char c

/-- There are no question marks and no opening brackets in a glob. -/
def IsPlain (glob : List Char) : Prop :=
  ∀ c ∈ glob, c ≠ '?' ∧ c ≠ '['

/-- A plain glob is taken apart into stars and characters. -/
theorem tokens_of_plain (h : IsPlain glob) : tokens glob = glob.map Token.plain := by
  rw [tokens_of_bracketless fun hmem => (h _ hmem).2 rfl]
  refine List.map_congr_left fun c hc => ?_
  rw [Token.ofChar, Token.plain, if_neg (h c hc).1]

/-- A bracket expression is no star. -/
theorem Token.ofBody_ne_star (body : List Char) : Token.ofBody body ≠ .star := by
  rw [Token.ofBody]
  split <;> exact nofun

/-- A glob is taken apart into stars alone when it is written with stars alone. -/
theorem tokens_stars_iff : (∀ t ∈ tokens glob, t = .star) ↔ ∀ c ∈ glob, c = '*' := by
  constructor
  · have hfrom : ∀ fuel, glob.length ≤ fuel → (∀ t ∈ tokensFrom fuel glob, t = .star) →
        ∀ c ∈ glob, c = '*' := by
      intro fuel
      fun_induction tokensFrom fuel glob with
      | case1 glob =>
          intro hfuel _
          rw [List.eq_nil_of_length_eq_zero (Nat.le_zero.mp hfuel)]
          exact List.forall_mem_nil _
      | case2 => exact fun _ _ => List.forall_mem_nil _
      | case3 fuel rest ih =>
          intro hfuel h
          exact List.forall_mem_cons.mpr
            ⟨rfl, ih (Nat.le_of_succ_le_succ hfuel) (List.forall_mem_cons.mp h).2⟩
      | case4 => exact fun _ h => nomatch (List.forall_mem_cons.mp h).1
      | case5 =>
          exact fun _ h => absurd (List.forall_mem_cons.mp h).1 (Token.ofBody_ne_star _)
      | case6 => exact fun _ h => nomatch (List.forall_mem_cons.mp h).1
      | case7 => exact fun _ h => nomatch (List.forall_mem_cons.mp h).1
    exact hfrom glob.length le_rfl
  · intro h
    have hplain : IsPlain glob := fun c hc => by
      rw [h c hc]
      decide
    rw [tokens_of_plain hplain, List.forall_mem_map]
    intro c hc
    rw [h c hc]
    rfl

/-! ## Matches -/

theorem tails_eq : tails cs = cs.tails := by
  induction cs with
  | nil => rfl
  | cons c cs ih => rw [tails, ih, List.tails_cons]

/-- The empty text is matched by stars alone. -/
theorem matchTokens_nil_iff : matchTokens ts [] = true ↔ ∀ t ∈ ts, t = .star := by
  induction ts with
  | nil => simp [matchTokens]
  | cons t ts ih => cases t <;> simp [matchTokens, tails, ih]

/-- Stars match every text. -/
theorem matchTokens_stars (hsome : ts ≠ []) (h : ∀ t ∈ ts, t = .star) (cs : List Char) :
    matchTokens ts cs = true := by
  cases ts with
  | nil => exact absurd rfl hsome
  | cons t ts =>
      obtain ⟨rfl, hts⟩ := List.forall_mem_cons.mp h
      rw [matchTokens, List.any_eq_true, tails_eq]
      exact ⟨[], (List.mem_tails _ _).mpr List.nil_suffix, matchTokens_nil_iff.mpr hts⟩

/-- A glob that begins with a character matches texts that begin with it. -/
theorem head?_of_matchTokens (h : matchTokens (.char c :: ts) cs = true) : cs.head? = some c := by
  cases cs with
  | nil => cases h
  | cons d cs =>
      simp only [matchTokens, Token.accepts, Bool.and_eq_true, beq_iff_eq] at h
      rw [List.head?_cons, h.1]

/-- A glob that ends in a character matches texts that end in it. -/
theorem getLast?_of_matchTokens (h : matchTokens (ts ++ [.char c]) cs = true) :
    cs.getLast? = some c := by
  induction ts generalizing cs with
  | nil =>
      cases cs with
      | nil => cases h
      | cons d cs =>
          simp only [List.nil_append, matchTokens, Token.accepts, Bool.and_eq_true, beq_iff_eq,
            List.isEmpty_iff] at h
          rw [h.1, h.2, List.getLast?_singleton]
  | cons t ts ih =>
      cases t with
      | star =>
          -- A star leaves a text that the rest of the glob matches, and its end is the whole one's.
          rw [List.cons_append, matchTokens, List.any_eq_true, tails_eq] at h
          obtain ⟨tail, htail, hmatch⟩ := h
          have hlast := ih hmatch
          obtain ⟨front, rfl⟩ := (List.mem_tails _ _).mp htail
          rw [List.getLast?_append, hlast, Option.some_or]
      | _ =>
          cases cs with
          | nil => cases h
          | cons d cs =>
              simp only [List.cons_append, matchTokens, Bool.and_eq_true] at h
              rw [List.getLast?_cons, ih h.2]
              rfl

/-- **A star in place of the end of a glob loses no match.** -/
theorem matchTokens_append_star {us : List Token} (h : matchTokens (ts ++ us) cs = true) :
    matchTokens (ts ++ [.star]) cs = true := by
  induction ts generalizing cs with
  | nil => exact matchTokens_stars (List.cons_ne_nil _ _) (by simp) cs
  | cons t ts ih =>
      cases t with
      | star =>
          -- What is left of the text may be matched by less than before, but from the same place.
          rw [List.cons_append, matchTokens, List.any_eq_true] at h ⊢
          obtain ⟨tail, htail, hmatch⟩ := h
          exact ⟨tail, htail, ih hmatch⟩
      | _ =>
          cases cs with
          | nil => cases h
          | cons d cs =>
              simp only [List.cons_append, matchTokens, Bool.and_eq_true] at h ⊢
              exact ⟨h.1, ih h.2⟩

/-! ## Literal globs -/

/-- The character means something in a glob. -/
def IsSpecial (c : Char) : Prop :=
  c = '*' ∨ c = '?' ∨ c = '['

instance : DecidablePred IsSpecial := fun _ => inferInstanceAs (Decidable (_ ∨ _))

/-- The glob of a single text: what means something in a glob stands in brackets. -/
def literal (cs : List Char) : List Char :=
  cs.flatMap fun c => if IsSpecial c then ['[', c, ']'] else [c]

/-- The token of a character that stands for itself. -/
def Token.only (c : Char) : Token :=
  if IsSpecial c then .set false [(c, c)] else .char c

/-- A literal glob is taken apart character by character. -/
theorem tokens_literal (cs : List Char) : tokens (literal cs) = cs.map Token.only := by
  have hfrom : ∀ fuel, (literal cs).length ≤ fuel →
      tokensFrom fuel (literal cs) = cs.map Token.only := by
    induction cs with
    | nil => intro fuel _; cases fuel <;> rfl
    | cons c cs ih =>
        intro fuel hfuel
        by_cases hspecial : IsSpecial c
        · have hliteral : literal (c :: cs) = '[' :: c :: ']' :: literal cs := by
            rw [literal, List.flatMap_cons, if_pos hspecial]
            rfl
          rw [hliteral] at hfuel ⊢
          cases fuel with
          | zero => cases hfuel
          | succ fuel =>
              have hrest : (literal cs).length ≤ fuel := by
                simp only [List.length_cons] at hfuel
                omega
              rw [List.map_cons, Token.only, if_pos hspecial, ← ih fuel hrest]
              rcases hspecial with rfl | rfl | rfl <;> rfl
        · have hliteral : literal (c :: cs) = c :: literal cs := by
            rw [literal, List.flatMap_cons, if_neg hspecial]
            rfl
          rw [hliteral] at hfuel ⊢
          cases fuel with
          | zero => cases hfuel
          | succ fuel =>
              rw [List.map_cons, Token.only, if_neg hspecial,
                ← ih fuel (Nat.le_of_succ_le_succ hfuel), tokensFrom]
              · exact fun h => hspecial (.inl h)
              · exact fun h => hspecial (.inr (.inl h))
              · exact fun h => hspecial (.inr (.inr h))
  exact hfrom _ le_rfl

theorem Token.accepts_only_iff {d : Char} : (Token.only c).accepts d = true ↔ d = c := by
  rw [Token.only]
  by_cases hspecial : IsSpecial c
  · rw [if_pos hspecial]
    simp only [Token.accepts, List.any_cons, List.any_nil, inRange, Bool.or_false, Bool.bne_false,
      Bool.and_eq_true, decide_eq_true_eq]
    exact ⟨fun h => Char.le_antisymm h.2 h.1, fun h => h ▸ ⟨Char.le_refl _, Char.le_refl _⟩⟩
  · rw [if_neg hspecial, Token.accepts, beq_iff_eq]

/-- The token of a character takes that character off a text. -/
theorem matchTokens_only_cons (c : Char) (ts : List Token) (cs : List Char) :
    matchTokens (Token.only c :: ts) cs = true ↔
      ∃ rest, cs = c :: rest ∧ matchTokens ts rest = true := by
  have hone : ∀ t : Token, t ≠ .star → (matchTokens (t :: ts) cs = true ↔
      ∃ d rest, cs = d :: rest ∧ t.accepts d = true ∧ matchTokens ts rest = true) := by
    intro t ht
    cases cs with
    | nil => cases t <;> simp_all [matchTokens]
    | cons d cs => cases t <;> simp_all [matchTokens]
  rw [hone]
  · simp only [Token.accepts_only_iff]
    constructor
    · rintro ⟨d, rest, hcs, rfl, hrest⟩
      exact ⟨rest, hcs, hrest⟩
    · rintro ⟨rest, hcs, hrest⟩
      exact ⟨c, rest, hcs, rfl, hrest⟩
  · rw [Token.only]
    split <;> exact nofun

/-- **A literal glob matches its text and no other one.** -/
theorem matchTokens_literal_iff {cs ds : List Char} :
    matchTokens (tokens (literal cs)) ds = true ↔ ds = cs := by
  rw [tokens_literal]
  induction cs generalizing ds with
  | nil => simp [matchTokens]
  | cons c cs ih =>
      rw [List.map_cons, matchTokens_only_cons]
      simp only [ih, exists_eq_right]

end SecurityAudit.Glob
