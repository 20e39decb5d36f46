import Mathlib.Data.Fintype.EquivFin
import SecurityAudit.Proofs.TextPieces
import SecurityAudit.Suppression

/-!
# Which lines have a marker

A marker ends its line: it is what a comment sign, a word and perhaps a list in brackets make, and
after it there is nothing but blanks and perhaps the end of a comment (`Layout.IsMarker`).  The
reader looks for a comment sign from the left and takes the first one that is followed by such an
end.  It finds a marker when the line has a layout with one (`exists_layout_of_ofLine?`,
`isSome_ofLine?_chars`).

A line may be laid out in more than one way, since blanks may be counted on either side and comment
signs may stand next to each other.  But read from the right, the word and the list in brackets are
always the same (`Layout.IsMarker.unique`): what ends a marker is no blank and no slash, a list has
no bracket inside, and the words end in different letters.  So what the reader takes is what is
written, and `ofLine?_grammar` says which rules that are.
-/

namespace SecurityAudit.Marker

open Text (isBlank trimLeft trimRight trimChars)

/-! ## The grammar -/

/-- A text is blank. -/
def IsBlankText (cs : List Char) : Prop :=
  ∀ c ∈ cs, isBlank c = true

/-- What stands in the brackets of a marker: ASCII letters and digits, underscores, commas and
blanks, at least one of them. -/
structure IsBody (body : List Char) : Prop where
  nonempty : body ≠ []
  chars : ∀ c ∈ body, c.isAlphanum = true ∨ c = '_' ∨ c = ',' ∨ isBlank c = true

/-- A list in brackets, if there is one. -/
def scopeChars : Option (List Char) → List Char
  | none => []
  | some body => '[' :: body ++ [']']

/-- How a line with a marker is laid out: what stands before it, the comment sign, blanks, the word,
the list in brackets if there is one, blanks, the end of a comment if there is one, and blanks. -/
structure Layout where
  front : List Char
  lead : List Char
  gap : List Char
  word : String
  scope : Option (List Char)
  space : List Char
  close : List Char
  rest : List Char

namespace Layout

/-- What a layout has up to the end of its marker. -/
def core (l : Layout) : List Char :=
  l.front ++ l.lead ++ l.gap ++ l.word.toList ++ scopeChars l.scope

/-- The text of a layout. -/
def chars (l : Layout) : List Char :=
  l.front ++ l.lead ++ l.gap ++ l.word.toList ++ scopeChars l.scope ++ l.space ++ l.close ++ l.rest

/-- A layout is one of a marker. -/
structure IsMarker (l : Layout) : Prop where
  lead : l.lead = ['#'] ∨ l.lead = ['/', '/']
  gap : IsBlankText l.gap
  word : l.word = "vulnaudit-ignore" ∨ l.word = "nosec"
  scope : ∀ body, l.scope = some body → IsBody body
  space : IsBlankText l.space
  close : l.close = [] ∨ l.close = ['*', '/']
  rest : IsBlankText l.rest

end Layout

/-! ## Reading from the right -/

/-- Blanks at the end of a text are trimmed. -/
theorem trimRight_append_blank {ws : List Char} (h : IsBlankText ws) {e : Char}
    (he : isBlank e = false) (cs : List Char) : trimRight (cs ++ [e] ++ ws) = cs ++ [e] := by
  have hws : trimRight ws = [] := by
    rw [Text.trimRight_eq, List.reverse_eq_nil_iff]
    exact List.dropWhile_eq_nil_iff.mpr fun c hc => h c (List.mem_reverse.mp hc)
  rw [List.append_assoc, List.singleton_append, Text.trimRight_append_cons he, hws]

namespace Layout

variable {l l' : Layout}

/-- What stands before the list in brackets. -/
def stem (l : Layout) : List Char :=
  l.front ++ l.lead ++ l.gap ++ l.word.toList

theorem core_eq (l : Layout) : l.core = l.stem ++ scopeChars l.scope := rfl

/-- The word ends in a letter of its own. -/
theorem IsMarker.stem_ends (h : l.IsMarker) :
    ∃ cs e, l.stem = cs ++ [e] ∧
      (l.word = "vulnaudit-ignore" ∧ e = 'e' ∨ l.word = "nosec" ∧ e = 'c') := by
  rcases h.word with hword | hword
  · refine ⟨l.front ++ l.lead ++ l.gap ++ "vulnaudit-ignor".toList, 'e', ?_, .inl ⟨hword, rfl⟩⟩
    rw [stem, hword, List.append_assoc _ _ ['e']]
    rfl
  · refine ⟨l.front ++ l.lead ++ l.gap ++ "nose".toList, 'c', ?_, .inr ⟨hword, rfl⟩⟩
    rw [stem, hword, List.append_assoc _ _ ['c']]
    rfl

/-- A marker ends in a character that is no blank and no slash: a bracket if it has a list, and
otherwise a letter. -/
theorem IsMarker.core_ends (h : l.IsMarker) :
    ∃ cs e, l.core = cs ++ [e] ∧ isBlank e = false ∧ e ≠ '/' ∧ (e = ']' ↔ l.scope ≠ none) := by
  rw [core_eq]
  cases l.scope with
  | some body =>
      refine ⟨l.stem ++ '[' :: body, ']', ?_, by decide, by decide, by simp⟩
      rw [scopeChars, List.append_assoc]
  | none =>
      rw [scopeChars, List.append_nil]
      obtain ⟨cs, e, hcs, ⟨-, rfl⟩ | ⟨-, rfl⟩⟩ := h.stem_ends
      · exact ⟨cs, 'e', hcs, by decide, by decide, by decide⟩
      · exact ⟨cs, 'c', hcs, by decide, by decide, by decide⟩

/-- The line without the blanks at its end is the marker with what precedes it, or that with the end
of a comment after it. -/
theorem IsMarker.trimRight_chars (h : l.IsMarker) :
    trimRight l.chars = l.core ∨ trimRight l.chars = l.core ++ l.space ++ ['*'] ++ ['/'] := by
  obtain ⟨cs, e, hcore, he, -⟩ := h.core_ends
  have hchars : l.chars = l.core ++ l.space ++ l.close ++ l.rest := rfl
  rcases h.close with hclose | hclose
  · left
    have hblank : IsBlankText (l.space ++ l.rest) := fun c hc =>
      (List.mem_append.mp hc).elim (h.space c) (h.rest c)
    rw [hchars, hclose, List.append_nil, hcore, List.append_assoc,
      trimRight_append_blank hblank he]
  · right
    have hslash : isBlank '/' = false := by decide
    have hend : l.core ++ l.space ++ ['*', '/'] ++ l.rest =
        l.core ++ l.space ++ ['*'] ++ ['/'] ++ l.rest := by simp
    rw [hchars, hclose, hend, trimRight_append_blank h.rest hslash]

/-- A marker does not end like a comment. -/
theorem IsMarker.core_ne (h : l.IsMarker) (cs : List Char) : l.core ≠ cs ++ ['/'] := by
  obtain ⟨cs', e, hcore, -, he, -⟩ := h.core_ends
  rw [hcore]
  intro hsame
  exact he (List.singleton_inj.mp (List.append_inj' hsame rfl).2)

/-- **A line has one marker at most**, after one text. -/
theorem IsMarker.core_unique (h : l.IsMarker) (h' : l'.IsMarker) (hchars : l.chars = l'.chars) :
    l.core = l'.core := by
  have htrim := congrArg trimRight hchars
  rcases h.trimRight_chars with hcore | hclosed <;> rcases h'.trimRight_chars with hcore' | hclosed'
  · rw [← hcore, htrim, hcore']
  · exact absurd (hcore.symm.trans (htrim.trans hclosed')) (h.core_ne _)
  · exact absurd (hcore'.symm.trans (htrim.symm.trans hclosed)) (h'.core_ne _)
  · rw [hclosed, hclosed'] at htrim
    have hopen : l.core ++ l.space = l'.core ++ l'.space :=
      List.append_cancel_right (List.append_cancel_right htrim)
    have hblanks : ∀ {l : Layout}, l.IsMarker → trimRight (l.core ++ l.space) = l.core := by
      intro l h
      obtain ⟨cs, e, hcore, he, -⟩ := h.core_ends
      rw [hcore, trimRight_append_blank h.space he]
    rw [← hblanks h, hopen, hblanks h']

end Layout

/-- Brackets that open last in a text open at one place. -/
theorem eq_of_append_bracket {front front' body body' : List Char} (h : '[' ∉ body)
    (h' : '[' ∉ body') (heq : front ++ '[' :: body = front' ++ '[' :: body') :
    front = front' ∧ body = body' := by
  have hnot : ∀ {more body body' : List Char}, '[' ∉ body →
      '[' :: body = more ++ '[' :: body' → more = [] := by
    intro more body body' hbody heq
    cases more with
    | nil => rfl
    | cons c more =>
        obtain ⟨-, rfl⟩ := List.cons.inj heq
        exact absurd (List.mem_append_right _ List.mem_cons_self) hbody
  rcases List.append_eq_append_iff.mp heq with ⟨more, rfl, hmore⟩ | ⟨more, rfl, hmore⟩
  · obtain rfl := hnot h hmore
    exact ⟨(List.append_nil _).symm, (List.cons.inj hmore).2⟩
  · obtain rfl := hnot h' hmore
    exact ⟨List.append_nil _, (List.cons.inj hmore).2.symm⟩

/-- No bracket opens in a list of rules. -/
theorem IsBody.not_mem_bracket {body : List Char} (h : IsBody body) : '[' ∉ body := by
  intro hmem
  exact absurd (h.chars _ hmem) (by decide)

namespace Layout

variable {l l' : Layout}

/-- **The word and the list of a marker are unique.** -/
theorem IsMarker.unique (h : l.IsMarker) (h' : l'.IsMarker) (hchars : l.chars = l'.chars) :
    l.word = l'.word ∧ l.scope = l'.scope := by
  have hcore := h.core_unique h' hchars
  -- Both have a list or none has, since a list ends in a bracket and a word does not.
  have hlist : l.scope ≠ none ↔ l'.scope ≠ none := by
    obtain ⟨cs, e, hends, -, -, he⟩ := h.core_ends
    obtain ⟨cs', e', hends', -, -, he'⟩ := h'.core_ends
    rw [hends, hends'] at hcore
    rw [← he, ← he', List.singleton_inj.mp (List.append_inj' hcore rfl).2]
  rw [core_eq, core_eq] at hcore
  have hboth : l.stem = l'.stem ∧ l.scope = l'.scope := by
    cases hscope : l.scope with
    | none =>
        have hscope' : l'.scope = none := by simpa [hscope] using hlist
        rw [hscope, hscope', scopeChars, List.append_nil, List.append_nil] at hcore
        exact ⟨hcore, hscope'.symm⟩
    | some body =>
        obtain ⟨body', hscope'⟩ := Option.ne_none_iff_exists'.mp (hlist.mp (by simp [hscope]))
        rw [hscope, hscope', scopeChars, scopeChars, ← List.append_assoc,
          ← List.append_assoc] at hcore
        obtain ⟨hstem, rfl⟩ := eq_of_append_bracket (h.scope body hscope).not_mem_bracket
          (h'.scope body' hscope').not_mem_bracket (List.append_cancel_right hcore)
        exact ⟨hstem, hscope'.symm⟩
  refine ⟨?_, hboth.2⟩
  obtain ⟨cs, e, hcs, hword⟩ := h.stem_ends
  obtain ⟨cs', e', hcs', hword'⟩ := h'.stem_ends
  have hletter : e = e' := by
    have hstem := hboth.1
    rw [hcs, hcs'] at hstem
    exact List.singleton_inj.mp (List.append_inj' hstem rfl).2
  subst hletter
  rcases hword with ⟨hword, rfl⟩ | ⟨hword, rfl⟩ <;> rcases hword' with ⟨hword', he⟩ | ⟨hword', he⟩
  · rw [hword, hword']
  · exact absurd he (by decide)
  · exact absurd he (by decide)
  · rw [hword, hword']

end Layout

/-! ## Reading -/

variable {cs rest tail : List Char} {m : Marker}

theorem after?_eq_some_iff {word : String} :
    after? word cs = some rest ↔ cs = word.toList ++ rest := by
  rw [after?, Option.ite_none_right_eq_some, List.isPrefixOf_iff_prefix, Option.some.injEq,
    ← String.length_toList]
  constructor
  · rintro ⟨⟨tail, rfl⟩, hdrop⟩
    rw [List.drop_left] at hdrop
    rw [hdrop]
  · rintro rfl
    exact ⟨List.prefix_append _ _, List.drop_left⟩

/-- What may follow a marker: blanks, and perhaps the end of a comment and blanks again. -/
def IsTail (cs : List Char) : Prop :=
  ∃ space close rest, cs = space ++ close ++ rest ∧ IsBlankText space ∧
    (close = [] ∨ close = ['*', '/']) ∧ IsBlankText rest

theorem trimLeft_eq_nil_iff {ws : List Char} : trimLeft ws = [] ↔ IsBlankText ws :=
  List.dropWhile_eq_nil_iff

/-- A text begins with blanks, and then comes what is left when it is trimmed. -/
theorem exists_blank_append_trimLeft (cs : List Char) :
    ∃ gap, IsBlankText gap ∧ cs = gap ++ trimLeft cs :=
  ⟨cs.takeWhile isBlank, fun _ hc => List.mem_takeWhile_imp hc,
    List.takeWhile_append_dropWhile.symm⟩

theorem isTail_iff : isTail cs = true ↔ IsTail cs := by
  rw [isTail, List.isEmpty_iff, trimLeft_eq_nil_iff]
  constructor
  · intro h
    obtain ⟨space, hspace, hcs⟩ := exists_blank_append_trimLeft cs
    cases hclose : after? "*/" (trimLeft cs) with
    | none =>
        rw [hclose] at h
        refine ⟨space, [], trimLeft cs, ?_, hspace, .inl rfl, h⟩
        rw [List.append_nil, ← hcs]
    | some rest =>
        rw [hclose] at h
        refine ⟨space, ['*', '/'], rest, ?_, hspace, .inr rfl, h⟩
        rw [after?_eq_some_iff.mp hclose, ← List.append_assoc] at hcs
        exact hcs
  · rintro ⟨space, close, rest, rfl, hspace, rfl | rfl, hrest⟩
    · rw [List.append_nil, Text.trimLeft_blanks_append hspace, trimLeft_eq_nil_iff.mpr hrest]
      exact List.forall_mem_nil _
    · have hstar : trimLeft ('*' :: '/' :: rest) = '*' :: '/' :: rest :=
        List.dropWhile_cons_of_neg (by decide)
      rw [List.append_assoc, Text.trimLeft_blanks_append hspace]
      rw [List.cons_append, List.cons_append, List.nil_append, hstar,
        after?_eq_some_iff.mpr (rfl : '*' :: '/' :: rest = "*/".toList ++ rest)]
      exact hrest

/-- What may follow a marker does not begin with a bracket. -/
theorem IsTail.ne_bracket (h : IsTail tail) (cs : List Char) : tail ≠ '[' :: cs := by
  obtain ⟨space, close, rest, rfl, hspace, hclose, hrest⟩ := h
  intro heq
  cases space with
  | cons c space =>
      have hbracket : c = '[' := (List.cons.inj heq).1
      exact absurd (hbracket ▸ hspace c List.mem_cons_self) (by decide)
  | nil =>
      rcases hclose with rfl | rfl
      · have hbracket : rest = '[' :: cs := heq
        exact absurd (hrest '[' (hbracket ▸ List.mem_cons_self)) (by decide)
      · exact absurd (List.cons.inj heq).1 (by decide)

theorem isScopeChar_iff {c : Char} : isScopeChar c = true ↔
    c.isAlphanum = true ∨ c = '_' ∨ c = ',' ∨ isBlank c = true := by
  simp only [isScopeChar, Bool.or_eq_true, beq_iff_eq, or_assoc]

theorem scope?_eq_some_iff {body : List Char} :
    scope? cs = some (body, rest) ↔ cs = '[' :: body ++ ']' :: rest ∧ IsBody body := by
  rw [scope?, Option.bind_eq_some_iff]
  simp only [after?_eq_some_iff, Option.ite_none_left_eq_some, Option.map_eq_some_iff,
    List.isEmpty_iff, Prod.mk.injEq]
  constructor
  · rintro ⟨more, rfl, hbody, tail, htail, rfl, rfl⟩
    refine ⟨?_, hbody, fun c hc => isScopeChar_iff.mp (List.mem_takeWhile_imp hc)⟩
    have hfront := List.prefix_iff_eq_take.mp (List.takeWhile_prefix isScopeChar (l := more))
    have hmore := List.take_append_drop (more.takeWhile isScopeChar).length more
    rw [← hfront, htail] at hmore
    exact congrArg ('[' :: ·) hmore.symm
  · rintro ⟨rfl, hbody⟩
    have htake : (body ++ ']' :: rest).takeWhile isScopeChar = body := by
      rw [List.takeWhile_append_of_pos fun c hc => isScopeChar_iff.mpr (hbody.chars c hc),
        List.takeWhile_cons_of_neg (by decide), List.append_nil]
    refine ⟨body ++ ']' :: rest, rfl, ?_, rest, ?_, ?_, rfl⟩
    · rw [htake]
      exact hbody.nonempty
    · rw [htake, List.drop_left]
      rfl
    · exact htake

/-- A marker is read after its word when what stands there is a list in brackets or none, and then
what may follow a marker. -/
theorem ofTail?_eq_some_iff :
    ofTail? cs = some m ↔ ∃ scope tail, cs = scopeChars scope ++ tail ∧
      (∀ body, scope = some body → IsBody body) ∧ IsTail tail ∧ m = ⟨scope.map rulesOf⟩ := by
  rw [ofTail?]
  constructor
  · intro h
    cases hscope : scope? cs with
    | some found =>
        obtain ⟨body, rest⟩ := found
        rw [hscope] at h
        obtain ⟨rfl, hbody⟩ := scope?_eq_some_iff.mp hscope
        obtain ⟨htail, hm⟩ := Option.ite_none_right_eq_some.mp h
        refine ⟨some body, rest, ?_, ?_, isTail_iff.mp htail, (Option.some.inj hm).symm⟩
        · rw [scopeChars, List.append_assoc, List.singleton_append]
        · rintro body' ⟨⟩
          exact hbody
    | none =>
        rw [hscope] at h
        obtain ⟨htail, hm⟩ := Option.ite_none_right_eq_some.mp h
        exact ⟨none, cs, rfl, nofun, isTail_iff.mp htail, (Option.some.inj hm).symm⟩
  · rintro ⟨scope, tail, rfl, hbody, htail, rfl⟩
    cases scope with
    | some body =>
        have hscope : scope? (scopeChars (some body) ++ tail) = some (body, tail) := by
          rw [scope?_eq_some_iff, scopeChars, List.append_assoc, List.singleton_append]
          exact ⟨rfl, hbody body rfl⟩
        rw [hscope]
        exact if_pos (isTail_iff.mpr htail)
    | none =>
        have hscope : scope? tail = none := by
          rw [Option.eq_none_iff_forall_ne_some]
          rintro ⟨body, rest⟩ hscope
          exact htail.ne_bracket _ (scope?_eq_some_iff.mp hscope).1
        rw [scopeChars, List.nil_append, hscope]
        exact if_pos (isTail_iff.mpr htail)

/-- A comment sign is taken off. -/
theorem lead_eq_some_iff :
    (after? "#" cs).or (after? "//" cs) = some rest ↔
      ∃ lead, (lead = ['#'] ∨ lead = ['/', '/']) ∧ cs = lead ++ rest := by
  rw [Option.or_eq_some_iff, after?_eq_some_iff, after?_eq_some_iff]
  constructor
  · rintro (rfl | ⟨-, rfl⟩)
    · exact ⟨_, .inl rfl, rfl⟩
    · exact ⟨_, .inr rfl, rfl⟩
  · rintro ⟨lead, rfl | rfl, rfl⟩
    · exact .inl rfl
    · exact .inr ⟨rfl, rfl⟩

/-- A word is taken off. -/
theorem word_eq_some_iff :
    (words.findSome? fun word => after? word cs) = some rest ↔
      ∃ word, (word = "vulnaudit-ignore" ∨ word = "nosec") ∧ cs = word.toList ++ rest := by
  rw [words, List.findSome?_cons, List.findSome?_cons, List.findSome?_nil]
  constructor
  · intro h
    split at h
    · rename_i hword
      cases h
      exact ⟨_, .inl rfl, after?_eq_some_iff.mp hword⟩
    · split at h
      · rename_i hword
        cases h
        exact ⟨_, .inr rfl, after?_eq_some_iff.mp hword⟩
      · cases h
  · rintro ⟨word, rfl | rfl, rfl⟩
    · rw [after?_eq_some_iff.mpr rfl]
    · have hother : after? "vulnaudit-ignore" ("nosec".toList ++ rest) = none := rfl
      rw [hother, after?_eq_some_iff.mpr rfl]

/-- **A marker is read where it begins** when a layout begins there, with the rules of its list. -/
theorem here?_eq_some_iff :
    here? cs = some m ↔ ∃ l : Layout, l.front = [] ∧ l.IsMarker ∧ l.chars = cs ∧
      m = ⟨l.scope.map rulesOf⟩ := by
  rw [here?]
  simp only [Option.bind_eq_some_iff, lead_eq_some_iff, word_eq_some_iff, ofTail?_eq_some_iff]
  constructor
  · rintro ⟨afterLead, ⟨lead, hlead, rfl⟩, afterWord, ⟨word, hword, htrim⟩, scope, tail, rfl, hbody,
      ⟨space, close, rest, rfl, hspace, hclose, hrest⟩, rfl⟩
    obtain ⟨gap, hgap, hcs⟩ := exists_blank_append_trimLeft afterLead
    refine ⟨⟨[], lead, gap, word, scope, space, close, rest⟩, rfl,
      ⟨hlead, hgap, hword, hbody, hspace, hclose, hrest⟩, ?_, rfl⟩
    rw [hcs, htrim, Layout.chars]
    simp only [List.nil_append, List.append_assoc]
  · rintro ⟨⟨front, lead, gap, word, scope, space, close, rest⟩, rfl,
      ⟨hlead, hgap, hword, hbody, hspace, hclose, hrest⟩, rfl, rfl⟩
    have htrim : trimLeft (gap ++ (word.toList ++ (scopeChars scope ++ (space ++ close ++ rest)))) =
        word.toList ++ (scopeChars scope ++ (space ++ close ++ rest)) := by
      rw [Text.trimLeft_blanks_append hgap]
      rcases hword with rfl | rfl <;> exact List.dropWhile_cons_of_neg (by decide)
    refine ⟨_, ⟨lead, hlead, ?_⟩, _, ⟨word, hword, htrim⟩, scope, _, rfl, hbody,
      ⟨space, close, rest, rfl, hspace, hclose, hrest⟩, rfl⟩
    simp only [Layout.chars, List.nil_append, List.append_assoc]

/-! ## Markers anywhere in a line -/

variable {line : List Char}

theorem ofLine?_of_here? (h : here? cs = some m) : ofLine? cs = some m := by
  cases cs with
  | nil => cases h
  | cons c rest => rw [ofLine?, h, Option.some_or]

/-- A marker is found wherever it begins. -/
theorem isSome_ofLine?_append (front : List Char) (h : (ofLine? cs).isSome = true) :
    (ofLine? (front ++ cs)).isSome = true := by
  induction front with
  | nil => exact h
  | cons c front ih => rw [List.cons_append, ofLine?, Option.isSome_or, ih, Bool.or_true]

/-- A line that is laid out as one with a marker has a marker. -/
theorem isSome_ofLine?_chars {l : Layout} (h : l.IsMarker) : (ofLine? l.chars).isSome = true := by
  have hhere : here? { l with front := [] }.chars = some ⟨l.scope.map rulesOf⟩ :=
    here?_eq_some_iff.mpr ⟨{ l with front := [] }, rfl,
      ⟨h.lead, h.gap, h.word, h.scope, h.space, h.close, h.rest⟩, rfl, rfl⟩
  have hchars : l.chars = l.front ++ { l with front := [] }.chars := by
    simp only [Layout.chars, List.nil_append, List.append_assoc]
  rw [hchars]
  refine isSome_ofLine?_append l.front ?_
  rw [ofLine?_of_here? hhere, Option.isSome_some]

/-- A marker that is found stands in a layout of the line, and has the rules of its list. -/
theorem exists_layout_of_ofLine? (h : ofLine? line = some m) :
    ∃ l : Layout, l.IsMarker ∧ l.chars = line ∧ m = ⟨l.scope.map rulesOf⟩ := by
  induction line with
  | nil => cases h
  | cons c rest ih =>
      rw [ofLine?, Option.or_eq_some_iff] at h
      rcases h with h | ⟨-, h⟩
      · obtain ⟨l, -, hmarker, hchars, hm⟩ := here?_eq_some_iff.mp h
        exact ⟨l, hmarker, hchars, hm⟩
      · obtain ⟨l, hmarker, rfl, hm⟩ := ih h
        exact ⟨{ l with front := c :: l.front }, ⟨hmarker.lead, hmarker.gap, hmarker.word,
          hmarker.scope, hmarker.space, hmarker.close, hmarker.rest⟩, rfl, hm⟩

/-- **What is read is what is written**: the marker of a line that is laid out as one with a marker
has the rules of its list. -/
theorem ofLine?_chars {l : Layout} (h : l.IsMarker) :
    ofLine? l.chars = some ⟨l.scope.map rulesOf⟩ := by
  obtain ⟨m, hm⟩ := Option.isSome_iff_exists.mp (isSome_ofLine?_chars h)
  obtain ⟨l', h', hchars, rfl⟩ := exists_layout_of_ofLine? hm
  rw [hm, (h'.unique h hchars).2]

/-- The last comment sign is the one of the marker. -/
example : ofLine? "x = 1  # see // nosec[A, B_1,] */ ".toList = some ⟨some ["A", "B_1"]⟩ := by
  decide

/-! ## The rules of a list -/

/-- The rules of a list are its pieces without the blanks at their ends, as far as anything is left.
-/
theorem mem_rulesOf_iff {body : List Char} {id : String} :
    id ∈ rulesOf body ↔
      id ≠ "" ∧ ∃ piece ∈ Text.splitAt ',' body, trimChars piece = id.toList := by
  simp only [rulesOf, List.mem_map, List.mem_filter, Bool.not_eq_true', List.isEmpty_eq_false_iff]
  constructor
  · rintro ⟨cs, ⟨⟨piece, hpiece, rfl⟩, hcs⟩, rfl⟩
    refine ⟨fun hempty => hcs (String.ofList_eq_empty_iff.mp hempty), piece, hpiece, ?_⟩
    rw [String.toList_ofList]
  · rintro ⟨hid, piece, hpiece, htrim⟩
    refine ⟨id.toList, ⟨⟨piece, hpiece, htrim⟩, ?_⟩, String.ofList_toList⟩
    rwa [Ne, String.toList_eq_nil_iff]

/-- A marker with a list covers the rules of the list and no others. -/
theorem covers_of_rules {ids : List String} (h : m.rules = some ids) (rule : Value) :
    m.covers rule = true ↔ ∃ id ∈ ids, rule.text? = some id := by
  rw [covers, h]
  cases rule.text? with
  | none => simp
  | some id => simp

/-- A marker with a list leaves some rule uncovered, since there are more ids than a list can name.
-/
theorem exists_not_covers {ids : List String} (h : m.rules = some ids) :
    ∃ id, m.covers (.text id) = false := by
  obtain ⟨cs, hcs⟩ := Infinite.exists_notMem_finset (ids.map String.toList).toFinset
  refine ⟨String.ofList cs, Bool.eq_false_iff.mpr fun hcovers => hcs ?_⟩
  obtain ⟨id, hid, htext⟩ := (covers_of_rules h _).mp hcovers
  have hcs : id.toList = cs := by rw [← Option.some.inj htext, String.toList_ofList]
  exact List.mem_toFinset.mpr (List.mem_map.mpr ⟨id, hid, hcs⟩)

/-- **The grammar of markers.**  A line has a marker when it is laid out as one with a marker, and
then the word and the list in brackets are unique.  A marker without a list covers every rule.  One
with a list covers the rules that the list names: the pieces between its commas, without the blanks
at their ends, as far as anything is left.  So it never covers every rule, and if its list names
none, it covers none. -/
theorem ofLine?_grammar (line : List Char) :
    ((∃ m, ofLine? line = some m) ↔ ∃ l : Layout, l.IsMarker ∧ l.chars = line) ∧
    (∀ l l' : Layout, l.IsMarker → l'.IsMarker → l.chars = line → l'.chars = line →
      l.word = l'.word ∧ l.scope = l'.scope) ∧
    ∀ (l : Layout) (m : Marker), l.IsMarker → l.chars = line → ofLine? line = some m →
      (m.rules = none ↔ l.scope = none) ∧
      (m.rules = none → ∀ rule, m.covers rule = true) ∧
      ∀ body, l.scope = some body → ∃ ids pieces, m.rules = some ids ∧
        [','].intercalate pieces = body ∧ (∀ piece ∈ pieces, ',' ∉ piece) ∧
        (∀ id, id ∈ ids ↔ id ≠ "" ∧ ∃ piece ∈ pieces, trimChars piece = id.toList) ∧
        (∀ rule, m.covers rule = true ↔ ∃ id ∈ ids, rule.text? = some id) ∧
        (∃ id, m.covers (.text id) = false) ∧
        (ids = [] → ∀ rule, m.covers rule = false) := by
  refine ⟨⟨?_, ?_⟩, ?_, ?_⟩
  · rintro ⟨m, hm⟩
    obtain ⟨l, h, hchars, -⟩ := exists_layout_of_ofLine? hm
    exact ⟨l, h, hchars⟩
  · rintro ⟨l, h, rfl⟩
    exact ⟨_, ofLine?_chars h⟩
  · rintro l l' h h' rfl hchars
    exact h.unique h' hchars.symm
  · rintro l m h rfl hm
    obtain rfl := Option.some.inj ((ofLine?_chars h).symm.trans hm)
    refine ⟨Option.map_eq_none_iff, fun hall rule => by rw [covers, hall], fun body hscope => ?_⟩
    have hrules : Option.map rulesOf l.scope = some (rulesOf body) := by
      rw [hscope, Option.map_some]
    refine ⟨rulesOf body, Text.splitAt ',' body, hrules, Text.intercalate_splitAt ',' body,
      fun piece hpiece => Text.not_mem_of_mem_splitAt hpiece, fun id => mem_rulesOf_iff,
      covers_of_rules hrules, exists_not_covers hrules, fun hnone rule => ?_⟩
    rw [Bool.eq_false_iff]
    intro hcovers
    obtain ⟨id, hid, -⟩ := (covers_of_rules hrules rule).mp hcovers
    rw [hnone] at hid
    cases hid

end SecurityAudit.Marker
