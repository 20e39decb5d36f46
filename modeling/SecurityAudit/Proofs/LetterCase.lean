import Mathlib.Data.List.Forall2
import Mathlib.Tactic.IntervalCases
import SecurityAudit.Text.Blank
import SecurityAudit.Text.Case

/-!
# Characters without case

To put a text in lower case changes its letters.  A character that no letter becomes, and that
becomes no other one itself, has no case: it stands in the lower text exactly where it stands in the
text.  The star is one, and so are the blanks; what is made of such characters stays as it is, and
what begins or ends with one in lower case does so in any case.
-/

namespace SecurityAudit.Text

variable {c e : Char} {cs image : List Char}

/-- A code point is neither one that a run moves nor one that it moves another one to. -/
def CaseRun.misses (r : CaseRun) (n : Nat) : Bool :=
  (n < r.first || r.last < n) && ((n : Int) < r.first + r.delta || (r.last : Int) + r.delta < n)

/-- A character has no case: no run is about it, nor are the rules for the dotted capital I and the
final sigma, and it is not the zero character, which stands for code points that are none. -/
def isCaseless (c : Char) : Bool :=
  !([0, 0x130, 0x307, 0x3C2].contains c.toNat) && lowerRuns.all (·.misses c.toNat)

theorem isCaseless_star : isCaseless '*' = true := by decide +kernel

/-- The code points of the blanks. -/
def blanks : List Nat :=
  [9, 10, 11, 12, 13, 28, 29, 30, 31, 32, 0x85, 0xA0, 0x1680, 0x2000, 0x2001, 0x2002, 0x2003,
    0x2004, 0x2005, 0x2006, 0x2007, 0x2008, 0x2009, 0x200A, 0x2028, 0x2029, 0x202F, 0x205F, 0x3000]

theorem toNat_mem_blanks (h : isBlank c = true) : c.toNat ∈ blanks := by
  simp only [isBlank] at h
  generalize c.toNat = n at h ⊢
  split at h
  · simp only [Bool.or_eq_true, beq_iff_eq, Bool.and_eq_true, decide_eq_true_eq] at h
    obtain (rfl | ⟨hleast, hmost⟩) | ⟨hleast, hmost⟩ := h
    · decide
    · interval_cases n <;> decide
    · interval_cases n <;> decide
  · simp only [Bool.or_eq_true, beq_iff_eq, Bool.and_eq_true, decide_eq_true_eq] at h
    obtain (((((((rfl | rfl) | rfl) | ⟨hleast, hmost⟩) | rfl) | rfl) | rfl) | rfl) | rfl := h
    all_goals first | decide | interval_cases n <;> decide

theorem isCaseless_of_isBlank (h : isBlank c = true) : isCaseless c = true := by
  have hall : ∀ n ∈ blanks, isCaseless (Char.ofNat n) = true := by decide +kernel
  rw [← Char.ofNat_toNat c]
  exact hall _ (toNat_mem_blanks h)

/-! ## One character -/

theorem CaseRun.image?_of_misses {r : CaseRun} {n : Nat} (h : r.misses n = true) :
    r.image? n = none := by
  simp only [misses, Bool.and_eq_true, Bool.or_eq_true, decide_eq_true_eq] at h
  rw [image?, if_neg]
  simp only [Bool.and_eq_true, decide_eq_true_eq]
  omega

/-- No run moves a code point to one that it misses. -/
theorem CaseRun.ne_of_image? {r : CaseRun} {m n k : Nat} (h : r.misses n = true) (hn : n ≠ 0)
    (hk : r.image? m = some k) : k ≠ n := by
  simp only [misses, Bool.and_eq_true, Bool.or_eq_true, decide_eq_true_eq] at h
  simp only [image?, Option.ite_none_right_eq_some, Bool.and_eq_true, decide_eq_true_eq,
    Option.some.injEq] at hk
  omega

theorem isCaseless_iff : isCaseless c = true ↔
    c.toNat ∉ [0, 0x130, 0x307, 0x3C2] ∧ ∀ r ∈ lowerRuns, r.misses c.toNat = true := by
  rw [isCaseless, Bool.and_eq_true, List.all_eq_true]
  simp

theorem not_letter_of_isCaseless (h : isCaseless c = true) : c.toNat < 65 ∨ 90 < c.toNat := by
  have hmiss := (isCaseless_iff.mp h).2 ⟨65, 90, 1, 32⟩ (.head _)
  simp only [CaseRun.misses, Bool.and_eq_true, Bool.or_eq_true, decide_eq_true_eq] at hmiss
  exact hmiss.1

theorem lowerChar_of_isCaseless (h : isCaseless c = true) : lowerChar c = c := by
  obtain ⟨hspecial, hmiss⟩ := isCaseless_iff.mp h
  have hruns : lowerRuns.findSome? (·.image? c.toNat) = none := by
    rw [List.findSome?_eq_none_iff]
    exact fun r hr => r.image?_of_misses (hmiss r hr)
  have hletter : ¬ ('A' ≤ c ∧ c ≤ 'Z') := by
    rintro ⟨hleast, hmost⟩
    have hleast : 65 ≤ c.toNat := hleast
    have hmost : c.toNat ≤ 90 := hmost
    have hout := not_letter_of_isCaseless h
    omega
  have hdotted : c.toNat ≠ 0x130 := fun heq => hspecial (by simp [heq])
  simp [lowerChar, hletter, hdotted, hruns]

/-- Nothing else becomes a character without case. -/
theorem eq_of_isCaseless_lowerChar (h : isCaseless (lowerChar c) = true) : lowerChar c = c := by
  generalize hd : lowerChar c = d at h
  obtain ⟨hspecial, hmiss⟩ := isCaseless_iff.mp h
  have hzero : d.toNat ≠ 0 := fun heq => hspecial (by simp [heq])
  have hmoved : ∀ r ∈ lowerRuns, ∀ m, r.image? c.toNat = some m → Char.ofNat m ≠ d := by
    rintro r hr m hm rfl
    have hpoint : (Char.ofNat m).toNat = m := by
      by_cases hvalid : m.isValidChar
      · rw [Char.ofNat, dif_pos hvalid]
        rfl
      · rw [Char.ofNat, dif_neg hvalid] at hzero
        exact absurd rfl hzero
    rw [hpoint] at hmiss hzero
    exact r.ne_of_image? (hmiss r hr) hzero hm rfl
  simp only [lowerChar] at hd
  split at hd
  · split at hd
    · rename_i hletter
      simp only [Bool.and_eq_true, decide_eq_true_eq] at hletter
      -- The first of the runs is about the letters of ASCII.
      refine absurd hd (hmoved ⟨65, 90, 1, 32⟩ (.head _) (c.toNat + 32) ?_)
      obtain ⟨hleast, hmost⟩ : 65 ≤ c.toNat ∧ c.toNat ≤ 90 := hletter
      rw [CaseRun.image?, if_pos]
      · rfl
      · simp [hleast, hmost, Nat.mod_one]
    · exact hd.symm
  · split at hd
    · subst hd
      exact absurd h (by decide +kernel)
    · split at hd
      · rename_i m hm
        obtain ⟨r, hr, hm⟩ := List.exists_of_findSome?_eq_some hm
        exact absurd hd (hmoved r hr m hm)
      · exact hd.symm

/-! ## Texts -/

/-- Characters are what becomes of a character in a text: there are some, and if one of them has no
case or the character has none, they are the character alone. -/
structure IsImage (c : Char) (image : List Char) : Prop where
  nonempty : image ≠ []
  of_isCaseless : isCaseless c = true → image = [c]
  of_mem : ∀ e ∈ image, isCaseless e = true → image = [c]

/-- A character without case comes from itself. -/
theorem IsImage.eq_of_mem (h : IsImage c image) (hmem : e ∈ image) (he : isCaseless e = true) :
    e = c := by
  rw [h.of_mem e hmem he] at hmem
  exact List.mem_singleton.mp hmem

theorem IsImage.singleton (c : Char) : IsImage c [lowerChar c] where
  nonempty := List.cons_ne_nil _ _
  of_isCaseless h := by rw [lowerChar_of_isCaseless h]
  of_mem e he h := by
    rw [List.mem_singleton.mp he] at h
    rw [eq_of_isCaseless_lowerChar h]

/-- Characters that all have a case are what becomes of another one that has. -/
theorem IsImage.of_cased (hsome : image ≠ []) (hc : isCaseless c = false)
    (h : image.any isCaseless = false) : IsImage c image where
  nonempty := hsome
  of_isCaseless hcaseless := by cases hc.symm.trans hcaseless
  of_mem e he hcaseless := by
    have hany := List.any_eq_true.mpr ⟨e, he, hcaseless⟩
    cases h.symm.trans hany

/-- The lower text is made of what becomes of the characters, one after another. -/
theorem exists_images (cs : List Char) :
    ∃ images, lowerChars cs = images.flatten ∧ List.Forall₂ IsImage cs images := by
  have hafter : ∀ before, ∃ images, lowerAfter before cs = images.flatten ∧
      List.Forall₂ IsImage cs images := by
    induction cs with
    | nil => exact fun _ => ⟨[], rfl, .nil⟩
    | cons c cs ih =>
        intro before
        obtain ⟨images, hrest, himages⟩ := ih (c :: before)
        rw [lowerAfter, hrest]
        refine ⟨_ :: images, rfl, .cons ?_ himages⟩
        split
        · rename_i hsigma
          obtain rfl : c = 'Σ' := by rw [← Char.ofNat_toNat c, eq_of_beq hsigma]
          refine .of_cased (List.cons_ne_nil _ _) (by decide +kernel) ?_
          split <;> decide +kernel
        · split
          · rename_i hdotted
            obtain rfl : c = Char.ofNat 0x130 := by rw [← Char.ofNat_toNat c, eq_of_beq hdotted]
            exact .of_cased (List.cons_ne_nil _ _) (by decide +kernel) (by decide +kernel)
          · exact .singleton c
  rw [lowerChars]
  split
  · refine ⟨cs.map fun c => [lowerChar c], List.map_eq_flatMap, ?_⟩
    rw [List.forall₂_map_right_iff, List.forall₂_same]
    exact fun c _ => .singleton c
  · exact hafter []

/-- A text of characters without case is in lower case. -/
theorem lowerChars_of_isCaseless (h : ∀ c ∈ cs, isCaseless c = true) : lowerChars cs = cs := by
  obtain ⟨images, heq, himages⟩ := exists_images cs
  rw [heq]
  clear heq
  induction himages with
  | nil => rfl
  | cons hc _ ih =>
      obtain ⟨hcaseless, hrest⟩ := List.forall_mem_cons.mp h
      rw [List.flatten_cons, hc.of_isCaseless hcaseless, ih hrest]
      rfl

/-- A lower text that is made of one character without case is that of a text made of it. -/
theorem forall_eq_of_lowerChars (he : isCaseless e = true) (h : ∀ c ∈ lowerChars cs, c = e) :
    ∀ c ∈ cs, c = e := by
  obtain ⟨images, heq, himages⟩ := exists_images cs
  rw [heq] at h
  clear heq
  induction himages with
  | nil => exact List.forall_mem_nil _
  | @cons c image _ _ hc _ ih =>
      rw [List.flatten_cons, List.forall_mem_append] at h
      refine List.forall_mem_cons.mpr ⟨?_, ih h.2⟩
      obtain ⟨d, hd⟩ := List.exists_mem_of_ne_nil image hc.nonempty
      obtain rfl := h.1 d hd
      exact (hc.eq_of_mem hd he).symm

/-- A text begins with a character without case if its lower text does. -/
theorem head?_of_lowerChars (he : isCaseless e = true) (h : (lowerChars cs).head? = some e) :
    cs.head? = some e := by
  obtain ⟨images, heq, himages⟩ := exists_images cs
  rw [heq] at h
  cases himages with
  | nil => cases h
  | @cons c image _ images hc _ =>
      obtain ⟨d, rest, rfl⟩ := List.exists_cons_of_ne_nil hc.nonempty
      obtain rfl : d = e := by simpa using h
      rw [List.head?_cons, hc.eq_of_mem List.mem_cons_self he]

/-- A text ends in a character without case if its lower text does. -/
theorem getLast?_of_lowerChars (he : isCaseless e = true)
    (h : (lowerChars cs).getLast? = some e) : cs.getLast? = some e := by
  obtain ⟨images, heq, himages⟩ := exists_images cs
  rw [heq] at h
  clear heq
  induction himages with
  | nil => cases h
  | @cons c image cs images hc hrest ih =>
      rw [List.flatten_cons, List.getLast?_append] at h
      cases hlast : images.flatten.getLast? with
      | some d =>
          rw [hlast, Option.some_or] at h
          rw [List.getLast?_cons, ih (hlast.trans h)]
          rfl
      | none =>
          rw [hlast, Option.none_or] at h
          -- Whatever comes after the character has an image, and there is none.
          cases hrest with
          | nil => rw [List.getLast?_singleton, hc.eq_of_mem (List.mem_of_getLast? h) he]
          | cons hd _ =>
              rw [List.getLast?_eq_none_iff, List.flatten_cons, List.append_eq_nil_iff] at hlast
              exact absurd hlast.1 hd.nonempty

/-! ## Letters of ASCII -/

/-- The characters of a text are in ASCII. -/
def IsAscii (cs : List Char) : Prop :=
  ∀ c ∈ cs, c.toNat < 128

instance : Decidable (IsAscii cs) :=
  List.decidableBAll (fun c : Char => c.toNat < 128) cs

/-- Two texts differ in the case of letters of ASCII only. -/
def AlikeInCase (cs ds : List Char) : Prop :=
  List.Forall₂ (fun c d => c.toLower = d.toLower) cs ds

instance : DecidableRel AlikeInCase := fun cs ds =>
  inferInstanceAs (Decidable (List.Forall₂ (fun c d => c.toLower = d.toLower) cs ds))

/-- What holds of the characters of ASCII can be looked up. -/
theorem forall_ascii {P : Char → Prop} (h : ∀ n : Fin 128, P (Char.ofNat n)) {c : Char}
    (hc : c.toNat < 128) : P c := by
  have hpoint := h ⟨c.toNat, hc⟩
  rwa [Char.ofNat_toNat] at hpoint

/-- A character beyond ASCII is not a letter of ASCII. -/
theorem toLower_of_not_ascii (h : ¬ c.toNat < 128) : c.toLower = c := by
  refine dif_neg ?_
  rintro ⟨-, hmost⟩
  have hmost : c.toNat ≤ 90 := hmost
  omega

theorem lowerChar_of_ascii (h : c.toNat < 128) : lowerChar c = c.toLower :=
  forall_ascii (P := fun c => lowerChar c = c.toLower) (by decide +kernel) h

/-- A text in ASCII is put in lower case letter by letter. -/
theorem lowerChars_of_isAscii (h : IsAscii cs) : lowerChars cs = cs.map Char.toLower := by
  have hall : (cs.all fun c => c.toNat < 128) = true :=
    List.all_eq_true.mpr fun c hc => decide_eq_true (h c hc)
  rw [lowerChars, if_pos hall]
  exact List.map_congr_left fun c hc => lowerChar_of_ascii (h c hc)

/-- A character that differs from one in ASCII in its case only is in ASCII. -/
theorem ascii_of_toLower_eq {d : Char} (h : c.toLower = d.toLower) (hc : c.toNat < 128) :
    d.toNat < 128 := by
  by_contra hd
  rw [toLower_of_not_ascii hd] at h
  have hlower : c.toLower.toNat < 128 :=
    forall_ascii (P := fun c => c.toLower.toNat < 128) (by decide +kernel) hc
  exact hd (h ▸ hlower)

variable {ds : List Char}

theorem AlikeInCase.isAscii (h : AlikeInCase cs ds) (hcs : IsAscii cs) : IsAscii ds := by
  induction h with
  | nil => exact hcs
  | cons hletter _ ih =>
      obtain ⟨hc, hrest⟩ := List.forall_mem_cons.mp hcs
      exact List.forall_mem_cons.mpr ⟨ascii_of_toLower_eq hletter hc, ih hrest⟩

/-- **Letter case does not count in lower case.** -/
theorem AlikeInCase.lowerChars_eq (h : AlikeInCase cs ds) (hcs : IsAscii cs) :
    lowerChars cs = lowerChars ds := by
  rw [lowerChars_of_isAscii hcs, lowerChars_of_isAscii (h.isAscii hcs)]
  induction h with
  | nil => rfl
  | cons hletter hrest ih =>
      rw [List.map_cons, List.map_cons, hletter, ih (List.forall_mem_cons.mp hcs).2]

/-- A letter of ASCII has the capital of its small letter. -/
theorem upperChar_toLower (c : Char) : upperChar c.toLower = upperChar c := by
  by_cases hc : c.toNat < 128
  · exact forall_ascii (P := fun c => upperChar c.toLower = upperChar c) (by decide +kernel) hc
  · rw [toLower_of_not_ascii hc]

theorem upperChars_append (cs ds : List Char) :
    upperChars (cs ++ ds) = upperChars cs ++ upperChars ds :=
  List.flatMap_append

/-- **Letter case does not count in upper case.** -/
theorem AlikeInCase.upperChars_eq (h : AlikeInCase cs ds) : upperChars cs = upperChars ds := by
  induction h with
  | nil => rfl
  | @cons c d cs ds hletter _ ih =>
      have hcapital : upperChar c = upperChar d := by
        rw [← upperChar_toLower c, hletter, upperChar_toLower]
      rw [upperChars, upperChars, List.flatMap_cons, List.flatMap_cons, hcapital]
      exact congrArg (upperChar d ++ ·) ih

/-- A character that stands for no letter is in a text when it is in one that is alike. -/
theorem AlikeInCase.mem_of_mem (h : AlikeInCase cs ds) (halone : ∀ c, c.toLower = e.toLower → c = e)
    (he : e ∈ ds) : e ∈ cs := by
  induction h with
  | nil => cases he
  | cons hletter _ ih =>
      rcases List.mem_cons.mp he with rfl | he
      · rw [halone _ hletter]
        exact List.mem_cons_self
      · exact List.mem_cons_of_mem _ (ih he)

/-- A blank has no capital. -/
theorem upperChar_of_isBlank (h : isBlank c = true) : upperChar c = [c] := by
  have hall : ∀ n ∈ blanks, upperChar (Char.ofNat n) = [Char.ofNat n] := by decide +kernel
  rw [← Char.ofNat_toNat c]
  exact hall _ (toNat_mem_blanks h)

/-- Blanks have no capitals. -/
theorem upperChars_of_blanks (h : ∀ c ∈ cs, isBlank c = true) : upperChars cs = cs := by
  induction cs with
  | nil => rfl
  | cons c cs ih =>
      obtain ⟨hc, hcs⟩ := List.forall_mem_cons.mp h
      rw [upperChars, List.flatMap_cons, upperChar_of_isBlank hc]
      exact congrArg (c :: ·) (ih hcs)

end SecurityAudit.Text
