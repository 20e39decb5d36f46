import Mathlib.Data.List.DropRight
import Mathlib.Data.List.Forall2
import SecurityAudit.Text.Blank

/-!
# Texts that are trimmed, and texts in pieces

Trimming takes the blanks off both ends of a text (`exists_blanks_around`).  A character that is not
blank keeps what is on its other side from being trimmed (`trimChars_append_cons`), so trimming a
text that is made of pieces, each with such a character, trims the first piece and the last one and
leaves the others alone.

A text is divided at a separator into pieces without it, and these make the text again when they are
joined.
-/

namespace SecurityAudit.Text

variable {c sep : Char} {cs ds : List Char} {pieces : List (List Char)}

/-! ## Trimming -/

/-- What begins with no blank keeps its beginning. -/
theorem dropWhile_of_not_blank (h : ∀ c ∈ cs, isBlank c = false) : cs.dropWhile isBlank = cs := by
  cases cs with
  | nil => rfl
  | cons c cs =>
      refine List.dropWhile_cons_of_neg ?_
      rw [h c List.mem_cons_self]
      exact Bool.false_ne_true

/-- A text without blanks has none at its ends. -/
theorem trimChars_of_not_blank (h : ∀ c ∈ cs, isBlank c = false) : trimChars cs = cs := by
  have hreverse : cs.reverse.dropWhile isBlank = cs.reverse :=
    dropWhile_of_not_blank fun c hc => h c (List.mem_reverse.mp hc)
  rw [trimChars, trimLeft, dropWhile_of_not_blank h, trimRight, hreverse, List.reverse_reverse]

theorem trim_eq_iff {s t : String} : trim s = t ↔ trimChars s.toList = t.toList := by
  rw [trim, ← String.toList_inj, String.toList_ofList]

/-- A text is what trimming leaves of it, with blanks on both sides. -/
theorem exists_blanks_around (cs : List Char) :
    ∃ before after, (∀ c ∈ before, isBlank c = true) ∧ (∀ c ∈ after, isBlank c = true) ∧
      cs = before ++ trimChars cs ++ after := by
  refine ⟨cs.takeWhile isBlank, ((trimLeft cs).reverse.takeWhile isBlank).reverse, ?_, ?_, ?_⟩
  · exact fun c hc => List.mem_takeWhile_imp hc
  · exact fun c hc => List.mem_takeWhile_imp (List.mem_reverse.mp hc)
  · rw [trimChars, trimRight, List.append_assoc, ← List.reverse_append,
      List.takeWhile_append_dropWhile, List.reverse_reverse, trimLeft,
      List.takeWhile_append_dropWhile]

/-- A trimmed text begins with no blank. -/
theorem not_isBlank_of_head? (h : trimChars cs = cs) (hc : cs.head? = some c) :
    isBlank c = false := by
  have hprefix : trimChars cs <+: trimLeft cs := by
    rw [trimChars, trimRight, ← List.reverse_suffix, List.reverse_reverse]
    exact List.dropWhile_suffix isBlank
  obtain ⟨rest, hrest⟩ := hprefix
  have hdrop := List.head?_dropWhile_not isBlank cs
  rw [← trimLeft, ← hrest, h, List.head?_append, hc] at hdrop
  exact hdrop

/-- A trimmed text ends in no blank. -/
theorem not_isBlank_of_getLast? (h : trimChars cs = cs) (hc : cs.getLast? = some c) :
    isBlank c = false := by
  have hdrop := List.head?_dropWhile_not isBlank (trimLeft cs).reverse
  rw [← h, trimChars, trimRight, List.getLast?_reverse] at hc
  simpa only [hc] using hdrop

/-- Blanks in front are taken off. -/
theorem trimLeft_blanks_append {before : List Char} (h : ∀ c ∈ before, isBlank c = true)
    (cs : List Char) : trimLeft (before ++ cs) = trimLeft cs :=
  List.dropWhile_append_of_pos h

/-- What is trimmed on the left is what stands before the first character that is not blank. -/
theorem trimLeft_append_cons (hc : isBlank c = false) (cs ds : List Char) :
    trimLeft (cs ++ c :: ds) = trimLeft cs ++ c :: ds := by
  have hstop : (c :: ds).dropWhile isBlank = c :: ds := by
    refine List.dropWhile_cons_of_neg ?_
    rw [hc]
    exact Bool.false_ne_true
  rw [trimLeft, trimLeft, List.dropWhile_append, hstop]
  cases cs.dropWhile isBlank <;> rfl

/-- Trimming on the right is trimming on the left, backwards. -/
theorem trimRight_eq (cs : List Char) : trimRight cs = (trimLeft cs.reverse).reverse := rfl

/-- What is trimmed on the right is what stands after the last character that is not blank. -/
theorem trimRight_append_cons (hc : isBlank c = false) (cs ds : List Char) :
    trimRight (cs ++ c :: ds) = cs ++ c :: trimRight ds := by
  have hreverse : (cs ++ c :: ds).reverse = ds.reverse ++ c :: cs.reverse := by simp
  rw [trimRight_eq, hreverse, trimLeft_append_cons hc, trimRight_eq]
  simp

/-- A text that is not blank keeps what comes after it from being trimmed on the left. -/
theorem trimLeft_append (hc : c ∈ cs) (hblank : isBlank c = false) (ds : List Char) :
    trimLeft (cs ++ ds) = trimLeft cs ++ ds := by
  obtain ⟨front, rest, rfl⟩ := List.append_of_mem hc
  rw [List.append_assoc, List.cons_append, trimLeft_append_cons hblank,
    trimLeft_append_cons hblank, List.append_assoc, List.cons_append]

/-- A text that is not blank keeps what stands before it from being trimmed on the right. -/
theorem trimRight_append (hc : c ∈ ds) (hblank : isBlank c = false) (cs : List Char) :
    trimRight (cs ++ ds) = cs ++ trimRight ds := by
  obtain ⟨front, rest, rfl⟩ := List.append_of_mem hc
  rw [← List.append_assoc, trimRight_append_cons hblank, trimRight_append_cons hblank,
    List.append_assoc]

/-- What is on one side of a character that is not blank is trimmed on that side. -/
theorem trimChars_append_cons (hc : isBlank c = false) (cs ds : List Char) :
    trimChars (cs ++ c :: ds) = trimLeft cs ++ c :: trimRight ds := by
  rw [trimChars, trimLeft_append_cons hc, trimRight_append_cons hc]

theorem trimLeft_trimLeft (cs : List Char) : trimLeft (trimLeft cs) = trimLeft cs :=
  List.dropWhile_idempotent isBlank cs

theorem trimRight_trimRight (cs : List Char) : trimRight (trimRight cs) = trimRight cs := by
  rw [trimRight_eq (trimRight cs), trimRight_eq, List.reverse_reverse, trimLeft_trimLeft]

/-- What has been trimmed on the left need only be trimmed on the right. -/
theorem trimChars_trimLeft (cs : List Char) : trimChars (trimLeft cs) = trimChars cs := by
  rw [trimChars, trimLeft_trimLeft, trimChars]

/-- What has been trimmed on the right need only be trimmed on the left. -/
theorem trimChars_trimRight (cs : List Char) : trimChars (trimRight cs) = trimChars cs := by
  by_cases h : ∀ c ∈ cs, isBlank c = true
  · have hleft : trimLeft cs = [] := List.dropWhile_eq_nil_iff.mpr h
    have hright : trimRight cs = [] := by
      rw [trimRight_eq, List.reverse_eq_nil_iff]
      exact List.dropWhile_eq_nil_iff.mpr fun c hc => h c (List.mem_reverse.mp hc)
    rw [hright, trimChars, trimChars, hleft]
    rfl
  · obtain ⟨c, hc, hsolid⟩ : ∃ c ∈ cs, isBlank c = false := by simpa using h
    obtain ⟨front, rest, rfl⟩ := List.append_of_mem hc
    rw [trimRight_append_cons hsolid, trimChars_append_cons hsolid, trimChars_append_cons hsolid,
      trimRight_trimRight]

/-! ## Pieces -/

/-- The pieces of a text are those of any list. -/
theorem splitAt_eq_splitOn (sep : Char) (cs : List Char) : splitAt sep cs = cs.splitOn sep := by
  induction cs with
  | nil => rfl
  | cons c cs ih =>
      rw [splitAt, ih, List.splitOn_cons_eq_if_modifyHead]
      cases hpieces : cs.splitOn sep with
      | nil => exact absurd hpieces (List.splitOn_ne_nil sep cs)
      | cons piece pieces => rfl

/-- **Pieces that are joined are found again**, if the separator is in none of them. -/
theorem splitAt_intercalate (hne : pieces ≠ []) (h : ∀ cs ∈ pieces, sep ∉ cs) :
    splitAt sep ([sep].intercalate pieces) = pieces := by
  rw [splitAt_eq_splitOn, List.splitOn_intercalate sep h hne]

/-- **A text is what its pieces make when they are joined.** -/
theorem intercalate_splitAt (sep : Char) (cs : List Char) :
    [sep].intercalate (splitAt sep cs) = cs := by
  rw [splitAt_eq_splitOn, List.intercalate_splitOn]

theorem splitAt_ne_nil (sep : Char) (cs : List Char) : splitAt sep cs ≠ [] := by
  rw [splitAt_eq_splitOn]
  exact List.splitOn_ne_nil sep cs

/-- A separator divides the pieces into those before it and those after it. -/
theorem splitAt_append_cons (sep : Char) (cs ds : List Char) :
    splitAt sep (cs ++ sep :: ds) = splitAt sep cs ++ splitAt sep ds := by
  induction cs with
  | nil => simp [splitAt]
  | cons c cs ih =>
      rw [List.cons_append, splitAt, splitAt, ih]
      by_cases hc : (c == sep) = true
      · rw [if_pos hc, if_pos hc, List.cons_append]
      · rw [if_neg hc, if_neg hc]
        cases hpieces : splitAt sep cs with
        | nil => exact absurd hpieces (splitAt_ne_nil sep cs)
        | cons piece pieces => rfl

/-- The separator is in none of the pieces. -/
theorem not_mem_of_mem_splitAt (h : ds ∈ splitAt sep cs) : sep ∉ ds := by
  induction cs generalizing ds with
  | nil =>
      rw [List.mem_singleton.mp h]
      exact List.not_mem_nil
  | cons c cs ih =>
      rw [splitAt] at h
      by_cases hc : c = sep
      · rw [if_pos (beq_iff_eq.mpr hc)] at h
        rcases List.mem_cons.mp h with rfl | h
        · exact List.not_mem_nil
        · exact ih h
      · rw [if_neg (by simpa using hc)] at h
        cases hpieces : splitAt sep cs with
        | nil => exact absurd hpieces (splitAt_ne_nil sep cs)
        | cons piece pieces =>
            rw [hpieces] at h ih
            rcases List.mem_cons.mp h with rfl | h
            · exact List.not_mem_cons_of_ne_of_not_mem (Ne.symm hc) (ih List.mem_cons_self)
            · exact ih (List.mem_cons_of_mem _ h)

/-- What holds of the separator and of the pieces holds of the whole. -/
theorem forall_mem_intercalate {P : Char → Prop} (hsep : P sep)
    (h : ∀ cs ∈ pieces, ∀ c ∈ cs, P c) : ∀ c ∈ [sep].intercalate pieces, P c := by
  induction pieces with
  | nil => simp
  | cons cs pieces ih =>
      obtain ⟨hcs, hpieces⟩ := List.forall_mem_cons.mp h
      cases pieces with
      | nil =>
          rw [List.intercalate_singleton]
          exact hcs
      | cons ds pieces =>
          rw [List.intercalate_cons_cons]
          intro c hc
          rcases List.mem_append.mp hc with hc | hc
          · rcases List.mem_append.mp hc with hc | hc
            · exact hcs c hc
            · exact List.mem_singleton.mp hc ▸ hsep
          · exact ih hpieces c hc

/-- What comes first of joined pieces is the first piece, and what comes after it does not depend on
it. -/
theorem exists_intercalate_cons (sep : Char) (pieces : List (List Char)) :
    ∃ tail, ∀ cs, [sep].intercalate (cs :: pieces) = cs ++ tail := by
  cases pieces with
  | nil =>
      refine ⟨[], fun cs => ?_⟩
      rw [List.intercalate_singleton, List.append_nil]
  | cons ds pieces =>
      refine ⟨[sep] ++ [sep].intercalate (ds :: pieces), fun cs => ?_⟩
      rw [List.intercalate_cons_cons, List.append_assoc]

section

variable {α : Type} {R : α → List Char → Prop} {as : List α}

/-- Joined pieces that have characters that are not blank are trimmed on the left in the first one.
-/
theorem exists_trimLeft_intercalate (sep : Char)
    (hsolid : ∀ a ds, R a ds → ∃ c ∈ ds, isBlank c = false)
    (htrim : ∀ a ds, R a ds → R a (trimLeft ds)) (h : List.Forall₂ R as pieces) :
    ∃ trimmed, trimLeft ([sep].intercalate pieces) = [sep].intercalate trimmed ∧
      List.Forall₂ R as trimmed := by
  cases h with
  | nil => exact ⟨[], rfl, .nil⟩
  | @cons a ds as pieces hfirst hrest =>
      refine ⟨trimLeft ds :: pieces, ?_, .cons (htrim a ds hfirst) hrest⟩
      obtain ⟨c, hc, hblank⟩ := hsolid a ds hfirst
      obtain ⟨tail, htail⟩ := exists_intercalate_cons sep pieces
      rw [htail, htail, trimLeft_append hc hblank]

/-- Joined pieces that have characters that are not blank are trimmed on the right in the last
one. -/
theorem exists_trimRight_intercalate (sep : Char)
    (hsolid : ∀ a ds, R a ds → ∃ c ∈ ds, isBlank c = false)
    (htrim : ∀ a ds, R a ds → R a (trimRight ds)) (h : List.Forall₂ R as pieces) :
    ∃ trimmed, trimRight ([sep].intercalate pieces) = [sep].intercalate trimmed ∧
      List.Forall₂ R as trimmed := by
  induction h with
  | nil => exact ⟨[], rfl, .nil⟩
  | @cons a ds as pieces hfirst hrest ih =>
      cases hrest with
      | nil =>
          refine ⟨[trimRight ds], ?_, .cons (htrim a ds hfirst) .nil⟩
          rw [List.intercalate_singleton, List.intercalate_singleton]
      | @cons a' es as pieces hsecond hlater =>
          obtain ⟨trimmed, heq, htrimmed⟩ := ih
          cases htrimmed with
          | @cons _ es' _ trimmed hsecond' hlater' =>
              refine ⟨ds :: es' :: trimmed, ?_, .cons hfirst (.cons hsecond' hlater')⟩
              -- The second piece keeps what stands before it from being trimmed.
              obtain ⟨c, hc, hblank⟩ := hsolid a' es hsecond
              obtain ⟨tail, htail⟩ := exists_intercalate_cons sep pieces
              have hmem : c ∈ [sep].intercalate (es :: pieces) := by
                rw [htail]
                exact List.mem_append_left tail hc
              rw [List.intercalate_cons_cons, List.intercalate_cons_cons, ← heq,
                trimRight_append hmem hblank]

end

end SecurityAudit.Text
