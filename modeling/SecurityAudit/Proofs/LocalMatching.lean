import Mathlib.Data.List.Sort
import SecurityAudit.Proofs.WindowedMatching

/-!
# How far a line is seen

A rule decides about a line by that line and the lines that its window shows after it, and by
nothing else: not by what comes before, and not by the number of the line (`mem_hits_congr`).  So
what a rule finds in some lines it finds in them wherever they stand, as far as its windows do not
look beyond them.

The main statement, `hits_local`, says so for lines that are put together and for a line that is
edited.  A rule that sees one line at a time finds in two lists of lines, one after the other, what
it finds in each.
-/

namespace SecurityAudit

/-- The same hit when some lines are put before it. -/
def Hit.shift (n : Nat) (h : Hit) : Hit where
  line := h.line + n
  text := h.text

namespace Rule

variable {r : Rule}

/-- What a rule reports of the first of some lines, if anything. -/
def textOf? (r : Rule) : List (List Char) → Option (List Char)
  | [] => none
  | first :: rest => r.hitAt? first rest

/-- A rule reports of a line what it sees in the window that starts there. -/
theorem textOf?_take (lines : List (List Char)) :
    r.textOf? (lines.take r.window) = r.textOf? lines := by
  obtain ⟨n, hn⟩ := Nat.exists_eq_add_of_le' r.window_pos
  cases lines with
  | nil => rw [List.take_nil]
  | cons first rest =>
      rw [hn, List.take_succ_cons, textOf?, textOf?, hitAt?, hitAt?, hn, Nat.add_sub_cancel,
        List.take_take, Nat.min_self]

/-- The hits in some lines are what a rule reports of each of them. -/
theorem mem_hitsFrom_iff_textOf? {h : Hit} {number : Nat} {lines : List (List Char)} :
    h ∈ r.hitsFrom number lines ↔
      ∃ i, h.line = number + i ∧ r.textOf? (lines.drop i) = some h.text := by
  induction lines generalizing number with
  | nil =>
      constructor
      · intro hmem
        cases hmem
      · rintro ⟨i, -, htext⟩
        rw [List.drop_nil] at htext
        cases htext
  | cons first rest ih =>
      have hmem : h ∈ r.hitsFrom number (first :: rest) ↔
          (h.line = number ∧ r.textOf? (first :: rest) = some h.text) ∨
            h ∈ r.hitsFrom (number + 1) rest := by
        rw [hitsFrom, textOf?]
        obtain ⟨line, text⟩ := h
        cases r.hitAt? first rest <;> simp [eq_comm]
      rw [hmem, ih]
      constructor
      · rintro (⟨hline, htext⟩ | ⟨i, hline, htext⟩)
        · exact ⟨0, hline, htext⟩
        · exact ⟨i + 1, by omega, htext⟩
      · rintro ⟨i, hline, htext⟩
        cases i with
        | zero => exact .inl ⟨hline, htext⟩
        | succ i => exact .inr ⟨i, by omega, htext⟩

/-- The hits of a rule are what it reports of each line. -/
theorem mem_hits_iff {h : Hit} {lines : List (List Char)} :
    h ∈ r.hits lines ↔ ∃ i, h.line = i + 1 ∧ r.textOf? (lines.drop i) = some h.text := by
  rw [hits_eq, mem_hitsFrom_iff_textOf?]
  simp only [Nat.add_comm 1]

/-- **A rule looks at its window only.**  What it reports of a line it reports of any other line
from which on it sees the same. -/
theorem mem_hits_congr {lines lines' : List (List Char)} {i j : Nat} {text : List Char}
    (h : (lines.drop i).take r.window = (lines'.drop j).take r.window) :
    ⟨i + 1, text⟩ ∈ r.hits lines ↔ ⟨j + 1, text⟩ ∈ r.hits lines' := by
  have hmem : ∀ (lines : List (List Char)) (i : Nat), ⟨i + 1, text⟩ ∈ r.hits lines ↔
      r.textOf? ((lines.drop i).take r.window) = some text := by
    intro lines i
    rw [mem_hits_iff, textOf?_take]
    constructor
    · rintro ⟨k, hk, htext⟩
      obtain rfl : i = k := Nat.succ.inj hk
      exact htext
    · intro htext
      exact ⟨i, rfl, htext⟩
  rw [hmem, hmem, h]

/-- Every hit is on a line that is there. -/
theorem exists_line_of_mem_hits {h : Hit} {lines : List (List Char)} (hmem : h ∈ r.hits lines) :
    ∃ i, h.line = i + 1 ∧ i < lines.length := by
  rw [hits_eq] at hmem
  obtain ⟨hleast, hmost⟩ := line_of_mem_hitsFrom hmem
  exact ⟨h.line - 1, by omega, by omega⟩

/-! ## Hits in order -/

/-- Hits come line by line. -/
theorem pairwise_hits (r : Rule) (lines : List (List Char)) :
    (r.hits lines).Pairwise fun h h' => h.line < h'.line := by
  rw [hits_eq]
  exact r.pairwise_hitsFrom 1 lines

/-- Hits that come line by line are told by which ones there are. -/
theorem eq_of_mem_hits_iff {hs hs' : List Hit} (h : hs.Pairwise fun h h' => h.line < h'.line)
    (h' : hs'.Pairwise fun h h' => h.line < h'.line) (hmem : ∀ x, x ∈ hs ↔ x ∈ hs') : hs = hs' := by
  have : Std.Antisymm fun h h' : Hit => h.line < h'.line :=
    ⟨fun _ _ hlt hgt => absurd hgt (Nat.lt_asymm hlt)⟩
  have : Std.Irrefl fun h h' : Hit => h.line < h'.line := ⟨fun _ => Nat.lt_irrefl _⟩
  exact h.eq_of_mem_iff h' hmem

/-- Two lists of lines have the same hits on the lines that are `kept`, if a rule sees the same from
each of these on. -/
theorem filter_hits_eq {lines lines' : List (List Char)} (kept : Nat → Prop) [DecidablePred kept]
    (h : ∀ i, kept (i + 1) → (lines.drop i).take r.window = (lines'.drop i).take r.window) :
    (r.hits lines).filter (fun x => kept x.line) =
      (r.hits lines').filter (fun x => kept x.line) := by
  refine eq_of_mem_hits_iff ((r.pairwise_hits _).filter _) ((r.pairwise_hits _).filter _) ?_
  rintro ⟨line, text⟩
  simp only [List.mem_filter, decide_eq_true_eq]
  constructor
  · rintro ⟨hmem, hkept⟩
    obtain ⟨i, rfl, -⟩ := exists_line_of_mem_hits hmem
    exact ⟨(mem_hits_congr (h i hkept)).mp hmem, hkept⟩
  · rintro ⟨hmem, hkept⟩
    obtain ⟨i, rfl, -⟩ := exists_line_of_mem_hits hmem
    exact ⟨(mem_hits_congr (h i hkept)).mpr hmem, hkept⟩

/-- What a rule finds after some lines is what it finds without them. -/
theorem filter_hits_append_right (r : Rule) (A B : List (List Char)) :
    (r.hits (A ++ B)).filter (fun h => A.length < h.line) =
      (r.hits B).map (.shift A.length) := by
  refine eq_of_mem_hits_iff ((r.pairwise_hits _).filter _) ?_ ?_
  · refine List.pairwise_map.mpr ((r.pairwise_hits B).imp fun {h h'} hlt => ?_)
    simpa only [Hit.shift, Nat.add_lt_add_iff_right] using hlt
  · have hdrop : ∀ i, (A ++ B).drop (A.length + i) = B.drop i := fun i => by
      rw [← List.drop_drop, List.drop_left]
    rintro ⟨line, text⟩
    simp only [List.mem_filter, decide_eq_true_eq, List.mem_map, mem_hits_iff]
    constructor
    · rintro ⟨⟨i, rfl, htext⟩, hafter⟩
      obtain ⟨k, rfl⟩ := Nat.exists_eq_add_of_le (Nat.lt_succ_iff.mp hafter)
      rw [hdrop] at htext
      refine ⟨⟨k + 1, text⟩, ⟨k, rfl, htext⟩, ?_⟩
      simp only [Hit.shift, Hit.mk.injEq, and_true]
      omega
    · rintro ⟨⟨line', text'⟩, ⟨k, rfl, htext⟩, hshift⟩
      obtain ⟨rfl, rfl⟩ := Hit.mk.inj hshift
      refine ⟨⟨A.length + k, by simp only; omega, ?_⟩, by simp only; omega⟩
      rw [hdrop]
      exact htext

/-- What a rule finds in lines that its windows do not look beyond is what it finds there when
others follow. -/
theorem filter_hits_append_left (r : Rule) (A B : List (List Char)) :
    (r.hits (A ++ B)).filter (fun h => h.line + r.window ≤ A.length + 1) =
      (r.hits A).filter (fun h => h.line + r.window ≤ A.length + 1) := by
  refine filter_hits_eq (fun line => line + r.window ≤ A.length + 1) fun i hi => ?_
  rw [List.drop_append_of_le_length (by omega), List.take_append_of_le_length]
  rw [List.length_drop]
  omega

/-- An edited line is seen from no line after it, and from none whose window ends before it. -/
theorem filter_hits_set (r : Rule) (lines : List (List Char)) (k : Nat) (line : List Char) :
    (r.hits (lines.set k line)).filter
        (fun h => h.line + r.window ≤ k + 1 ∨ k + 1 < h.line) =
      (r.hits lines).filter (fun h => h.line + r.window ≤ k + 1 ∨ k + 1 < h.line) := by
  refine filter_hits_eq (fun number => number + r.window ≤ k + 1 ∨ k + 1 < number) fun i hi => ?_
  rcases hi with hbefore | hafter
  · rw [List.take_drop, List.take_drop, List.take_set_of_le (by omega)]
  · rw [List.drop_set, if_pos (by omega)]

/-- A rule that sees one line at a time finds in lines that are put together what it finds in each
part. -/
theorem hits_append (h : r.window = 1) (A B : List (List Char)) :
    r.hits (A ++ B) = r.hits A ++ (r.hits B).map (.shift A.length) := by
  have hwithin : ∀ x ∈ r.hits A, x.line + r.window ≤ A.length + 1 := by
    intro x hx
    obtain ⟨i, hi, hlt⟩ := exists_line_of_mem_hits hx
    omega
  have hleft := r.filter_hits_append_left A B
  rw [List.filter_eq_self.mpr fun x hx => decide_eq_true (hwithin x hx)] at hleft
  rw [← hleft, ← r.filter_hits_append_right A B]
  refine eq_of_mem_hits_iff (r.pairwise_hits _) (List.pairwise_append.mpr
    ⟨(r.pairwise_hits _).filter _, (r.pairwise_hits _).filter _, ?_⟩) fun x => ?_
  · simp only [List.mem_filter, decide_eq_true_eq]
    rintro x ⟨-, hx⟩ y ⟨-, hy⟩
    omega
  · simp only [List.mem_append, List.mem_filter, decide_eq_true_eq, ← and_or_left]
    exact (and_iff_left (by omega)).symm

/-- **Matching is local.**  In lines that are put together, a rule finds after the first part what
it finds in the second one, with the numbers shifted; and in the first part, up to the last line
whose window ends in it, what it finds there by itself.  So if it sees one line at a time, it finds
what it finds in each part.  And when a line is edited, what the rule finds changes on that line and
on those before it whose windows show it, and on no others. -/
theorem hits_local (r : Rule) (A B : List (List Char)) :
    (r.hits (A ++ B)).filter (fun h => A.length < h.line) =
      (r.hits B).map (.shift A.length) ∧
    (r.hits (A ++ B)).filter (fun h => (h.line : Int) ≤ A.length - r.window + 1) =
      (r.hits A).filter (fun h => (h.line : Int) ≤ A.length - r.window + 1) ∧
    (r.window = 1 → r.hits (A ++ B) = r.hits A ++ (r.hits B).map (.shift A.length)) ∧
    ∀ (k : Nat) (line : List Char),
      (r.hits (A.set k line)).filter
          (fun h => ¬((k + 1 : Int) - r.window + 1 ≤ h.line ∧ (h.line : Int) ≤ k + 1)) =
        (r.hits A).filter
          (fun h => ¬((k + 1 : Int) - r.window + 1 ≤ h.line ∧ (h.line : Int) ≤ k + 1)) := by
  refine ⟨r.filter_hits_append_right A B, ?_, fun h => hits_append h A B, fun k line => ?_⟩
  · have hsame : ∀ line : Nat, (line : Int) ≤ A.length - r.window + 1 ↔
        line + r.window ≤ A.length + 1 := fun line => by omega
    simpa only [hsame] using r.filter_hits_append_left A B
  · have hsame : ∀ number : Nat,
        ¬((k + 1 : Int) - r.window + 1 ≤ number ∧ (number : Int) ≤ k + 1) ↔
          number + r.window ≤ k + 1 ∨ k + 1 < number := fun number => by omega
    simpa only [hsame] using r.filter_hits_set A k line

end Rule

end SecurityAudit
