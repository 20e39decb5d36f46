/-!
# Sorting by structural recursion

Merge sort recurses on halves of a list, which no evaluation of a closed term gets through.  The
same steps, counted, recurse on the number of steps that are left.  Sorting and counted sorting
agree, so that a sorted list of given items can be evaluated.
-/

namespace SecurityAudit.Sorting

variable {α : Type}

/-- Merge two lists in at most so many steps. -/
def mergeWithin (le : α → α → Bool) : Nat → List α → List α → List α
  | 0, xs, ys => xs ++ ys
  | _ + 1, [], ys => ys
  | _ + 1, x :: xs, [] => x :: xs
  | steps + 1, x :: xs, y :: ys =>
    if le x y then x :: mergeWithin le steps xs (y :: ys)
    else y :: mergeWithin le steps (x :: xs) ys

/-- Sort a list by sorting its halves, so many times at most. -/
def sortWithin (le : α → α → Bool) : Nat → List α → List α
  | 0, xs => xs
  | _ + 1, [] => []
  | _ + 1, [x] => [x]
  | steps + 1, x :: y :: rest =>
    let all := x :: y :: rest
    let half := (all.length + 1) / 2
    mergeWithin le all.length (sortWithin le steps (all.take half))
      (sortWithin le steps (all.drop half))

/-- Two lists are merged in as many steps as they have items. -/
theorem merge_eq_mergeWithin {le : α → α → Bool} {steps : Nat} {xs ys : List α}
    (h : xs.length + ys.length ≤ steps) : xs.merge ys le = mergeWithin le steps xs ys := by
  induction steps generalizing xs ys with
  | zero =>
      obtain rfl := List.eq_nil_of_length_eq_zero (l := xs) (by omega)
      simp [mergeWithin]
  | succ steps ih =>
      cases xs with
      | nil => simp [mergeWithin]
      | cons x xs =>
          cases ys with
          | nil => simp [mergeWithin]
          | cons y ys =>
              simp only [List.length_cons] at h
              rw [List.cons_merge_cons, mergeWithin, ih (by simp; omega), ih (by simp; omega)]

/-- A list is sorted after as many halvings as it has items. -/
theorem mergeSort_eq_within {le : α → α → Bool} {steps : Nat} {xs : List α}
    (h : xs.length ≤ steps) : xs.mergeSort le = sortWithin le steps xs := by
  induction steps generalizing xs with
  | zero =>
      obtain rfl := List.eq_nil_of_length_eq_zero (l := xs) (by omega)
      simp [sortWithin]
  | succ steps ih =>
      match xs, h with
      | [], _ => simp [sortWithin]
      | [x], _ => simp [sortWithin]
      | x :: y :: rest, h =>
          simp only [List.length_cons] at h
          have hfirst : ((x :: y :: rest).take (((x :: y :: rest).length + 1) / 2)).length ≤
              steps := by
            simp only [List.length_take, List.length_cons]
            omega
          have hsecond : ((x :: y :: rest).drop (((x :: y :: rest).length + 1) / 2)).length ≤
              steps := by
            simp only [List.length_drop, List.length_cons]
            omega
          rw [List.mergeSort, sortWithin]
          simp only [List.MergeSort.Internal.splitInTwo_fst,
            List.MergeSort.Internal.splitInTwo_snd]
          rw [ih hfirst, ih hsecond, merge_eq_mergeWithin]
          rw [← ih hfirst, ← ih hsecond, List.length_mergeSort, List.length_mergeSort,
            List.length_take, List.length_drop]
          omega

/-- Sorting a list of given items can be evaluated. -/
theorem mergeSort_eq_sortWithin (le : α → α → Bool) (xs : List α) :
    xs.mergeSort le = sortWithin le xs.length xs :=
  mergeSort_eq_within (Nat.le_refl _)

end SecurityAudit.Sorting
