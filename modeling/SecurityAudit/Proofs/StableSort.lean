import Mathlib.Data.List.Basic
import Mathlib.Data.List.Perm.Basic

/-!
# Sorting that does not depend on the order of the items

A stable sort leaves items that tie in the order in which they come.  If ties are only between items
of one group, then what is sorted depends on the items of each group in their order, and not on how
the groups are mixed.
-/

namespace SecurityAudit.Sorting

variable {α β ι : Type} {cmp : α → α → Ordering} [Std.TransCmp cmp]

/-- Sorting is by a transitive relation. -/
theorem isLE_trans (a b c : α) (hab : (cmp a b).isLE = true) (hbc : (cmp b c).isLE = true) :
    (cmp a c).isLE = true :=
  Std.TransCmp.isLE_trans hab hbc

/-- Sorting is by a total relation. -/
theorem isLE_total (a b : α) : ((cmp a b).isLE || (cmp b a).isLE) = true := by
  have hswap : cmp b a = (cmp a b).swap := Std.OrientedCmp.eq_swap
  rw [hswap]
  cases cmp a b <;> rfl

variable (cmp) in
/-- An item ties with itself. -/
theorem tie_self (a : α) : cmp a a = .eq :=
  Std.ReflCmp.compare_self

/-- What is sorted is in order. -/
theorem pairwise_mergeSort (as : List α) :
    (as.mergeSort fun a b => (cmp a b).isLE).Pairwise fun a b => (cmp a b).isLE = true :=
  List.pairwise_mergeSort isLE_trans isLE_total as

/-- Texts that are sorted are in order. -/
theorem pairwise_mergeSort_texts (texts : List String) : texts.mergeSort.Pairwise (· ≤ ·) := by
  have hsorted : texts.mergeSort.Pairwise fun a b => decide (a ≤ b) = true := by
    refine List.pairwise_mergeSort (fun a b c hab hbc => ?_) (fun a b => ?_) texts
    · simp only [decide_eq_true_eq] at hab hbc ⊢
      exact String.le_trans hab hbc
    · simp only [Bool.or_eq_true, decide_eq_true_eq]
      exact String.le_total a b
  exact hsorted.imp of_decide_eq_true

variable (cmp) in
/-- The items of a list that tie with a given one. -/
def ties (c : α) (as : List α) : List α :=
  as.filter fun a => cmp c a == .eq

variable (cmp) in
/-- An item is among the items that tie with it. -/
theorem mem_ties_self {a : α} {as : List α} (h : a ∈ as) : a ∈ ties cmp a as :=
  List.mem_filter.mpr ⟨h, beq_iff_eq.mpr (tie_self cmp a)⟩

omit [Std.TransCmp cmp] in
theorem ties_cons (c a : α) (as : List α) :
    ties cmp c (a :: as) = if cmp c a == .eq then a :: ties cmp c as else ties cmp c as := by
  simp only [ties, List.filter_cons]

/-- Sorting leaves ties in their order. -/
theorem ties_mergeSort (c : α) (as : List α) :
    ties cmp c (as.mergeSort fun a b => (cmp a b).isLE) = ties cmp c as := by
  have hties : (ties cmp c as).Pairwise fun a b => (cmp a b).isLE = true := by
    refine List.pairwise_filter.mpr (List.pairwise_of_forall fun a b ha hb => ?_)
    rw [Std.TransCmp.eq_trans (Std.OrientedCmp.eq_symm (beq_iff_eq.mp ha)) (beq_iff_eq.mp hb)]
    rfl
  have hsub := (List.sublist_mergeSort isLE_trans isLE_total hties List.filter_sublist).filter
    fun a => cmp c a == .eq
  rw [ties, List.filter_filter] at hsub
  simp only [Bool.and_self] at hsub
  refine (hsub.eq_of_length ?_).symm
  exact ((List.mergeSort_perm as _).filter _).length_eq.symm

/-- Of two lists that are in order and have the same ties, neither begins with an item that comes
before the first one of the other. -/
theorem isLE_of_ties_eq {a b : α} {as bs : List α}
    (has : (a :: as).Pairwise fun a b => (cmp a b).isLE = true)
    (hties : ∀ c, ties cmp c (a :: as) = ties cmp c (b :: bs)) : (cmp a b).isLE = true := by
  have hmem : b ∈ ties cmp b (a :: as) := by
    rw [hties b]
    exact mem_ties_self cmp List.mem_cons_self
  rcases List.mem_cons.mp (List.mem_filter.mp hmem).1 with rfl | hmem
  · rw [tie_self cmp b]
    rfl
  · exact (List.pairwise_cons.mp has).1 b hmem

/-- Two lists that are in order and have the same ties are equal. -/
theorem eq_of_ties_eq {as bs : List α} (has : as.Pairwise fun a b => (cmp a b).isLE = true)
    (hbs : bs.Pairwise fun a b => (cmp a b).isLE = true)
    (hties : ∀ c, ties cmp c as = ties cmp c bs) : as = bs := by
  induction as generalizing bs with
  | nil =>
      cases bs with
      | nil => rfl
      | cons b bs =>
          have hmem := mem_ties_self cmp (List.mem_cons_self (a := b) (l := bs))
          rw [← hties b] at hmem
          cases hmem
  | cons a as ih =>
      cases bs with
      | nil =>
          have hmem := mem_ties_self cmp (List.mem_cons_self (a := a) (l := as))
          rw [hties a] at hmem
          cases hmem
      | cons b bs =>
          have htie : cmp a b = .eq := Std.OrientedCmp.isLE_antisymm (isLE_of_ties_eq has hties)
            (isLE_of_ties_eq hbs fun c => (hties c).symm)
          have hfirst : a = b := by
            have h := hties a
            rw [ties_cons, ties_cons, tie_self cmp a, htie] at h
            exact (List.cons.inj h).1
          subst hfirst
          refine congrArg (a :: ·) (ih (List.pairwise_cons.mp has).2
            (List.pairwise_cons.mp hbs).2 fun c => ?_)
          have h := hties c
          rw [ties_cons, ties_cons] at h
          split at h
          · exact (List.cons.inj h).2
          · exact h

/-- **Sorting by groups.**  If items that tie are of one group, and two lists hold the items of each
group in the same order, then sorting makes them equal. -/
theorem mergeSort_eq_of_filter_eq [BEq ι] [LawfulBEq ι] {group : α → ι}
    (hgroup : ∀ a b, cmp a b = .eq → group a = group b) {as bs : List α}
    (h : ∀ g, as.filter (fun a => group a == g) = bs.filter fun b => group b == g) :
    (as.mergeSort fun a b => (cmp a b).isLE) = bs.mergeSort fun a b => (cmp a b).isLE := by
  refine eq_of_ties_eq (pairwise_mergeSort as) (pairwise_mergeSort bs) fun c => ?_
  rw [ties_mergeSort, ties_mergeSort]
  -- The ties of an item are among the items of its group.
  have hties : ∀ l : List α, ties cmp c l = ties cmp c (l.filter fun a => group a == group c) := by
    intro l
    rw [ties, ties, List.filter_filter]
    refine List.filter_congr fun a _ => ?_
    cases hc : cmp c a == .eq with
    | false => simp
    | true => simp [(hgroup c a (beq_iff_eq.mp hc)).symm]
  rw [hties as, hties bs, h]

/-- If only equal ones of the items tie, sorting does not depend on their order at all. -/
theorem mergeSort_eq_of_perm_of_mem {as bs : List α}
    (heq : ∀ a ∈ as, ∀ b ∈ as, cmp a b = .eq → a = b) (h : as.Perm bs) :
    (as.mergeSort fun a b => (cmp a b).isLE) = bs.mergeSort fun a b => (cmp a b).isLE := by
  have hperm := (List.mergeSort_perm as fun a b => (cmp a b).isLE).trans
    (h.trans (List.mergeSort_perm bs fun a b => (cmp a b).isLE).symm)
  refine List.Perm.eq_of_pairwise (fun a b ha hb hab hba => heq a ?_ b ?_ ?_)
    (pairwise_mergeSort as) (pairwise_mergeSort bs) hperm
  · exact List.mem_mergeSort.mp ha
  · exact h.mem_iff.mpr (List.mem_mergeSort.mp hb)
  · exact Std.OrientedCmp.isLE_antisymm hab hba

/-- If only equal items tie, sorting does not depend on the order at all. -/
theorem mergeSort_eq_of_perm (heq : ∀ a b, cmp a b = .eq → a = b) {as bs : List α}
    (h : as.Perm bs) :
    (as.mergeSort fun a b => (cmp a b).isLE) = bs.mergeSort fun a b => (cmp a b).isLE :=
  mergeSort_eq_of_perm_of_mem (fun a _ b _ => heq a b) h

/-- It is the same to leave items out before sorting or after. -/
theorem mergeSort_filter (p : α → Bool) (as : List α) :
    ((as.filter p).mergeSort fun a b => (cmp a b).isLE) =
      (as.mergeSort fun a b => (cmp a b).isLE).filter p := by
  have hcomm : ∀ (c : α) (l : List α), ties cmp c (l.filter p) = (ties cmp c l).filter p := by
    intro c l
    rw [ties, ties, List.filter_filter, List.filter_filter]
    exact List.filter_congr fun a _ => Bool.and_comm _ _
  refine eq_of_ties_eq (pairwise_mergeSort _) ((pairwise_mergeSort as).filter p) fun c => ?_
  rw [ties_mergeSort, hcomm, hcomm, ties_mergeSort]

omit [Std.TransCmp cmp] in
/-- Of items whose ranks do not rise, those of a rank or above it come first. -/
theorem filter_prefix_of_pairwise {rank : α → Nat} {as : List α}
    (h : as.Pairwise fun a b => rank b ≤ rank a) (least : Nat) :
    as.filter (fun a => least ≤ rank a) <+: as := by
  induction as with
  | nil => exact List.prefix_rfl
  | cons a as ih =>
      obtain ⟨hfirst, hrest⟩ := List.pairwise_cons.mp h
      by_cases ha : least ≤ rank a
      · rw [List.filter_cons_of_pos (by simpa using ha)]
        exact (List.prefix_cons_inj a).mpr (ih hrest)
      · -- No later item ranks above the first one, so none is taken.
        have hnone : (a :: as).filter (fun b => least ≤ rank b) = [] := by
          refine List.filter_eq_nil_iff.mpr fun b hb hle => ?_
          have hle : least ≤ rank b := by simpa using hle
          rcases List.mem_cons.mp hb with rfl | hb
          · exact ha hle
          · exact ha (Nat.le_trans hle (hfirst b hb))
        rw [hnone]
        exact List.nil_prefix

omit [Std.TransCmp cmp] in
/-- Sorting by relations that agree on the items of a list is the same. -/
theorem mergeSort_congr {r s : α → α → Bool} {as : List α}
    (h : ∀ a ∈ as, ∀ b ∈ as, r a b = s a b) : as.mergeSort r = as.mergeSort s := by
  have hmap := List.map_mergeSort (f := id) (r := r) (s := s) h
  simpa using hmap

omit [Std.TransCmp cmp] in
/-- **Groups in another order.**  If each of some sources, all of them different, gives items of its
own group, then in whatever order the sources come, the items of a group are the same. -/
theorem filter_flatMap_eq_of_perm [BEq ι] [LawfulBEq ι] {sources sources' : List β} {key : β → ι}
    {items : β → List α} {group : α → ι} (hperm : sources.Perm sources')
    (hnodup : (sources.map key).Nodup)
    (hitems : ∀ s ∈ sources, ∀ x ∈ items s, group x = key s) (g : ι) :
    (sources.flatMap items).filter (fun x => group x == g) =
      (sources'.flatMap items).filter fun x => group x == g := by
  induction hperm with
  | nil => rfl
  | cons s _ ih =>
      rw [List.map_cons, List.nodup_cons] at hnodup
      rw [List.flatMap_cons, List.flatMap_cons, List.filter_append, List.filter_append,
        ih hnodup.2 fun t ht => hitems t (List.mem_cons_of_mem s ht)]
  | swap s t rest =>
      have hne : key t ≠ key s := by
        intro heq
        simp [heq] at hnodup
      have hnone : ∀ u ∈ t :: s :: rest, key u ≠ g →
          (items u).filter (fun x => group x == g) = [] := by
        intro u hu hkey
        refine List.filter_eq_nil_iff.mpr fun x hx => ?_
        rw [hitems u hu x hx]
        simpa using hkey
      simp only [List.flatMap_cons, List.filter_append]
      by_cases hs : key s = g
      · rw [hnone t List.mem_cons_self (fun ht => hne (ht.trans hs.symm))]
        simp
      · rw [hnone s (by simp) hs]
        simp
  | trans hfirst _ ih ih' =>
      rw [ih hnodup hitems, ih' ((hfirst.map key).nodup_iff.mp hnodup)
        fun s hs => hitems s (hfirst.mem_iff.mpr hs)]

end SecurityAudit.Sorting
