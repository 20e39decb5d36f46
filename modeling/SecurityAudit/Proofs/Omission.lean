import SecurityAudit.Proofs.Arrangement

/-!
# What can be put in order stays so when some of it is left out

Before findings are put in order it is asked of each of them and the next one in the same place
whether their rules can be compared.  When some findings are left out, others come to be next to
each other.  They can be compared as well, because what can be compared with the same rule can be
compared: keys of one kind always can, and lists and mappings when they are equal.
-/

namespace SecurityAudit

namespace Number

/-- Numbers are equal when neither is a float that is no number and their places are the same, or
when both are such floats. -/
theorem same_iff (x y : Number) :
    x.same y = true ↔ (x.exact = .nan ∧ y.exact = .nan) ∨
      (x.exact ≠ .nan ∧ y.exact ≠ .nan ∧ x.exact.place = y.exact.place) := by
  simp only [same, order?]
  by_cases hx : x.exact = .nan
  · simp [hx, Decimal.Exact.order?]
  · by_cases hy : y.exact = .nan
    · simp [hy, Decimal.Exact.order?]
    · rw [Decimal.Exact.order?_eq hx hy]
      simp [hx, hy]

theorem same_trans {x y z : Number} (hxy : x.same y = true) (hyz : y.same z = true) :
    x.same z = true := by
  rw [same_iff] at *
  grind

end Number

namespace Value

theorem same_of_number? {a b : Value} {x y : Number} (ha : a.number? = some x)
    (hb : b.number? = some y) : a.same b = x.same y := by
  cases a <;> cases b <;> cases ha <;> cases hb <;> rfl

/-- Texts are equal when they are one. -/
theorem same_of_raw? {a b : Value} {s t : RawText} (ha : a.raw? = some s) (hb : b.raw? = some t) :
    a.same b = (s == t) := by
  cases a <;> cases b <;> cases ha <;> cases hb <;>
    simp [same, number?, Bool.beq_eq_decide_eq, Bool.and_assoc]

/-- A text is told by what it says. -/
theorem eq_of_raw? {a b : Value} {s : RawText} (ha : a.raw? = some s) (hb : b.raw? = some s) :
    a = b := by
  cases a <;> cases b <;> cases ha <;> cases hb <;> rfl

/-- Equal values are of one kind. -/
theorem kind_eq_of_same {a b : Value} (h : a.same b = true) : a.kind = b.kind :=
  kind_eq_of_comparable (by simp [h])

theorem kind_eq_number_iff (a : Value) : a.kind = .number ↔ ∃ x, a.number? = some x := by
  cases a <;> simp [kind, number?]

theorem same_trans_of_number {a b c : Value} (ha : a.kind = .number) (hab : a.same b = true)
    (hbc : b.same c = true) : a.same c = true := by
  obtain ⟨x, hx⟩ := (kind_eq_number_iff a).mp ha
  have hb := (kind_eq_of_same hab).symm.trans ha
  obtain ⟨y, hy⟩ := (kind_eq_number_iff b).mp hb
  obtain ⟨z, hz⟩ := (kind_eq_number_iff c).mp ((kind_eq_of_same hbc).symm.trans hb)
  rw [same_of_number? hx hy] at hab
  rw [same_of_number? hy hz] at hbc
  rw [same_of_number? hx hz]
  exact Number.same_trans hab hbc

theorem since?_eq_zero_trans {l m n : Calendar.Moment} (hlm : l.since? m = some 0)
    (hmn : m.since? n = some 0) : l.since? n = some 0 := by
  simp only [Calendar.Moment.since?] at *
  grind

/-- Keys that equal the same key are equal. -/
theorem same_trans_of_isKey {a b c : Value} (ha : a.isKey = true) (hab : a.same b = true)
    (hbc : b.same c = true) : a.same c = true := by
  cases ofOneKind_of_kind_eq (kind_eq_of_same hab) with
  | number hx hy => exact same_trans_of_number ((kind_eq_number_iff a).mpr ⟨_, hx⟩) hab hbc
  | null => exact hbc
  | text hs ht =>
      rw [same_of_raw? hs ht, beq_iff_eq] at hab
      rwa [eq_of_raw? hs (hab ▸ ht)]
  | date d e =>
      rw [same, beq_iff_eq] at hab
      rwa [hab]
  | time t u =>
      rw [same, beq_iff_eq] at hab
      rwa [hab]
  | moment h =>
      cases c <;> simp only [same, number?, beq_iff_eq] at hab hbc ⊢ <;>
        first
        | exact since?_eq_zero_trans hab hbc
        | cases hbc
  | noKey ha' _ =>
      rw [ha'] at ha
      cases ha

/-- Only lists equal lists. -/
theorem exists_list_of_same {as : List Value} {b : Value} (h : (Value.list as).same b = true) :
    ∃ bs, b = .list bs := by
  cases b <;> first | exact ⟨_, rfl⟩ | simp [same, number?] at h

/-- Only mappings equal mappings. -/
theorem exists_mapping_of_same {as : List (Value × Value)} {b : Value}
    (h : (Value.mapping as).same b = true) : ∃ bs, b = .mapping bs := by
  cases b <;> first | exact ⟨_, rfl⟩ | simp [same, number?] at h

/-- Every entry of a mapping is found in another one. -/
theorem sameEntries_iff (as bs : List (Value × Value)) :
    sameEntries as bs = true ↔
      ∀ p ∈ as, ∃ e ∈ bs, p.1.same e.1 = true ∧ p.2.same e.2 = true := by
  induction as with
  | nil => simp [sameEntries]
  | cons p as ih =>
      obtain ⟨k, v⟩ := p
      simp [sameEntries, ih]

mutual

/-- Values that equal the same value are equal. -/
theorem same_trans (a b c : Value) (hab : a.same b = true) (hbc : b.same c = true) :
    a.same c = true := by
  cases ha : a with
  | list as =>
      subst ha
      obtain ⟨bs, rfl⟩ := exists_list_of_same hab
      obtain ⟨cs, rfl⟩ := exists_list_of_same hbc
      rw [same] at *
      exact sameItems_trans as bs cs hab hbc
  | mapping as =>
      subst ha
      obtain ⟨bs, rfl⟩ := exists_mapping_of_same hab
      obtain ⟨cs, rfl⟩ := exists_mapping_of_same hbc
      rw [same, Bool.and_eq_true, beq_iff_eq] at *
      exact ⟨hab.1.trans hbc.1, sameEntries_trans as bs cs hab.2 hbc.2⟩
  | _ => exact ha ▸ same_trans_of_isKey (by rw [ha]; rfl) hab hbc

theorem sameItems_trans (as bs cs : List Value) (hab : sameItems as bs = true)
    (hbc : sameItems bs cs = true) : sameItems as cs = true :=
  match as, bs, cs with
  | [], [], [] => rfl
  | a :: as, b :: bs, c :: cs => by
      simp only [sameItems, Bool.and_eq_true] at *
      exact ⟨same_trans a b c hab.1 hbc.1, sameItems_trans as bs cs hab.2 hbc.2⟩
  | [], [], _ :: _ => by simp [sameItems] at hbc
  | [], _ :: _, _ => by simp [sameItems] at hab
  | _ :: _, [], _ => by simp [sameItems] at hab
  | _ :: _, _ :: _, [] => by simp [sameItems] at hbc

theorem sameEntries_trans (as bs cs : List (Value × Value)) (hab : sameEntries as bs = true)
    (hbc : sameEntries bs cs = true) : sameEntries as cs = true :=
  match as with
  | [] => rfl
  | (k, v) :: as => by
      simp only [sameEntries, Bool.and_eq_true, List.any_eq_true] at *
      obtain ⟨⟨e, he, hk, hv⟩, hrest⟩ := hab
      obtain ⟨d, hd, hk', hv'⟩ := (sameEntries_iff bs cs).mp hbc e he
      exact ⟨⟨d, hd, same_trans k e.1 d.1 hk hk', same_trans v e.2 d.2 hv hv'⟩,
        sameEntries_trans as bs cs hrest hbc⟩

end

/-- Keys of one kind can be compared. -/
theorem isComparable_of_kind_eq {a b : Value} (hkind : a.kind = b.kind) (hkey : a.isKey = true) :
    a.isComparable b = true := by
  cases ofOneKind_of_kind_eq hkind with
  | null => rfl
  | number hx hy => simp [isComparable, hx, hy]
  | text hs ht => simp [isComparable, order?_of_raw? hs ht]
  | date d e => rfl
  | time t u => rfl
  | moment h => simp [isComparable, order?_moment h]
  | noKey ha _ =>
      rw [ha] at hkey
      cases hkey

/-- What is no key can be compared only with what equals it. -/
theorem isComparable_of_not_isKey {a b : Value} (hkey : a.isKey = false) :
    a.isComparable b = false := by
  have hnumber : a.number? = none := by
    cases a <;> first | rfl | cases hkey
  simp [isComparable, order?_of_not_isKey hkey, hnumber]

/-- Values that can be compared with the same value can be compared. -/
theorem comparable_trans {a b c : Value} (hab : (a.same b || a.isComparable b) = true)
    (hbc : (b.same c || b.isComparable c) = true) : (a.same c || a.isComparable c) = true := by
  have hkind := kind_eq_of_comparable hab
  cases hkey : a.isKey with
  | true =>
      rw [isComparable_of_kind_eq (hkind.trans (kind_eq_of_comparable hbc)) hkey, Bool.or_true]
  | false =>
      have hkey' : b.isKey = false := by
        rw [isKey_eq, ← hkind, ← isKey_eq, hkey]
      rw [isComparable_of_not_isKey hkey, Bool.or_false] at *
      rw [isComparable_of_not_isKey hkey', Bool.or_false] at hbc
      exact same_trans a b c hab hbc

end Value

namespace Arrangement

variable {α : Type} {place : α → α → Ordering} {rule : α → Value}

variable (rule) in
/-- The rules of two items can be compared. -/
def Comparable (a b : α) : Prop :=
  ((rule a).same (rule b) || (rule a).isComparable (rule b)) = true

theorem Comparable.trans {a b c : α} (hab : Comparable rule a b) (hbc : Comparable rule b c) :
    Comparable rule a c :=
  Value.comparable_trans hab hbc

/-- Items whose rules are texts can be compared, each with the next one. -/
theorem chain_of_texts {as : List α} (h : ∀ a ∈ as, ∃ id, rule a = .text id) :
    as.IsChain fun a b => place a b = .eq → Comparable rule a b := by
  refine (List.pairwise_of_forall_mem_list fun a ha b hb _ => ?_).isChain
  obtain ⟨s, hs⟩ := h a ha
  obtain ⟨t, ht⟩ := h b hb
  rw [Comparable, hs, ht]
  simp [Value.isComparable, Value.order?]

variable [Std.TransCmp place]

/-- Two items in one place that come one after the other in the order of places come so in the list
that was put in that order. -/
theorem sublist_of_sublist_mergeSort {as : List α} {a b : α} (htie : place a b = .eq)
    (h : [a, b].Sublist (as.mergeSort fun a b => (place a b).isLE)) : [a, b].Sublist as := by
  have hties : Sorting.ties place a [a, b] = [a, b] := by
    simp [Sorting.ties, htie, Sorting.tie_self place a]
  rw [← hties]
  have hsub := h.filter fun c => place a c == .eq
  rw [← Sorting.ties, ← Sorting.ties, Sorting.ties_mergeSort] at hsub
  exact hsub.trans List.filter_sublist

/-- If each item can be compared with the next one when they are in one place, so it can when some
items are left out. -/
theorem chain_of_sublist {as bs : List α} (hsub : bs.Sublist as)
    (h : (as.mergeSort fun a b => (place a b).isLE).IsChain fun a b =>
      place a b = .eq → Comparable rule a b) :
    (bs.mergeSort fun a b => (place a b).isLE).IsChain fun a b =>
      place a b = .eq → Comparable rule a b := by
  have hpairs := pairwise_of_chain (R := Comparable rule) (fun _ _ _ => Comparable.trans)
    (Sorting.pairwise_mergeSort as) h
  refine (List.pairwise_iff_forall_sublist.mpr fun {a b} hab htie => ?_).isChain
  have has := (sublist_of_sublist_mergeSort htie hab).trans hsub
  refine List.pairwise_iff_forall_sublist.mp hpairs ?_ htie
  refine List.pair_sublist_mergeSort Sorting.isLE_trans Sorting.isLE_total ?_ has
  rw [htie]
  rfl

end Arrangement

namespace Finding

theorem allComparable_iff {fs : List Finding} :
    allComparable fs = true ↔ fs.IsChain fun a b =>
      placeOrder a b = .eq → Arrangement.Comparable Finding.ruleId a b := by
  induction fs with
  | nil => simp [allComparable]
  | cons a fs ih =>
      cases fs with
      | nil => simp [allComparable]
      | cons b fs =>
          have hcomparable : comparable a b = true ↔
              (placeOrder a b = .eq → Arrangement.Comparable Finding.ruleId a b) := by
            cases hplace : placeOrder a b <;>
              simp [comparable, hplace, Arrangement.Comparable]
          rw [allComparable, Bool.and_eq_true, ih, hcomparable, List.isChain_cons_cons]

/-- **Fewer findings can be put in order** if more can. -/
theorem exists_sorted_of_sublist {as bs fs : List Finding} (hsub : bs.Sublist as)
    (h : sorted as = .ok fs) : ∃ gs, sorted bs = .ok gs := by
  obtain ⟨hcomparable, -⟩ := sorted_eq_ok_iff.mp h
  refine ⟨_, sorted_eq_ok_iff.mpr ⟨allComparable_iff.mpr ?_, rfl⟩⟩
  exact Arrangement.chain_of_sublist hsub (allComparable_iff.mp hcomparable)

/-- Findings whose rules are texts can be put in order. -/
theorem exists_sorted_of_texts {fs : List Finding} (h : ∀ x ∈ fs, ∃ id, x.ruleId = .text id) :
    ∃ gs, sorted fs = .ok gs :=
  ⟨_, sorted_eq_ok_iff.mpr ⟨allComparable_iff.mpr (Arrangement.chain_of_texts fun x hx =>
    h x ((List.mergeSort_perm fs _).mem_iff.mp hx)), rfl⟩⟩

end Finding

namespace Report

theorem allComparable_iff {ss : List Suppression} :
    allComparable ss = true ↔ ss.IsChain fun a b =>
      suppressionPlace a b = .eq → Arrangement.Comparable Suppression.rule a b := by
  induction ss with
  | nil => simp [allComparable]
  | cons a ss ih =>
      cases ss with
      | nil => simp [allComparable]
      | cons b ss =>
          have hcomparable : comparableSuppressions a b = true ↔
              (suppressionPlace a b = .eq → Arrangement.Comparable Suppression.rule a b) := by
            cases hplace : suppressionPlace a b <;>
              simp [comparableSuppressions, hplace, Arrangement.Comparable]
          rw [allComparable, Bool.and_eq_true, ih, hcomparable, List.isChain_cons_cons]

/-- **Fewer suppressions can be put in order** if more can. -/
theorem exists_sortedSuppressions_of_sublist {as bs ss : List Suppression} (hsub : bs.Sublist as)
    (h : sortedSuppressions as = .ok ss) : ∃ ts, sortedSuppressions bs = .ok ts := by
  obtain ⟨hcomparable, -⟩ := sortedSuppressions_eq_ok_iff.mp h
  refine ⟨_, sortedSuppressions_eq_ok_iff.mpr ⟨allComparable_iff.mpr ?_, rfl⟩⟩
  exact Arrangement.chain_of_sublist hsub (allComparable_iff.mp hcomparable)

/-- Suppressions whose rules are texts can be put in order. -/
theorem exists_sortedSuppressions_of_texts {ss : List Suppression}
    (h : ∀ s ∈ ss, ∃ id, s.rule = .text id) : ∃ ts, sortedSuppressions ss = .ok ts :=
  ⟨_, sortedSuppressions_eq_ok_iff.mpr ⟨allComparable_iff.mpr (Arrangement.chain_of_texts
    fun s hs => h s ((List.mergeSort_perm ss _).mem_iff.mp hs)), rfl⟩⟩

end Report

end SecurityAudit
