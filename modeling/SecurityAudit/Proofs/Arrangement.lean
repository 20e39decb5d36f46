import SecurityAudit.Proofs.Aggregate
import SecurityAudit.Proofs.KeyOrder
import SecurityAudit.Proofs.StableSort

/-!
# Findings and suppressions in order

Findings and suppressions are put in order alike: by place, then by rule, and findings of one rule
in one place by id.  Two rules may have no order, so before anything is put in order it is asked of
each item and the next one in the same place whether their rules can be compared.  If they can, all
rules in one place are of one kind, and unless one of them is a float that is no number, the order
of the items is total.  Items that tie then are in the same place, so in the same file.
-/

namespace SecurityAudit.Arrangement

variable {α : Type} (place : α → α → Ordering) (rule : α → Value) (tie : α → String)

/-- The order of items by place, then by rule, then by what breaks ties. -/
def isBefore (a b : α) : Bool :=
  (place a b).then
    (match (rule a).order? (rule b) with
      | some o => o.then (compare (tie a) (tie b))
      | none => .eq) == .lt

/-- What breaks ties between items whose rules are keys. -/
def tieOfKey (a : α) : String :=
  if (rule a).isKey then tie a else ""

/-- The order of items as a comparison of one thing after another. -/
def fullOrder : α → α → Ordering :=
  compareLex place (compareLex (compareOn fun a => (rule a).quantity)
    (compareLex (compareOn fun a => (rule a).spelling) (compareOn (tieOfKey rule tie))))

instance [Std.TransCmp place] : Std.TransCmp (fullOrder place rule tie) :=
  inferInstanceAs (Std.TransCmp (compareLex _ _))

variable {place rule tie}

/-- Where rules in one place are of one kind, and none is a float that is no number, an item comes
before another when it does in the full order. -/
theorem isBefore_eq {a b : α} (ha : (rule a).isNaN = false) (hb : (rule b).isNaN = false)
    (hkind : place a b = .eq → (rule a).kind = (rule b).kind) :
    isBefore place rule tie a b = (fullOrder place rule tie a b == .lt) := by
  simp only [isBefore, fullOrder, compareLex, compareOn]
  cases hplace : place a b with
  | lt => rfl
  | gt => rfl
  | eq =>
      have hkeys : (rule b).isKey = (rule a).isKey := by
        rw [Value.isKey_eq, Value.isKey_eq, hkind hplace]
      cases hkey : (rule a).isKey with
      | true =>
          rw [Value.order?_eq ha hb (hkind hplace) hkey]
          simp only [tieOfKey, hkeys, hkey, if_true, Ordering.then_assoc]
      | false =>
          obtain ⟨hquantity, hspelling⟩ := Value.quantity_of_not_isKey hkey
          obtain ⟨hquantity', hspelling'⟩ := Value.quantity_of_not_isKey (hkeys.trans hkey)
          rw [Value.order?_of_not_isKey hkey, hquantity, hquantity', hspelling, hspelling',
            Std.ReflOrd.compare_self, Std.ReflOrd.compare_self]
          simp [tieOfKey, hkeys, hkey]

/-- Where rules in one place are of one kind, an item does not come after another when it does not
in the full order. -/
theorem not_isBefore_eq [Std.TransCmp place] {a b : α} (ha : (rule a).isNaN = false)
    (hb : (rule b).isNaN = false) (hkind : place b a = .eq → (rule b).kind = (rule a).kind) :
    (!isBefore place rule tie b a) = (fullOrder place rule tie a b).isLE := by
  have hswap : fullOrder place rule tie b a = (fullOrder place rule tie a b).swap :=
    Std.OrientedCmp.eq_swap
  rw [isBefore_eq hb ha hkind, hswap]
  cases fullOrder place rule tie a b <;> rfl

/-- If a relation holds of each item and the next one when they are in one place, it holds of all
items in one place, in their order. -/
theorem pairwise_of_chain [Std.TransCmp place] {R : α → α → Prop}
    (htrans : ∀ a b c, R a b → R b c → R a c) {as : List α}
    (hsorted : as.Pairwise fun a b => (place a b).isLE = true)
    (hchain : as.IsChain fun a b => place a b = .eq → R a b) :
    as.Pairwise fun a b => place a b = .eq → R a b := by
  induction as with
  | nil => exact .nil
  | cons a as ih =>
      cases as with
      | nil => exact List.pairwise_singleton _ a
      | cons b as =>
          obtain ⟨hfirst, hrest⟩ := List.pairwise_cons.mp hsorted
          obtain ⟨hnext, hchain⟩ := List.isChain_cons_cons.mp hchain
          have hlater := ih hrest hchain
          refine List.pairwise_cons.mpr ⟨fun c hc hplace => ?_, hlater⟩
          rcases List.mem_cons.mp hc with rfl | hc
          · exact hnext hplace
          · -- Between two items in one place there are only items in that place.
            have hbc : (place b c).isLE = true := (List.pairwise_cons.mp hrest).1 c hc
            have hab : (place a b).isLE = true := hfirst b List.mem_cons_self
            have hba : (place b a).isLE = true := by
              refine Std.TransCmp.isLE_trans hbc ?_
              rw [Std.OrientedCmp.eq_symm hplace]
              rfl
            have htie : place a b = .eq := Std.OrientedCmp.isLE_antisymm hab hba
            have htie' : place b c = .eq :=
              Std.TransCmp.eq_trans (Std.OrientedCmp.eq_symm htie) hplace
            exact htrans a b c (hnext htie) ((List.pairwise_cons.mp hlater).1 c hc htie')

/-- In whichever order two items of a list are taken, their rules are of one kind if they are in one
place. -/
theorem kind_eq_of_pairwise [Std.TransCmp place] {as : List α}
    (h : as.Pairwise fun a b => place a b = .eq → (rule a).kind = (rule b).kind) :
    ∀ a ∈ as, ∀ b ∈ as, place a b = .eq → (rule a).kind = (rule b).kind := by
  intro a ha b hb
  refine h.forall_of_forall_of_flip (fun _ _ _ => rfl) (h.imp fun {a b} hab hplace => ?_) ha hb
  exact (hab (Std.OrientedCmp.eq_symm hplace)).symm

/-- If each item can be compared with the next one in the order of places, the rules of all items in
one place are of one kind. -/
theorem kind_eq_of_chain [Std.TransCmp place] {as : List α}
    (hchain : (as.mergeSort fun a b => (place a b).isLE).IsChain fun a b =>
      place a b = .eq → (rule a).kind = (rule b).kind) :
    ∀ a ∈ as, ∀ b ∈ as, place a b = .eq → (rule a).kind = (rule b).kind := by
  have hpairs := pairwise_of_chain (R := fun a b => (rule a).kind = (rule b).kind)
    (fun _ _ _ => Eq.trans) (Sorting.pairwise_mergeSort as) hchain
  intro a ha b hb
  exact kind_eq_of_pairwise hpairs a (List.mem_mergeSort.mpr ha) b (List.mem_mergeSort.mpr hb)

/-- Items whose rules are of one kind in each place are sorted by the full order. -/
theorem mergeSort_isBefore_eq [Std.TransCmp place] {as : List α}
    (hnumbers : ∀ a ∈ as, (rule a).isNaN = false)
    (hkinds : ∀ a ∈ as, ∀ b ∈ as, place a b = .eq → (rule a).kind = (rule b).kind) :
    (as.mergeSort fun a b => !isBefore place rule tie b a) =
      as.mergeSort fun a b => (fullOrder place rule tie a b).isLE := by
  refine Sorting.mergeSort_congr fun a ha b hb => ?_
  exact not_isBefore_eq (hnumbers a ha) (hnumbers b hb) (hkinds b hb a ha)

/-- **What is put in order depends on the items of each group only.**  Of two lists, let the items
of each group be the same, in the same order, and let items in one place be of one group.  If no
rule is a float that is no number, and each item in the order of places can be compared with the
next one, then both lists are put in the same order. -/
theorem mergeSort_eq [Std.TransCmp place] {group : α → String}
    (hgroup : ∀ a b, place a b = .eq → group a = group b) {as bs : List α}
    (h : ∀ g, as.filter (fun a => group a == g) = bs.filter fun b => group b == g)
    (hnumbers : ∀ a ∈ as, (rule a).isNaN = false)
    (hchain : (as.mergeSort fun a b => (place a b).isLE).IsChain fun a b =>
      place a b = .eq → (rule a).kind = (rule b).kind) :
    (as.mergeSort fun a b => !isBefore place rule tie b a) =
      bs.mergeSort fun a b => !isBefore place rule tie b a := by
  have hmem : ∀ b ∈ bs, b ∈ as := by
    intro b hb
    have hb' : b ∈ bs.filter fun c => group c == group b := List.mem_filter.mpr ⟨hb, by simp⟩
    rw [← h] at hb'
    exact (List.mem_filter.mp hb').1
  have hkinds := kind_eq_of_chain hchain
  have hsecond : (bs.mergeSort fun a b => !isBefore place rule tie b a) =
      bs.mergeSort fun a b => (fullOrder place rule tie a b).isLE :=
    mergeSort_isBefore_eq (fun b hb => hnumbers b (hmem b hb))
      fun a ha b hb => hkinds a (hmem a ha) b (hmem b hb)
  rw [mergeSort_isBefore_eq hnumbers hkinds, hsecond]
  refine Sorting.mergeSort_eq_of_filter_eq (fun a b htie => hgroup a b ?_) h
  exact (compareLex_eq_eq.mp htie).1

end SecurityAudit.Arrangement

namespace SecurityAudit

namespace Finding

/-- Places are compared by severity, the gravest first, then by file, then by line. -/
theorem placeOrder_eq :
    placeOrder = compareLex (fun a b => compareOn (fun x => Severity.rankOf x.severity) b a)
      (compareLex (compareOn Finding.file) (compareOn Finding.line)) := rfl

instance : Std.TransCmp placeOrder := by
  rw [placeOrder_eq]
  infer_instance

/-- Findings in one place are in one file. -/
theorem file_eq_of_placeOrder {a b : Finding} (h : placeOrder a b = .eq) : a.file = b.file := by
  rw [placeOrder_eq] at h
  exact Std.LawfulEqOrd.eq_of_compare (compareLex_eq_eq.mp (compareLex_eq_eq.mp h).2).1

theorem isBefore_eq : isBefore = Arrangement.isBefore placeOrder Finding.ruleId Finding.id := by
  funext a b
  simp only [isBefore, Arrangement.isBefore]
  cases placeOrder a b with
  | lt | gt => rfl
  | eq => cases a.ruleId.order? b.ruleId <;> rfl

/-- Findings in one place that can be compared have rules of one kind. -/
theorem kind_eq_of_comparable {a b : Finding} (h : comparable a b = true)
    (hplace : placeOrder a b = .eq) : a.ruleId.kind = b.ruleId.kind := by
  refine Value.kind_eq_of_comparable ?_
  simpa [comparable, hplace] using h

theorem chain_of_allComparable {fs : List Finding} (h : allComparable fs = true) :
    fs.IsChain fun a b => placeOrder a b = .eq → a.ruleId.kind = b.ruleId.kind := by
  induction fs with
  | nil => exact .nil
  | cons a fs ih =>
      cases fs with
      | nil => exact .singleton a
      | cons b fs =>
          rw [allComparable, Bool.and_eq_true] at h
          exact .cons_cons (kind_eq_of_comparable h.1) (ih h.2)

/-- Findings in order are sorted by the full order, if no rule is a float that is no number. -/
theorem sorted_eq_mergeSort {as fs : List Finding} (hnumbers : ∀ x ∈ as, x.ruleId.isNaN = false)
    (h : sorted as = .ok fs) :
    fs = as.mergeSort fun a b =>
      (Arrangement.fullOrder placeOrder Finding.ruleId Finding.id a b).isLE := by
  obtain ⟨hcomparable, rfl⟩ := sorted_eq_ok_iff.mp h
  rw [isBefore_eq]
  exact Arrangement.mergeSort_isBefore_eq hnumbers
    (Arrangement.kind_eq_of_chain (chain_of_allComparable hcomparable))

/-- **Findings that are mixed otherwise are put in the same order**, if those of each file come in
the same order and no rule is a float that is no number. -/
theorem sorted_eq_of_filter_eq {as bs fs : List Finding}
    (h : ∀ path, as.filter (fun x => x.file == path) = bs.filter fun x => x.file == path)
    (hnumbers : ∀ x ∈ as, x.ruleId.isNaN = false) (hsorted : sorted as = .ok fs) :
    sorted bs = .ok fs := by
  obtain ⟨hcomparable, rfl⟩ := sorted_eq_ok_iff.mp hsorted
  have hfiles : ∀ a b, placeOrder a b = .eq → a.file = b.file := fun _ _ => file_eq_of_placeOrder
  have hplaces : (as.mergeSort fun a b => (placeOrder a b).isLE) =
      bs.mergeSort fun a b => (placeOrder a b).isLE :=
    Sorting.mergeSort_eq_of_filter_eq hfiles h
  refine sorted_eq_ok_iff.mpr ⟨hplaces ▸ hcomparable, ?_⟩
  rw [isBefore_eq]
  exact (Arrangement.mergeSort_eq hfiles h hnumbers
    (chain_of_allComparable hcomparable)).symm

end Finding

namespace Report

/-- Places of suppressions are compared by file, then by line. -/
theorem suppressionPlace_eq :
    suppressionPlace = compareLex (compareOn Suppression.file) (compareOn Suppression.line) := rfl

instance : Std.TransCmp suppressionPlace := by
  rw [suppressionPlace_eq]
  infer_instance

/-- Suppressions in one place are in one file. -/
theorem file_eq_of_suppressionPlace {a b : Suppression} (h : suppressionPlace a b = .eq) :
    a.file = b.file := by
  rw [suppressionPlace_eq] at h
  exact Std.LawfulEqOrd.eq_of_compare (compareLex_eq_eq.mp h).1

theorem isSuppressedBefore_eq :
    isSuppressedBefore =
      Arrangement.isBefore suppressionPlace Suppression.rule fun _ => "" := by
  funext a b
  simp only [isSuppressedBefore, Arrangement.isBefore, Std.ReflOrd.compare_self]
  cases a.rule.order? b.rule with
  | none => rfl
  | some o => simp

/-- Suppressions in one place that can be compared have rules of one kind. -/
theorem kind_eq_of_comparableSuppressions {a b : Suppression}
    (h : comparableSuppressions a b = true) (hplace : suppressionPlace a b = .eq) :
    a.rule.kind = b.rule.kind := by
  refine Value.kind_eq_of_comparable ?_
  simpa [comparableSuppressions, hplace] using h

theorem chain_of_allComparable {ss : List Suppression} (h : allComparable ss = true) :
    ss.IsChain fun a b => suppressionPlace a b = .eq → a.rule.kind = b.rule.kind := by
  induction ss with
  | nil => exact .nil
  | cons a ss ih =>
      cases ss with
      | nil => exact .singleton a
      | cons b ss =>
          rw [allComparable, Bool.and_eq_true] at h
          exact .cons_cons (kind_eq_of_comparableSuppressions h.1) (ih h.2)

/-- **Suppressions that are mixed otherwise are put in the same order**, if those of each file come
in the same order and no rule is a float that is no number. -/
theorem sortedSuppressions_eq_of_filter_eq {as bs ss : List Suppression}
    (h : ∀ path, as.filter (fun x => x.file == path) = bs.filter fun x => x.file == path)
    (hnumbers : ∀ x ∈ as, x.rule.isNaN = false) (hsorted : sortedSuppressions as = .ok ss) :
    sortedSuppressions bs = .ok ss := by
  obtain ⟨hcomparable, rfl⟩ := sortedSuppressions_eq_ok_iff.mp hsorted
  have hfiles : ∀ a b, suppressionPlace a b = .eq → a.file = b.file :=
    fun _ _ => file_eq_of_suppressionPlace
  have hplaces : (as.mergeSort fun a b => (suppressionPlace a b).isLE) =
      bs.mergeSort fun a b => (suppressionPlace a b).isLE :=
    Sorting.mergeSort_eq_of_filter_eq hfiles h
  refine sortedSuppressions_eq_ok_iff.mpr ⟨hplaces ▸ hcomparable, ?_⟩
  rw [isSuppressedBefore_eq]
  exact (Arrangement.mergeSort_eq hfiles h hnumbers
    (chain_of_allComparable hcomparable)).symm

end Report

end SecurityAudit
