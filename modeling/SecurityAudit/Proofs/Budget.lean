import SecurityAudit.Audit.Budget

/-!
# What a budget with a whole limit does

A budget whose limit is a whole number is exhausted exactly when it has admitted that many findings.
Of an offer it admits the first ones, as many as it has room for, and it takes note when that is not
all of them.
-/

namespace SecurityAudit

/-- A whole number is the number of units that it has. -/
theorem Decimal.inUnits_natAbs (n : Int) :
    inUnits (n < 0) n.natAbs 0 0 = n := by
  have hpow : Nat.pow 2 0 = 1 := rfl
  by_cases hn : n < 0
  · simp only [inUnits, hn, decide_true, Int.sub_self, Int.toNat_zero, hpow]
    simp only [if_true]
    omega
  · simp only [inUnits, hn, decide_false, Int.sub_self, Int.toNat_zero, hpow]
    simp only [Bool.false_eq_true, if_false]
    omega

/-- Whole numbers are compared as such. -/
theorem Number.order?_int (a b : Int) :
    (Number.int a).order? (.int b) = some (compare a b) := by
  simp [Number.order?, Number.exact, Decimal.Exact.order?, Decimal.inUnits_natAbs]

/-- A whole number is below another one when it is less. -/
theorem Number.below_int (a b : Int) : (Number.int a).below (.int b) = decide (a < b) := by
  rw [Number.below, Number.order?_int]
  rcases Int.lt_trichotomy a b with h | h | h
  · simp [Int.compare_eq_lt.mpr h, h]
  · simp [h]
  · simp [Int.compare_eq_gt.mpr h, Int.le_of_lt h]

/-- Whole numbers are the same when they are equal. -/
theorem Number.same_int (a b : Int) : (Number.int a).same (.int b) = decide (a = b) := by
  rw [Number.same, Number.order?_int]
  rcases Int.lt_trichotomy a b with h | h | h
  · simp [Number.exact, Int.compare_eq_lt.mpr h, Int.ne_of_lt h]
  · simp [h]
  · simp [Number.exact, Int.compare_eq_gt.mpr h, (Int.ne_of_lt h).symm]

/-- A whole number is at most another one in the sense of budgets when it is one. -/
theorem Number.atMost_int (a b : Int) :
    (Number.int a).atMost b = decide (a ≤ b) := by
  simp only [Number.atMost, Number.below, Number.same, Number.order?_int, Number.exact]
  rcases Int.lt_trichotomy a b with h | h | h
  · simp [Int.compare_eq_lt.mpr h, Int.le_of_lt h]
  · simp [h]
  · simp [Int.compare_eq_gt.mpr h, Int.not_le.mpr h]

namespace Budget

variable {α : Type} {b : Budget} {limit : Nat}

/-- A budget is exhausted when it has admitted as many findings as it may. -/
theorem isExhausted_iff (h : b.limit = some (.int limit)) :
    b.isExhausted = true ↔ limit ≤ b.count := by
  simp [isExhausted, h, Number.atMost_int]

/-- There is room for what is left of the limit. -/
theorem room_eq (h : b.limit = some (.int limit)) :
    b.room = .ok (some (limit - b.count)) := by
  have hroom : ((limit : Int) - b.count).toNat = limit - b.count := by omega
  simp [room, h, hroom]

/-- **What a budget admits.**  The first findings of an offer are admitted, as many as there is room
for; when that is not all of them, it is noted. -/
theorem accept_eq (h : b.limit = some (.int limit)) (offered : List α) :
    b.accept offered = .ok (offered.take (limit - b.count), { b with
      count := b.count + (offered.take (limit - b.count)).length
      truncated := b.truncated ||
        (offered.take (limit - b.count)).length < offered.length }) := by
  simp only [accept, room_eq h]
  rfl

/-- Without a limit everything is admitted, and nothing is counted. -/
theorem accept_of_no_limit (h : b.limit = none) (offered : List α) :
    b.accept offered = .ok (offered, b) := by
  simp only [accept, room, h]
  rfl

/-- A budget without a limit is never exhausted. -/
theorem not_isExhausted_of_no_limit (h : b.limit = none) : b.isExhausted = false := by
  simp [isExhausted, h]

@[simp]
theorem noteSkip_count : b.noteSkip.count = b.count := rfl

end Budget

end SecurityAudit
