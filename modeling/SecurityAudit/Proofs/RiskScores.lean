import Mathlib.Data.Rat.Floor
import SecurityAudit.Proofs.Threshold

/-!
# The risk of a report

A risk score counts tenths of the mean weight of some findings.  It is computed with whole numbers
alone, and it is the mean rounded to the nearest tenth, a half upwards (`tenths_riskOf`).

Rounding keeps the order of means (`rational_riskOf_le`), so what is true of means is true of risk
scores: a graver finding never lowers the score, and the findings of two lists together have a score
between those of the two lists.
-/

namespace SecurityAudit

/-- The number that a risk score stands for. -/
def RiskScore.rational (s : RiskScore) : ℚ :=
  s.tenths / 10

/-- A level weighs as much as a lower one at least. -/
theorem Severity.weight_le_weight {l m : Severity} (h : l.rank ≤ m.rank) : l.weight ≤ m.weight := by
  revert h
  cases l <;> cases m <;> decide

/-- A level of the lowest rank weighs nothing. -/
theorem Severity.weight_of_rank_eq_zero {l : Severity} (h : l.rank = 0) : l.weight = 0 := by
  revert h
  cases l <;> decide

theorem Severity.weight_le (l : Severity) : l.weight ≤ 10 := by
  cases l <;> decide

namespace Report

variable {fs gs : List Finding} {x y : Finding}

/-! ## Weights -/

theorem weightOf_le (x : Finding) : weightOf x ≤ 10 := by
  rw [weightOf]
  cases Severity.ofLabel? x.severity with
  | none => exact Nat.zero_le 10
  | some l => exact l.weight_le

/-- A graver finding does not weigh less. -/
theorem weightOf_le_weightOf (h : Severity.rankOf x.severity ≤ Severity.rankOf y.severity) :
    weightOf x ≤ weightOf y := by
  rw [Severity.rankOf, Severity.rankOf] at h
  rw [weightOf, weightOf]
  cases hx : Severity.ofLabel? x.severity with
  | none => exact Nat.zero_le _
  | some l =>
      rw [hx] at h
      cases hy : Severity.ofLabel? y.severity with
      | none =>
          -- The label of `y` names no level, so that of `x` has the lowest rank.
          rw [hy] at h
          exact (Severity.weight_of_rank_eq_zero (Nat.le_zero.mp h)).le
      | some m =>
          rw [hy] at h
          exact Severity.weight_le_weight h

/-- The weights of some findings together. -/
def totalWeight (fs : List Finding) : Nat :=
  sumOf (fs.map weightOf)

@[simp]
theorem totalWeight_nil : totalWeight [] = 0 := rfl

@[simp]
theorem totalWeight_cons (x : Finding) (fs : List Finding) :
    totalWeight (x :: fs) = weightOf x + totalWeight fs := rfl

@[simp]
theorem totalWeight_append (fs gs : List Finding) :
    totalWeight (fs ++ gs) = totalWeight fs + totalWeight gs := by
  induction fs with
  | nil => simp
  | cons x fs ih =>
      rw [List.cons_append, totalWeight_cons, ih, totalWeight_cons]
      omega

theorem totalWeight_le (fs : List Finding) : totalWeight fs ≤ 10 * fs.length := by
  induction fs with
  | nil => exact Nat.le_refl 0
  | cons x fs ih =>
      have hx := weightOf_le x
      rw [totalWeight_cons, List.length_cons]
      omega

theorem totalWeight_of_perm (h : fs.Perm gs) : totalWeight fs = totalWeight gs := by
  induction h with
  | nil => rfl
  | cons x _ ih => rw [totalWeight_cons, totalWeight_cons, ih]
  | swap x y fs =>
      simp only [totalWeight_cons]
      omega
  | trans _ _ ih ih' => exact ih.trans ih'

/-! ## Means -/

/-- The mean weight of some findings; zero for no findings. -/
def meanWeight (fs : List Finding) : ℚ :=
  totalWeight fs / fs.length

theorem length_pos (h : fs ≠ []) : (0 : ℚ) < fs.length :=
  Nat.cast_pos.mpr (List.length_pos_iff.mpr h)

theorem meanWeight_le (fs : List Finding) : meanWeight fs ≤ 10 := by
  unfold meanWeight
  apply div_le_of_le_mul₀
  · positivity
  · norm_num
  · exact_mod_cast totalWeight_le fs

/-- Of two lists, the one with the smaller mean pulls the mean of both together down, and no further
than to its own. -/
theorem meanWeight_append_bounds (hfs : fs ≠ []) (hgs : gs ≠ [])
    (h : meanWeight fs ≤ meanWeight gs) :
    meanWeight fs ≤ meanWeight (fs ++ gs) ∧ meanWeight (fs ++ gs) ≤ meanWeight gs := by
  have hm := length_pos hfs
  have hn := length_pos hgs
  unfold meanWeight at *
  rw [totalWeight_append, List.length_append, Nat.cast_add, Nat.cast_add]
  rw [div_le_div_iff₀ hm hn] at h
  constructor
  · rw [div_le_div_iff₀ hm (add_pos hm hn)]
    linarith
  · rw [div_le_div_iff₀ (add_pos hm hn) hn]
    linarith

/-! ## Scores -/

/-- **A risk score is the mean weight, rounded to tenths.** -/
theorem tenths_riskOf (fs : List Finding) :
    ((riskOf fs).tenths : ℤ) = round (10 * meanWeight fs) := by
  by_cases hfs : fs = []
  · subst hfs
    simp [riskOf, meanWeight]
  · have hn := length_pos hfs
    have hlength : (fs.length == 0) = false := by simpa using hfs
    -- The half that rounding adds is put over the denominator of the mean.
    have hhalf : 10 * meanWeight fs + 1 / 2 =
        ((totalWeight fs * 20 + fs.length : ℕ) : ℚ) / ((2 * fs.length : ℕ) : ℚ) := by
      unfold meanWeight
      push_cast
      field_simp
      ring
    rw [round_eq, hhalf, Rat.floor_natCast_div_natCast]
    simp only [riskOf, hlength]
    rfl

/-- Rounding keeps the order of means. -/
theorem rational_riskOf_le (h : meanWeight fs ≤ meanWeight gs) :
    (riskOf fs).rational ≤ (riskOf gs).rational := by
  have htenths : ((riskOf fs).tenths : ℤ) ≤ (riskOf gs).tenths := by
    rw [tenths_riskOf, tenths_riskOf, round_eq, round_eq]
    apply Int.floor_mono
    linarith
  have hcast : ((riskOf fs).tenths : ℚ) ≤ (riskOf gs).tenths := by exact_mod_cast htenths
  unfold RiskScore.rational
  linarith

theorem tenths_riskOf_le (fs : List Finding) : (riskOf fs).tenths ≤ 100 := by
  have hmean := meanWeight_le fs
  have hround : round (10 * meanWeight fs) ≤ (100 : ℤ) := by
    rw [round_eq, ← Int.lt_add_one_iff, Int.floor_lt]
    push_cast
    linarith
  rw [← tenths_riskOf] at hround
  exact_mod_cast hround

theorem riskOf_of_perm (h : fs.Perm gs) : riskOf fs = riskOf gs := by
  have htotal : sumOf (fs.map weightOf) = sumOf (gs.map weightOf) := totalWeight_of_perm h
  rw [riskOf, riskOf, htotal, h.length_eq]

/-- A graver finding in the place of another one does not lower the mean. -/
theorem meanWeight_replace_le (h : Severity.rankOf x.severity ≤ Severity.rankOf y.severity)
    (before after : List Finding) :
    meanWeight (before ++ x :: after) ≤ meanWeight (before ++ y :: after) := by
  have hweight := weightOf_le_weightOf h
  have htotal : totalWeight (before ++ x :: after) ≤ totalWeight (before ++ y :: after) := by
    simp only [totalWeight_append, totalWeight_cons]
    omega
  have hlength : (before ++ y :: after).length = (before ++ x :: after).length := by simp
  unfold meanWeight
  rw [hlength]
  gcongr

/-- **The law of risk scores.**  The score of some findings is `p / 10` for a whole number `p` up to
a hundred, namely ten times the sum of their weights by their number, rounded to the nearest whole
number, a half upwards; it is zero for no findings.  The order of the findings does not matter, a
finding that is replaced by one of the same or a higher severity never lowers the score, and the
score of two lists together lies between the scores of both. -/
theorem riskOf_rounds_mean :
    (riskOf []).rational = 0 ∧
    (∀ fs, fs ≠ [] → ∃ p : ℕ, (riskOf fs).value = Float.ofNat p / 10.0 ∧
      (riskOf fs).rational = p / 10 ∧
      (p : ℤ) = round (10 * (sumOf (fs.map weightOf) : ℚ) / fs.length) ∧ p ≤ 100) ∧
    (∀ fs gs, fs.Perm gs → riskOf fs = riskOf gs) ∧
    (∀ before after x y, Severity.rankOf x.severity ≤ Severity.rankOf y.severity →
      (riskOf (before ++ x :: after)).rational ≤ (riskOf (before ++ y :: after)).rational) ∧
    ∀ fs gs, fs ≠ [] → gs ≠ [] →
      min (riskOf fs).rational (riskOf gs).rational ≤ (riskOf (fs ++ gs)).rational ∧
      (riskOf (fs ++ gs)).rational ≤ max (riskOf fs).rational (riskOf gs).rational := by
  refine ⟨?_, ?_, fun _ _ => riskOf_of_perm, ?_, ?_⟩
  · norm_num [riskOf, RiskScore.rational]
  · intro fs _
    refine ⟨(riskOf fs).tenths, rfl, rfl, ?_, tenths_riskOf_le fs⟩
    rw [tenths_riskOf, mul_div_assoc]
    rfl
  · intro before after x y h
    exact rational_riskOf_le (meanWeight_replace_le h before after)
  · intro fs gs hfs hgs
    rcases le_total (meanWeight fs) (meanWeight gs) with h | h
    · obtain ⟨hleast, hmost⟩ := meanWeight_append_bounds hfs hgs h
      exact ⟨min_le_of_left_le (rational_riskOf_le hleast),
        le_max_of_le_right (rational_riskOf_le hmost)⟩
    · -- The other list has the smaller mean, and the order of the lists does not matter.
      obtain ⟨hleast, hmost⟩ := meanWeight_append_bounds hgs hfs h
      rw [riskOf_of_perm List.perm_append_comm]
      exact ⟨min_le_of_right_le (rational_riskOf_le hleast),
        le_max_of_le_left (rational_riskOf_le hmost)⟩

/-- A finding of high severity. -/
def grave : Finding :=
  Finding.plain "high" "a.py" 1 "R" "R-1"

/-- A finding that is there for information. -/
def slight : Finding :=
  Finding.plain "informational" "a.py" 2 "R" "R-2"

/-- A grave finding among four has a mean weight of 1.75, and the score is 1.8, wherever it is; two
of them have no lower score, and it lies between that of the one and those of the others. -/
theorem riskOf_rounds_mean_half :
    (riskOf [grave, slight, slight, slight]).rational = 18 / 10 ∧
    riskOf [grave, slight, slight, slight] = riskOf [slight, grave, slight, slight] ∧
    (riskOf [grave, slight, slight, slight]).rational ≤
      (riskOf [grave, slight, grave, slight]).rational ∧
    min (riskOf [grave]).rational (riskOf [slight, slight, slight]).rational ≤
      (riskOf [grave, slight, slight, slight]).rational ∧
    (riskOf [grave, slight, slight, slight]).rational ≤
      max (riskOf [grave]).rational (riskOf [slight, slight, slight]).rational := by
  obtain ⟨-, hround, hperm, hgraver, hbetween⟩ := riskOf_rounds_mean
  obtain ⟨p, -, hrational, hp, -⟩ := hround [grave, slight, slight, slight] (by simp)
  have hsum : sumOf ([grave, slight, slight, slight].map weightOf) = 7 := by decide +kernel
  have hhalf : round (10 * ((7 : ℕ) : ℚ) / ((4 : ℕ) : ℚ)) = 18 := by
    rw [round_eq, Int.floor_eq_iff]
    norm_num
  have heighteen : p = 18 := by
    rw [hsum] at hp
    exact_mod_cast hp.trans hhalf
  refine ⟨by rw [hrational, heighteen]; norm_num, hperm _ _ (.swap _ _ _), ?_, ?_⟩
  · exact hgraver [grave, slight] [slight] slight grave (by decide +kernel)
  · exact hbetween [grave] [slight, slight, slight] (by simp) (by simp)

end Report

end SecurityAudit
