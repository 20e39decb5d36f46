import Mathlib.Data.Rat.Floor
import Mathlib.Tactic.FieldSimp
import Mathlib.Tactic.Linarith
import Mathlib.Tactic.Ring
import SecurityAudit.Iam.Review
import SecurityAudit.Proofs.KeyOrder

/-!
# How long a number of days is

A length of time is a whole number of microseconds, and a number of days need not come out as one.
The whole days of a floating-point number do.  What it has beyond them is multiplied out in the
precision of such a number, which is off by far less than a microsecond, and then rounded, which is
off by half of one.  So a number of days gives one of the two whole numbers around what it stands
for (`eq_floor_or_ceil_of_ofDays`), and what it stands for if that is a whole number of
microseconds, as it is for every whole number of days.
-/

namespace SecurityAudit

namespace Decimal

/-! ### Rounding -/

/-- A quotient is rounded by a half at most. -/
theorem abs_roundQuotient_sub_le (n : Nat) {d : Nat} (hd : 0 < d) :
    |(roundQuotient n d : ℚ) - n / d| ≤ 1 / 2 := by
  have hd' : (0 : ℚ) < d := by exact_mod_cast hd
  have hquotient : (n : ℚ) / d = (n / d : Nat) + (n % d : Nat) / d := by
    rw [div_eq_iff hd'.ne', add_mul, div_mul_cancel₀ _ hd'.ne']
    exact_mod_cast (Nat.div_add_mod' n d).symm
  have hbelow : 2 * (n % d) ≤ d → ((n % d : Nat) : ℚ) / d ≤ 1 / 2 := by
    intro h
    rw [div_le_iff₀ hd']
    have hcast : ((2 * (n % d) : Nat) : ℚ) ≤ d := by exact_mod_cast h
    push_cast at hcast
    linarith
  have habove : d ≤ 2 * (n % d) → 1 / 2 ≤ ((n % d : Nat) : ℚ) / d := by
    intro h
    rw [le_div_iff₀ hd']
    have hcast : (d : ℚ) ≤ ((2 * (n % d) : Nat) : ℚ) := by exact_mod_cast h
    push_cast at hcast
    linarith
  have hpos : (0 : ℚ) ≤ ((n % d : Nat) : ℚ) / d := by positivity
  have hone : ((n % d : Nat) : ℚ) / d ≤ 1 := by
    rw [div_le_one hd']
    exact_mod_cast (Nat.mod_lt n hd).le
  rw [hquotient, abs_le, roundQuotient]
  split_ifs with hlow hhigh heven
  · have := hbelow hlow.le
    constructor <;> linarith
  · have := habove hhigh.le
    push_cast
    constructor <;> linarith
  · have := hbelow (not_lt.mp hhigh)
    constructor <;> linarith
  · have := habove (not_lt.mp hlow)
    push_cast
    constructor <;> linarith

/-- A number is rounded to a whole one by a half at most. -/
theorem abs_roundedUnits_sub_le (m : Nat) (e : Int) :
    |(roundedUnits 0 m e : ℚ) - m * 2 ^ e| ≤ 1 / 2 := by
  rw [roundedUnits]
  simp only [Nat.pow_eq, pow_zero, mul_one]
  split_ifs with he
  · have hpow : (2 : ℚ) ^ e.toNat = 2 ^ e := by
      rw [← zpow_natCast, Int.toNat_of_nonneg he]
    push_cast
    rw [hpow, sub_self, abs_zero]
    norm_num
  · have hpow : (m : ℚ) * 2 ^ e = m / (2 ^ (-e).toNat : Nat) := by
      push_cast
      rw [← zpow_natCast, Int.toNat_of_nonneg (by omega), zpow_neg, div_inv_eq_mul]
    rw [hpow]
    exact abs_roundQuotient_sub_le m (by positivity)

/-- **A mantissa is shortened** by less than a unit of its last place: a number with so many bits is
off by one with that many bits less than the shortened one has. -/
theorem abs_shortened_sub_le {m k : Nat} (hm : m < 2 ^ k) (e : Int) :
    |((shortened m e).1 : ℚ) * 2 ^ (shortened m e).2 - m * 2 ^ e| ≤ 2 ^ (e + k - 54) := by
  have htwo : (2 : ℚ) ≠ 0 := two_ne_zero
  obtain ⟨excess, hexcess⟩ : ∃ excess, m.log2 + 1 - mantissaBits = excess := ⟨_, rfl⟩
  have hshort : shortened m e = (roundQuotient m (2 ^ excess), e + excess) := by
    rw [shortened, hexcess, Nat.pow_eq]
  rw [hshort]
  by_cases hzero : excess = 0
  · have hround : roundQuotient m 1 = m := by
      simp [roundQuotient, Nat.mod_one]
    simp only [hzero, pow_zero, hround, Nat.cast_zero, add_zero, sub_self, abs_zero]
    positivity
  · have hm' : m ≠ 0 := by
      rintro rfl
      exact hzero (hexcess ▸ rfl)
    have hlog : m.log2 < k := (Nat.log2_lt hm').mpr hm
    have hbits : mantissaBits = 53 := rfl
    -- The quotient is off by a half of its last place, and that has the exponent `e + excess`.
    have hround := abs_roundQuotient_sub_le m (Nat.two_pow_pos excess)
    have hscale : (roundQuotient m (2 ^ excess) : ℚ) * 2 ^ (e + (excess : Int)) - m * 2 ^ e =
        ((roundQuotient m (2 ^ excess) : ℚ) - m / (2 ^ excess : Nat)) * 2 ^ (e + (excess : Int)) := by
      rw [sub_mul, zpow_add₀ htwo, zpow_natCast]
      push_cast
      field_simp
    have hunit : (0 : ℚ) < 2 ^ (e + (excess : Int)) := zpow_pos two_pos _
    rw [hscale, abs_mul, abs_of_pos hunit]
    calc |(roundQuotient m (2 ^ excess) : ℚ) - m / (2 ^ excess : Nat)| * 2 ^ (e + (excess : Int))
        ≤ 1 / 2 * 2 ^ (e + (excess : Int)) :=
          mul_le_mul_of_nonneg_right hround hunit.le
      _ = 2 ^ (e + excess - 1) := by
          rw [zpow_sub_one₀ htwo]
          ring
      _ ≤ 2 ^ (e + k - 54) := zpow_le_zpow_right₀ one_le_two (by omega)

end Decimal

namespace Iam.Review

open Calendar (day)
open Decimal (rational shortened roundedUnits)

/-! ### Days -/

theorem cast_day_toNat : ((day.toNat : Nat) : ℚ) = day := by
  norm_cast

/-- **A part of a day** is off by less than a microsecond. -/
theorem abs_partOfDay_sub_lt {m : Nat} {e : Int} (hm : m < 2 ^ (-e).toNat) :
    |(partOfDay m e : ℚ) - m * 2 ^ e * day| < 1 := by
  by_cases he : 0 < e
  · -- There is no part of a whole number of days.
    obtain rfl : m = 0 := by
      rw [Int.toNat_of_nonpos (by omega)] at hm
      omega
    simp [partOfDay, shortened, roundedUnits, Decimal.roundQuotient]
  · obtain ⟨short, hshort⟩ : ∃ short, shortened (m * day.toNat) e = short := ⟨_, rfl⟩
    have hpart : partOfDay m e = roundedUnits 0 short.1 short.2 := by
      rw [partOfDay, hshort]
    have hbits : m * day.toNat < 2 ^ ((-e).toNat + 37) := by
      rw [pow_add]
      exact Nat.mul_lt_mul'' hm (by decide)
    have hcut := Decimal.abs_shortened_sub_le hbits e
    have hround := Decimal.abs_roundedUnits_sub_le short.1 short.2
    have hexponent : e + ((-e).toNat + 37 : Nat) - 54 = -17 := by omega
    rw [hshort, Nat.cast_mul, cast_day_toNat, hexponent] at hcut
    have hproduct : (m : ℚ) * day * 2 ^ e = m * 2 ^ e * day := mul_right_comm _ _ _
    have hsmall : (2 : ℚ) ^ (-17 : Int) < 1 / 2 := by norm_num
    rw [hproduct] at hcut
    rw [hpart]
    calc |(roundedUnits 0 short.1 short.2 : ℚ) - m * 2 ^ e * day|
        ≤ |(roundedUnits 0 short.1 short.2 : ℚ) - short.1 * 2 ^ short.2| +
            |(short.1 : ℚ) * 2 ^ short.2 - m * 2 ^ e * day| := abs_sub_le _ _ _
      _ < 1 / 2 + 1 / 2 := add_lt_add_of_le_of_lt hround (hcut.trans_lt hsmall)
      _ = 1 := by norm_num

/-- A number is its whole part and what is left of it. -/
theorem truncate_add (m : Nat) (e : Int) :
    ((Decimal.truncate m e).1 : ℚ) + (m % 2 ^ (-e).toNat : Nat) * 2 ^ e = m * 2 ^ e := by
  rw [Decimal.truncate]
  split_ifs with he
  · have hpow : (2 : ℚ) ^ e.toNat = 2 ^ e := by
      rw [← zpow_natCast, Int.toNat_of_nonneg he]
    rw [Int.toNat_of_nonpos (by omega : -e ≤ 0), pow_zero, Nat.mod_one, Nat.pow_eq]
    push_cast
    rw [hpow, zero_mul, add_zero]
  · have hunit : ((2 ^ (-e).toNat : Nat) : ℚ) * 2 ^ e = 1 := by
      push_cast
      rw [← zpow_natCast, Int.toNat_of_nonneg (by omega), ← zpow_add₀ two_ne_zero, neg_add_cancel,
        zpow_zero]
    have hdiv : ((m / 2 ^ (-e).toNat : Nat) : ℚ) * (2 ^ (-e).toNat : Nat) +
        (m % 2 ^ (-e).toNat : Nat) = m := by
      exact_mod_cast Nat.div_add_mod' m _
    rw [Nat.pow_eq]
    calc ((m / 2 ^ (-e).toNat : Nat) : ℚ) + (m % 2 ^ (-e).toNat : Nat) * 2 ^ e
        = (m / 2 ^ (-e).toNat : Nat) * ((2 ^ (-e).toNat : Nat) * 2 ^ e) +
            (m % 2 ^ (-e).toNat : Nat) * 2 ^ e := by rw [hunit, mul_one]
      _ = ((m / 2 ^ (-e).toNat : Nat) * (2 ^ (-e).toNat : Nat) +
            (m % 2 ^ (-e).toNat : Nat)) * 2 ^ e := by ring
      _ = m * 2 ^ e := by rw [hdiv]

/-- The time of a number of days is off by less than a microsecond. -/
theorem abs_timeOf_sub_lt (m : Nat) (e : Int) :
    |(timeOf m e : ℚ) - m * 2 ^ e * day| < 1 := by
  have hpart : m % 2 ^ (-e).toNat < 2 ^ (-e).toNat := Nat.mod_lt _ (Nat.two_pow_pos _)
  have hlt := abs_partOfDay_sub_lt hpart
  have hsplit : (timeOf m e : ℚ) - m * 2 ^ e * day =
      partOfDay (m % 2 ^ (-e).toNat) e - (m % 2 ^ (-e).toNat : Nat) * 2 ^ e * day := by
    rw [← truncate_add m e, timeOf, Nat.pow_eq, Nat.cast_add, Nat.cast_mul, cast_day_toNat]
    ring
  rw [hsplit]
  exact hlt

end Iam.Review

/-- A value counts a number: it is a number, and neither an infinity nor none. -/
def Value.Counts (v : Value) (q : ℚ) : Prop :=
  ∃ n negative m e, v.number? = some n ∧ n.exact = .finite negative m e ∧
    q = Decimal.rational negative m e

/-- A whole number stands for itself. -/
theorem Decimal.rational_natAbs (n : Int) : rational (n < 0) n.natAbs 0 = n := by
  have habs : ((n.natAbs : Int) : ℚ) = |(n : ℚ)| := by
    rw [Int.natCast_natAbs, Int.cast_abs]
  rw [Int.cast_natCast] at habs
  rw [rational, zpow_zero, mul_one, habs]
  by_cases h : n < 0
  · have hcast : (n : ℚ) < 0 := by exact_mod_cast h
    rw [if_pos (decide_eq_true h), abs_of_neg hcast, neg_neg]
  · have hcast : (0 : ℚ) ≤ n := by exact_mod_cast not_lt.mp h
    rw [if_neg (by simpa using h), abs_of_nonneg hcast]

namespace Iam.Review

open Calendar (day)
open Decimal (rational)

variable {v : Value} {t : Calendar.Micros}

theorem eq_of_bounded {u : Calendar.Micros} (h : bounded t = .ok u) : u = t := by
  rw [bounded] at h
  split_ifs at h
  exact (Except.ok.inj h).symm

/-- The time of a number of days is off by less than a microsecond. -/
theorem exists_of_ofDays (h : ofDays v = .ok t) :
    ∃ q, v.Counts q ∧ |(t : ℚ) - q * day| < 1 := by
  rw [ofDays] at h
  split at h
  · cases h
  · rename_i n hn
    refine ⟨n, ⟨_, _, _, _, hn, rfl, (Decimal.rational_natAbs n).symm⟩, ?_⟩
    obtain rfl := eq_of_bounded h
    rw [Int.cast_mul, sub_self, abs_zero]
    exact one_pos
  · rename_i x hx
    split at h
    · cases h
    · cases h
    · rename_i negative m e hexact
      obtain rfl := eq_of_bounded h
      refine ⟨_, ⟨_, negative, m, e, hx, hexact, rfl⟩, ?_⟩
      have hlt := abs_timeOf_sub_lt m e
      cases negative with
      | false => simpa [rational] using hlt
      | true =>
          have hneg : ((-(timeOf m e : Int) : Int) : ℚ) - rational true m e * day =
              -((timeOf m e : ℚ) - m * 2 ^ e * day) := by
            rw [rational, if_pos rfl]
            push_cast
            ring
          rw [if_pos rfl, hneg, abs_neg]
          exact hlt

/-- **The time of a number of days** is what the number stands for, rounded down or up to a
microsecond. -/
theorem eq_floor_or_ceil_of_ofDays (h : ofDays v = .ok t) :
    ∃ q, v.Counts q ∧ (t = ⌊q * day⌋ ∨ t = ⌈q * day⌉) := by
  obtain ⟨q, hq, hoff⟩ := exists_of_ofDays h
  obtain ⟨hleast, hmost⟩ := abs_lt.mp hoff
  refine ⟨q, hq, ?_⟩
  rcases le_or_gt (t : ℚ) (q * day) with hle | hgt
  · left
    rw [eq_comm, Int.floor_eq_iff]
    exact ⟨hle, by linarith⟩
  · right
    rw [eq_comm, Int.ceil_eq_iff]
    exact ⟨by linarith, hgt.le⟩

end Iam.Review

end SecurityAudit
