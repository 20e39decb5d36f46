import Mathlib.Algebra.Order.Field.Rat
import Mathlib.Algebra.Order.Field.Power
import Mathlib.Order.WithBot
import SecurityAudit.Value.Basic

/-!
# The order of keys

Keys of one kind have an order: numbers by what they stand for, texts by their characters, dates and
moments by time.  A float that is no number has a place neither before nor after another number, and
keys of different kinds have no order at all.  Apart from those, the order of keys is that of three
things compared one after another: the kind, a quantity and a spelling.
-/

namespace SecurityAudit

/-- What keeps the order keeps comparisons. -/
theorem compare_of_strictMono {α β : Type} [LinearOrder α] [LinearOrder β] {f : α → β}
    (hf : StrictMono f) (a b : α) : compare (f a) (f b) = compare a b := by
  rw [← cmp_eq_compare, ← cmp_eq_compare, hf.cmp_map_eq]

namespace Decimal

/-- The rational number `± mantissa · 2 ^ exponent`. -/
def rational (negative : Bool) (mantissa : Nat) (exponent : Int) : ℚ :=
  (if negative then -(mantissa : ℚ) else mantissa) * 2 ^ exponent

/-- A number of units is what the number stands for, divided by the unit. -/
theorem inUnits_mul (negative : Bool) (mantissa : Nat) {exponent low : Int}
    (h : low ≤ exponent) :
    (inUnits negative mantissa exponent low : ℚ) * 2 ^ low =
      rational negative mantissa exponent := by
  have hpow : (2 : ℚ) ^ (exponent - low).toNat * 2 ^ low = 2 ^ exponent := by
    rw [← zpow_natCast, Int.toNat_of_nonneg (by omega), ← zpow_add₀ (by norm_num)]
    congr 1
    omega
  cases negative with
  | true =>
      simp only [inUnits, rational, if_true, Nat.pow_eq]
      push_cast
      rw [neg_mul, neg_mul, mul_assoc, hpow]
  | false =>
      simp only [inUnits, rational, Bool.false_eq_true, if_false, Nat.pow_eq]
      push_cast
      rw [mul_assoc, hpow]

/-- Numbers of units are compared as the numbers are. -/
theorem compare_inUnits (s t : Bool) (m n : Nat) {e f low : Int} (he : low ≤ e) (hf : low ≤ f) :
    compare (inUnits s m e low) (inUnits t n f low) =
      compare (rational s m e) (rational t n f) := by
  have hunit : (0 : ℚ) < 2 ^ low := by positivity
  have hmono : StrictMono fun i : Int => (i : ℚ) * 2 ^ low := by
    intro i j hij
    exact mul_lt_mul_of_pos_right (by exact_mod_cast hij) hunit
  rw [← inUnits_mul s m he, ← inUnits_mul t n hf]
  exact (compare_of_strictMono hmono _ _).symm

/-- The place of a number among the rational numbers and the two infinities. -/
def Exact.place : Exact → WithBot (WithTop ℚ)
  | .nan => 0
  | .infinite negative => if negative then ⊥ else ((⊤ : WithTop ℚ) : WithBot (WithTop ℚ))
  | .finite negative mantissa exponent =>
    ((rational negative mantissa exponent : WithTop ℚ) : WithBot (WithTop ℚ))

/-- **Numbers are compared by their places.** -/
theorem Exact.order?_eq {a b : Exact} (ha : a ≠ .nan) (hb : b ≠ .nan) :
    a.order? b = some (compare a.place b.place) := by
  cases a with
  | nan => exact absurd rfl ha
  | infinite s =>
      cases b with
      | nan => exact absurd rfl hb
      | infinite t =>
          cases s <;> cases t <;> rfl
      | finite t n f =>
          cases s with
          | true =>
              simp only [order?, place, if_true, Option.some.injEq]
              exact (compare_lt_iff_lt.mpr (WithBot.bot_lt_coe _)).symm
          | false =>
              simp only [order?, place, Bool.false_eq_true, if_false, Option.some.injEq]
              exact (compare_gt_iff_gt.mpr
                (WithBot.coe_lt_coe.mpr (WithTop.coe_lt_top _))).symm
  | finite s m e =>
      cases b with
      | nan => exact absurd rfl hb
      | infinite t =>
          cases t with
          | true =>
              simp only [order?, place, if_true, Option.some.injEq]
              exact (compare_gt_iff_gt.mpr (WithBot.bot_lt_coe _)).symm
          | false =>
              simp only [order?, place, Bool.false_eq_true, if_false, Option.some.injEq]
              exact (compare_lt_iff_lt.mpr
                (WithBot.coe_lt_coe.mpr (WithTop.coe_lt_top _))).symm
      | finite t n f =>
          simp only [order?, place, Option.some.injEq]
          rw [compare_inUnits s t m n (min_le_left e f) (min_le_right e f),
            compare_of_strictMono WithBot.coe_strictMono,
            compare_of_strictMono WithTop.coe_strictMono]

end Decimal

namespace Number

/-- Numbers are below others when their places are. -/
theorem below_iff {x y : Number} (hx : x.exact ≠ .nan) (hy : y.exact ≠ .nan) :
    x.below y = true ↔ x.exact.place < y.exact.place := by
  rw [below, order?, Decimal.Exact.order?_eq hx hy, beq_iff_eq, Option.some.injEq]
  exact compare_lt_iff_lt

/-- A number that is not below one is above zero. -/
theorem zero_below {x : Number} (hx : x.exact ≠ .nan)
    (hleast : x.below (.int 1) = false) : (Number.int 0).below x = true := by
  have hzero : (Number.int 0).exact.place < (Number.int 1).exact.place :=
    (below_iff (by simp [exact]) (by simp [exact])).mp (by decide)
  have hone : ¬ x.exact.place < (Number.int 1).exact.place := by
    rw [← below_iff hx (by simp [exact]), hleast]
    simp
  exact (below_iff (by simp [exact]) hx).mpr (hzero.trans_le (not_lt.mp hone))

end Number

namespace RawText

instance : Std.TransOrd RawText :=
  inferInstanceAs (Std.TransCmp (compareOn RawText.numbers))

/-- A code point is told by its number: no character has the number of a half. -/
theorem number_injective : Function.Injective CodePoint.number := by
  have hother : ∀ (c : Char) (h : Surrogate), c.toNat ≠ h.number := by
    intro c h heq
    have hvalid : c.toNat < 0xd800 ∨ 0xdfff < c.toNat ∧ c.toNat < 0x110000 := c.valid
    have hhalf : h.val < 0x800 := h.isLt
    simp only [Surrogate.number, Surrogate.first] at heq
    omega
  intro a b hab
  cases a with
  | char c =>
      cases b with
      | char d => rw [Char.toNat_inj.mp hab]
      | half k => exact (hother c k hab).elim
  | half h =>
      cases b with
      | char d => exact (hother d h hab.symm).elim
      | half k =>
          have hsame : h.val = k.val := by
            simpa [CodePoint.number, Surrogate.number] using hab
          rw [Fin.ext hsame]

/-- What is before the first half of a text, the half and what is after it are told by the code
points. -/
theorem eq_of_append_half {cs ds : List Char} {h k : Surrogate} {rest others : List CodePoint}
    (heq : cs.map CodePoint.char ++ .half h :: rest = ds.map CodePoint.char ++ .half k :: others) :
    cs = ds ∧ h = k ∧ rest = others := by
  induction cs generalizing ds with
  | nil =>
      cases ds with
      | nil => simpa using heq
      | cons d ds => simp at heq
  | cons c cs ih =>
      cases ds with
      | nil => simp at heq
      | cons d ds =>
          simp only [List.map_cons, List.cons_append, List.cons.injEq, CodePoint.char.injEq] at heq
          obtain ⟨rfl, heq⟩ := heq
          obtain ⟨rfl, hrest⟩ := ih heq
          exact ⟨rfl, hrest⟩

/-- A text is told by its code points. -/
theorem points_injective : Function.Injective points := by
  have hnone : ∀ (cs : List Char) (h : Surrogate) (rest others : List CodePoint),
      cs.map CodePoint.char ≠ others ++ .half h :: rest := by
    intro cs h rest others heq
    have hmem : CodePoint.half h ∈ cs.map CodePoint.char := by simp [heq]
    simp at hmem
  intro t u htu
  induction t generalizing u with
  | sound s =>
      cases u with
      | sound s' =>
          have hmap : s.toList.map CodePoint.char = s'.toList.map CodePoint.char := htu
          have hlists := (List.map_inj_right fun _ _ => CodePoint.char.inj).mp hmap
          rw [String.toList_inj.mp hlists]
      | broken front half rest => exact (hnone _ _ _ _ htu).elim
  | broken front half rest ih =>
      cases u with
      | sound s' => exact (hnone _ _ _ _ htu.symm).elim
      | broken front' half' rest' =>
          obtain ⟨hfront, rfl, hrest⟩ := eq_of_append_half htu
          rw [String.toList_inj.mp hfront, ih hrest]

instance : Std.LawfulEqOrd RawText where
  eq_of_compare {t u} h := by
    have hnumbers : t.numbers = u.numbers := Std.LawfulEqOrd.eq_of_compare h
    exact points_injective ((List.map_inj_right fun _ _ h => number_injective h).mp hnumbers)

/-- Characters one after another are compared by their numbers. -/
theorem compare_toNat (cs ds : List Char) :
    compare (cs.map Char.toNat) (ds.map Char.toNat) = compareOfLessAndEq cs ds := by
  induction cs generalizing ds with
  | nil => cases ds <;> simp [compareOfLessAndEq, compare, List.compareLex]
  | cons c cs ih =>
      cases ds with
      | nil => simp [compareOfLessAndEq, compare, List.compareLex]
      | cons d ds =>
          rw [List.map_cons, List.map_cons, List.compare_cons_cons, ih]
          rcases Nat.lt_trichotomy c.toNat d.toNat with hlt | heq | hgt
          · have hless : c < d := hlt
            rw [Nat.compare_eq_lt.mpr hlt]
            simp [compareOfLessAndEq, List.cons_lt_cons_iff, hless]
          · obtain rfl := Char.toNat_inj.mp heq
            simp [compareOfLessAndEq]
          · have hless : ¬ c < d := Nat.not_lt_of_gt hgt
            have hne : c ≠ d := fun heq => Nat.lt_irrefl _ (heq ▸ hgt)
            rw [Nat.compare_eq_gt.mpr hgt]
            simp [compareOfLessAndEq, List.cons_lt_cons_iff, hless, hne]

/-- The order of raw texts is that of texts, where there is no half. -/
theorem compare_sound (s t : String) : compare (sound s) (sound t) = compare s t := by
  have hnumbers : ∀ u : String, (sound u).numbers = u.toList.map Char.toNat := by
    intro u
    simp [numbers, points, Function.comp_def, CodePoint.number]
  have hlists : compareOfLessAndEq s.toList t.toList = compareOfLessAndEq s t := by
    simp only [compareOfLessAndEq, String.toList_inj]
    rfl
  change compare (sound s).numbers (sound t).numbers = compareOfLessAndEq s t
  rw [hnumbers, hnumbers, compare_toNat, hlists]

end RawText

namespace Value

/-- The kinds of keys.  Moments that know their distance from universal time and moments that do not
are of two kinds; what is no key has a kind of its own. -/
inductive Kind where
  | null
  | number
  | text
  | date
  | time
  | moment (universal : Bool)
  | noKey
  deriving DecidableEq

/-- The place of a kind among the kinds. -/
def Kind.index : Kind → Nat
  | .null => 0
  | .number => 1
  | .text => 2
  | .date => 3
  | .time => 4
  | .moment universal => 5 + universal.toNat
  | .noKey => 7

/-- The kind of a value. -/
def kind : Value → Kind
  | .null => .null
  | .bool _ | .int _ | .float _ => .number
  | .text _ | .broken _ _ _ => .text
  | .date _ => .date
  | .time _ => .time
  | .moment m => .moment m.offset.isSome
  | .list _ | .mapping _ => .noKey

/-- The place of a whole number. -/
def whole (n : Int) : WithBot (WithTop ℚ) :=
  ((n : ℚ) : WithTop ℚ)

/-- The quantity of a key: what a number stands for, a date in days, a time in microseconds. -/
def quantity : Value → WithBot (WithTop ℚ)
  | .bool b => (Number.int (if b then 1 else 0)).exact.place
  | .int n => (Number.int n).exact.place
  | .float x => (Number.float x).exact.place
  | .date d => whole d.number
  | .time t => whole t
  | .moment m => whole (m.wall - m.offset.getD 0)
  | _ => 0

/-- The spelling of a key: that of a text. -/
def spelling : Value → RawText
  | .text s => s
  | .broken front half rest => .broken front half rest
  | _ => ""

/-- Whole numbers are compared by their places. -/
theorem compare_whole (a b : Int) : compare (whole a) (whole b) = compare a b := by
  rw [whole, whole, compare_of_strictMono WithBot.coe_strictMono,
    compare_of_strictMono WithTop.coe_strictMono]
  exact compare_of_strictMono Int.cast_strictMono a b

/-- The quantity of a key that is a number is that of the number. -/
theorem quantity_of_number? {v : Value} {n : Number} (h : v.number? = some n) :
    v.quantity = n.exact.place ∧ v.spelling = "" := by
  cases v <;> cases h <;> exact ⟨rfl, rfl⟩

/-- What is a key is told by the kind. -/
theorem isKey_eq (v : Value) : v.isKey = decide (v.kind ≠ .noKey) := by
  cases v <;> rfl

/-- What is no key has no quantity and no spelling of its own. -/
theorem quantity_of_not_isKey {v : Value} (h : v.isKey = false) :
    v.quantity = 0 ∧ v.spelling = "" := by
  cases v <;> first | exact ⟨rfl, rfl⟩ | cases h

/-- Two values of one kind. -/
inductive OfOneKind : Value → Value → Prop
  | null : OfOneKind .null .null
  | number {a b : Value} {x y : Number} (ha : a.number? = some x) (hb : b.number? = some y) :
      OfOneKind a b
  | text {a b : Value} {s t : RawText} (ha : a.raw? = some s) (hb : b.raw? = some t) :
      OfOneKind a b
  | date (d e : Calendar.Date) : OfOneKind (.date d) (.date e)
  | time (t u : Calendar.Micros) : OfOneKind (.time t) (.time u)
  | moment {m n : Calendar.Moment} (h : m.offset.isSome = n.offset.isSome) :
      OfOneKind (.moment m) (.moment n)
  | noKey {a b : Value} (ha : a.isKey = false) (hb : b.isKey = false) : OfOneKind a b

theorem ofOneKind_of_kind_eq {a b : Value} (h : a.kind = b.kind) : OfOneKind a b := by
  cases a <;> cases b <;>
    first
    | exact .null
    | exact .number rfl rfl
    | exact .text rfl rfl
    | exact .date _ _
    | exact .time _ _
    | exact .moment (Kind.moment.inj h)
    | exact .noKey rfl rfl
    | cases h

/-- Two texts are compared as such. -/
theorem order?_of_raw? {a b : Value} {s t : RawText} (ha : a.raw? = some s)
    (hb : b.raw? = some t) : a.order? b = some (compare s t) := by
  cases a <;> cases b <;> cases ha <;> cases hb <;>
    simp only [order?, RawText.compare_sound]

/-- A text has no quantity of its own. -/
theorem quantity_of_raw? {v : Value} {s : RawText} (h : v.raw? = some s) :
    v.quantity = 0 ∧ v.spelling = s := by
  cases v <;> cases h <;> exact ⟨rfl, rfl⟩

/-- Two numbers are compared as such, unless one of them is no number. -/
theorem order?_of_number? {a b : Value} {x y : Number} (ha : a.number? = some x)
    (hb : b.number? = some y) (hx : x.exact ≠ .nan) (hy : y.exact ≠ .nan) :
    a.order? b = some (compare x.exact.place y.exact.place) := by
  have hnumbers : a.order? b = if x.same y then some .eq else x.order? y := by
    cases a <;> cases b <;> cases ha <;> cases hb <;> rfl
  have horder : x.order? y = some (compare x.exact.place y.exact.place) :=
    Decimal.Exact.order?_eq hx hy
  rw [hnumbers]
  cases hsame : x.same y with
  | true =>
      have heq : compare x.exact.place y.exact.place = .eq := by
        simpa [Number.same, hx, horder] using hsame
      rw [if_pos rfl, heq]
  | false => rw [if_neg (by simp), horder]

/-- Moments that both know their distance from universal time, or both do not, are compared by
instant. -/
theorem order?_moment {m n : Calendar.Moment} (h : m.offset.isSome = n.offset.isSome) :
    (Value.moment m).order? (.moment n) =
      some (compare (m.wall - m.offset.getD 0) (n.wall - n.offset.getD 0)) := by
  have hsince : m.since? n =
      some ((m.wall - m.offset.getD 0) - (n.wall - n.offset.getD 0)) := by
    cases hm : m.offset <;> cases hn : n.offset <;> simp_all [Calendar.Moment.since?]
  have hzero : ∀ i j : Int, compare (i - j) 0 = compare i j := by
    intro i j
    rcases Int.lt_trichotomy i j with hij | hij | hij
    · rw [Int.compare_eq_lt.mpr hij, Int.compare_eq_lt.mpr (by omega)]
    · rw [Int.compare_eq_eq.mpr hij, Int.compare_eq_eq.mpr (by omega)]
    · rw [Int.compare_eq_gt.mpr hij, Int.compare_eq_gt.mpr (by omega)]
  simp only [order?, hsince, Option.map_some, hzero]

/-- **Keys are compared by quantity and spelling** if they are of one kind. -/
theorem order?_eq {a b : Value} (ha : a.isNaN = false) (hb : b.isNaN = false)
    (hkind : a.kind = b.kind) (hkey : a.isKey = true) :
    a.order? b =
      some ((compare a.quantity b.quantity).then (compare a.spelling b.spelling)) := by
  cases ofOneKind_of_kind_eq hkind with
  | null => simp [order?, quantity, spelling]
  | number hx hy =>
      obtain ⟨hquantity, hspelling⟩ := quantity_of_number? hx
      obtain ⟨hquantity', hspelling'⟩ := quantity_of_number? hy
      rw [order?_of_number? hx hy (by simpa [isNaN, hx] using ha) (by simpa [isNaN, hy] using hb),
        hquantity, hquantity', hspelling, hspelling', Std.ReflOrd.compare_self, Ordering.then_eq]
  | text hs ht =>
      obtain ⟨hquantity, hspelling⟩ := quantity_of_raw? hs
      obtain ⟨hquantity', hspelling'⟩ := quantity_of_raw? ht
      rw [order?_of_raw? hs ht, hquantity, hquantity', hspelling, hspelling',
        Std.ReflOrd.compare_self, Ordering.eq_then]
  | date d e =>
      have hcast : compare (d.number : Int) e.number = compare d.number e.number :=
        compare_of_strictMono Nat.strictMono_cast d.number e.number
      simp [order?, quantity, spelling, compare_whole, hcast]
  | time t u => simp [order?, quantity, spelling, compare_whole]
  | moment h => simp [order?_moment h, quantity, spelling, compare_whole]
  | noKey ha hb =>
      rw [ha] at hkey
      cases hkey

/-- Lists and mappings have no order. -/
theorem order?_of_not_isKey {a b : Value} (hkey : a.isKey = false) : a.order? b = none := by
  cases a <;> cases b <;> simp_all [isKey, order?, number?]

/-- Moments that can be compared both know their distance from universal time, or both do not. -/
theorem isSome_eq_of_since? {m n : Calendar.Moment} (h : (m.since? n).isSome = true) :
    m.offset.isSome = n.offset.isSome := by
  cases hm : m.offset <;> cases hn : n.offset <;> simp_all [Calendar.Moment.since?]

/-- Moments that can be compared have a time between them. -/
theorem isSome_since?_of_comparable {m n : Calendar.Moment}
    (h : ((Value.moment m).same (.moment n) ||
      (Value.moment m).isComparable (.moment n)) = true) : (m.since? n).isSome = true := by
  simp only [same, isComparable, order?, number?, Option.isSome_map] at h
  cases hsince : m.since? n <;> simp_all

/-- Keys that can be compared are of one kind. -/
theorem kind_eq_of_comparable {a b : Value} (h : (a.same b || a.isComparable b) = true) :
    a.kind = b.kind := by
  cases a <;> cases b <;>
    first
    | rfl
    | exact congrArg Kind.moment (isSome_eq_of_since? (isSome_since?_of_comparable h))
    | simp [same, isComparable, order?, number?] at h

end Value

end SecurityAudit
