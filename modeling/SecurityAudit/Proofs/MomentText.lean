import Mathlib.Tactic.Linarith
import SecurityAudit.Calendar.IsoText
import SecurityAudit.Proofs.LetterCase

/-!
# What the text of a moment says

The reader of moments works on bytes and looks at them one by one, so what it finds in a text
depends on the bytes that it looks at, and a byte beyond the end of a text is no digit and no sign.
When a text is continued, the reader therefore finds what it found before, except that it now sees
that the text goes on.  If the text goes on with a distance from universal time, that is read with
it, and the date and the time of day are read as they were.
-/

namespace SecurityAudit.Calendar

namespace Bytes

variable {a b : Bytes} {i : Nat}

/-! ### Bytes and characters -/

/-- The bytes of a text. -/
def ofText (s : String) : Bytes := ⟨s.toUTF8.data⟩

/-- The number of bytes. -/
def size (b : Bytes) : Nat := b.data.size

/-- There is nothing beyond the end. -/
theorem lt_size_of_byte_ne_zero (h : b.byte i ≠ 0) : i < b.size := by
  by_contra hi
  have hnone : b.data[i]? = none := Array.getElem?_eq_none (not_lt.mp hi)
  exact h (by rw [byte, hnone])

theorem byte_of_size_le (h : b.size ≤ i) : b.byte i = 0 := by
  by_contra hne
  exact absurd (lt_size_of_byte_ne_zero hne) (not_lt.mpr h)

/-- Bytes with others after them. -/
def Extends (b a : Bytes) : Prop :=
  a.size ≤ b.size ∧ ∀ i < a.size, b.byte i = a.byte i

/-- Characters stand at a position, one byte each. -/
def Stands (b : Bytes) (i : Nat) (cs : List Char) : Prop :=
  ∀ j c, cs[j]? = some c → b.byte (i + j) = c.toNat

theorem stands_nil : b.Stands i [] := by
  intro j c hc
  cases hc

theorem stands_cons {c : Char} {cs : List Char} :
    b.Stands i (c :: cs) ↔ b.byte i = c.toNat ∧ b.Stands (i + 1) cs := by
  constructor
  · intro h
    refine ⟨h 0 c rfl, fun j d hd => ?_⟩
    rw [add_assoc, add_comm 1]
    exact h (j + 1) d hd
  · rintro ⟨hfirst, hrest⟩ j d hd
    cases j with
    | zero =>
        obtain rfl := Option.some.inj hd
        exact hfirst
    | succ j =>
        rw [add_comm j, ← add_assoc]
        exact hrest j d hd

theorem stands_append {cs ds : List Char} :
    b.Stands i (cs ++ ds) ↔ b.Stands i cs ∧ b.Stands (i + cs.length) ds := by
  induction cs generalizing i with
  | nil => simp [stands_nil]
  | cons c cs ih =>
      rw [List.cons_append, stands_cons, stands_cons, ih, List.length_cons, and_assoc,
        add_right_comm i,
        add_assoc i]

theorem data_ofText_append (s z : String) :
    (ofText (s ++ z)).data = (ofText s).data ++ (ofText z).data := by
  simp [ofText]

theorem size_ofText_append (s z : String) :
    (ofText (s ++ z)).size = (ofText s).size + (ofText z).size := by
  rw [size, data_ofText_append, Array.size_append]
  rfl

theorem byte_ofText_append (s z : String) (j : Nat) :
    (ofText (s ++ z)).byte ((ofText s).size + j) = (ofText z).byte j := by
  have hle : (ofText s).data.size ≤ (ofText s).data.size + j := Nat.le_add_right _ _
  rw [byte, byte, data_ofText_append, size, Array.getElem?_append_right hle,
    Nat.add_sub_cancel_left]

theorem extends_ofText_append (s z : String) : (ofText (s ++ z)).Extends (ofText s) := by
  refine ⟨size_ofText_append s z ▸ Nat.le_add_right _ _, fun i hi => ?_⟩
  rw [byte, byte, data_ofText_append, Array.getElem?_append_left hi]

theorem ofList_cons (c : Char) (cs : List Char) :
    String.ofList (c :: cs) = String.singleton c ++ String.ofList cs := by
  rw [← String.toList_inj]
  simp

/-- A text has no more characters than bytes. -/
theorem length_le_size_ofText (s : String) : s.length ≤ (ofText s).size := by
  obtain ⟨cs, rfl⟩ : ∃ cs, s = String.ofList cs := ⟨s.toList, String.ofList_toList.symm⟩
  induction cs with
  | nil => exact Nat.zero_le _
  | cons c cs ih =>
      have hone : (ofText (String.singleton c)).size = c.utf8Size :=
        String.utf8ByteSize_singleton
      have hpos := c.utf8Size_pos
      rw [ofList_cons, String.length_append, size_ofText_append, hone, String.length_singleton]
      omega

/-- A character of ASCII is one byte. -/
theorem ofText_singleton {c : Char} (hc : c.toNat < 128) :
    (ofText (String.singleton c)).size = 1 ∧ (ofText (String.singleton c)).byte 0 = c.toNat :=
  Text.forall_ascii (P := fun c => (ofText (String.singleton c)).size = 1 ∧
    (ofText (String.singleton c)).byte 0 = c.toNat) (by decide +kernel) hc

/-- **Characters of ASCII stand where they are written.** -/
theorem stands_ofText {cs : List Char} (hcs : ∀ c ∈ cs, c.toNat < 128) (s : String) :
    (ofText (s ++ String.ofList cs)).Stands (ofText s).size cs ∧
      (ofText (s ++ String.ofList cs)).size = (ofText s).size + cs.length := by
  induction cs generalizing s with
  | nil => simp [stands_nil]
  | cons c cs ih =>
      obtain ⟨hc, hrest⟩ := List.forall_mem_cons.mp hcs
      obtain ⟨hone, hletter⟩ := ofText_singleton hc
      have hsize : (ofText (s ++ String.singleton c)).size = (ofText s).size + 1 := by
        rw [size_ofText_append, hone]
      obtain ⟨hstands, hlength⟩ := ih hrest (s ++ String.singleton c)
      rw [hsize] at hstands hlength
      rw [ofList_cons, ← String.append_assoc]
      refine ⟨stands_cons.mpr ⟨?_, hstands⟩, ?_⟩
      · have hbyte := (extends_ofText_append (s ++ String.singleton c) (String.ofList cs)).2
          (ofText s).size (by omega)
        rw [hbyte, ← Nat.add_zero (ofText s).size, byte_ofText_append, hletter]
      · rw [hlength, List.length_cons]
        omega

/-! ### Digits -/

theorem isDigit_iff {n : Nat} : isDigit n = true ↔ 48 ≤ n ∧ n ≤ 57 := by
  rw [isDigit, Bool.and_eq_true, decide_eq_true_eq, decide_eq_true_eq]

theorem digits?_succ_eq_some_iff {count value : Nat} :
    b.digits? i (count + 1) = some value ↔ ∃ high, b.digits? i count = some high ∧
      isDigit (b.byte (i + count)) = true ∧ high * 10 + (b.byte (i + count) - 48) = value := by
  rw [digits?]
  simp only [Option.bind_eq_bind, Option.bind_eq_some_iff, Option.ite_none_right_eq_some,
    Option.some.injEq]

/-- Digits are not beyond the end, -/
theorem add_le_size_of_digits? {count value : Nat} (h : b.digits? i count = some value) :
    count = 0 ∨ i + count ≤ b.size := by
  cases count with
  | zero => exact .inl rfl
  | succ count =>
      obtain ⟨high, -, hdigit, -⟩ := digits?_succ_eq_some_iff.mp h
      have hbyte : b.byte (i + count) ≠ 0 := by
        have := isDigit_iff.mp hdigit
        omega
      have := lt_size_of_byte_ne_zero hbyte
      right
      omega

/-- and they are read as they were when the text goes on. -/
theorem digits?_of_extends (hab : b.Extends a) {count value : Nat}
    (h : a.digits? i count = some value) : b.digits? i count = some value := by
  induction count generalizing value with
  | zero => exact h
  | succ count ih =>
      obtain ⟨high, hhigh, hdigit, hvalue⟩ := digits?_succ_eq_some_iff.mp h
      have hne : a.byte (i + count) ≠ 0 := by
        have := isDigit_iff.mp hdigit
        omega
      have hbyte := hab.2 _ (lt_size_of_byte_ne_zero hne)
      rw [digits?_succ_eq_some_iff, hbyte]
      exact ⟨high, ih hhigh, hdigit, hvalue⟩

/-- What comes of the digits is what it was. -/
theorem bind_digits?_of_extends (hab : b.Extends a) {α : Type} {f : Nat → Option α} {r : α}
    {count : Nat} (h : (a.digits? i count).bind f = some r) :
    (b.digits? i count).bind f = some r := by
  obtain ⟨value, hvalue, h⟩ := Option.bind_eq_some_iff.mp h
  rw [digits?_of_extends hab hvalue]
  exact h

/-- The digits from a position on are passed over. -/
theorem skipDigits_eq {stop fuel p : Nat} (hle : i ≤ p) (hfuel : p ≤ i + fuel) (hstop : p ≤ stop)
    (hdigits : ∀ j, i ≤ j → j < p → isDigit (b.byte j) = true)
    (hend : p = stop ∨ isDigit (b.byte p) = false) : b.skipDigits stop fuel i = p := by
  induction fuel generalizing i with
  | zero =>
      rw [skipDigits]
      omega
  | succ fuel ih =>
      rw [skipDigits]
      by_cases heq : i = p
      · subst heq
        rcases hend with rfl | hend
        · simp
        · simp [hend]
      · have hlt : i < p := by omega
        have hdigit := hdigits i le_rfl hlt
        have hbefore : i < stop := by omega
        rw [if_pos (by simp [hdigit, hbefore])]
        exact ih (by omega) (by omega) fun j hj => hdigits j (by omega)

/-- What is passed over are digits, and a digit does not follow. -/
theorem skipDigits_spec {stop fuel : Nat} (hle : i ≤ stop) (hfuel : stop ≤ i + fuel) :
    i ≤ b.skipDigits stop fuel i ∧ b.skipDigits stop fuel i ≤ stop ∧
      (∀ j, i ≤ j → j < b.skipDigits stop fuel i → isDigit (b.byte j) = true) ∧
      (b.skipDigits stop fuel i = stop ∨ isDigit (b.byte (b.skipDigits stop fuel i)) = false) := by
  induction fuel generalizing i with
  | zero =>
      rw [skipDigits]
      exact ⟨le_rfl, hle, fun j hj hj' => absurd hj' (by omega), .inl (by omega)⟩
  | succ fuel ih =>
      rw [skipDigits]
      split_ifs with h
      · obtain ⟨hlt, hdigit⟩ := Bool.and_eq_true_iff.mp h
        have hlt : i < stop := of_decide_eq_true hlt
        obtain ⟨hafter, hbefore, hdigits, hend⟩ := ih (by omega : i + 1 ≤ stop) (by omega)
        refine ⟨by omega, hbefore, fun j hj hj' => ?_, hend⟩
        by_cases hji : j = i
        · exact hji ▸ hdigit
        · exact hdigits j (by omega) hj'
      · refine ⟨le_rfl, hle, fun j hj hj' => absurd hj' (by omega), ?_⟩
        rw [Bool.and_eq_true, not_and_or, decide_eq_true_eq] at h
        rcases h with h | h
        · exact .inl (by omega)
        · exact .inr (Bool.eq_false_iff.mpr h)

/-! ### The date -/

/-- A text of seven bytes is a date and nothing else. -/
theorem ne_seven_of_dateEnd? {stop : Nat} (h : b.dateEnd? b.size = some stop)
    (hstop : stop < b.size) : b.size ≠ 7 := by
  intro heq
  simp only [dateEnd?, heq, beq_self_eq_true, if_true, Option.some.injEq] at h
  omega

/-- **The date ends where it did**, if the text did not end with it and does not go on with a
digit. -/
theorem dateEnd?_of_extends (hab : b.Extends a) (hsize : 7 ≤ a.size) {stop : Nat}
    (h : a.dateEnd? a.size = some stop) (hstop : stop < a.size)
    (hnext : isDigit (b.byte a.size) = false) : b.dateEnd? b.size = some stop := by
  obtain ⟨hle, hbyte⟩ := hab
  have hseven : ¬ a.size = 7 := ne_seven_of_dateEnd? h hstop
  have hfour := hbyte 4 (by omega)
  have hfive := hbyte 5 (by omega)
  have hseven' : ¬ b.size = 7 := by omega
  simp only [dateEnd?, beq_iff_eq, if_neg hseven, if_neg hseven', hfour, hfive] at h ⊢
  by_cases hhyphen : a.byte 4 = 45
  · by_cases hweek : a.byte 5 = 87
    · rw [if_pos hhyphen, if_pos hweek] at h ⊢
      -- The byte after the week and the one after the next show whether there is a day.
      have height : 8 < a.size := by
        by_contra hnot
        simp [hnot] at h
        omega
      have hdash := hbyte 8 height
      by_cases hday : a.byte 8 = 45
      · have hten : 10 < a.size := by
          by_contra hnot
          by_cases hnine : a.size = 9
          · simp [hday, hnine] at h
          · simp [height, hday, hnine, hnot] at h
            omega
        have hdigit := hbyte 10 hten
        have hnine : ¬ a.size = 9 := by omega
        have hnine' : ¬ b.size = 9 := by omega
        have height' : 8 < b.size := by omega
        have hten' : 10 < b.size := by omega
        simpa [height, hday, hnine, hten, hdash, hdigit, height', hnine', hten'] using h
      · simpa [hday, hdash] using h
    · rw [if_pos hhyphen, if_neg hweek] at h ⊢
      exact h
  · by_cases hweek : a.byte 4 = 87
    · rw [if_neg hhyphen, if_pos hweek] at h ⊢
      have hskip : b.skipDigits b.size b.size 7 = a.skipDigits a.size a.size 7 := by
        obtain ⟨hafter, hbefore, hdigits, hend⟩ :=
          skipDigits_spec (b := a) hsize (by omega : a.size ≤ 7 + a.size)
        refine skipDigits_eq hafter (by omega) (by omega) (fun j hj hj' => ?_) (.inr ?_)
        · rw [hbyte j (by omega)]
          exact hdigits j hj hj'
        · rcases hend with heq | hend
          · rwa [heq]
          · by_cases hlast : a.skipDigits a.size a.size 7 = a.size
            · rwa [hlast]
            · rwa [hbyte _ (by omega)]
      rw [hskip]
      exact h
    · rw [if_neg hhyphen, if_neg hweek] at h ⊢
      exact h

/-- **The date is read as it was**, if the text did not end with it. -/
theorem date?_of_extends (hab : b.Extends a) (hsize : 8 ≤ a.size) {stop : Nat}
    (hstop : stop < a.size) {d : Date} (h : a.date? stop = some d) : b.date? stop = some d := by
  obtain ⟨-, hbyte⟩ := id hab
  rw [date?] at h ⊢
  obtain ⟨year, hyear, h⟩ := Option.bind_eq_some_iff.mp h
  rw [digits?_of_extends hab hyear, Option.bind_eq_bind, Option.bind_some, hbyte 4 (by omega)]
  generalize (a.byte 4 == 45) = hyphens at h ⊢
  obtain ⟨k, hk⟩ : ∃ k, (if hyphens = true then 5 else 4) = k := ⟨_, rfl⟩
  have hle : k ≤ 5 := by
    split at hk <;> omega
  simp only [hk, hbyte k (by omega)] at h ⊢
  by_cases hweek : (a.byte k == 87) = true
  · rw [if_pos hweek] at h ⊢
    obtain ⟨week, hdigits, h⟩ := Option.bind_eq_some_iff.mp h
    rw [digits?_of_extends hab hdigits, Option.bind_some]
    by_cases hday : k + 3 < stop
    · rw [if_pos hday] at h ⊢
      rw [hbyte (k + 3) (by omega)]
      split_ifs at h ⊢
      all_goals exact bind_digits?_of_extends hab h
    · rw [if_neg hday] at h ⊢
      exact h
  · rw [if_neg hweek] at h ⊢
    obtain ⟨month, hdigits, h⟩ := Option.bind_eq_some_iff.mp h
    rw [digits?_of_extends hab hdigits, Option.bind_some, hbyte (k + 2) (by omega)]
    split_ifs at h ⊢
    all_goals exact bind_digits?_of_extends hab h

/-! ### The time of day -/

/-- A fraction is read as it was, but for whether the text goes on. -/
theorem fraction?_of_extends (hab : b.Extends a) {c r : Clock}
    (h : a.fraction? c i a.size = some r) :
    ∃ more, b.fraction? c i a.size = some { r with more := more } := by
  rw [fraction?] at h ⊢
  obtain ⟨value, hvalue, h⟩ := Option.bind_eq_some_iff.mp h
  obtain rfl := Option.some.inj h
  rw [digits?_of_extends hab hvalue]
  exact ⟨_, rfl⟩

/-- A clock is read as it was, but for whether the text goes on. -/
theorem clockFrom?_of_extends (hab : b.Extends a) {left field : Nat} {colons : Bool} {c r : Clock}
    (h : a.clockFrom? a.size left field i colons c = some r) :
    ∃ more, b.clockFrom? a.size left field i colons c = some { r with more := more } := by
  induction left generalizing field i colons c with
  | zero => exact fraction?_of_extends hab h
  | succ left ih =>
      rw [clockFrom?] at h ⊢
      obtain ⟨value, hvalue, h⟩ := Option.bind_eq_some_iff.mp h
      rw [digits?_of_extends hab hvalue, Option.bind_eq_bind, Option.bind_some]
      by_cases hend : a.size ≤ i + 3
      · simp only [if_pos hend, Option.some.injEq] at h ⊢
        subst h
        exact ⟨_, rfl⟩
      · have hbyte := hab.2 (i + 2) (by omega)
        simp only [if_neg hend, hbyte] at h ⊢
        generalize (if (field == 0) = true then a.byte (i + 2) == 58 else colons) = colons' at h ⊢
        split_ifs at h ⊢
        · exact ih h
        · exact fraction?_of_extends hab h
        · exact ih h

/-- A byte is the sign or the letter that begins the distance from universal time. -/
def BeginsZone (n : Nat) : Prop := n = 43 ∨ n = 45 ∨ n = 90

theorem zoneStart_of_beginsZone {stop fuel : Nat} (h : BeginsZone (b.byte i)) :
    b.zoneStart stop (fuel + 1) i = i := by
  rw [zoneStart, if_pos]
  rcases h with h | h | h <;> simp [h]

theorem zoneStart_of_not_beginsZone {stop fuel : Nat} (h : ¬ BeginsZone (b.byte i)) :
    b.zoneStart stop (fuel + 1) i =
      if i + 1 < stop then b.zoneStart stop fuel (i + 1) else i + 1 := by
  rw [zoneStart, if_neg]
  simpa [BeginsZone, or_assoc] using h

/-- The distance from universal time begins where nothing before it can begin it. -/
theorem zoneStart_eq {stop fuel p : Nat} (hle : i ≤ p) (hfuel : p ≤ i + fuel) (hi : i < stop)
    (hstop : p ≤ stop) (hbefore : ∀ j, i ≤ j → j < p → ¬ BeginsZone (b.byte j))
    (hat : p = stop ∨ BeginsZone (b.byte p)) : b.zoneStart stop fuel i = p := by
  induction fuel generalizing i with
  | zero =>
      rw [zoneStart]
      omega
  | succ fuel ih =>
      by_cases heq : i = p
      · subst heq
        rcases hat with rfl | hat
        · omega
        · exact zoneStart_of_beginsZone hat
      · rw [zoneStart_of_not_beginsZone (hbefore i le_rfl (by omega))]
        split_ifs with hnext
        · exact ih (by omega) (by omega) hnext fun j hj => hbefore j (by omega)
        · omega

/-- Nothing before the place where the distance from universal time begins can begin it. -/
theorem not_beginsZone_of_lt {stop fuel j : Nat} (hfuel : stop ≤ i + fuel) (hj : i ≤ j)
    (hlt : j < b.zoneStart stop fuel i) : ¬ BeginsZone (b.byte j) := by
  induction fuel generalizing i with
  | zero =>
      rw [zoneStart] at hlt
      omega
  | succ fuel ih =>
      intro hzone
      by_cases hi : BeginsZone (b.byte i)
      · rw [zoneStart_of_beginsZone hi] at hlt
        omega
      · have hne : j ≠ i := by
          rintro rfl
          exact hi hzone
        rw [zoneStart_of_not_beginsZone hi] at hlt
        split_ifs at hlt
        · exact ih (by omega) (by omega) hlt hzone
        · omega

/-- A clock shows a time of day. -/
def Clock.InDay (c : Clock) : Prop :=
  c.hours ≤ 23 ∧ c.minutes ≤ 59 ∧ c.seconds ≤ 59

/-- The distance from universal time that a clock after a sign shows. -/
def Clock.distance (z : Clock) (sign : Nat) : Micros :=
  if sign == 45 then -z.time else z.time

/-- The time of day on a clock, and the distance from universal time that begins at a position. -/
def zoned? (b : Bytes) (c : Clock) (zone : Nat) : Option (Micros × Option Micros) :=
  if zone == b.size then if c.more then none else some (c.time, none)
  else if b.byte zone == 90 then if b.byte (zone + 1) == 0 then some (c.time, some 0) else none
  else
    (b.clock? (zone + 1) b.size).bind fun z =>
      let distance := z.distance (b.byte zone)
      if z.more || day ≤ distance || distance ≤ -day then none else some (c.time, some distance)

/-- A time of day is read up to where the distance from universal time begins. -/
theorem time?_eq_some_iff {start : Nat} {r : Micros × Option Micros} :
    b.time? start = some r ↔ ∃ c, b.clock? start (b.zoneStart b.size b.size start) = some c ∧
      c.InDay ∧ b.zoned? c (b.zoneStart b.size b.size start) = some r := by
  have hin : ∀ c : Clock, (!(decide (c.hours ≤ 23) && decide (c.minutes ≤ 59) &&
      decide (c.seconds ≤ 59))) = false ↔ c.InDay := by
    intro c
    simp [Clock.InDay, and_assoc]
  rw [time?, Option.bind_eq_bind, Option.bind_eq_some_iff]
  refine exists_congr fun c => and_congr_right fun _ => ?_
  by_cases hday : c.InDay
  · simp only [(hin c).mpr hday, hday, Bool.false_eq_true, if_false, true_and]
    rfl
  · have hnot := Bool.eq_true_of_not_eq_false (mt (hin c).mp hday)
    simp only [hday, hnot, if_true, false_and, reduceCtorEq]

/-- There is no distance from universal time in a text that ends where it would begin. -/
theorem eq_size_of_zoned? {c : Clock} {zone : Nat} {t : Micros}
    (h : b.zoned? c zone = some (t, none)) : zone = b.size ∧ c.time = t := by
  rw [zoned?] at h
  split_ifs at h with hend hmore hzulu hlast
  · exact ⟨eq_of_beq hend, (Prod.mk.inj (Option.some.inj h)).1⟩
  · simp at h
  · obtain ⟨z, -, h⟩ := Option.bind_eq_some_iff.mp h
    dsimp only at h
    split_ifs at h
    simp at h

/-- A clock after a sign is the distance from universal time. -/
theorem zoned?_of_sign {c z : Clock} {zone : Nat} (hsign : b.byte zone = 43 ∨ b.byte zone = 45)
    (hz : b.clock? (zone + 1) b.size = some z) (hmore : z.more = false) (hday : z.time < day) :
    b.zoned? c zone = some (c.time, some (z.distance (b.byte zone))) := by
  have hbefore : zone < b.size := by
    refine lt_size_of_byte_ne_zero ?_
    omega
  have hletter : b.byte zone ≠ 90 := by omega
  have hnonneg : 0 ≤ z.time := Int.natCast_nonneg _
  have hbelow : ¬ day ≤ z.distance (b.byte zone) := by
    rw [Clock.distance]
    split_ifs <;> linarith
  have habove : ¬ z.distance (b.byte zone) ≤ -day := by
    rw [Clock.distance]
    split_ifs <;> linarith
  rw [zoned?, hz]
  simp [hbefore.ne, hletter, hmore, hbelow, habove]

theorem zoned?_of_end {c : Clock} (hmore : c.more = false) :
    b.zoned? c b.size = some (c.time, none) := by
  rw [zoned?, if_pos (beq_self_eq_true _), hmore]
  rfl

/-- A clock has at least its hours. -/
theorem add_two_le_of_clock? {start stop : Nat} {c : Clock} (h : b.clock? start stop = some c) :
    start + 2 ≤ b.size := by
  rw [clock?, clockFrom?] at h
  obtain ⟨hours, hhours, -⟩ := Option.bind_eq_some_iff.mp h
  have := add_le_size_of_digits? hhours
  omega

/-- **The time of day is read as it was**, and with it the distance from universal time that the
text goes on with. -/
theorem time?_of_extends (hab : b.Extends a) {start : Nat} {t : Micros}
    (h : a.time? start = some (t, none)) (hsign : b.byte a.size = 43 ∨ b.byte a.size = 45)
    {z : Clock} (hz : b.clock? (a.size + 1) b.size = some z) (hmore : z.more = false)
    (hday : z.time < day) :
    b.time? start = some (t, some (z.distance (b.byte a.size))) := by
  obtain ⟨c, hc, hinDay, h⟩ := time?_eq_some_iff.mp h
  obtain ⟨hstop, rfl⟩ := eq_size_of_zoned? h
  rw [hstop] at hc
  have hlonger : a.size < b.size := by
    refine lt_size_of_byte_ne_zero ?_
    omega
  have hstart : start + 2 ≤ a.size := add_two_le_of_clock? hc
  have hzone : b.zoneStart b.size b.size start = a.size := by
    refine zoneStart_eq (by omega) (by omega) (by omega) hab.1 (fun j hj hlt => ?_) (.inr ?_)
    · have hnot : ¬ BeginsZone (a.byte j) :=
        not_beginsZone_of_lt (by omega : a.size ≤ start + a.size) hj (by omega)
      rwa [hab.2 j hlt]
    · rcases hsign with hsign | hsign
      · exact .inl hsign
      · exact .inr (.inl hsign)
  obtain ⟨more, hc'⟩ := clockFrom?_of_extends hab hc
  rw [time?_eq_some_iff, hzone]
  exact ⟨_, hc', hinDay, zoned?_of_sign hsign hz hmore hday⟩

/-! ### Written clocks -/

/-- A digit is read from the byte where it stands. -/
theorem byte_digitChar {d : Nat} (hd : d < 10) :
    isDigit d.digitChar.toNat = true ∧ d.digitChar.toNat - 48 = d := by
  have hall : ∀ d : Fin 10, isDigit d.val.digitChar.toNat = true ∧
      d.val.digitChar.toNat - 48 = d.val := by
    decide
  exact hall ⟨d, hd⟩

/-- A number in so many digits and one more ends with its last digit. -/
theorem toList_padded_succ {width : Nat} (hwidth : 1 ≤ width) (n : Nat) :
    (padded (width + 1) n).toList = (padded width (n / 10)).toList ++ [(n % 10).digitChar] := by
  rw [padded, padded, String.toList_ofList, String.toList_ofList, List.append_assoc]
  by_cases hn : n < 10
  · rw [Nat.toDigits_of_lt_base hn, Nat.div_eq_of_lt hn, Nat.mod_eq_of_lt hn,
      Nat.toDigits_of_lt_base (by decide : 0 < 10), List.length_singleton, List.length_singleton]
    obtain ⟨k, rfl⟩ := Nat.exists_eq_add_of_le' hwidth
    rw [Nat.add_sub_cancel, Nat.add_sub_cancel, List.replicate_succ']
    simp
  · rw [Nat.toDigits_eq_if (by decide), if_neg hn, List.length_append, List.length_singleton,
      Nat.add_sub_add_right]

theorem toList_padded_one {n : Nat} (hn : n < 10) : (padded 1 n).toList = [n.digitChar] := by
  rw [padded, String.toList_ofList, Nat.toDigits_of_lt_base hn]
  rfl

theorem length_padded {width n : Nat} (hwidth : 1 ≤ width) (hn : n < 10 ^ width) :
    (padded width n).toList.length = width := by
  induction width, hwidth using Nat.le_induction generalizing n with
  | base =>
      rw [toList_padded_one (by omega)]
      rfl
  | succ width hwidth ih =>
      rw [toList_padded_succ hwidth, List.length_append, ih (by omega), List.length_singleton]

theorem isDigit_of_mem_padded {width n : Nat} {c : Char} (hc : c ∈ (padded width n).toList) :
    isDigit c.toNat = true := by
  rw [padded, String.toList_ofList, List.mem_append] at hc
  rcases hc with hc | hc
  · obtain ⟨-, rfl⟩ := List.mem_replicate.mp hc
    rfl
  · have hdigit := Nat.isDigit_of_mem_toDigits (by decide) (by decide) hc
    rw [Char.isDigit, Bool.and_eq_true, decide_eq_true_eq, decide_eq_true_eq] at hdigit
    rw [isDigit_iff]
    exact hdigit

theorem isDigit_of_stands {width n : Nat} (h : b.Stands i (padded width n).toList)
    (hlength : 0 < (padded width n).toList.length) : isDigit (b.byte i) = true := by
  have hfirst := h 0 _ (List.getElem?_eq_getElem hlength)
  rw [Nat.add_zero] at hfirst
  rw [hfirst]
  exact isDigit_of_mem_padded (List.getElem_mem hlength)

/-- **A written number is read.** -/
theorem digits?_of_stands {width n : Nat} (hwidth : 1 ≤ width) (hn : n < 10 ^ width)
    (h : b.Stands i (padded width n).toList) : b.digits? i width = some n := by
  induction width, hwidth using Nat.le_induction generalizing n with
  | base =>
      rw [toList_padded_one (by omega)] at h
      obtain ⟨hdigit, hvalue⟩ := byte_digitChar (show n < 10 by omega)
      rw [digits?_succ_eq_some_iff, Nat.add_zero, (stands_cons.mp h).1, hvalue]
      exact ⟨0, rfl, hdigit, Nat.zero_add n⟩
  | succ width hwidth ih =>
      rw [toList_padded_succ hwidth, stands_append, length_padded hwidth (by omega)] at h
      obtain ⟨hdigit, hvalue⟩ := byte_digitChar (Nat.mod_lt n (by decide : 10 > 0))
      rw [digits?_succ_eq_some_iff, (stands_cons.mp h.2).1, hvalue]
      exact ⟨n / 10, ih (by omega) h.1, hdigit, by omega⟩

section

variable {stop left field value : Nat} {colons : Bool} {c : Clock}

/-- A field of a clock, and a colon before the next one. -/
theorem clockFrom?_of_colon (hvalue : b.digits? i 2 = some value) (hcolon : b.byte (i + 2) = 58)
    (hstop : i + 3 < stop) (hcolons : field = 0 ∨ colons = true) :
    b.clockFrom? stop (left + 1) field i colons c =
      b.clockFrom? stop left (field + 1) (i + 3) true (c.put field value) := by
  have hcolons' : (if (field == 0) = true then true else colons) = true := by
    rcases hcolons with rfl | rfl <;> simp
  rw [clockFrom?, hvalue, Option.bind_eq_bind, Option.bind_some]
  simp only [hcolon, beq_self_eq_true, hcolons', if_neg (not_le.mpr hstop), Bool.and_self, if_true]

/-- A field of a clock, and a point before the fraction. -/
theorem clockFrom?_of_point (hvalue : b.digits? i 2 = some value) (hpoint : b.byte (i + 2) = 46)
    (hstop : i + 3 < stop) :
    b.clockFrom? stop (left + 1) field i colons c =
      b.fraction? (c.put field value) (i + 3) stop := by
  rw [clockFrom?, hvalue, Option.bind_eq_bind, Option.bind_some]
  simp [hpoint, if_neg (not_le.mpr hstop)]

/-- The last field of a clock. -/
theorem clockFrom?_of_end (hvalue : b.digits? i 2 = some value) (hend : i + 2 = b.size) :
    b.clockFrom? b.size (left + 1) field i colons c =
      some { c.put field value with more := false } := by
  have hbyte : b.byte (i + 2) = 0 := byte_of_size_le hend.ge
  rw [clockFrom?, hvalue, Option.bind_eq_bind, Option.bind_some]
  simp only [if_pos (by omega : b.size ≤ i + 3), hbyte]
  rfl

/-- A fraction of six digits at the end. -/
theorem fraction?_of_end (hvalue : b.digits? i 6 = some value) (hend : i + 6 = b.size) :
    b.fraction? c i b.size = some { c with micros := value, more := false } := by
  have hcount : min (b.size - i) 6 = 6 := by omega
  have hskip : b.skipDigits b.data.size b.data.size (i + 6) = b.size :=
    skipDigits_eq hend.le (Nat.le_add_left _ _) le_rfl (fun j hj hj' => by omega) (.inl rfl)
  have hbyte : b.byte b.size = 0 := byte_of_size_le le_rfl
  rw [fraction?, hcount, hvalue, Option.bind_eq_bind, Option.bind_some]
  simp only [hskip, hbyte, Nat.sub_self, Nat.pow_eq, pow_zero, mul_one]
  rfl

end

/-- What a clock shows is written: hours and minutes, and seconds and microseconds if they are
shown. -/
inductive Written : Clock → List Char → Prop
  | minutes {h m : Nat} (hh : h < 100) (hm : m < 100) :
      Written { hours := h, minutes := m } ((padded 2 h).toList ++ ':' :: (padded 2 m).toList)
  | seconds {h m s : Nat} (hh : h < 100) (hm : m < 100) (hs : s < 100) :
      Written { hours := h, minutes := m, seconds := s }
        ((padded 2 h).toList ++ ':' :: ((padded 2 m).toList ++ ':' :: (padded 2 s).toList))
  | micros {h m s u : Nat} (hh : h < 100) (hm : m < 100) (hs : s < 100) (hu : u < 1000000) :
      Written { hours := h, minutes := m, seconds := s, micros := u }
        ((padded 2 h).toList ++ ':' :: ((padded 2 m).toList ++ ':' :: ((padded 2 s).toList ++
          '.' :: (padded 6 u).toList)))

theorem toNat_colon : ':'.toNat = 58 := rfl

theorem toNat_point : '.'.toNat = 46 := rfl

/-- **A written clock is read.** -/
theorem clock?_of_written {c : Clock} {cs : List Char} (hc : Written c cs) (h : b.Stands i cs)
    (hend : i + cs.length = b.size) : b.clock? i b.size = some c := by
  have hlength : ∀ {n : Nat}, n < 100 → (padded 2 n).toList.length = 2 := fun hn =>
    length_padded (by decide) hn
  have hdigits : ∀ {i n : Nat}, n < 100 → b.Stands i (padded 2 n).toList →
      b.digits? i 2 = some n := fun hn h => digits?_of_stands (by decide) hn h
  cases hc with
  | minutes hh hm =>
      simp only [List.length_append, List.length_cons, hlength hh, hlength hm, stands_append,
        stands_cons, toNat_colon, add_assoc, Nat.reduceAdd] at h hend
      obtain ⟨hhours, hcolon, hminutes⟩ := h
      rw [clock?, clockFrom?_of_colon (hdigits hh hhours) hcolon (by omega) (.inl rfl),
        clockFrom?_of_end (hdigits hm hminutes) (by omega)]
      rfl
  | seconds hh hm hs =>
      simp only [List.length_append, List.length_cons, hlength hh, hlength hm, hlength hs,
        stands_append, stands_cons, toNat_colon, add_assoc, Nat.reduceAdd] at h hend
      obtain ⟨hhours, hcolon, hminutes, hcolon', hseconds⟩ := h
      rw [clock?, clockFrom?_of_colon (hdigits hh hhours) hcolon (by omega) (.inl rfl),
        clockFrom?_of_colon (hdigits hm hminutes) hcolon' (by omega) (.inr rfl),
        clockFrom?_of_end (hdigits hs hseconds) (by omega)]
      rfl
  | micros hh hm hs hu =>
      have hsix := length_padded (by decide : 1 ≤ 6) hu
      simp only [List.length_append, List.length_cons, hlength hh, hlength hm, hlength hs, hsix,
        stands_append, stands_cons, toNat_colon, toNat_point, add_assoc, Nat.reduceAdd] at h hend
      obtain ⟨hhours, hcolon, hminutes, hcolon', hseconds, hpoint, hmicros⟩ := h
      rw [clock?, clockFrom?_of_colon (hdigits hh hhours) hcolon (by omega) (.inl rfl),
        clockFrom?_of_colon (hdigits hm hminutes) hcolon' (by omega) (.inr rfl),
        clockFrom?_of_point (hdigits hs hseconds) hpoint (by omega),
        fraction?_of_end (digits?_of_stands (by decide) hu hmicros) (by omega)]
      rfl

/-- A digit, a colon or a point. -/
def IsClockLetter (x : Char) : Prop :=
  isDigit x.toNat = true ∨ x = ':' ∨ x = '.'

/-- A clock is written in digits, colons and points. -/
theorem isClockLetter_of_written {c : Clock} {cs : List Char} (hc : Written c cs) :
    ∀ x ∈ cs, IsClockLetter x := by
  have hnumber : ∀ {width n : Nat}, ∀ x ∈ (padded width n).toList, IsClockLetter x :=
    fun x hx => .inl (isDigit_of_mem_padded hx)
  have hcolon : IsClockLetter ':' := .inr (.inl rfl)
  have hpoint : IsClockLetter '.' := .inr (.inr rfl)
  cases hc with
  | minutes =>
      simp only [List.forall_mem_append, List.forall_mem_cons]
      exact ⟨hnumber, hcolon, hnumber⟩
  | seconds =>
      simp only [List.forall_mem_append, List.forall_mem_cons]
      exact ⟨hnumber, hcolon, hnumber, hcolon, hnumber⟩
  | micros =>
      simp only [List.forall_mem_append, List.forall_mem_cons]
      exact ⟨hnumber, hcolon, hnumber, hcolon, hnumber, hpoint, hnumber⟩

/-- These are characters of ASCII that do not begin a distance from universal time. -/
theorem toNat_of_written {c : Clock} {cs : List Char} (hc : Written c cs) {x : Char}
    (hx : x ∈ cs) : x.toNat < 128 ∧ ¬ BeginsZone x.toNat := by
  rcases isClockLetter_of_written hc x hx with hdigit | rfl | rfl
  · have := isDigit_iff.mp hdigit
    exact ⟨by omega, by rw [BeginsZone]; omega⟩
  · exact ⟨by decide, by rw [BeginsZone]; decide⟩
  · exact ⟨by decide, by rw [BeginsZone]; decide⟩

/-- The clock that shows a number of microseconds. -/
def Clock.showing (n : Nat) : Clock where
  hours := n / 3600000000
  minutes := n / 60000000 % 60
  seconds := n / 1000000 % 60
  micros := n % 1000000

theorem Clock.time_showing (n : Nat) : (Clock.showing n).time = n := by
  rw [Clock.time, Clock.showing]
  simp only
  congr 1
  omega

theorem Clock.inDay_showing {n : Nat} (hday : n < 86400000000) : (Clock.showing n).InDay := by
  rw [Clock.InDay, Clock.showing]
  simp only
  omega

/-- **A time of day is written** as the clock shows it. -/
theorem written_timeText {n : Nat} (hday : n < 86400000000) :
    Written (Clock.showing n) (timeText n).toList := by
  by_cases hmicros : n % 1000000 = 0
  · have htext : (timeText n).toList = (padded 2 (n / 3600000000)).toList ++
        ':' :: ((padded 2 (n / 60000000 % 60)).toList ++
          ':' :: (padded 2 (n / 1000000 % 60)).toList) := by
      simp [timeText, hmicros]
    rw [htext, Clock.showing, hmicros]
    exact .seconds (by omega) (by omega) (by omega)
  · have htext : (timeText n).toList = (padded 2 (n / 3600000000)).toList ++
        ':' :: ((padded 2 (n / 60000000 % 60)).toList ++
          ':' :: ((padded 2 (n / 1000000 % 60)).toList ++
            '.' :: (padded 6 (n % 1000000)).toList)) := by
      simp [timeText, hmicros]
    rw [htext, Clock.showing]
    exact .micros (by omega) (by omega) (by omega) (by omega)

/-- **A distance from universal time is written** as a sign and the clock that shows it. -/
theorem exists_written_offsetText {d : Micros} (hday : d.natAbs < 86400000000) :
    ∃ cs, (offsetText d).toList = (if d < 0 then '-' else '+') :: cs ∧
      Written (Clock.showing d.natAbs) cs := by
  obtain ⟨n, hn⟩ : ∃ n, d.natAbs = n := ⟨_, rfl⟩
  have hsign : (if d < 0 then "-" else "+").toList = [if d < 0 then '-' else '+'] := by
    split_ifs <;> rfl
  rw [hn] at hday ⊢
  rw [offsetText, hn]
  by_cases hminutes : n % 60000000 = 0
  · have hseconds : n / 1000000 % 60 = 0 := by omega
    have hmicros : n % 1000000 = 0 := by omega
    refine ⟨(padded 2 (n / 3600000000)).toList ++ ':' :: (padded 2 (n / 60000000 % 60)).toList,
      ?_, ?_⟩
    · simp [hminutes, hmicros, hsign]
    · rw [Clock.showing, hseconds, hmicros]
      exact .minutes (by omega) (by omega)
  · by_cases hmicros : n % 1000000 = 0
    · refine ⟨(padded 2 (n / 3600000000)).toList ++ ':' :: ((padded 2 (n / 60000000 % 60)).toList ++
        ':' :: (padded 2 (n / 1000000 % 60)).toList), ?_, ?_⟩
      · simp [hminutes, hmicros, hsign]
      · rw [Clock.showing, hmicros]
        exact .seconds (by omega) (by omega) (by omega)
    · refine ⟨(padded 2 (n / 3600000000)).toList ++ ':' :: ((padded 2 (n / 60000000 % 60)).toList ++
        ':' :: ((padded 2 (n / 1000000 % 60)).toList ++ '.' :: (padded 6 (n % 1000000)).toList)),
        ?_, ?_⟩
      · simp [hminutes, hmicros, hsign]
      · exact .micros (by omega) (by omega) (by omega) (by omega)

end Bytes

/-! ### Moments -/

open Bytes (ofText)

/-- A text goes on after its date. -/
def HasTime (s : String) : Prop :=
  ∃ stop, (ofText s).dateEnd? (ofText s).size = some stop ∧ stop < (ofText s).size

/-- A text is read part by part. -/
theorem Moment.parse?_eq {s : String} (hlength : 7 ≤ s.length) :
    Moment.parse? s = ((ofText s).dateEnd? (ofText s).size).bind fun stop =>
      ((ofText s).date? stop).bind fun d =>
        if stop < (ofText s).size then
          ((ofText s).time? (stop + Bytes.characterSize ((ofText s).byte stop))).bind
            fun r => some (Moment.ofDate d r.1 r.2)
        else some (Moment.ofDate d 0 none) := by
  rw [Moment.parse?, if_neg (not_lt.mpr hlength)]
  rfl

theorem Moment.length_of_parse? {s : String} {m : Moment} (h : Moment.parse? s = some m) :
    7 ≤ s.length := by
  by_contra hshort
  rw [Moment.parse?, if_pos (not_le.mp hshort)] at h
  cases h

/-- There is no letter Z in a distance from universal time, -/
theorem not_mem_offsetText {d : Micros} (hday : d.natAbs < 86400000000) :
    'Z' ∉ (offsetText d).toList := by
  obtain ⟨cs, hcs, hwritten⟩ := Bytes.exists_written_offsetText hday
  rw [hcs, List.mem_cons, not_or]
  refine ⟨?_, fun hmem => (Bytes.toNat_of_written hwritten hmem).2 (.inr (.inr rfl))⟩
  split_ifs <;> decide

/-- and none in a date and a time of day. -/
theorem not_mem_text (d : Date) {n : Nat} (hday : n < 86400000000) :
    'Z' ∉ (d.text ++ "T" ++ timeText n).toList := by
  have hdigit : ∀ {width n : Nat}, 'Z' ∉ (padded width n).toList := fun hmem =>
    absurd (Bytes.isDigit_of_mem_padded hmem) (by decide)
  have hclock : 'Z' ∉ (timeText n).toList := fun hmem =>
    (Bytes.toNat_of_written (Bytes.written_timeText hday) hmem).2 (.inr (.inr rfl))
  simp [Date.text, hdigit, hclock]

/-- **A distance from universal time at the end of a text** is read, and the rest as it was. -/
theorem Moment.parse?_append_offsetText {s : String} {w d : Micros} (htime : HasTime s)
    (h : Moment.parse? s = some ⟨w, none⟩) (hday : d.natAbs < 86400000000) :
    Moment.parse? (s ++ offsetText d) = some ⟨w, some d⟩ := by
  obtain ⟨stop, hstop, hlt⟩ := htime
  have hlength := Moment.length_of_parse? h
  have hseven : 7 ≤ (ofText s).size := hlength.trans (Bytes.length_le_size_ofText s)
  -- What was read of the text.
  rw [Moment.parse?_eq hlength, hstop, Option.bind_some] at h
  obtain ⟨date, hdate, h⟩ := Option.bind_eq_some_iff.mp h
  rw [if_pos hlt] at h
  obtain ⟨⟨t, offset⟩, htime, h⟩ := Option.bind_eq_some_iff.mp h
  obtain ⟨hwall, rfl⟩ := Moment.mk.inj (Option.some.inj h)
  -- What the text goes on with.
  obtain ⟨cs, hcs, hwritten⟩ := Bytes.exists_written_offsetText hday
  have hascii : ∀ c ∈ (if d < 0 then '-' else '+') :: cs, c.toNat < 128 := by
    intro c hc
    rcases List.mem_cons.mp hc with rfl | hc
    · split_ifs <;> decide
    · exact (Bytes.toNat_of_written hwritten hc).1
  obtain ⟨hstands, hsize⟩ := Bytes.stands_ofText hascii s
  rw [← hcs, String.ofList_toList] at hstands hsize
  rw [hcs, Bytes.stands_cons] at hstands
  rw [hcs, List.length_cons] at hsize
  obtain ⟨hsign, hclock⟩ := hstands
  have hread := Bytes.clock?_of_written hwritten hclock (by omega)
  have hab := Bytes.extends_ofText_append s (offsetText d)
  have hsign' : (ofText (s ++ offsetText d)).byte (ofText s).size = 43 ∨
      (ofText (s ++ offsetText d)).byte (ofText s).size = 45 := by
    rw [hsign]
    split_ifs
    · exact .inr rfl
    · exact .inl rfl
  have hnext : Bytes.isDigit ((ofText (s ++ offsetText d)).byte (ofText s).size) = false := by
    rcases hsign' with hsign' | hsign' <;> rw [hsign'] <;> rfl
  have hnear : (Bytes.Clock.showing d.natAbs).time < day := by
    rw [Bytes.Clock.time_showing]
    have hcast : (d.natAbs : Int) < 86400000000 := by omega
    exact hcast
  have hdistance : (Bytes.Clock.showing d.natAbs).distance
      ((ofText (s ++ offsetText d)).byte (ofText s).size) = d := by
    rw [Bytes.Clock.distance, Bytes.Clock.time_showing, hsign]
    by_cases hbehind : d < 0
    · rw [if_pos hbehind, if_pos (by decide)]
      exact (Int.eq_neg_natAbs_of_nonpos hbehind.le).symm
    · rw [if_neg hbehind, if_neg (by decide)]
      exact Int.natAbs_of_nonneg (not_lt.mp hbehind)
  have hne := Bytes.ne_seven_of_dateEnd? hstop hlt
  have hlength' : 7 ≤ (s ++ offsetText d).length := by
    rw [String.length_append]
    omega
  rw [Moment.parse?_eq hlength', Bytes.dateEnd?_of_extends hab hseven hstop hlt hnext,
    Option.bind_some, Bytes.date?_of_extends hab (by omega) hlt hdate, Option.bind_some,
    if_pos (hlt.trans_le hab.1), hab.2 stop hlt,
    Bytes.time?_of_extends hab htime hsign' hread rfl hnear, Option.bind_some, hdistance]
  exact congrArg (fun w => some (Moment.mk w (some d))) hwall

/-- The fields of a date in the calendar have as many digits as they are written with. -/
theorem Date.bounds_of_isValid {d : Date} (h : d.isValid = true) :
    d.year < 10000 ∧ d.month < 100 ∧ d.day < 100 := by
  simp only [Date.isValid, Bool.and_eq_true, decide_eq_true_eq] at h
  obtain ⟨⟨⟨⟨⟨-, hyear⟩, -⟩, hmonth⟩, -⟩, hday⟩ := h
  have hmost : monthDays d.year d.month ≤ 31 := by
    unfold monthDays
    split
    · split <;> decide
    all_goals decide
  omega

/-- **A written date and time of day are read.** -/
theorem Moment.parse?_text {d : Date} (hvalid : d.isValid = true) {n : Nat}
    (hday : n < 86400000000) :
    HasTime (d.text ++ "T" ++ timeText n) ∧
      Moment.parse? (d.text ++ "T" ++ timeText n) = some (Moment.ofDate d n none) := by
  obtain ⟨hyear, hmonth, hdate⟩ := Date.bounds_of_isValid hvalid
  have hwritten := Bytes.written_timeText hday
  obtain ⟨cs, hcs⟩ : ∃ cs, (timeText n).toList = cs := ⟨_, rfl⟩
  obtain ⟨s, hs⟩ : ∃ s, d.text ++ "T" ++ timeText n = s := ⟨_, rfl⟩
  have hchars : s.toList = (padded 4 d.year).toList ++ '-' :: ((padded 2 d.month).toList ++
      '-' :: ((padded 2 d.day).toList ++ 'T' :: cs)) := by
    rw [← hs, Date.text]
    simp [hcs]
  rw [hcs] at hwritten
  have hdigit : ∀ {width n : Nat} {c : Char}, c ∈ (padded width n).toList → c.toNat < 128 := by
    intro width n c hc
    have := Bytes.isDigit_iff.mp (Bytes.isDigit_of_mem_padded hc)
    omega
  have hascii : ∀ c ∈ s.toList, c.toNat < 128 := by
    intro c hc
    simp only [hchars, List.mem_append, List.mem_cons] at hc
    rcases hc with hc | rfl | hc | rfl | hc | rfl | hc
    · exact hdigit hc
    · decide
    · exact hdigit hc
    · decide
    · exact hdigit hc
    · decide
    · exact (Bytes.toNat_of_written hwritten hc).1
  obtain ⟨hstands, hsize⟩ := Bytes.stands_ofText hascii ""
  rw [String.ofList_toList, String.empty_append] at hstands hsize
  rw [hs]
  have hfour : (padded 4 d.year).toList.length = 4 := Bytes.length_padded (by decide) hyear
  have htwo : (padded 2 d.month).toList.length = 2 := Bytes.length_padded (by decide) hmonth
  have htwo' : (padded 2 d.day).toList.length = 2 := Bytes.length_padded (by decide) hdate
  have hzero : (ofText "").size = 0 := rfl
  simp only [hchars, hzero, Bytes.stands_append, Bytes.stands_cons, hfour, htwo, htwo',
    List.length_append, List.length_cons, add_assoc, Nat.reduceAdd] at hstands hsize
  obtain ⟨hyears, hhyphen, hmonths, hhyphen', hdays, hletter, hclock⟩ := hstands
  have hread := Bytes.clock?_of_written hwritten hclock (by omega)
  have hlong : 11 + 2 ≤ (ofText s).size := Bytes.add_two_le_of_clock? hread
  have hseven : (ofText s).size ≠ 7 := by omega
  have hweek : (ofText s).byte 5 ≠ 87 := by
    have := Bytes.isDigit_iff.mp (Bytes.isDigit_of_stands hmonths (by omega))
    omega
  have hstop : (ofText s).dateEnd? (ofText s).size = some 10 := by
    simp [Bytes.dateEnd?, hseven, hhyphen, hweek]
  have hdate : (ofText s).date? 10 = some d := by
    rw [Bytes.date?, Bytes.digits?_of_stands (by decide) hyear hyears]
    simp [hhyphen, hweek, Bytes.digits?_of_stands (by decide) hmonth hmonths, hhyphen',
      Bytes.digits?_of_stands (by decide) hdate hdays, hvalid]
  have hzone : (ofText s).zoneStart (ofText s).size (ofText s).size 11 = (ofText s).size := by
    refine Bytes.zoneStart_eq (by omega) (by omega) (by omega) le_rfl (fun j hj hlt => ?_)
      (.inl rfl)
    obtain ⟨k, rfl⟩ := Nat.exists_eq_add_of_le hj
    have hk : k < cs.length := by omega
    rw [hclock k _ (List.getElem?_eq_getElem hk)]
    exact (Bytes.toNat_of_written hwritten (List.getElem_mem hk)).2
  have htime : (ofText s).time? (10 + Bytes.characterSize ((ofText s).byte 10)) =
      some ((n : Int), none) := by
    have hstart : 10 + Bytes.characterSize ((ofText s).byte 10) = 11 := by
      rw [hletter]
      rfl
    rw [hstart, Bytes.time?_eq_some_iff, hzone, ← Bytes.Clock.time_showing n]
    exact ⟨_, hread, Bytes.Clock.inDay_showing hday, Bytes.zoned?_of_end rfl⟩
  have hlength : 7 ≤ s.length := by
    rw [← String.length_toList, hchars, List.length_append, hfour, List.length_cons,
      List.length_append, htwo, List.length_cons]
    omega
  refine ⟨⟨10, hstop, by omega⟩, ?_⟩
  rw [Moment.parse?_eq hlength, hstop, Option.bind_some, hdate, Option.bind_some,
    if_pos (by omega), htime, Option.bind_some]

end SecurityAudit.Calendar
