import SecurityAudit.Proofs.DayCount
import SecurityAudit.Proofs.MomentText
import SecurityAudit.Proofs.PermissionFindings
import SecurityAudit.Proofs.StatementExpansion

/-!
# Policies that are not used

A policy is stale when the time since its last use is above a threshold.  That time is the
difference of two instants: how the moment of the last use was written, on a clock near or far from
universal time, shows in the evidence of the finding and nowhere else.

The threshold is what the number of days stands for when that is a whole number of microseconds.
For a fraction of a day it can be a part of a microsecond away from it, so a policy whose age is
above the number of days by less than a microsecond need not be reported.
-/

namespace SecurityAudit.Iam

open Calendar (Moment Micros day offsetText timeText HasTime)

/-! ### Reading the moment of the last use -/

theorem withoutZulu_append (s t : String) :
    withoutZulu (s ++ t) = withoutZulu s ++ withoutZulu t := by
  rw [← String.toList_inj]
  simp only [withoutZulu, String.toList_append, String.toList_ofList, List.flatMap_append]

/-- A text without the letter Z is read as it stands. -/
theorem withoutZulu_eq {s : String} (h : 'Z' ∉ s.toList) : withoutZulu s = s := by
  have hsame : ∀ cs : List Char, 'Z' ∉ cs →
      (cs.flatMap fun c => if c == 'Z' then "+00:00".toList else [c]) = cs := by
    intro cs
    induction cs with
    | nil => exact fun _ => rfl
    | cons c cs ih =>
        intro hcs
        obtain ⟨hc, hrest⟩ := not_or.mp (mt List.mem_cons.mpr hcs)
        rw [List.flatMap_cons, ih hrest, if_neg (by simpa using Ne.symm hc)]
        rfl
  rw [← String.toList_inj, withoutZulu, String.toList_ofList]
  exact hsame _ h

/-- How far a clock is ahead of universal time, as it is written after what the clock shows: not at
all, by the letter Z, or as a distance. -/
inductive IsZone : Micros → String → Prop
  | unsaid : IsZone 0 ""
  | zulu : IsZone 0 "Z"
  | distance {d : Micros} (hday : d.natAbs < 86400000000) : IsZone d (offsetText d)

/-- A text is what a clock shows, a date and a time of day, and does not say how far the clock is
ahead of universal time. -/
def IsClockText (t : String) (w : Micros) : Prop :=
  HasTime (withoutZulu t) ∧ Moment.parse? (withoutZulu t) = some ⟨w, none⟩

/-- **A written moment is read** as what the clock shows, as far ahead of universal time as is
written after it. -/
theorem readTimestamp_of_isZone {t z : String} {w d : Micros} (ht : IsClockText t w)
    (hz : IsZone d z) : readTimestamp (.text (t ++ z)) = .ok (some ⟨w, some d⟩) := by
  obtain ⟨htime, hparse⟩ := ht
  have hne : t ≠ "" := by
    rintro rfl
    have := Moment.length_of_parse? hparse
    exact absurd this (by decide)
  have hraw : (Value.text (t ++ z)).raw? = some (.sound (t ++ z)) := rfl
  have hfull : (t ++ z).isEmpty = false := by
    rw [Bool.eq_false_iff, ne_eq, String.isEmpty_iff]
    intro hempty
    exact hne (String.append_eq_empty_iff.mp hempty).1
  have hread : ∀ {d : Micros}, d.natAbs < 86400000000 →
      Moment.parse? (withoutZulu t ++ offsetText d) = some ⟨w, some d⟩ :=
    fun hday => Moment.parse?_append_offsetText htime hparse hday
  simp only [readTimestamp, hraw, RawText.readable_sound, hfull, withoutZulu_append,
    Bool.false_eq_true, if_false]
  cases hz with
  | unsaid =>
      have hnothing : withoutZulu "" = "" := rfl
      rw [hnothing, String.append_empty, hparse]
      rfl
  | zulu =>
      have hzero : withoutZulu "Z" = offsetText 0 := by decide +kernel
      rw [hzero, hread (by decide)]
      rfl
  | distance hday =>
      rw [withoutZulu_eq (Calendar.not_mem_offsetText hday), hread hday]
      rfl

/-- A text writes an instant: what a clock shows, and how far it is ahead of universal time. -/
def WritesInstant (s : String) (u : Micros) : Prop :=
  ∃ t z w d, s = t ++ z ∧ IsClockText t w ∧ IsZone d z ∧ u = w - d

/-- A date and a time of day are what a clock shows. -/
theorem isClockText_text {d : Calendar.Date} (hvalid : d.isValid = true) {n : Nat}
    (hday : n < 86400000000) :
    IsClockText (d.text ++ "T" ++ timeText n) (d.number * day + n) := by
  have hplain : withoutZulu (d.text ++ "T" ++ timeText n) = d.text ++ "T" ++ timeText n :=
    withoutZulu_eq (Calendar.not_mem_text d hday)
  rw [IsClockText, hplain]
  exact Moment.parse?_text hvalid hday

/-- A moment that is read knows how far its clock is from universal time. -/
theorem exists_instant_of_readTimestamp {v : Value} {m : Moment}
    (h : readTimestamp v = .ok (some m)) : ∃ u, m.instant? = some u := by
  have huniversal : ∀ m' : Moment, m'.orUniversal = m → ∃ u, m.instant? = some u := by
    rintro m' rfl
    exact ⟨_, rfl⟩
  rw [readTimestamp.eq_def] at h
  split at h
  next => cases h
  next m' => exact huniversal m' (Option.some.inj (Except.ok.inj h))
  next =>
    split at h
    next => cases h
    next =>
      split at h
      · cases h
      · split at h
        · exact huniversal _ (Option.some.inj (Except.ok.inj h))
        · cases h

namespace Review

variable {r : Review} {policy policy' : Policy} {fs : List Finding} {i : Micros}

/-! ### The age of a policy -/

/-- Findings tell that a policy is stale. -/
def TellsStale (fs : List Finding) : Prop :=
  ∃ x ∈ fs, x.ruleId = .text "IAM_STALE_POLICY"

/-- The time since a moment is the difference of two instants. -/
theorem since?_eq_some_iff {now m : Moment} {age : Micros} (hnow : now.instant? = some i) :
    now.since? m = some age ↔ ∃ u, m.instant? = some u ∧ i - u = age := by
  obtain ⟨offset, hoffset, rfl⟩ := Option.map_eq_some_iff.mp hnow
  rw [Moment.since?, Moment.instant?, hoffset]
  cases m.offset with
  | none => simp
  | some offset' => simp

/-- **A policy is stale** when the time since its last use is above the threshold. -/
theorem tellsStale_iff (hnow : r.now.instant? = some i) (h : r.run policy = .ok fs) :
    TellsStale fs ↔
      ∃ m u, policy.lastUsed = some m ∧ m.instant? = some u ∧ r.staleAfter < i - u := by
  obtain ⟨old, hold, rfl⟩ := exists_eq_of_run h
  have hparts : TellsStale (r.findingsOn policy 0 policy.permissions ++
      old.toList.map (r.findingOf policy 0)) ↔ ∃ m, old = some m := by
    constructor
    · rintro ⟨x, hx, hrule⟩
      rcases List.mem_append.mp hx with hx | hx
      · -- A finding about a permission is by another rule.
        obtain ⟨k, p, hp, m, hm, rfl⟩ := mem_findingsOn_iff.mp hx
        have hother := ruleId_mem_of_mem_remarksOf hm
        rw [Value.text.inj hrule] at hother
        exact absurd hother (by decide)
      · obtain ⟨m, hm, rfl⟩ := List.mem_map.mp hx
        exact ⟨m, Option.mem_toList.mp hm⟩
    · rintro ⟨m, rfl⟩
      exact ⟨_, List.mem_append_right _ (List.mem_singleton_self _),
        congrArg Value.text (ruleId_of_ageRemark? hold rfl)⟩
  rw [hparts]
  rw [ageRemark?] at hold
  cases hused : policy.lastUsed with
  | none =>
      rw [hused] at hold
      obtain rfl := Except.ok.inj hold
      simp
  | some m =>
      simp only [hused] at hold
      cases hsince : r.now.since? m with
      | none =>
          rw [hsince] at hold
          cases hold
      | some age =>
          obtain ⟨u, hu, rfl⟩ := (since?_eq_some_iff hnow).mp hsince
          rw [hsince] at hold
          obtain rfl := Except.ok.inj hold
          by_cases hyoung : i - u ≤ r.staleAfter
          · simp [hyoung, hu, not_lt.mpr hyoung]
          · simp [hyoung, hu, not_le.mp hyoung]

/-! ### The same instant -/

/-- Findings are the same, but that the evidence of a stale policy may be another text. -/
def IsSameFinding (x y : Finding) : Prop :=
  x = y ∨ x.ruleId = .text "IAM_STALE_POLICY" ∧ y = { x with evidence := y.evidence }

/-- The time since a moment depends on its instant. -/
theorem since?_eq {now m : Moment} {u : Micros} (hu : m.instant? = some u) :
    now.since? m = now.instant?.map (· - u) := by
  obtain ⟨offset, hoffset, rfl⟩ := Option.map_eq_some_iff.mp hu
  rw [Moment.since?, Moment.instant?, hoffset]
  cases now.offset <;> rfl

/-- The age of a policy is remarked on in the same way if it was last used at the same instant. -/
theorem exists_ageRemark? (hname : policy'.name = policy.name)
    (hused : policy'.lastUsed.bind Moment.instant? = policy.lastUsed.bind Moment.instant?)
    (hknown : ∀ m, policy.lastUsed = some m → ∃ u, m.instant? = some u)
    (hknown' : ∀ m, policy'.lastUsed = some m → ∃ u, m.instant? = some u)
    {old : Option Remark} (h : r.ageRemark? policy = .ok old) :
    ∃ old', r.ageRemark? policy' = .ok old' ∧
      Option.Rel (fun m m' => m' = { m with evidence := m'.evidence }) old old' := by
  rw [ageRemark?] at h ⊢
  cases hlast : policy.lastUsed with
  | none =>
      rw [hlast] at h hused
      obtain rfl := Except.ok.inj h
      cases hlast' : policy'.lastUsed with
      | none => exact ⟨none, rfl, .none⟩
      | some m' =>
          obtain ⟨u, hu⟩ := hknown' m' hlast'
          rw [hlast', Option.bind_some, hu] at hused
          cases hused
  | some m =>
      obtain ⟨u, hu⟩ := hknown m hlast
      rw [hlast, Option.bind_some, hu] at hused
      obtain ⟨m', hlast', hu'⟩ := Option.bind_eq_some_iff.mp hused
      simp only [hlast, since?_eq hu] at h
      simp only [hlast', since?_eq hu']
      cases hnow : r.now.instant? with
      | none =>
          rw [hnow] at h
          cases h
      | some i =>
          rw [hnow] at h
          obtain rfl := Except.ok.inj h
          refine ⟨_, rfl, ?_⟩
          by_cases hyoung : i - u ≤ r.staleAfter
          · simp [hyoung]
          · simp only [if_neg hyoung]
            refine .some ?_
            rw [stale, stale, hname]

/-- What is found about a permission does not depend on the last use of its policy. -/
theorem examine_eq (hname : policy'.name = policy.name)
    (hprovider : policy'.provider = policy.provider) :
    r.examine policy' = r.examine policy ∧ r.finding policy' = r.finding policy ∧
      policy'.location = policy.location := by
  obtain ⟨name, provider, permissions, last⟩ := policy
  obtain ⟨name', provider', permissions', last'⟩ := policy'
  obtain rfl : name' = name := hname
  obtain rfl : provider' = provider := hprovider
  exact ⟨rfl, rfl, rfl⟩

/-- **The findings are the same** if policies differ in how the instant of the last use is written
only. -/
theorem exists_run_of_sameInstant (hname : policy'.name = policy.name)
    (hprovider : policy'.provider = policy.provider)
    (hpermissions : policy'.permissions = policy.permissions)
    (hused : policy'.lastUsed.bind Moment.instant? = policy.lastUsed.bind Moment.instant?)
    (hknown : ∀ m, policy.lastUsed = some m → ∃ u, m.instant? = some u)
    (hknown' : ∀ m, policy'.lastUsed = some m → ∃ u, m.instant? = some u)
    (h : r.run policy = .ok fs) :
    ∃ fs', r.run policy' = .ok fs' ∧ List.Forall₂ IsSameFinding fs fs' := by
  obtain ⟨hexamine, hfinding, hlocation⟩ := examine_eq (r := r) hname hprovider
  rw [run_eq, bind_eq_ok_iff] at h
  obtain ⟨found, hfound, h⟩ := h
  obtain ⟨old, hold, h⟩ := bind_eq_ok_iff.mp h
  obtain ⟨aged, haged, h⟩ := bind_eq_ok_iff.mp h
  obtain rfl := pure_eq_ok_iff.mp h
  obtain ⟨old', hold', hsame⟩ := exists_ageRemark? hname hused hknown hknown' hold
  -- The age of both policies is reported at one location, or that of neither.
  have haged' : old'.toList.mapM (r.finding policy 0) =
      .ok (old'.toList.map (r.findingOf policy 0)) := by
    cases hsame with
    | none => rfl
    | @some m m' hm =>
        have hlocated := (exists_mapM_finding_iff.mp ⟨aged, haged⟩).resolve_left
          (List.cons_ne_nil _ _)
        rw [mapM_finding_eq, if_pos (.inr hlocated)]
  have hrun : r.run policy' = .ok (found.flatten ++ old'.toList.map (r.findingOf policy 0)) := by
    rw [run_eq, hexamine, hpermissions, hfinding, bind_eq_ok_iff]
    exact ⟨found, hfound, bind_eq_ok_iff.mpr ⟨old', hold', bind_eq_ok_iff.mpr ⟨_, haged', rfl⟩⟩⟩
  refine ⟨_, hrun, List.rel_append (List.forall₂_same.mpr fun _ _ => .inl rfl) ?_⟩
  rw [← eq_of_mapM_finding haged]
  cases hsame with
  | none => exact .nil
  | @some m m' hm =>
      refine .cons (.inr ⟨?_, ?_⟩) .nil
      · rw [ruleId_findingOf, ruleId_of_ageRemark? hold rfl]
      · rw [hm]
        rfl

/-- A policy that is read is reviewed in an instant of its last use, if it has one. -/
theorem exists_instant_of_ofDocument {doc : Value} (h : Policy.ofDocument doc = .ok policy) :
    ∀ m, policy.lastUsed = some m → ∃ u, m.instant? = some u := by
  intro m hm
  obtain ⟨-, -, -, -, hread⟩ := ofDocument_eq_ok_iff.mp h
  rw [hm] at hread
  exact exists_instant_of_readTimestamp hread

/-- Two documents say the same, but possibly when the policy was last used. -/
def IsSameButLastUse (doc doc' : Value) : Prop :=
  ∀ key, key ≠ "lastUsed" → key ≠ "last_used" → doc'.get? key = doc.get? key

/-- Documents that say the same but when the policy was last used are read as the same but that. -/
theorem eq_of_isSameButLastUse {doc doc' : Value} (hsame : IsSameButLastUse doc doc')
    (h : Policy.ofDocument doc = .ok policy) (h' : Policy.ofDocument doc' = .ok policy') :
    policy'.name = policy.name ∧ policy'.provider = policy.provider ∧
      policy'.permissions = policy.permissions := by
  obtain ⟨-, hname, ⟨provider, hprovider, hlower⟩, hbody, -⟩ := ofDocument_eq_ok_iff.mp h
  obtain ⟨-, hname', ⟨provider', hprovider', hlower'⟩, hbody', -⟩ :=
    ofDocument_eq_ok_iff.mp h'
  have hnames : nameOf? doc' = nameOf? doc := by
    simp only [nameOf?, nameKeys, List.findSome?_cons, List.findSome?_nil,
      hsame "name" (by decide) (by decide), hsame "PolicyName" (by decide) (by decide),
      hsame "Id" (by decide) (by decide)]
  have heq : policy'.name = policy.name := by
    rw [hnames, hname] at hname'
    exact (Option.some.inj hname').symm
  refine ⟨heq, ?_, ?_⟩
  · rw [optional, hsame "provider" (by decide) (by decide), ← optional, hprovider] at hprovider'
    rw [← hlower, ← hlower', Except.ok.inj hprovider']
  · rw [heq, readBody, hsame "permissions" (by decide) (by decide),
      hsame "Statement" (by decide) (by decide), ← readBody, hbody] at hbody'
    exact (Except.ok.inj hbody').symm

theorem make_eq_ok_iff {dangerous : List Value} {days : Value} {now : Moment} :
    make dangerous days now = .ok r ↔
      ∃ t, ofDays days = .ok t ∧ { dangerous, staleAfter := t, now } = r := by
  rw [make, bind_eq_ok_iff]
  simp only [pure_eq_ok_iff]

/-- **Staleness is a matter of the instant.**  There is a threshold, which is the number of days
rounded to a microsecond, down or up.  A policy is reported as stale when it was used and the time
since then is above the threshold, so never when it is not above the number of days.  If the
dangerous actions are texts and the instant of the last use is known, a review comes to an end
unless there is something to report about a policy whose location cannot be encoded.

Two documents that differ in how they write the instant of the last use have the same findings, but
for the evidence.  Among the texts that write an instant are a date and a time of day, on a clock
that is any distance from universal time. -/
theorem stale_by_instant {dangerous : List Value} {days : Value} {now : Moment}
    (hmake : make dangerous days now = .ok r) (hnow : now.instant? = some i) :
    (∃ (q : ℚ) (threshold : Micros), days.Counts q ∧
      (threshold = ⌊q * day⌋ ∨ threshold = ⌈q * day⌉) ∧
      ∀ policy fs, r.run policy = .ok fs →
        (TellsStale fs ↔
          ∃ m u, policy.lastUsed = some m ∧ m.instant? = some u ∧ threshold < i - u) ∧
        (TellsStale fs →
          ∃ m u, policy.lastUsed = some m ∧ m.instant? = some u ∧ q * day < (i - u : Int))) ∧
    (∀ policy, (∀ v ∈ dangerous, v.IsText) →
      (∀ m, policy.lastUsed = some m → ∃ u, m.instant? = some u) →
        ((∃ fs, r.run policy = .ok fs) ↔
          policy.location.isSound = true ∨ ¬ r.HasGround policy)) ∧
    (∀ doc doc' policy policy' fs, Policy.ofDocument doc = .ok policy →
      Policy.ofDocument doc' = .ok policy' → IsSameButLastUse doc doc' →
      policy'.lastUsed.bind Moment.instant? = policy.lastUsed.bind Moment.instant? →
      r.run policy = .ok fs → ∃ fs', r.run policy' = .ok fs' ∧
        List.Forall₂ IsSameFinding fs fs') ∧
    (∀ s u, WritesInstant s u →
      ∃ m, readTimestamp (.text s) = .ok (some m) ∧ m.instant? = some u) ∧
    ∀ (d : Calendar.Date) (n : Nat) (ahead : Micros) (z : String), d.isValid = true →
      n < 86400000000 → IsZone ahead z →
        WritesInstant (d.text ++ "T" ++ timeText n ++ z) (d.number * day + n - ahead) := by
  obtain ⟨threshold, hdays, rfl⟩ := make_eq_ok_iff.mp hmake
  obtain ⟨q, hq, hthreshold⟩ := eq_floor_or_ceil_of_ofDays hdays
  have habove : ∀ {age : Int}, threshold < age → q * day < (age : Int) := by
    intro age hage
    rcases hthreshold with rfl | rfl
    · exact Int.floor_lt.mp hage
    · exact (Int.le_ceil _).trans_lt (by exact_mod_cast hage)
  refine ⟨⟨q, threshold, hq, hthreshold, fun policy fs h => ?_⟩, fun policy htexts hknown => ?_,
    fun doc doc' policy policy' fs hdoc hdoc' hsame hused h => ?_, fun s u hs => ?_,
    fun d n ahead z hvalid hday hz => ?_⟩
  · have hstale := tellsStale_iff hnow h
    refine ⟨hstale, fun htells => ?_⟩
    obtain ⟨m, u, hm, hu, hage⟩ := hstale.mp htells
    exact ⟨m, u, hm, hu, habove hage⟩
  · have hexamine : CanExamine ⟨dangerous, threshold, now⟩ policy :=
      { texts := htexts
        elapsed := fun m hm => by
          obtain ⟨u, hu⟩ := hknown m hm
          rw [since?_eq hu, hnow]
          rfl }
    rw [exists_run_iff]
    exact ⟨fun h => h.2.2, fun h => ⟨fun p _ => ⟨_, remarks_eq htexts⟩,
      exists_ageRemark?_eq hexamine, h⟩⟩
  · obtain ⟨hname, hprovider, hpermissions⟩ := eq_of_isSameButLastUse hsame hdoc hdoc'
    exact exists_run_of_sameInstant hname hprovider hpermissions hused
      (exists_instant_of_ofDocument hdoc) (exists_instant_of_ofDocument hdoc') h
  · obtain ⟨t, z, w, d, rfl, ht, hz, rfl⟩ := hs
    exact ⟨_, readTimestamp_of_isZone ht hz, rfl⟩
  · exact ⟨_, _, _, _, rfl, isClockText_text hvalid hday, hz, rfl⟩

/-- A document of a policy without permissions, with a text for the moment of its last use. -/
def usedAt (text : String) : Value :=
  .record [("name", .text "app-role"), ("permissions", .list []), ("lastUsed", .text text)]

/-- Thirty days and a microsecond after half an hour past midnight on the first of March. -/
def endOfMarch : Moment :=
  .ofDate ⟨2024, 3, 31⟩ 1800000001 (some 0)

theorem isSameButLastUse_usedAt (s s' : String) :
    IsSameButLastUse (usedAt s) (usedAt s') := by
  intro key hkey _
  have hother : (some "lastUsed" == some key) = false := by
    simpa using hkey.symm
  simp only [usedAt, Value.record, Value.get?, Value.text?, List.map_cons, List.map_nil,
    List.find?_cons, hother]

/-- The day before the first of March is a leap day, and on a clock an hour behind universal time
the policy was used on that day. -/
theorem stale_by_instant_leap_day :
    ∃ r policy policy' fs fs', make [] (.int 30) endOfMarch = .ok r ∧
      Policy.ofDocument (usedAt "2024-02-29T23:30:00-01:00") = .ok policy ∧
      Policy.ofDocument (usedAt "2024-03-01T00:30:00Z") = .ok policy' ∧
      r.run policy = .ok fs ∧ r.run policy' = .ok fs' ∧ TellsStale fs ∧
      List.Forall₂ IsSameFinding fs fs' := by
  have hmake : make [] (.int 30) endOfMarch = .ok ⟨[], 30 * day, endOfMarch⟩ := rfl
  have hnow : endOfMarch.instant? = some (738976 * day + 1800000001) := by decide
  have hread : ((Policy.ofDocument (usedAt "2024-02-29T23:30:00-01:00")).toOption.any fun p =>
      p.lastUsed == some ⟨738945 * day + 84600000000, some (-3600000000)⟩ &&
        p.location.isSound) = true := by
    decide +kernel
  have hread' : ((Policy.ofDocument (usedAt "2024-03-01T00:30:00Z")).toOption.any fun p =>
      p.lastUsed == some ⟨738946 * day + 1800000000, some 0⟩) = true := by
    decide +kernel
  obtain ⟨policy, hpolicy, hused⟩ := any_toOption_iff.mp hread
  obtain ⟨policy', hpolicy', hused'⟩ := any_toOption_iff.mp hread'
  obtain ⟨hused, hlocated⟩ := (Bool.and_eq_true _ _).mp hused
  have hused := eq_of_beq hused
  have hused' := eq_of_beq hused'
  obtain ⟨-, hruns, hsame, -⟩ := stale_by_instant hmake hnow
  obtain ⟨fs, hfs⟩ := (hruns policy (fun v hv => absurd hv List.not_mem_nil)
    (exists_instant_of_ofDocument hpolicy)).mpr (.inl hlocated)
  have hinstant : policy'.lastUsed.bind Moment.instant? =
      policy.lastUsed.bind Moment.instant? := by
    rw [hused, hused']
    decide
  obtain ⟨fs', hfs', hequal⟩ := hsame _ _ policy policy' fs hpolicy hpolicy'
    (isSameButLastUse_usedAt _ _) hinstant hfs
  have hstale : TellsStale fs :=
    (tellsStale_iff hnow hfs).mpr ⟨_, _, hused, rfl, by decide⟩
  exact ⟨_, policy, policy', fs, fs', hmake, hpolicy, hpolicy', hfs, hfs', hstale, hequal⟩

/-- A policy without permissions that was last used at some time in the middle of January. -/
def usedInJanuary (day : Nat) (time : Micros) : Policy where
  name := "app-role"
  provider := "aws"
  permissions := []
  lastUsed := some (.ofDate ⟨2026, 1, day⟩ time (some 0))

/-- A little more than a day is rounded up, and a policy that is older by less than a microsecond is
not reported.  Less than no day puts the threshold into the future, and a policy that will be used
in half a day is reported. -/
theorem exists_rounded_and_negative :
    (∃ q r fs, Value.Counts (.float 1.000000000007) q ∧
      make [] (.float 1.000000000007) (.ofDate ⟨2026, 1, 15⟩ 43200000001 (some 0)) = .ok r ∧
      r.run (usedInJanuary 14 43200000000) = .ok fs ∧
      q * day < (day + 1 : Int) ∧ ¬ TellsStale fs) ∧
    ∃ r fs, make [] (.int (-1)) (.ofDate ⟨2026, 1, 15⟩ 43200000000 (some 0)) = .ok r ∧
      r.run (usedInJanuary 16 0) = .ok fs ∧ TellsStale fs := by
  constructor
  · have hdays : ((ofDays (.float 1.000000000007)).toOption.any fun t => t == day + 1) = true := by
      decide +kernel
    obtain ⟨t, ht, heq⟩ := any_toOption_iff.mp hdays
    obtain rfl : t = day + 1 := eq_of_beq heq
    have hexact : Decimal.exact 1.000000000007 = .finite false 4503599627402021 (-52) := by
      decide +kernel
    refine ⟨_, _, [], ⟨_, _, _, _, rfl, hexact, rfl⟩, make_eq_ok_iff.mpr ⟨_, ht, rfl⟩, rfl, ?_, ?_⟩
    · norm_num [Decimal.rational, day, Calendar.second]
    · rintro ⟨x, hx, -⟩
      cases hx
  · exact ⟨⟨[], -day, .ofDate ⟨2026, 1, 15⟩ 43200000000 (some 0)⟩, _, rfl, rfl,
      _, List.mem_singleton_self _, rfl⟩

end Review

end SecurityAudit.Iam
