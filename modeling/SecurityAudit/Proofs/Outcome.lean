import Mathlib.Data.List.Forall2
import SecurityAudit.Refusal

/-!
# Outcomes of steps that may fail

Steps one after another succeed when each of them does, and the same step on all items of a list
succeeds when it does on each.  These lemmas take such a sequence apart without looking at how it is
written.
-/

namespace SecurityAudit

variable {ε α β : Type}

/-- Two steps succeed when the first does and the second does on its answer. -/
theorem bind_eq_ok_iff {x : Except ε α} {f : α → Except ε β} {b : β} :
    x >>= f = .ok b ↔ ∃ a, x = .ok a ∧ f a = .ok b := by
  cases x with
  | error e => simp [bind, Except.bind]
  | ok a => simp [bind, Except.bind]

/-- Two steps have an answer when the first has one on which the second has one. -/
theorem exists_bind_eq_ok_iff {x : Except ε α} {f : α → Except ε β} :
    (∃ b, x >>= f = .ok b) ↔ ∃ a, x = .ok a ∧ ∃ b, f a = .ok b := by
  simp only [bind_eq_ok_iff]
  exact ⟨fun ⟨b, a, ha, hb⟩ => ⟨a, ha, b, hb⟩, fun ⟨a, ha, b, hb⟩ => ⟨b, a, ha, hb⟩⟩

/-- Two steps fail when the first does, or the second does on its answer. -/
theorem bind_eq_error_iff {x : Except ε α} {f : α → Except ε β} {e : ε} :
    x >>= f = .error e ↔ x = .error e ∨ ∃ a, x = .ok a ∧ f a = .error e := by
  cases x with
  | error e => simp [bind, Except.bind]
  | ok a => simp [bind, Except.bind]

/-- A step that only returns succeeds. -/
theorem pure_eq_ok_iff {a b : α} : (pure a : Except ε α) = .ok b ↔ a = b := by
  simp [pure, Except.pure]

/-- An answer is changed after the step has succeeded. -/
theorem map_eq_ok_iff {x : Except ε α} {f : α → β} {b : β} :
    x.map f = .ok b ↔ ∃ a, x = .ok a ∧ f a = b := by
  cases x with
  | error e => simp [Except.map]
  | ok a => simp [Except.map]

/-- An answer that passes a check is the answer of a step that succeeds. -/
theorem any_toOption_iff {x : Except ε α} {p : α → Bool} :
    x.toOption.any p = true ↔ ∃ a, x = .ok a ∧ p a = true := by
  cases x with
  | error e => simp [Except.toOption]
  | ok a => simp [Except.toOption]

/-- A refusal allowed as a fault succeeds when there is none. -/
theorem allowing_eq_ok_iff {π : Type} {x : Except Refusal α} {a : α} :
    (allowing x : Except (Fault π) α) = .ok a ↔ x = .ok a := by
  cases x with
  | error r => simp [allowing, refuse]
  | ok b => simp [allowing]

/-- A value that is refused without an answer is accepted with that answer. -/
theorem orRefuse_eq_ok_iff {π : Type} {r : Refusal} {x : Option α} {a : α} :
    (orRefuse r x : Except (Fault π) α) = .ok a ↔ x = some a := by
  cases x with
  | none => simp [orRefuse, refuse]
  | some b => simp [orRefuse]

/-- A step succeeds on all items when it does on each, and the answers are those of the items. -/
theorem mapM_eq_ok_iff {f : α → Except ε β} {as : List α} {bs : List β} :
    as.mapM f = .ok bs ↔ List.Forall₂ (fun a b => f a = .ok b) as bs := by
  induction as generalizing bs with
  | nil =>
      rw [List.mapM_nil, pure_eq_ok_iff, List.forall₂_nil_left_iff]
      exact eq_comm
  | cons a as ih =>
      simp only [List.mapM_cons, bind_eq_ok_iff, pure_eq_ok_iff, ih]
      constructor
      · rintro ⟨b, hb, rest, hrest, rfl⟩
        exact .cons hb hrest
      · intro h
        cases h with
        | cons hb hrest => exact ⟨_, hb, _, hrest, rfl⟩

/-- Of two lists that are related item by item, every item of the second is related to one of the
first. -/
theorem exists_of_forall₂_of_mem {R : α → β → Prop} {as : List α} {bs : List β}
    (h : List.Forall₂ R as bs) {b : β} (hb : b ∈ bs) : ∃ a ∈ as, R a b := by
  induction h with
  | nil => cases hb
  | cons hfirst _ ih =>
      rcases List.mem_cons.mp hb with rfl | hb
      · exact ⟨_, List.mem_cons_self, hfirst⟩
      · obtain ⟨a, ha, hab⟩ := ih hb
        exact ⟨a, List.mem_cons_of_mem _ ha, hab⟩

/-- Every answer is that of some item. -/
theorem exists_of_mem_mapM {f : α → Except ε β} {as : List α} {bs : List β}
    (h : as.mapM f = .ok bs) {b : β} (hb : b ∈ bs) : ∃ a ∈ as, f a = .ok b :=
  exists_of_forall₂_of_mem (mapM_eq_ok_iff.mp h) hb

/-- When the answers of a step are made from those of another one, item by item, so are they for all
items. -/
theorem mapM_eq_map_of_mem {γ : Type} {f : α → Except ε β} {f' : α → Except ε γ} {change : β → γ}
    {as : List α} (h : ∀ a ∈ as, f' a = (f a).map change) :
    as.mapM f' = (as.mapM f).map (List.map change) := by
  induction as with
  | nil => rfl
  | cons a as ih =>
      obtain ⟨hfirst, hrest⟩ := List.forall_mem_cons.mp h
      simp only [List.mapM_cons, hfirst, ih hrest]
      cases f a with
      | error e => rfl
      | ok b => cases as.mapM f <;> rfl

theorem mapM_eq_map {γ : Type} {f : α → Except ε β} {f' : α → Except ε γ} {change : β → γ}
    (h : ∀ a, f' a = (f a).map change) (as : List α) :
    as.mapM f' = (as.mapM f).map (List.map change) :=
  mapM_eq_map_of_mem fun a _ => h a

/-- The answers for all items are changed as those for each item are. -/
theorem map_mapM {γ : Type} (f : α → Except ε β) (change : β → γ) (as : List α) :
    (as.mapM f).map (List.map change) = as.mapM fun a => (f a).map change :=
  (mapM_eq_map (fun _ => rfl) as).symm

/-- When the answer of a step on an item is known, if there is one, then so are the answers for all
items. -/
theorem mapM_eq_ok_iff_of_answers {f : α → Except ε β} {accepts : α → Prop} {answer : α → β}
    (h : ∀ a b, f a = .ok b ↔ accepts a ∧ answer a = b) {as : List α} {bs : List β} :
    as.mapM f = .ok bs ↔ (∀ a ∈ as, accepts a) ∧ as.map answer = bs := by
  induction as generalizing bs with
  | nil => simp [pure_eq_ok_iff]
  | cons a as ih =>
      simp only [List.mapM_cons, bind_eq_ok_iff, pure_eq_ok_iff, h, ih, List.forall_mem_cons,
        List.map_cons]
      constructor
      · rintro ⟨b, ⟨hfirst, rfl⟩, rest, ⟨hrest, rfl⟩, rfl⟩
        exact ⟨⟨hfirst, hrest⟩, rfl⟩
      · rintro ⟨⟨hfirst, hrest⟩, rfl⟩
        exact ⟨_, ⟨hfirst, rfl⟩, _, ⟨hrest, rfl⟩, rfl⟩

/-- When a step gives the answers of another one, changed, where they are accepted, it does so on
all items. -/
theorem mapM_eq_ok_iff_of_steps {γ : Type} {f : α → Except ε γ} {g : α → Except ε β}
    {accepts : β → Prop} {change : β → γ}
    (h : ∀ a c, f a = .ok c ↔ ∃ b, g a = .ok b ∧ accepts b ∧ change b = c) {as : List α}
    {cs : List γ} :
    as.mapM f = .ok cs ↔
      ∃ bs, as.mapM g = .ok bs ∧ (∀ b ∈ bs, accepts b) ∧ bs.map change = cs := by
  simp only [mapM_eq_ok_iff]
  constructor
  · intro hall
    induction hall with
    | nil => exact ⟨[], .nil, List.forall_mem_nil _, rfl⟩
    | cons hfirst _ ih =>
        obtain ⟨b, hb, haccepts, rfl⟩ := (h _ _).mp hfirst
        obtain ⟨bs, hbs, hrest, rfl⟩ := ih
        exact ⟨b :: bs, .cons hb hbs, List.forall_mem_cons.mpr ⟨haccepts, hrest⟩, rfl⟩
  · rintro ⟨bs, hbs, haccepts, rfl⟩
    induction hbs with
    | nil => exact .nil
    | cons hfirst _ ih =>
        obtain ⟨hb, hrest⟩ := List.forall_mem_cons.mp haccepts
        exact .cons ((h _ _).mpr ⟨_, hfirst, hb, rfl⟩) (ih hrest)

/-- A step that succeeds on each item succeeds on all of them. -/
theorem exists_mapM {f : α → Except ε β} {as : List α} (h : ∀ a ∈ as, ∃ b, f a = .ok b) :
    ∃ bs, as.mapM f = .ok bs := by
  induction as with
  | nil => exact ⟨[], rfl⟩
  | cons a as ih =>
      obtain ⟨b, hb⟩ := h a List.mem_cons_self
      obtain ⟨bs, hbs⟩ := ih fun c hc => h c (List.mem_cons_of_mem a hc)
      refine ⟨b :: bs, ?_⟩
      rw [List.mapM_cons, hb, hbs]
      rfl

/-- Steps that agree item by item agree on all items. -/
theorem mapM_eq_of_forall₂ {γ : Type} {f : α → Except ε γ} {g : β → Except ε γ} {as : List α}
    {bs : List β} (h : List.Forall₂ (fun a b => f a = g b) as bs) : as.mapM f = bs.mapM g := by
  induction h with
  | nil => rfl
  | cons hfirst _ ih => rw [List.mapM_cons, List.mapM_cons, hfirst, ih]

/-- If each item has an answer that goes with its partner, there are answers for all items, and each
goes with the partner of its item. -/
theorem exists_mapM_of_forall₂ {γ : Type} {f : α → Except ε β} {R : β → γ → Prop}
    {as : List α} {cs : List γ} (h : List.Forall₂ (fun a c => ∃ b, f a = .ok b ∧ R b c) as cs) :
    ∃ bs, as.mapM f = .ok bs ∧ List.Forall₂ R bs cs := by
  induction h with
  | nil => exact ⟨[], rfl, .nil⟩
  | cons hfirst _ ih =>
      obtain ⟨b, hb, hrel⟩ := hfirst
      obtain ⟨bs, hbs, hrels⟩ := ih
      refine ⟨b :: bs, ?_, .cons hrel hrels⟩
      rw [List.mapM_cons, hb, hbs]
      rfl

/-- A step without an answer succeeds on all items when it does on each. -/
theorem forM_eq_ok_iff {f : α → Except ε Unit} {as : List α} {u : Unit} :
    as.forM f = .ok u ↔ ∀ a ∈ as, f a = .ok () := by
  induction as with
  | nil => exact iff_of_true rfl fun _ ha => nomatch ha
  | cons a as ih =>
      change (f a >>= fun _ => as.forM f) = .ok u ↔ _
      rw [bind_eq_ok_iff, List.forall_mem_cons, ← ih]
      constructor
      · rintro ⟨_, hfirst, hrest⟩
        exact ⟨hfirst, hrest⟩
      · rintro ⟨hfirst, hrest⟩
        exact ⟨(), hfirst, hrest⟩

/-- A step that fails on some items fails on one of them. -/
theorem exists_of_mapM_eq_error {f : α → Except ε β} {as : List α} {e : ε}
    (h : as.mapM f = .error e) : ∃ a ∈ as, f a = .error e := by
  induction as with
  | nil => cases h
  | cons a as ih =>
      rw [List.mapM_cons, bind_eq_error_iff] at h
      obtain hfirst | ⟨b, -, hrest⟩ := h
      · exact ⟨a, List.mem_cons_self, hfirst⟩
      · obtain hrest | ⟨bs, -, hreturn⟩ := bind_eq_error_iff.mp hrest
        · obtain ⟨c, hc, hfails⟩ := ih hrest
          exact ⟨c, List.mem_cons_of_mem a hc, hfails⟩
        · cases hreturn

/-- What every step keeps is kept by all of them. -/
theorem foldlM_invariant {P : β → Prop} {f : β → α → Except ε β} {as : List α}
    (hstep : ∀ a ∈ as, ∀ b b', P b → f b a = .ok b' → P b') {b b' : β} (hb : P b)
    (h : as.foldlM f b = .ok b') : P b' := by
  induction as generalizing b with
  | nil =>
      rw [List.foldlM_nil, pure_eq_ok_iff] at h
      rwa [← h]
  | cons a as ih =>
      rw [List.foldlM_cons, bind_eq_ok_iff] at h
      obtain ⟨next, hnext, hrest⟩ := h
      exact ih (fun c hc => hstep c (List.mem_cons_of_mem a hc))
        (hstep a List.mem_cons_self b next hb hnext) hrest

/-! ## What is refused -/

/-- An operation refuses values for certain reasons only; it may meet any problem of its field. -/
def RefusesOnly {π : Type} (q : Refusal → Prop) (x : Except (Fault π) α) : Prop :=
  ∀ r, x = .error (.refused r) → q r

section RefusesOnly

variable {π : Type} {q q' : Refusal → Prop} {x : Except (Fault π) α}

theorem RefusesOnly.mono (h : RefusesOnly q x) (hq : ∀ r, q r → q' r) : RefusesOnly q' x :=
  fun r hr => hq r (h r hr)

theorem refusesOnly_ok (a : α) : RefusesOnly q (.ok a : Except (Fault π) α) := by
  intro r h
  cases h

theorem refusesOnly_fail (p : π) : RefusesOnly q (fail p : Except (Fault π) α) := by
  intro r h
  cases h

theorem refusesOnly_refuse {r : Refusal} (h : q r) :
    RefusesOnly q (refuse r : Except (Fault π) α) := by
  intro r' h'
  cases h'
  exact h

theorem refusesOnly_orRefuse {r : Refusal} {a : Option α} (h : a = none → q r) :
    RefusesOnly q (orRefuse r a : Except (Fault π) α) := by
  cases a with
  | none => exact refusesOnly_refuse (h rfl)
  | some a => exact refusesOnly_ok a

theorem refusesOnly_allowing_of {x : Except Refusal α} (h : ∀ r, x = .error r → q r) :
    RefusesOnly q (allowing x : Except (Fault π) α) := by
  cases x with
  | error r => exact refusesOnly_refuse (h r rfl)
  | ok a => exact refusesOnly_ok a

/-- An operation that gives an answer refuses nothing. -/
theorem refusesOnly_allowing {x : Except Refusal α} (h : ∃ a, x = .ok a) :
    RefusesOnly q (allowing x : Except (Fault π) α) := by
  obtain ⟨a, rfl⟩ := h
  exact refusesOnly_ok a

/-- Two steps refuse for the reasons of the first and for those of the second on its answer. -/
theorem RefusesOnly.bind {f : α → Except (Fault π) β} (hx : RefusesOnly q x)
    (hf : ∀ a, x = .ok a → RefusesOnly q (f a)) : RefusesOnly q (x >>= f) := by
  intro r h
  obtain h | ⟨a, ha, h⟩ := bind_eq_error_iff.mp h
  · exact hx r h
  · exact hf a ha r h

theorem RefusesOnly.map {f : α → β} (hx : RefusesOnly q x) : RefusesOnly q (x.map f) := by
  intro r h
  cases x with
  | error e =>
      cases h
      exact hx r rfl
  | ok a => cases h

theorem RefusesOnly.mapM {f : β → Except (Fault π) α} {as : List β}
    (h : ∀ a ∈ as, RefusesOnly q (f a)) : RefusesOnly q (as.mapM f) := by
  intro r hr
  obtain ⟨a, ha, hfails⟩ := exists_of_mapM_eq_error hr
  exact h a ha r hfails

theorem RefusesOnly.forM {f : β → Except (Fault π) Unit} {as : List β}
    (h : ∀ a ∈ as, RefusesOnly q (f a)) : RefusesOnly q (as.forM f) := by
  induction as with
  | nil => exact refusesOnly_ok ()
  | cons a as ih =>
      obtain ⟨ha, has⟩ := List.forall_mem_cons.mp h
      exact ha.bind fun _ _ => ih has

/-- An operation that refuses nothing gives an answer or meets a problem. -/
theorem problem_or_ok (h : RefusesOnly (fun _ => False) x) :
    (∃ p, x = .error (.problem p)) ∨ ∃ a, x = .ok a := by
  rcases x with ⟨r | p⟩ | a
  · exact (h r rfl).elim
  · exact .inl ⟨p, rfl⟩
  · exact .inr ⟨a, rfl⟩

end RefusesOnly

end SecurityAudit
