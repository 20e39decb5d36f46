import Mathlib.Data.List.Induction
import SecurityAudit.Proofs.Registration

/-!
# A catalog is the history of its builder

A builder is told of rules, of secret patterns, of dangerous actions and of settings, in any order.
It keeps a rule in the place of the one that has its id, so the place of a rule and what the rule is
may come from two different calls, and it chooses among the rules only when the catalog is built.

So the builder forgets nothing that matters.  `roll` says what it holds of the items that have been
registered: the ids in the order in which they first came, each with its last item
(`placed_roll`).  What one call changes is in `told_eq`, what all calls have changed in `after_eq`,
and what the catalog is then in `build_after`.
-/

namespace SecurityAudit.CatalogBuilder

/-! ## First and last items of an id -/

section Roll

variable {α : Type} {id : α → Value} {x y : α} {xs : List α}

/-- The items whose ids have not come before. -/
def firsts (id : α → Value) : List α → List α
  | [] => []
  | x :: rest => x :: (firsts id rest).filter fun y => !(id x).isFoundAs (id y)

/-- The last of some items that has the id of one of them. -/
def latest (id : α → Value) (xs : List α) (x : α) : α :=
  (xs.filter fun y => (id x).isFoundAs (id y)).getLast?.getD x

/-- The ids of some items in the order in which they first come, each with its last item. -/
def roll (id : α → Value) (xs : List α) : List α :=
  (firsts id xs).map (latest id xs)

theorem mem_of_mem_firsts (h : x ∈ firsts id xs) : x ∈ xs := by
  induction xs with
  | nil => exact h
  | cons z xs ih =>
      rw [firsts, List.mem_cons] at h
      rcases h with rfl | h
      · exact List.mem_cons_self
      · exact List.mem_cons_of_mem z (ih (List.mem_filter.mp h).1)

/-- One more item is a first one unless its id has come. -/
theorem firsts_append_singleton (id : α → Value) (xs : List α) (x : α) :
    firsts id (xs ++ [x]) =
      if xs.any fun y => (id y).isFoundAs (id x) then firsts id xs else firsts id xs ++ [x] := by
  induction xs with
  | nil => rfl
  | cons z xs ih =>
      rw [List.cons_append, firsts, ih, List.any_cons, firsts]
      by_cases hany : xs.any (fun y => (id y).isFoundAs (id x)) = true
      · rw [if_pos hany, if_pos (by rw [hany, Bool.or_true])]
      · rw [if_neg hany, List.filter_append]
        by_cases hz : (id z).isFoundAs (id x) = true
        · rw [if_pos (by rw [hz, Bool.true_or]), List.filter_cons_of_neg (by simp [hz])]
          simp
        · rw [if_neg (by simp [hz, hany]), List.filter_cons_of_pos (by simp [hz])]
          simp

/-- The id of every item has come with a first one. -/
theorem exists_mem_firsts (h : y ∈ xs) :
    ∃ x ∈ firsts id xs, x = y ∨ (id x).isFoundAs (id y) = true := by
  induction xs with
  | nil => cases h
  | cons z xs ih =>
      rcases List.mem_cons.mp h with rfl | h
      · exact ⟨y, List.mem_cons_self, .inl rfl⟩
      · obtain ⟨x, hx, hxy⟩ := ih h
        by_cases hz : (id z).isFoundAs (id x) = true
        · -- The first item of all has the id of `x`, and so that of `y`.
          refine ⟨z, List.mem_cons_self, .inr ?_⟩
          rcases hxy with rfl | hxy
          · exact hz
          · exact Value.isFoundAs_trans hz hxy
        · refine ⟨x, List.mem_cons_of_mem z (List.mem_filter.mpr ⟨hx, ?_⟩), hxy⟩
          simpa using hz

/-- An id that is found among the first items is found among all, and the other way round. -/
theorem any_firsts (v : Value) :
    (firsts id xs).any (fun y => (id y).isFoundAs v) = xs.any fun y => (id y).isFoundAs v := by
  rw [Bool.eq_iff_iff, List.any_eq_true, List.any_eq_true]
  constructor
  · rintro ⟨y, hy, hfound⟩
    exact ⟨y, mem_of_mem_firsts hy, hfound⟩
  · rintro ⟨y, hy, hfound⟩
    have hfirst : ∃ x ∈ firsts id xs, x = y ∨ (id x).isFoundAs (id y) = true :=
      exists_mem_firsts hy
    obtain ⟨x, hx, rfl | hxy⟩ := hfirst
    · exact ⟨x, hx, hfound⟩
    · exact ⟨x, hx, Value.isFoundAs_trans hxy hfound⟩

/-- One more item is the last one of its id. -/
theorem latest_append_singleton (id : α → Value) (xs : List α) (x y : α) :
    latest id (xs ++ [x]) y = if (id y).isFoundAs (id x) then x else latest id xs y := by
  rw [latest, latest, List.filter_append]
  by_cases h : (id y).isFoundAs (id x) = true
  · simp [h]
  · simp [h]

/-- The last item of an id is one of the items and has the id, or there is none. -/
theorem latest_spec (id : α → Value) (xs : List α) (x : α) :
    latest id xs x = x ∨ latest id xs x ∈ xs ∧ (id x).isFoundAs (id (latest id xs x)) = true := by
  rw [latest]
  cases h : (xs.filter fun y => (id x).isFoundAs (id y)).getLast? with
  | none => exact .inl rfl
  | some y => exact .inr (List.mem_filter.mp (List.mem_of_getLast? h))

/-- An item whose id has not come before is the last one of it so far. -/
theorem latest_of_not_any (hx : (id x).isKey = true)
    (h : ¬ xs.any (fun y => (id y).isFoundAs (id x)) = true) : latest id xs x = x := by
  rcases latest_spec id xs x with hself | ⟨hmem, hfound⟩
  · exact hself
  · exact absurd (List.any_eq_true.mpr ⟨_, hmem, Value.isFoundAs_symm hx hfound⟩) h

/-- The last item of an id is found where the first one is. -/
theorem isFoundAs_latest (hy : (id y).isKey = true) (v : Value) :
    (id (latest id xs y)).isFoundAs v = (id y).isFoundAs v := by
  rcases latest_spec id xs y with hself | ⟨-, hfound⟩
  · rw [hself]
  · rw [Bool.eq_iff_iff]
    exact ⟨Value.isFoundAs_trans hfound,
      Value.isFoundAs_trans (Value.isFoundAs_symm hy hfound)⟩

/-- An id is found among the items of a roll when it is found among all that made it. -/
theorem any_roll (hkeys : ∀ y ∈ xs, (id y).isKey = true) (v : Value) :
    (roll id xs).any (fun y => (id y).isFoundAs v) = xs.any fun y => (id y).isFoundAs v := by
  rw [roll, List.any_map, ← any_firsts, Bool.eq_iff_iff, List.any_eq_true, List.any_eq_true]
  refine exists_congr fun y => and_congr_right fun hy => ?_
  rw [Function.comp_apply, isFoundAs_latest (hkeys y (mem_of_mem_firsts hy))]

/-- **To put an item in its place is to register it after the others.** -/
theorem placed_roll (hkeys : ∀ y ∈ xs, (id y).isKey = true) (hx : (id x).isKey = true) :
    placed id (roll id xs) x = roll id (xs ++ [x]) := by
  rw [placed, any_roll hkeys, roll, roll, firsts_append_singleton]
  by_cases hany : xs.any (fun y => (id y).isFoundAs (id x)) = true
  · -- The id has come, so the item takes the place of the last one so far.
    rw [if_pos hany, if_pos hany, List.map_map]
    refine List.map_congr_left fun y hy => ?_
    rw [Function.comp_apply, isFoundAs_latest (hkeys y (mem_of_mem_firsts hy)),
      latest_append_singleton]
  · rw [if_neg hany, if_neg hany, List.map_append, List.map_singleton]
    have hothers : ∀ y ∈ firsts id xs, latest id xs y = latest id (xs ++ [x]) y := by
      intro y hy
      have hy : ¬ (id y).isFoundAs (id x) = true := fun hfound =>
        hany (List.any_eq_true.mpr ⟨y, mem_of_mem_firsts hy, hfound⟩)
      rw [latest_append_singleton, if_neg hy]
    have hself : latest id (xs ++ [x]) x = x := by
      rw [latest_append_singleton, latest_of_not_any hx hany, ite_self]
    rw [List.map_congr_left hothers, hself]

end Roll

/-! ## Calls -/

/-- What a builder is told. -/
inductive Call where
  | rule (r : Rule)
  | secret (p : SecretPattern)
  | actions (more : Value)
  | settings (s : Settings)

namespace Call

/-- The step of building that a call takes. -/
def step : Call → Step Unit
  | .rule r => register r
  | .secret p => registerSecret p
  | .actions more => addActions more
  | .settings s => applySettings s

/-- The rule that a call registers.  An id that is no key is refused. -/
def rule? : Call → Option Rule
  | .rule r => Option.guard (fun r => r.id.isKey) r
  | _ => none

/-- The secret pattern that a call registers. -/
def secret? : Call → Option SecretPattern
  | .secret p => Option.guard (fun p => p.id.isKey) p
  | _ => none

/-- The enabled ids that a call applies. -/
def enabled? : Call → Option (List Value)
  | .settings s => s.rules.enable.elements?
  | _ => none

/-- The disabled ids that a call applies.  It does not get to them if the enabled ones are refused,
which are no list of ids then. -/
def disabled? : Call → Option (List Value)
  | .settings s => if s.rules.enable.elements?.isSome then s.rules.disable.elements? else none
  | _ => none

/-- The dangerous actions that a call adds. -/
def added : Call → List Value
  | .actions more => more.elements?.getD []
  | .settings s =>
    if s.rules.enable.elements?.isSome && s.rules.disable.elements?.isSome then
      s.iam.extraDangerousActions.elements?.getD []
    else []
  | _ => []

end Call

/-- What a builder holds after one more call.  A call that is refused halfway leaves what it has
changed. -/
def told (b : CatalogBuilder) (call : Call) : CatalogBuilder :=
  (call.step.run.run b).2

/-- What a new builder holds after some calls. -/
def after (calls : List Call) : CatalogBuilder :=
  calls.foldl told empty

theorem addActions_told (b : CatalogBuilder) (more : Value) :
    ((addActions more).run.run b).2 =
      { b with actions := withActions b.actions (more.elements?.getD []) } := by
  rw [addActions, itemsOf]
  cases more.elements? <;> rfl

/-- **What one call changes.** -/
theorem told_eq (b : CatalogBuilder) (call : Call) :
    b.told call =
      { rules := call.rule?.elim b.rules (placed Rule.id b.rules)
        secrets := call.secret?.elim b.secrets (placed SecretPattern.id b.secrets)
        actions := withActions b.actions call.added
        enable := call.enabled?.getD b.enable
        disable := call.disabled?.getD b.disable } := by
  cases call with
  | rule r =>
      rw [told, Call.step, register, Call.rule?, Option.guard]
      by_cases hkey : r.id.isKey = true
      · rw [if_pos hkey, if_pos hkey]
        rfl
      · rw [if_neg hkey, if_neg hkey]
        rfl
  | secret p =>
      rw [told, Call.step, registerSecret, Call.secret?, Option.guard]
      by_cases hkey : p.id.isKey = true
      · rw [if_pos hkey, if_pos hkey]
        rfl
      · rw [if_neg hkey, if_neg hkey]
        rfl
  | actions more => exact addActions_told b more
  | settings s =>
      rw [told, Call.step, applySettings, Call.enabled?, Call.disabled?, Call.added, itemsOf,
        itemsOf]
      cases s.rules.enable.elements? with
      | none => rfl
      | some enable =>
          cases s.rules.disable.elements? with
          | none => rfl
          | some disable => exact addActions_told { b with enable, disable } _

/-- To add actions is to list them after the others, each once. -/
theorem withActions_firsts (xs more : List Value) :
    withActions (firsts (fun v => v) xs) more = firsts (fun v => v) (xs ++ more) := by
  induction more generalizing xs with
  | nil => rw [List.append_nil]; rfl
  | cons a more ih =>
      have hone : (if a.isAmong (firsts (fun v => v) xs) then firsts (fun v => v) xs
          else firsts (fun v => v) xs ++ [a]) = firsts (fun v => v) (xs ++ [a]) := by
        rw [firsts_append_singleton, ← any_firsts]
        rfl
      rw [withActions, List.foldl_cons, hone, ← withActions, ih, List.append_assoc,
        List.singleton_append]

/-- The ids that are enabled after some calls: those that have been applied last. -/
def enabledBy (calls : List Call) : List Value :=
  (calls.filterMap Call.enabled?).getLast?.getD []

/-- The ids that are disabled after some calls: those that have been applied last. -/
def disabledBy (calls : List Call) : List Value :=
  (calls.filterMap Call.disabled?).getLast?.getD []

/-- A list that is applied takes the place of the one before it. -/
theorem getLast?_filterMap_append (f : Call → Option (List Value)) (calls : List Call)
    (call : Call) :
    ((calls ++ [call]).filterMap f).getLast?.getD [] =
      (f call).getD ((calls.filterMap f).getLast?.getD []) := by
  rw [List.filterMap_append]
  cases h : f call with
  | none => simp [h]
  | some ids => simp [h]

theorem Call.isKey_of_rule? (call : Call) (r : Rule) (h : call.rule? = some r) :
    r.id.isKey = true := by
  cases call with
  | rule r' =>
      rw [rule?, Option.guard_eq_some_iff] at h
      exact h.1 ▸ h.2
  | secret | actions | settings => cases h

theorem Call.isKey_of_secret? (call : Call) (p : SecretPattern) (h : call.secret? = some p) :
    p.id.isKey = true := by
  cases call with
  | secret p' =>
      rw [secret?, Option.guard_eq_some_iff] at h
      exact h.1 ▸ h.2
  | rule | actions | settings => cases h

/-- What a call registers has its place after what the calls before it have registered. -/
theorem roll_filterMap_append {α : Type} {id : α → Value} {f : Call → Option α}
    (hkey : ∀ call x, f call = some x → (id x).isKey = true) (calls : List Call) (call : Call) :
    (f call).elim (roll id (calls.filterMap f)) (placed id (roll id (calls.filterMap f))) =
      roll id ((calls ++ [call]).filterMap f) := by
  rw [List.filterMap_append]
  cases h : f call with
  | none => simp [h]
  | some x =>
      have hkeys : ∀ y ∈ calls.filterMap f, (id y).isKey = true := by
        intro y hy
        obtain ⟨call', -, hcall'⟩ := List.mem_filterMap.mp hy
        exact hkey call' y hcall'
      have hone : [call].filterMap f = [x] := by simp [h]
      rw [hone, Option.elim_some, placed_roll hkeys (hkey call x h)]

/-- **What all calls have changed.** -/
theorem after_eq (calls : List Call) :
    after calls =
      { rules := roll Rule.id (calls.filterMap Call.rule?)
        secrets := roll SecretPattern.id (calls.filterMap Call.secret?)
        actions := firsts (fun v => v) (calls.flatMap Call.added)
        enable := enabledBy calls
        disable := disabledBy calls } := by
  induction calls using List.reverseRecOn with
  | nil => rfl
  | append_singleton calls call ih =>
      have hstep : after (calls ++ [call]) = (after calls).told call := by
        rw [after, List.foldl_append, ← after]
        rfl
      have hrules := roll_filterMap_append Call.isKey_of_rule? calls call
      have hsecrets := roll_filterMap_append Call.isKey_of_secret? calls call
      have hactions := withActions_firsts (calls.flatMap Call.added) call.added
      rw [hstep, ih, told_eq]
      simp only [hrules, hsecrets, hactions, enabledBy, disabledBy, getLast?_filterMap_append,
        List.flatMap_append, List.flatMap_singleton]

/-- One more call keeps every id once. -/
theorem told_isRegistered {b : CatalogBuilder} (h : b.IsRegistered) (call : Call) :
    (b.told call).IsRegistered := by
  cases call with
  | rule r => exact register_keeps r b h
  | secret p => exact registerSecret_keeps p b h
  | actions more =>
      have hkeeps : Keeps IsRegistered (addActions more) :=
        (Keeps.lift _).bind fun _ => Keeps.modify fun _ h => ⟨h.rules, h.secrets⟩
      exact hkeeps b h
  | settings s => exact applySettings_keeps s b h

/-- A builder holds every id once, whatever it has been told. -/
theorem after_isRegistered (calls : List Call) : (after calls).IsRegistered := by
  induction calls using List.reverseRecOn with
  | nil => exact ⟨⟨List.forall_mem_nil _, .nil⟩, ⟨List.forall_mem_nil _, .nil⟩⟩
  | append_singleton calls call ih =>
      rw [after, List.foldl_append]
      exact told_isRegistered ih call

/-! ## The catalog -/

/-- An id is chosen by some calls: it is not disabled in the end, and if some ids are enabled in the
end, it is one of them. -/
def IsChosen (calls : List Call) (id : Value) : Prop :=
  id.isAmong (disabledBy calls) = false ∧
    (enabledBy calls ≠ [] → id.isAmong (enabledBy calls) = true)

instance (calls : List Call) (id : Value) : Decidable (IsChosen calls id) :=
  inferInstanceAs (Decidable (_ ∧ _))

/-- A builder puts in force what the calls have chosen. -/
theorem isEnabled_after (calls : List Call) (id : Value) :
    (after calls).isEnabled id = decide (IsChosen calls id) := by
  rw [Bool.eq_iff_iff, decide_eq_true_iff, after_eq, isEnabled, IsChosen, Bool.and_eq_true,
    Bool.not_eq_true', Bool.or_eq_true, List.isEmpty_iff, or_iff_not_imp_left]

/-- Items that are in force after some calls, among those that have been registered: no id names two
of them, and they are what the ids, in the order in which they first came, have last been registered
with, as far as that is chosen. -/
structure AreInForce {α : Type} (calls : List Call) (id : α → Value) (registered items : List α) :
    Prop where
  distinct : items.Pairwise fun x y =>
    (id x).isFoundAs (id y) = false ∧ (id y).isFoundAs (id x) = false
  listed : items = (roll id registered).filter fun x => IsChosen calls (id x)

/-- A catalog tells of some calls. -/
structure TellsOf (calls : List Call) (c : Catalog) : Prop where
  rules : AreInForce calls Rule.id (calls.filterMap Call.rule?) c.rules
  secrets : AreInForce calls SecretPattern.id (calls.filterMap Call.secret?) c.secrets
  /-- The rule of an id is found, if there is one. -/
  get? : ∀ id, id.isKey = true → ∃ found, c.get? id = .ok found ∧
    ∀ r, found = some r ↔ r ∈ c.rules ∧ r.id.isFoundAs id = true
  /-- What is no key is the id of no rule, and it is refused. -/
  get?_refused : ∀ id, id.isKey = false → c.get? id = .error .wrongKind
  /-- Every action that has been added is there, once, in the order in which they first came. -/
  actions : c.actions = firsts (fun a => a) (calls.flatMap Call.added)
  actions_once : c.actions.Pairwise fun a b => a.isFoundAs b = false

/-- Of first items, none has the id of one before it. -/
theorem pairwise_firsts {α : Type} (id : α → Value) (xs : List α) :
    (firsts id xs).Pairwise fun x y => (id x).isFoundAs (id y) = false := by
  induction xs with
  | nil => exact .nil
  | cons x xs ih =>
      refine List.pairwise_cons.mpr ⟨fun y hy => ?_, ih.sublist List.filter_sublist⟩
      simpa using (List.mem_filter.mp hy).2

/-- What the calls have chosen of what a builder holds is in force. -/
theorem areInForce_filter {α : Type} {id : α → Value} {registered items : List α}
    (hroll : items = roll id registered) (h : Registered id items) (calls : List Call) :
    AreInForce calls id registered (items.filter fun x => (after calls).isEnabled (id x)) where
  distinct := by
    refine (h.distinct.sublist List.filter_sublist).imp_of_mem fun {x y} hx hy hxy => ⟨hxy, ?_⟩
    rw [Bool.eq_false_iff]
    intro hyx
    rw [Value.isFoundAs_symm (h.isKey y (List.mem_filter.mp hy).1) hyx] at hxy
    cases hxy
  listed := by simp only [isEnabled_after, hroll]

/-- **The rule of an id** is found among registered rules. -/
theorem Registered.find?_eq_some_iff {items : List Rule} (h : Registered Rule.id items) {v : Value}
    {r : Rule} :
    items.find? (fun r => r.id.isFoundAs v) = some r ↔ r ∈ items ∧ r.id.isFoundAs v = true := by
  have hfound : ∀ r, items.find? (fun r => r.id.isFoundAs v) = some r →
      r ∈ items ∧ r.id.isFoundAs v = true := fun r hfind =>
    ⟨List.mem_of_find?_eq_some hfind, by simpa using List.find?_some hfind⟩
  refine ⟨hfound r, ?_⟩
  rintro ⟨hr, hrv⟩
  cases hfind : items.find? fun r => r.id.isFoundAs v with
  | none => exact absurd hrv (List.find?_eq_none.mp hfind r hr)
  | some r' =>
      obtain ⟨hr', hrv'⟩ := hfound r' hfind
      have hvr' := Value.isFoundAs_symm (h.isKey r' hr') hrv'
      rw [h.eq_of_isFoundAs hr hr' (Value.isFoundAs_trans hrv hvr')]

/-- **A catalog is the history of its builder.**  Whatever a builder has been told, and in whatever
order, the catalog that is built has the rules that are in force: each id once, in the order in
which the ids were first registered, each with the rule that was last registered under it, as far as
the settings that were last applied do not disable the id and, if they enable some ids, enable this
one.  The same is true of the secret patterns.  The rule of an id is found by the id, and the
dangerous actions are those that have been added, each once, in the order in which they first
came. -/
theorem build_after (calls : List Call) : TellsOf calls (after calls).build := by
  have hregistered := after_isRegistered calls
  have hafter := after_eq calls
  constructor
  case rules =>
    exact areInForce_filter (congrArg CatalogBuilder.rules hafter) hregistered.rules calls
  case secrets =>
    exact areInForce_filter (congrArg CatalogBuilder.secrets hafter) hregistered.secrets calls
  case get? =>
    intro id hid
    exact ⟨_, if_pos hid, fun r => hregistered.build.1.find?_eq_some_iff⟩
  case get?_refused =>
    intro id hid
    rw [Catalog.get?, hid]
    rfl
  case actions => rw [build, hafter]
  case actions_once =>
    rw [build, hafter]
    exact pairwise_firsts _ _

end SecurityAudit.CatalogBuilder
