import SecurityAudit.Proofs.Omission
import SecurityAudit.Rule.Builtin

/-!
# Every id is registered once

A rule takes the place of the one that has its id, and so does a secret pattern.  So however many
are registered, and in whatever order, no id of a builder is found as another one: an id names one
rule of the catalog at most, and one secret pattern at most.
-/

namespace SecurityAudit

namespace Number

theorem same_symm {x y : Number} (h : x.same y = true) : y.same x = true := by
  rw [same_iff] at *
  grind

/-- Equal numbers are both floats that are no numbers, or neither is. -/
theorem exact_eq_nan_iff_of_same {x y : Number} (h : x.same y = true) :
    x.exact = .nan ↔ y.exact = .nan := by
  rw [same_iff] at h
  grind

end Number

namespace Value

theorem since?_eq_zero_symm {m n : Calendar.Moment} (h : m.since? n = some 0) :
    n.since? m = some 0 := by
  simp only [Calendar.Moment.since?] at *
  grind

/-- Of two keys, each equals the other or neither does. -/
theorem same_symm_of_isKey {a b : Value} (ha : a.isKey = true) (h : a.same b = true) :
    b.same a = true := by
  cases ofOneKind_of_kind_eq (kind_eq_of_same h) with
  | null => exact h
  | number hx hy =>
      rw [same_of_number? hx hy] at h
      rw [same_of_number? hy hx]
      exact Number.same_symm h
  | text hs ht =>
      rw [same_of_raw? hs ht, beq_iff_eq] at h
      rw [same_of_raw? ht hs, beq_iff_eq, h]
  | date d e =>
      rw [same, beq_iff_eq] at *
      exact h.symm
  | time t u =>
      rw [same, beq_iff_eq] at *
      exact h.symm
  | moment =>
      rw [same, beq_iff_eq] at *
      exact since?_eq_zero_symm h
  | noKey ha' _ =>
      rw [ha'] at ha
      cases ha

/-- Equal values are both floats that are no numbers, or neither is. -/
theorem isNaN_eq_of_same {a b : Value} (h : a.same b = true) : a.isNaN = b.isNaN := by
  cases ofOneKind_of_kind_eq (kind_eq_of_same h) with
  | number hx hy =>
      rw [same_of_number? hx hy] at h
      rw [Bool.eq_iff_iff]
      simpa [isNaN, hx, hy] using Number.exact_eq_nan_iff_of_same h
  | noKey ha hb =>
      have hnone : ∀ v : Value, v.isKey = false → v.isNaN = false := by
        intro v hv
        cases v <;> first | rfl | cases hv
      rw [hnone a ha, hnone b hb]
  | text hs ht =>
      rw [same_of_raw? hs ht, beq_iff_eq] at h
      rw [eq_of_raw? hs (h ▸ ht)]
  | null | date | time | moment => rfl

theorem isFoundAs_iff {a b : Value} :
    a.isFoundAs b = true ↔ b.isNaN = false ∧ a.same b = true := by
  rw [isFoundAs, Bool.and_eq_true, Bool.not_eq_true']

/-- Of two keys, each is found as the other or neither is. -/
theorem isFoundAs_symm {a b : Value} (ha : a.isKey = true) (h : a.isFoundAs b = true) :
    b.isFoundAs a = true := by
  obtain ⟨hnumber, hsame⟩ := isFoundAs_iff.mp h
  refine isFoundAs_iff.mpr ⟨?_, same_symm_of_isKey ha hsame⟩
  rw [isNaN_eq_of_same hsame, hnumber]

theorem isFoundAs_trans {a b c : Value} (hab : a.isFoundAs b = true)
    (hbc : b.isFoundAs c = true) : a.isFoundAs c = true := by
  obtain ⟨-, hab⟩ := isFoundAs_iff.mp hab
  obtain ⟨hnumber, hbc⟩ := isFoundAs_iff.mp hbc
  exact isFoundAs_iff.mpr ⟨hnumber, same_trans a b c hab hbc⟩

end Value

namespace CatalogBuilder

/-- Items are registered: their ids are keys, and none is found as one that comes after it. -/
structure Registered {α : Type} (id : α → Value) (items : List α) : Prop where
  isKey : ∀ x ∈ items, (id x).isKey = true
  distinct : items.Pairwise fun x y => (id x).isFoundAs (id y) = false

section Registered

variable {α : Type} {id : α → Value} {items : List α}

theorem Registered.sublist {fewer : List α} (h : Registered id items)
    (hsub : fewer.Sublist items) : Registered id fewer where
  isKey x hx := h.isKey x (hsub.subset hx)
  distinct := h.distinct.sublist hsub

/-- An id of registered items names one of them. -/
theorem Registered.eq_of_isFoundAs (h : Registered id items) {x y : α} (hx : x ∈ items)
    (hy : y ∈ items) (hfound : (id x).isFoundAs (id y) = true) : x = y := by
  have hforward : items.Pairwise fun x y => (id x).isFoundAs (id y) = true → x = y := by
    refine h.distinct.imp fun {x y} hxy hfound => ?_
    rw [hxy] at hfound
    cases hfound
  have hbackward : items.Pairwise fun x y => (id y).isFoundAs (id x) = true → y = x := by
    refine h.distinct.imp_of_mem fun {x y} _ hy hxy hfound => ?_
    rw [Value.isFoundAs_symm (h.isKey y hy) hfound] at hxy
    cases hxy
  exact hforward.forall_of_forall_of_flip (fun _ _ _ => rfl) hbackward hx hy hfound

/-- An item in its place is one of the items. -/
theorem mem_placed {x y : α} (h : y ∈ placed id items x) : y = x ∨ y ∈ items := by
  rw [placed] at h
  split at h
  · obtain ⟨z, hz, rfl⟩ := List.mem_map.mp h
    by_cases hfound : (id z).isFoundAs (id x) = true
    · rw [if_pos hfound]
      exact .inl rfl
    · rw [if_neg hfound]
      exact .inr hz
  · rcases List.mem_append.mp h with h | h
    · exact .inr h
    · exact .inl (List.mem_singleton.mp h)

/-- **One more item is registered**: it takes the place of the one with its id, or the place at the
end if there is none. -/
theorem Registered.placed (h : Registered id items) {x : α} (hx : (id x).isKey = true) :
    Registered id (CatalogBuilder.placed id items x) where
  isKey := by
    intro y hy
    rcases mem_placed hy with rfl | hy
    · exact hx
    · exact h.isKey y hy
  distinct := by
    rw [CatalogBuilder.placed]
    split
    · -- At most one item gives up its place, since two with the id of `x` would be one.
      rw [List.pairwise_map]
      refine h.distinct.imp_of_mem fun {y z} hy hz hyz => ?_
      cases hfound : (id y).isFoundAs (id x) <;> cases hfound' : (id z).isFoundAs (id x)
      · simpa using hyz
      · simpa using hfound
      · simp only [if_true, Bool.false_eq_true, if_false]
        rw [Bool.eq_false_iff]
        intro hxz
        rw [Value.isFoundAs_symm hx hxz] at hfound'
        cases hfound'
      · have hxz := Value.isFoundAs_symm (h.isKey z hz) hfound'
        rw [Value.isFoundAs_trans hfound hxz] at hyz
        cases hyz
    · rename_i hnone
      rw [List.pairwise_append]
      refine ⟨h.distinct, List.pairwise_singleton _ _, fun y hy z hz => ?_⟩
      obtain rfl := List.mem_singleton.mp hz
      rw [Bool.eq_false_iff]
      exact fun hfound => hnone (List.any_eq_true.mpr ⟨y, hy, hfound⟩)

end Registered

/-- A builder holds every id once. -/
structure IsRegistered (b : CatalogBuilder) : Prop where
  rules : Registered Rule.id b.rules
  secrets : Registered SecretPattern.id b.secrets

/-! ## Steps of building -/

/-- A step keeps a property of the builder, also if it fails. -/
def Keeps (P : CatalogBuilder → Prop) {α : Type} (step : Step α) : Prop :=
  ∀ b, P b → P (step.run.run b).2

section Keeps

variable {P : CatalogBuilder → Prop} {α β : Type}

theorem Keeps.pure (a : α) : Keeps P (Pure.pure a : Step α) :=
  fun _ h => h

theorem Keeps.throw (f : Fault Rule.Problem) : Keeps P (throw f : Step α) :=
  fun _ h => h

/-- What only reads keeps everything. -/
theorem Keeps.lift (x : Rule.Reading α) : Keeps P (liftM x : Step α) := by
  intro b h
  cases x <;> exact h

theorem Keeps.modify {change : CatalogBuilder → CatalogBuilder} (h : ∀ b, P b → P (change b)) :
    Keeps P (modify change : Step Unit) :=
  h

theorem Keeps.bind {x : Step α} {next : α → Step β} (hx : Keeps P x)
    (hnext : ∀ a, Keeps P (next a)) : Keeps P (x >>= next) := by
  intro b h
  have hfirst := hx b h
  rw [ExceptT.run_bind, StateT.run_bind]
  generalize x.run.run b = first at hfirst ⊢
  obtain ⟨result, b'⟩ := first
  cases result with
  | error f => exact hfirst
  | ok a => exact hnext a b' hfirst

theorem Keeps.forM {step : α → Step Unit} {as : List α} (h : ∀ a ∈ as, Keeps P (step a)) :
    Keeps P (as.forM step) := by
  induction as with
  | nil => exact Keeps.pure ()
  | cons a as ih =>
      obtain ⟨ha, has⟩ := List.forall_mem_cons.mp h
      exact ha.bind fun _ => ih has

theorem Keeps.mapM {step : α → Step β} {as : List α} (h : ∀ a ∈ as, Keeps P (step a)) :
    Keeps P (as.mapM step) := by
  induction as with
  | nil => exact Keeps.pure []
  | cons a as ih =>
      obtain ⟨ha, has⟩ := List.forall_mem_cons.mp h
      rw [List.mapM_cons]
      exact ha.bind fun _ => (ih has).bind fun _ => Keeps.pure _

end Keeps

/-- To register a rule keeps every id once. -/
theorem register_keeps (r : Rule) : Keeps IsRegistered (register r) := by
  rw [register]
  split
  · rename_i hkey
    exact Keeps.modify fun b h => ⟨h.rules.placed hkey, h.secrets⟩
  · exact Keeps.throw _

/-- To register a secret pattern keeps every id once. -/
theorem registerSecret_keeps (p : SecretPattern) : Keeps IsRegistered (registerSecret p) := by
  rw [registerSecret]
  split
  · rename_i hkey
    exact Keeps.modify fun b h => ⟨h.rules, h.secrets.placed hkey⟩
  · exact Keeps.throw _

/-- To read an entry and register what it describes keeps every id once. -/
theorem registerEntry_keeps (path : String) (entry : Value) :
    Keeps IsRegistered (registerEntry path entry) := by
  cases entry with
  | mapping entries =>
      rw [registerEntry]
      split
      · exact (Keeps.lift _).bind fun p => registerSecret_keeps p
      · exact (Keeps.lift _).bind fun r => register_keeps r
  | _ => exact Keeps.throw _

/-- To load a file keeps every id once. -/
theorem loadFile_keeps (t : Tree) (path : Path) : Keeps IsRegistered (loadFile t path) := by
  refine (Keeps.lift _).bind fun doc => ?_
  have hall : Keeps IsRegistered ((entriesOf doc).forM (registerEntry path.text)) :=
    Keeps.forM fun entry _ => registerEntry_keeps path.text entry
  exact hall.bind fun _ => Keeps.pure _

/-- To load a directory keeps every id once. -/
theorem loadDirectory_keeps (t : Tree) (directory : Path) :
    Keeps IsRegistered (loadDirectory t directory) := by
  refine (Keeps.lift _).bind fun paths => ?_
  exact (Keeps.mapM fun path _ => loadFile_keeps t path).bind fun _ => Keeps.pure _

/-- To apply settings keeps what is only about the rules and the secret patterns. -/
theorem applySettings_keeps_of {P : CatalogBuilder → Prop}
    (hP : ∀ b b', b'.rules = b.rules → b'.secrets = b.secrets → P b → P b') (s : Settings) :
    Keeps P (applySettings s) := by
  refine (Keeps.lift _).bind fun enable => ?_
  refine .bind (.modify fun b h => hP b _ rfl rfl h) fun _ => ?_
  refine (Keeps.lift _).bind fun disable => ?_
  refine .bind (.modify fun b h => hP b _ rfl rfl h) fun _ => ?_
  refine (Keeps.lift _).bind fun actions => ?_
  exact .modify fun b h => hP b _ rfl rfl h

/-- To apply settings keeps every id once. -/
theorem applySettings_keeps (s : Settings) : Keeps IsRegistered (applySettings s) :=
  applySettings_keeps_of
    (fun _ _ hrules hsecrets h => ⟨hrules ▸ h.rules, hsecrets ▸ h.secrets⟩) s

/-- To load what a project brings, and to apply the settings, keeps every id once. -/
theorem prepare_keeps (s : Settings) (project : Option Project) :
    Keeps IsRegistered (prepare s project) := by
  cases project with
  | none => exact (Keeps.pure ()).bind fun _ => applySettings_keeps s
  | some p =>
      have hcustom : Keeps IsRegistered (loadCustom s p) :=
        (Keeps.lift _).bind fun name =>
          (loadDirectory_keeps p.tree _).bind fun _ => Keeps.pure ()
      exact hcustom.bind fun _ => applySettings_keeps s

/-- What is in force of registered items is registered. -/
theorem IsRegistered.build {b : CatalogBuilder} (h : b.IsRegistered) :
    Registered Rule.id b.build.rules ∧ Registered SecretPattern.id b.build.secrets :=
  ⟨h.rules.sublist List.filter_sublist, h.secrets.sublist List.filter_sublist⟩

end CatalogBuilder

/-- The ids of the built-in rules and secret patterns are different texts. -/
theorem Builtin.builder_isRegistered : Builtin.builder.IsRegistered where
  rules := ⟨by decide +kernel, by decide +kernel⟩
  secrets := ⟨by decide +kernel, by decide +kernel⟩

/-- **A catalog holds every id once**, among its rules and among its secret patterns, whatever a
project has brought. -/
theorem Catalog.registered_of_ofSettings {s : Settings} {project : Option Project} {c : Catalog}
    (h : Catalog.ofSettings s project = .ok c) :
    CatalogBuilder.Registered Rule.id c.rules ∧
      CatalogBuilder.Registered SecretPattern.id c.secrets := by
  have hkept := CatalogBuilder.prepare_keeps s project _ Builtin.builder_isRegistered
  rw [Catalog.ofSettings] at h
  split at h
  · rename_i b hb
    cases h
    rw [hb] at hkept
    exact hkept.build
  · cases h

end SecurityAudit
