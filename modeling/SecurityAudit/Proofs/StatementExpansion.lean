import SecurityAudit.Proofs.PolicyForms

/-!
# Statements and the permissions they stand for

A document with statements can be written with permissions: for each statement, each of its actions
and each of its resources there is one permission, with the effect and the condition of the
statement (`IsNativeForm`).  The two shapes are read by different steps, which look for different
keys.  Here it is shown that they agree: the document with permissions is read as the same policy as
the one with statements, so that an audit says the same of both.

An item that stands alone counts as a list of it.  What is left out has a default, which is another
one for a statement than for a permission, but says the same.
-/

namespace SecurityAudit.Iam

open Value

variable {v doc native statement : Value} {policy : Policy}

/-! ### What statements stand for -/

/-- The items of a list, or a value that stands alone. -/
def itemsOf : Value → List Value
  | .list items => items
  | v => [v]

/-- The statements of a document. -/
def statementsOf (doc : Value) : List Value :=
  itemsOf (optional doc "Statement" (.list []))

/-- The actions of a statement. -/
def actionsOf (statement : Value) : List Value :=
  itemsOf (optional statement "Action" (.list []))

/-- The resources of a statement: every resource when it names none. -/
def resourcesOf (statement : Value) : List Value :=
  itemsOf (optional statement "Resource" (.text "*"))

/-- A statement with one of its actions and one of its resources. -/
structure Choice where
  statement : Value
  action : Value
  resource : Value

/-- Each action of a statement with each of its resources. -/
def choicesOf (statement : Value) : List Choice :=
  (actionsOf statement).flatMap fun action =>
    (resourcesOf statement).map fun resource => ⟨statement, action, resource⟩

/-- An entry is the permission that stands for a choice. -/
structure IsEntryFor (c : Choice) (entry : Value) : Prop where
  action : entry.get? "action" = some c.action
  resource : entry.get? "resource" = some c.resource
  effect : optional entry "effect" (.text "allow") =
    optional c.statement "Effect" (.text "allow")
  condition : optional entry "condition" .null = optional c.statement "Condition" .null

/-- A document has the same name, provider and last use as another one with statements, and for each
statement, each action and each resource one permission, in this order. -/
structure IsNativeForm (doc native : Value) : Prop where
  name : nameOf? native = nameOf? doc
  provider : optional native "provider" (.text "aws") = optional doc "provider" (.text "aws")
  lastUsed : optional native "lastUsed" (optional native "last_used" .null) =
    optional doc "lastUsed" (optional doc "last_used" .null)
  permissions : ∃ entries, native.get? "permissions" = some (.list entries) ∧
    List.Forall₂ IsEntryFor ((statementsOf doc).flatMap choicesOf) entries

/-- The permission that stands for a choice. -/
def Choice.entry (c : Choice) : Value :=
  .record [("action", c.action), ("resource", c.resource),
    ("effect", optional c.statement "Effect" (.text "allow")),
    ("condition", optional c.statement "Condition" .null)]

/-- The document with permissions that stands for one with statements. -/
def nativeForm (doc : Value) : Value :=
  .record [("name", (nameOf? doc).getD .null),
    ("provider", optional doc "provider" (.text "aws")),
    ("permissions", .list (((statementsOf doc).flatMap choicesOf).map Choice.entry)),
    ("lastUsed", optional doc "lastUsed" (optional doc "last_used" .null))]

theorem Choice.isEntryFor_entry (c : Choice) : IsEntryFor c c.entry := by
  constructor <;> simp [entry, optional, Value.get?, record, text?]

/-- A name that is found counts as true. -/
theorem holds_of_nameOf? (h : nameOf? doc = some v) : v.holds = true := by
  obtain ⟨key, -, hkey⟩ := List.exists_of_findSome?_eq_some h
  exact (Option.filter_eq_some_iff.mp hkey).2

/-- A document with a name has a form with permissions. -/
theorem isNativeForm_nativeForm (h : nameOf? doc = some v) : IsNativeForm doc (nativeForm doc) where
  name := by
    have hname : (nativeForm doc).get? "name" = some v := by
      simp [nativeForm, Value.get?, record, text?, h]
    rw [h, nameOf?, nameKeys, List.findSome?_cons, hname, Option.filter_some,
      holds_of_nameOf? h]
    rfl
  provider := by simp [nativeForm, optional, Value.get?, record, text?]
  lastUsed := by simp [nativeForm, optional, Value.get?, record, text?]
  permissions := by
    refine ⟨((statementsOf doc).flatMap choicesOf).map Choice.entry, ?_, ?_⟩
    · simp [nativeForm, Value.get?, record, text?]
    · rw [List.forall₂_map_right_iff, List.forall₂_same]
      exact fun c _ => c.isEntryFor_entry

/-! ### One statement -/

/-- A permission is what every entry for a choice is read as, wherever the entry stands. -/
def IsReadFrom (c : Choice) (p : Permission) : Prop :=
  ∀ entry, IsEntryFor c entry → ∀ index, readPermission index entry = .ok p

/-- A value is read as a text. -/
def IsReadAs (v : Value) (s : String) : Prop :=
  v.readable? = some s

/-- Values are read as texts one by one. -/
theorem forall₂_isReadAs_of_mapM {values : List Value} {items : List String}
    (h : values.mapM readable? = some items) : List.Forall₂ IsReadAs values items := by
  induction values generalizing items with
  | nil =>
      obtain rfl := Option.some.inj h
      exact .nil
  | cons v values ih =>
      rw [List.mapM_cons, Option.bind_eq_bind, Option.bind_eq_some_iff] at h
      obtain ⟨s, hs, h⟩ := h
      rw [Option.bind_eq_bind, Option.bind_eq_some_iff] at h
      obtain ⟨rest, hrest, h⟩ := h
      obtain rfl := Option.some.inj h
      exact .cons hs (ih hrest)

/-- A value that stands alone is its own item. -/
theorem forall₂_isReadAs_singleton {s : String} (h : IsReadAs v s) :
    List.Forall₂ IsReadAs (itemsOf v) [s] := by
  cases v with
  | list values => cases h
  | _ => exact .cons h .nil

/-- One text or more are those of the items of their value. -/
theorem itemsOf_of_strings? {items : List String} (h : strings? v = some items) :
    List.Forall₂ IsReadAs (itemsOf v) items := by
  rw [strings?.eq_def] at h
  split at h
  next values =>
    split at h
    · cases h
    · exact forall₂_isReadAs_of_mapM h
  next =>
    obtain ⟨s, hs, rfl⟩ := Option.map_eq_some_iff.mp h
    exact forall₂_isReadAs_singleton hs

/-- The texts that are read are those of the items. -/
theorem itemsOf_of_readStrings {index : Nat} {key : String} {items : List String}
    (h : readStrings index key v = .ok items) : List.Forall₂ IsReadAs (itemsOf v) items := by
  rw [readStrings] at h
  split at h
  next texts htexts =>
    obtain rfl := Except.ok.inj h
    exact itemsOf_of_strings? htexts
  next => cases h

/-- Without an effect, a statement allows what it is about, and so does a permission. -/
theorem readEffect_optional (statement : Value) :
    readEffect (optional statement "Effect" (.text "Allow")) =
      readEffect (optional statement "Effect" (.text "allow")) := by
  have hcapital : readEffect (.text "Allow") = .ok .allow := rfl
  have hsmall : readEffect (.text "allow") = .ok .allow := rfl
  rw [optional, optional]
  cases statement.get? "Effect" with
  | none => exact hcapital.trans hsmall.symm
  | some v => rfl

/-- An entry for a choice is read as the permission with the action and the resource of the choice,
and with what is read of the statement. -/
theorem isReadFrom_of_parts {a r : Value} {action resource : String} {effect : Effect}
    {condition : Value} (ha : IsReadAs a action) (hr : IsReadAs r resource)
    (heffect : readEffect (optional statement "Effect" (.text "Allow")) = .ok effect)
    (hcondition : readCondition (optional statement "Condition" .null) = .ok condition) :
    IsReadFrom ⟨statement, a, r⟩ { action, resource, effect, condition } := by
  intro entry hentry index
  rw [readEffect_optional, ← hentry.effect] at heffect
  rw [← hentry.condition] at hcondition
  have haction := hentry.action
  have ha : a.readable? = some action := ha
  have hr : r.readable? = some resource := hr
  cases entry with
  | mapping entries =>
      simp only [readPermission, haction, hentry.resource, ha, hr, heffect, hcondition]
      rfl
  | _ => cases haction

/-- A statement that is read has texts for actions and resources, an effect and a condition, and is
read as one permission for each action and resource. -/
theorem exists_of_readStatement {index : Nat} {ps : List Permission}
    (h : readStatement index statement = .ok ps) :
    ∃ (actions resources : List String) (effect : Effect) (condition : Value),
      List.Forall₂ IsReadAs (actionsOf statement) actions ∧
      List.Forall₂ IsReadAs (resourcesOf statement) resources ∧
      readEffect (optional statement "Effect" (.text "Allow")) = .ok effect ∧
      readCondition (optional statement "Condition" .null) = .ok condition ∧
      (actions.flatMap fun action => resources.map fun resource =>
        { action, resource, effect, condition }) = ps := by
  rw [readStatement.eq_def] at h
  split at h
  next =>
    split at h
    next => cases h
    next action haction =>
      obtain ⟨actions, hactions, h⟩ := bind_eq_ok_iff.mp h
      obtain ⟨resources, hresources, h⟩ := bind_eq_ok_iff.mp h
      obtain ⟨effect, heffect, h⟩ := bind_eq_ok_iff.mp h
      obtain ⟨condition, hcondition, h⟩ := bind_eq_ok_iff.mp h
      refine ⟨actions, resources, effect, condition, ?_, itemsOf_of_readStrings hresources,
        heffect, hcondition, pure_eq_ok_iff.mp h⟩
      rw [actionsOf, optional, haction]
      exact itemsOf_of_readStrings hactions
  next => cases h

/-- **A statement is read as the permissions of its choices.** -/
theorem forall₂_of_readStatement {index : Nat} {ps : List Permission}
    (h : readStatement index statement = .ok ps) :
    List.Forall₂ IsReadFrom (choicesOf statement) ps := by
  obtain ⟨actions, resources, effect, condition, hactions, hresources, heffect, hcondition, rfl⟩ :=
    exists_of_readStatement h
  rw [choicesOf, List.flatMap_def, List.flatMap_def]
  refine List.rel_flatten ?_
  rw [List.forall₂_map_left_iff, List.forall₂_map_right_iff]
  refine hactions.imp fun a action ha => ?_
  rw [List.forall₂_map_left_iff, List.forall₂_map_right_iff]
  exact hresources.imp fun r resource hr => isReadFrom_of_parts ha hr heffect hcondition

/-! ### All statements -/

/-- Items are read one by one. -/
theorem forall₂_of_readAll {α : Type} {read : Nat → Value → Reading α} {items : List Value}
    {answers : List α} (h : readAll read items = .ok answers) :
    List.Forall₂ (fun item answer => ∃ index, read index item = .ok answer) items answers := by
  rw [readAll, mapM_eq_ok_iff] at h
  rw [← List.zipIdx_map_fst 0 items, List.forall₂_map_left_iff]
  exact h.imp fun place _ hread => ⟨place.2, hread⟩

/-- Items that are read alike wherever they stand are read together. -/
theorem readAll_of_forall₂ {α : Type} {read : Nat → Value → Reading α} {items : List Value}
    {answers : List α}
    (h : List.Forall₂ (fun item answer => ∀ index, read index item = .ok answer) items answers) :
    readAll read items = .ok answers := by
  rw [readAll, mapM_eq_ok_iff]
  rw [← List.zipIdx_map_fst 0 items, List.forall₂_map_left_iff] at h
  exact h.imp fun place answer hread => hread place.2

/-- **Statements are read as the permissions of their choices.** -/
theorem forall₂_of_readStatements {ps : List Permission} (h : readStatements v = .ok ps) :
    List.Forall₂ IsReadFrom ((itemsOf v).flatMap choicesOf) ps := by
  cases v with
  | mapping entries =>
      rw [readStatements] at h
      rw [itemsOf, List.flatMap_singleton]
      · exact forall₂_of_readStatement h
      · rintro items ⟨⟩
  | list items =>
      obtain ⟨parts, hparts, rfl⟩ := map_eq_ok_iff.mp h
      rw [itemsOf, List.flatMap_def]
      refine List.rel_flatten ?_
      rw [List.forall₂_map_left_iff]
      refine (forall₂_of_readAll hparts).imp fun statement part hstatement => ?_
      obtain ⟨index, hread⟩ := hstatement
      exact forall₂_of_readStatement hread
  | _ => cases h

/-- The entries for choices are read as the permissions that the choices are read as. -/
theorem readPermissions_of_forall₂ {choices : List Choice} {entries : List Value}
    {ps : List Permission} (hentries : List.Forall₂ IsEntryFor choices entries)
    (hps : List.Forall₂ IsReadFrom choices ps) :
    readPermissions (.list entries) = .ok ps := by
  refine readAll_of_forall₂ ?_
  induction hps generalizing entries with
  | nil =>
      cases hentries
      exact .nil
  | cons hp _ ih =>
      cases hentries with
      | cons hentry hentries => exact .cons (hp _ hentry) (ih hentries)

/-- There are as many choices as the actions times the resources of each statement. -/
theorem length_choices (statements : List Value) :
    (statements.flatMap choicesOf).length =
      (statements.map fun s => (actionsOf s).length * (resourcesOf s).length).sum := by
  simp [List.length_flatMap, choicesOf]

/-! ### The document -/

/-- A document is read as a policy when each of its parts is read as that of the policy. -/
theorem ofDocument_eq_ok_iff :
    Policy.ofDocument doc = .ok policy ↔
      doc.IsObject ∧ (nameOf? doc).bind raw? = some policy.name ∧
      (∃ provider, (optional doc "provider" (.text "aws")).asText = .ok provider ∧
        provider.lower = policy.provider) ∧
      readBody policy.name doc = .ok policy.permissions ∧
      readTimestamp (optional doc "lastUsed" (optional doc "last_used" .null)) =
        .ok policy.lastUsed := by
  obtain ⟨name, provider, permissions, lastUsed⟩ := policy
  rw [Policy.ofDocument.eq_def]
  split
  next entries =>
    split
    next given hname =>
      simp only [bind_eq_ok_iff, pure_eq_ok_iff, hname, Option.some.injEq, allowing_eq_ok_iff,
        Policy.mk.injEq]
      constructor
      · rintro ⟨raw, hraw, ps, hps, m, hm, rfl, rfl, rfl, rfl⟩
        exact ⟨⟨entries, rfl⟩, rfl, ⟨raw, hraw, rfl⟩, hps, hm⟩
      · rintro ⟨-, rfl, ⟨raw, hraw, rfl⟩, hps, hm⟩
        exact ⟨raw, hraw, _, hps, _, hm, rfl, rfl, rfl, rfl⟩
    next hunnamed =>
      refine iff_of_false nofun ?_
      rintro ⟨-, hname, -⟩
      cases hunnamed.symm.trans hname
  next hnot =>
    refine iff_of_false nofun ?_
    rintro ⟨⟨entries, rfl⟩, -⟩
    exact hnot entries rfl

/-- The permissions of a document without permissions are read from its statements. -/
theorem forall₂_of_readBody {name : RawText} {ps : List Permission}
    (hshape : doc.get? "permissions" = none) (h : readBody name doc = .ok ps) :
    List.Forall₂ IsReadFrom ((statementsOf doc).flatMap choicesOf) ps := by
  rw [readBody, hshape] at h
  cases hstatements : doc.get? "Statement" with
  | none =>
      rw [hstatements] at h
      cases h
  | some v =>
      rw [hstatements] at h
      rw [statementsOf, optional, hstatements]
      exact forall₂_of_readStatements h

/-- **Statements and the permissions they stand for are the same policy.**  Let a document that has
no permissions be read as a policy.  Then it has a form with permissions, and each such form is read
as the same policy, about which an audit says the same.  The policy has as many permissions as there
are actions times resources in the statements. -/
theorem statements_read_as_permissions {doc : Value} {policy : Policy}
    (hshape : doc.get? "permissions" = none) (hread : Policy.ofDocument doc = .ok policy) :
    IsNativeForm doc (nativeForm doc) ∧
      (∀ native, IsNativeForm doc native →
        Policy.ofDocument native = .ok policy ∧
        ∀ (a : Audit) (label : RawText),
          a.scanPolicy label (.document native) = a.scanPolicy label (.document doc)) ∧
      policy.permissions.length =
        ((statementsOf doc).map fun s => (actionsOf s).length * (resourcesOf s).length).sum := by
  obtain ⟨-, hname, hprovider, hbody, hlast⟩ := ofDocument_eq_ok_iff.mp hread
  obtain ⟨given, hgiven, -⟩ := Option.bind_eq_some_iff.mp hname
  have hpermissions := forall₂_of_readBody hshape hbody
  refine ⟨isNativeForm_nativeForm hgiven, fun native hnative => ?_, ?_⟩
  · obtain ⟨entries, hentries, hforms⟩ := hnative.permissions
    have hobject : native.IsObject := by
      cases native with
      | mapping fields => exact ⟨fields, rfl⟩
      | _ => cases hentries
    have hsame : Policy.ofDocument native = .ok policy := by
      rw [ofDocument_eq_ok_iff, hnative.name, hnative.provider, hnative.lastUsed, readBody,
        hentries]
      exact ⟨hobject, hname, hprovider, readPermissions_of_forall₂ hforms hpermissions, hlast⟩
    refine ⟨hsame, fun a label => ?_⟩
    simp only [Audit.scanPolicy, hsame, hread]
  · rw [← hpermissions.length_eq, length_choices]

/-- A document with two statements: two actions on two resources are denied under a condition, and
one action is allowed. -/
def twoStatements : Value :=
  .record [("PolicyName", .text "deploy"), ("provider", .text "AWS"),
    ("Statement", .list [
      .record [("Effect", .text "Deny"), ("Action", .texts ["s3:Get*", "s3:Put*"]),
        ("Resource", .texts ["arn:aws:s3:::a", "arn:aws:s3:::b"]),
        ("Condition", .record [("Bool", .text "true")])],
      .record [("Action", .text "iam:PassRole")]])]

/-- The two statements stand for five permissions. -/
theorem twoStatements_read_as_permissions :
    ∃ policy, Policy.ofDocument twoStatements = .ok policy ∧
      Policy.ofDocument (nativeForm twoStatements) = .ok policy ∧
      policy.permissions.length = 5 := by
  have hok : ((Policy.ofDocument twoStatements).toOption.any fun _ => true) = true := by
    decide +kernel
  obtain ⟨policy, hread, -⟩ := any_toOption_iff.mp hok
  obtain ⟨hform, hsame, hlength⟩ := statements_read_as_permissions (by decide) hread
  have hfive : ((statementsOf twoStatements).map fun s =>
      (actionsOf s).length * (resourcesOf s).length).sum = 5 := by
    decide
  exact ⟨policy, hread, (hsame _ hform).1, hlength.trans hfive⟩

end SecurityAudit.Iam
