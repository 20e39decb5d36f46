import SecurityAudit.Rule.Entry
import SecurityAudit.Settings.Basic

/-!
# Catalogs

A catalog holds the rules, the secret patterns and the dangerous actions of an audit.  It is put
together by a builder: rules are registered under their ids, in the order in which the ids first
come, and a later rule takes the place of an earlier one with its id.  Which of them are in force is
decided when the catalog is built: a disabled id never is, and when some ids are enabled, no others
are.
-/

namespace SecurityAudit

/-- The rules in force, the secret patterns in force and the dangerous actions. -/
structure Catalog where
  rules : List Rule
  secrets : List SecretPattern
  actions : List Value

namespace Catalog

/-- The catalog without rules. -/
def empty : Catalog :=
  ⟨[], [], []⟩

/-- The rule of an id, if the catalog has it. -/
def get? (c : Catalog) (id : Value) : Except Refusal (Option Rule) :=
  if id.isKey then .ok (c.rules.find? fun r => r.id.isFoundAs id) else .error .wrongKind

/-- The number of rules and secret patterns. -/
def size (c : Catalog) : Nat :=
  c.rules.length + c.secrets.length

/-- The categories in the order in which they first come, each with its rules. -/
def byCategory (c : Catalog) : List (Category × List Rule) :=
  (c.rules.map Rule.category).eraseDups.map fun category =>
    (category, c.rules.filter fun r => r.category == category)

end Catalog

/-- A catalog under construction. -/
structure CatalogBuilder where
  rules : List Rule
  secrets : List SecretPattern
  actions : List Value
  enable : List Value
  disable : List Value

namespace CatalogBuilder

/-- The builder of the empty catalog. -/
def empty : CatalogBuilder :=
  ⟨[], [], [], [], []⟩

/-- A step of building: it changes the builder, and may fail after some of its changes. -/
abbrev Step (α : Type) := ExceptT (Fault Rule.Problem) (StateM CatalogBuilder) α

/-- Put an item in the place of the one with its id, or at the end. -/
def placed {α : Type} (id : α → Value) (items : List α) (x : α) : List α :=
  if items.any fun y => (id y).isFoundAs (id x) then
    items.map fun y => if (id y).isFoundAs (id x) then x else y
  else items ++ [x]

/-- Register a rule under its id. -/
def register (r : Rule) : Step Unit :=
  if r.id.isKey then modify fun b => { b with rules := placed Rule.id b.rules r }
  else throw (.refused .wrongKind)

/-- Register a secret pattern under its id. -/
def registerSecret (p : SecretPattern) : Step Unit :=
  if p.id.isKey then modify fun b => { b with secrets := placed SecretPattern.id b.secrets p }
  else throw (.refused .wrongKind)

/-- Add the actions that are not there yet. -/
def withActions (actions more : List Value) : List Value :=
  more.foldl (fun actions a => if a.isAmong actions then actions else actions ++ [a]) actions

/-- The items of a value that holds some. -/
def itemsOf (v : Value) : Rule.Reading (List Value) :=
  orRefuse .wrongKind v.elements?

/-- Add dangerous actions. -/
def addActions (more : Value) : Step Unit := do
  let items ← itemsOf more
  modify fun b => { b with actions := withActions b.actions items }

/-- Take over which rules are enabled and disabled, and add the dangerous actions of settings. -/
def applySettings (s : Settings) : Step Unit := do
  let enable ← itemsOf s.rules.enable
  modify fun b => { b with enable }
  let disable ← itemsOf s.rules.disable
  modify fun b => { b with disable }
  addActions s.iam.extraDangerousActions

/-- Whether the rule of an id will be in force. -/
def isEnabled (b : CatalogBuilder) (id : Value) : Bool :=
  !id.isAmong b.disable && (b.enable.isEmpty || id.isAmong b.enable)

/-- The catalog. -/
def build (b : CatalogBuilder) : Catalog where
  rules := b.rules.filter fun r => b.isEnabled r.id
  secrets := b.secrets.filter fun p => b.isEnabled p.id
  actions := b.actions

/-- Read an entry of the file at a path and register what it describes. -/
def registerEntry (path : String) (entry : Value) : Step Unit :=
  match entry with
  | .mapping _ => do
    if (Rule.optional entry "kind" (.text "rule")).same (.text "secret") then
      registerSecret (← SecretPattern.ofEntry path entry)
    else register (← Rule.ofEntry path entry)
  | _ => throw (.problem (.notAMapping path))

/-- The entries of a rule file: those of a list, or the single one that is no list. -/
def entriesOf : Option Value → List Value
  | none | some .null => []
  | some (.list entries) => entries
  | some entry => [entry]

/-- Register the entries of a file, and count them. -/
def registerAll (path : String) (entries : List Value) : Step Nat := do
  entries.forM (registerEntry path)
  return entries.length

end CatalogBuilder

end SecurityAudit
