import SecurityAudit.Iam.Policy
import SecurityAudit.Text.Case

/-!
# Policy documents

A policy is read from a document in one of two shapes: with a list of permissions, or with
statements, each of which stands for one permission for each of its actions and resources.
-/

namespace SecurityAudit.Iam

/-- Why a document is no policy. -/
inductive Problem where
  | notAnObject
  | noName
  | permissionsNotAList
  | permissionNotAMapping (index : Nat)
  | permissionLacks (index : Nat) (key : String)
  | permissionNotStrings (index : Nat)
  | badEffect (effect : Value)
  | conditionNotAMapping
  | statementNotAList
  | statementNotAnObject (index : Nat)
  | statementLacksAction (index : Nat)
  | notStrings (index : Nat) (key : String)
  | noPermissions (name : RawText)
  | badTimestamp (text : RawText)
  | timestampNotAString (kind : String)
  deriving Inhabited

/-- An entry of a list in a message. -/
def indexed (name : String) (index : Nat) : String :=
  name ++ "[" ++ toString index ++ "]"

/-- The message of a problem. -/
def Problem.message : Problem → String
  | .notAnObject => "policy document must be a JSON object"
  | .noName => "policy has no name"
  | .permissionsNotAList => "permissions must be a list"
  | .permissionNotAMapping i => indexed "permissions" i ++ " must be a mapping"
  | .permissionLacks i key => indexed "permissions" i ++ " is missing " ++ Text.quoted key
  | .permissionNotStrings i => indexed "permissions" i ++ ": action and resource must be strings"
  | .badEffect effect => "effect must be 'allow' or 'deny', got " ++ effect.quoted
  | .conditionNotAMapping => "condition must be a mapping"
  | .statementNotAList => "Statement must be an object or a list"
  | .statementNotAnObject i => indexed "Statement" i ++ " must be an object"
  | .statementLacksAction i => indexed "Statement" i ++ " has no Action"
  | .notStrings i key =>
    indexed "Statement" i ++ "." ++ key ++ " must be a string or a non-empty list of strings"
  | .noPermissions name =>
    "policy " ++ name.quoted ++ " has neither 'permissions' nor 'Statement'"
  | .badTimestamp text => "lastUsed is not an ISO-8601 timestamp: " ++ text.quoted
  | .timestampNotAString kind => "lastUsed must be a timestamp string, got " ++ kind

/-- The outcome of reading a policy. -/
abbrev Reading (α : Type) := Except (Fault Problem) α

/-- Read an effect, in whatever letter case. -/
def readEffect (v : Value) : Reading Effect :=
  match v.text?.map Text.lower with
  | some "allow" => .ok .allow
  | some "deny" => .ok .deny
  | _ => failAbout v (.badEffect v)

/-- Read a condition; null says nothing. -/
def readCondition : Value → Reading Value
  | .null => .ok (.mapping [])
  | .mapping entries => .ok (.mapping entries)
  | _ => fail .conditionNotAMapping

/-- The value of a key, or what holds without it. -/
def optional (v : Value) (key : String) (default : Value) : Value :=
  (v.get? key).getD default

/-- Read the permission at an index. -/
def readPermission (index : Nat) (entry : Value) : Reading Permission :=
  match entry with
  | .mapping _ =>
    match entry.get? "action", entry.get? "resource" with
    | none, _ => fail (.permissionLacks index "action")
    | some _, none => fail (.permissionLacks index "resource")
    | some action, some resource =>
      match action.readable?, resource.readable? with
      | some action, some resource => do
        let effect ← readEffect (optional entry "effect" (.text "allow"))
        let condition ← readCondition (optional entry "condition" .null)
        return { action, resource, effect, condition }
      | _, _ => fail (.permissionNotStrings index)
  | _ => fail (.permissionNotAMapping index)

/-- Read entries with their indices. -/
def readAll {α : Type} (read : Nat → Value → Reading α) (items : List Value) : Reading (List α) :=
  items.zipIdx.mapM fun (item, i) => read i item

/-- Read a list of permissions. -/
def readPermissions : Value → Reading (List Permission)
  | .list items => readAll readPermission items
  | _ => fail .permissionsNotAList

/-- The texts of a value that is one, or a list of some. -/
def strings? : Value → Option (List String)
  | .list items => if items.isEmpty then none else items.mapM Value.readable?
  | v => v.readable?.map fun s => [s]

/-- Read the actions or the resources of a statement. -/
def readStrings (index : Nat) (key : String) (v : Value) : Reading (List String) :=
  match strings? v with
  | some items => .ok items
  | none => fail (.notStrings index key)

/-- Read the statement at an index: one permission for each of its actions and resources. -/
def readStatement (index : Nat) (entry : Value) : Reading (List Permission) :=
  match entry with
  | .mapping _ =>
    match entry.get? "Action" with
    | none => fail (.statementLacksAction index)
    | some action => do
      let actions ← readStrings index "Action" action
      let resources ← readStrings index "Resource" (optional entry "Resource" (.text "*"))
      let effect ← readEffect (optional entry "Effect" (.text "Allow"))
      let condition ← readCondition (optional entry "Condition" .null)
      return actions.flatMap fun action =>
        resources.map fun resource => { action, resource, effect, condition }
  | _ => fail (.statementNotAnObject index)

/-- Read a statement or a list of statements. -/
def readStatements (v : Value) : Reading (List Permission) :=
  match v with
  | .mapping _ => readStatement 0 v
  | .list items => (readAll readStatement items).map List.flatten
  | _ => fail .statementNotAList

/-- A text with every letter Z replaced by the distance zero from universal time. -/
def withoutZulu (s : String) : String :=
  String.ofList (s.toList.flatMap fun c => if c == 'Z' then "+00:00".toList else [c])

/-- Read the moment of the last use; without a distance it is universal time. -/
def readTimestamp (v : Value) : Reading (Option Calendar.Moment) :=
  match v with
  | .null => .ok none
  | .moment m => .ok (some m.orUniversal)
  | v =>
    match v.raw? with
    | none => fail (.timestampNotAString v.kindName)
    | some t =>
      if t.readable.isEmpty then .ok none
      else
        match Calendar.Moment.parse? (withoutZulu t.readable) with
        | some m => .ok (some m.orUniversal)
        | none => fail (.badTimestamp t)

/-- The keys under which a name is looked for. -/
def nameKeys : List String :=
  ["name", "PolicyName", "Id"]

/-- The first value under one of the keys that says something. -/
def nameOf? (doc : Value) : Option Value :=
  nameKeys.findSome? fun key => (doc.get? key).filter Value.holds

/-- Read the permissions of a document in either shape. -/
def readBody (name : RawText) (doc : Value) : Reading (List Permission) :=
  match doc.get? "permissions", doc.get? "Statement" with
  | some v, _ => readPermissions v
  | none, some v => readStatements v
  | none, none => fail (.noPermissions name)

/-- Read a policy. -/
def Policy.ofDocument (doc : Value) : Reading Policy :=
  match doc with
  | .mapping _ =>
    match (nameOf? doc).bind Value.raw? with
    | some name => do
      let provider ← allowing (optional doc "provider" (.text "aws")).asText
      let permissions ← readBody name doc
      let lastUsed ← readTimestamp (optional doc "lastUsed" (optional doc "last_used" .null))
      return { name, provider := provider.lower, permissions, lastUsed }
    | none => fail .noName
  | _ => fail .notAnObject

end SecurityAudit.Iam
