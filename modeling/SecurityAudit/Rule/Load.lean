import SecurityAudit.Rule.Catalog
import SecurityAudit.Text.Encoding
import SecurityAudit.Tree
import SecurityAudit.Yaml.Document

/-!
# Rule files

Custom rules lie in the YAML files of one directory.  The files are read in the order of their
names, and their entries one after another; what has been registered before a fault stays
registered.
-/

namespace SecurityAudit.CatalogBuilder

/-- The document of a rule file. -/
def readDocument (path : String) (content : Except Tree.Failure (List UInt8)) :
    Rule.Reading (Option Value) := do
  match content with
  | .error _ => fail (.unreadableFile path)
  | .ok bytes =>
    let text ← orRefuse .undecodable (Text.Encoding.utf8.decode? bytes)
    match Yaml.parse text with
    | .ok v => return v
    | .error (.problem _) => fail (.unreadableFile path)
    | .error (.refused r) => refuse r

/-- Register the entries of the file at a path, and count them. -/
def loadFile (t : Tree) (path : Path) : Step Nat := do
  let doc ← readDocument path.text (t.read path)
  registerAll path.text (entriesOf doc)

/-- The endings of rule files. -/
def ruleFileSuffixes : List String :=
  [".yaml", ".yml"]

/-- The names in a directory, in order; none if there is no such directory. -/
def namesIn (t : Tree) (directory : Path) : Except Refusal (List String) := do
  if ← t.hasDirectory directory then (t.list directory).mapError Tree.Failure.refusal
  else return []

/-- Find the rule files in a directory. -/
def findRuleFiles (t : Tree) (directory : Path) : Except Refusal (List Path) := do
  let paths := (← namesIn t directory).map directory.child
  return paths.filter fun p => ruleFileSuffixes.contains p.suffix

/-- Register the entries of all rule files in a directory, if it is one, and count them. -/
def loadDirectory (t : Tree) (directory : Path) : Step Nat := do
  let paths ← (allowing (findRuleFiles t directory) : Rule.Reading (List Path))
  let counts ← paths.mapM (loadFile t)
  return counts.foldl (· + ·) 0

end SecurityAudit.CatalogBuilder
