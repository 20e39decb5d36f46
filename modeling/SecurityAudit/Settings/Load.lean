import SecurityAudit.Settings.Reader
import SecurityAudit.Text.Encoding
import SecurityAudit.Toml.Reader
import SecurityAudit.Tree

/-!
# Loading settings

The settings of a project are in a TOML file in its root, or in another file that is named.  After
the file comes the environment, and what has been put together is checked.  A project without a file
has the settings that hold when nothing is said.
-/

namespace SecurityAudit.Settings

/-- The name of the file with the settings of a project. -/
def fileName : String := ".vulnaudit.toml"

/-- The name of a file that is given, if it is not empty. -/
def given (named : Option String) : Option String :=
  named.filter fun name => !name.isEmpty

/-- Where the file with the settings is looked for: under the name that is given, or in the root. -/
def placeOf (root : Path) (named : Option String) : Path :=
  match given named with
  | some name => .ofString name
  | none => root.child fileName

/-- The file with the settings, if it is there; a file that is named has to be there. -/
def findFile (t : Tree) (root : Path) (named : Option String) : Checked (Option Path) := do
  if ← allowing (t.hasFile (placeOf root named)) then return some (placeOf root named)
  else
    match given named with
    | some name => fail (.fileNotFound name)
    | none => return none

/-- Read the document in a file. -/
def readFile (t : Tree) (path : Path) : Checked Value := do
  match t.read path with
  | .error _ => fail (.unreadableFile path.text)
  | .ok bytes =>
    let text ← orRefuse .undecodable (Text.Encoding.utf8.decode? bytes)
    match Toml.parse text with
    | .ok entries => return .mapping entries
    | .error .malformed => fail (.unreadableFile path.text)
    | .error .tooManyDigits => refuse .badValue

/-- The settings in a file, if there is one. -/
def ofFile (t : Tree) (path : Option Path) : Checked Settings :=
  match path with
  | none => .ok {}
  | some path => do ofDocument (← readFile t path)

/-- Load the settings of the project in a directory, and check them. -/
def load (t : Tree) (env : Environment) (root : Path) (named : Option String) :
    Checked Settings := do
  let s ← withEnvironment env (← ofFile t (← findFile t root named))
  s.check
  return s

end SecurityAudit.Settings
