import SecurityAudit.Iam.Document
import SecurityAudit.Json.Reader
import SecurityAudit.Report.Basic
import SecurityAudit.Text.Encoding
import SecurityAudit.Tree

/-!
# Policy files

Policies are given as JSON files, or as directories with JSON files.  A file holds one document or a
list of them.  A document that does not name its policy is named after its file, and by its place in
the list when there are others.  A file that cannot be read is left with a warning.
-/

namespace SecurityAudit.Iam

/-- The ending of policy files. -/
def fileEnding : String := ".json"

/-- The files that a path stands for: those of a directory in the order of their names, which are
none if it cannot be listed, or the path itself. -/
def filesOf (t : Tree) (p : Path) : Except Refusal (List Path) := do
  if ← t.hasDirectory p then
    let names := (t.list p).toOption.getD []
    return (names.filter fun name => fileEnding.toList.isSuffixOf name.toList).map p.child
  else return [p]

/-- The documents in a file: the items of a list, or the value itself. -/
def documentsOf : Value → List Value
  | .list items => items
  | v => [v]

/-- The name for the document at an index of a file with a number of documents. -/
def givenName (stem : String) (count index : Nat) : String :=
  if count == 1 then stem else indexed stem index

/-- A document with a name: an object that does not name its policy gets one. -/
def named (name : String) (doc : Value) : Value :=
  match doc with
  | .mapping entries =>
    if (nameOf? doc).isSome then doc
    else .mapping (putEntry entries (.text "name") (.text name))
  | _ => doc

/-- The documents in a file, all named. -/
def namedDocuments (stem : String) (v : Value) : List Value :=
  let docs := documentsOf v
  docs.zipIdx.map fun (doc, i) => named (givenName stem docs.length i) doc

/-- The warning about a file that cannot be read. -/
def unreadable (path : Path) : Warning where
  kind := "policy"
  target := path.text
  message := "cannot load policy file"

/-- The value in a file, if it can be read. -/
def readFile (t : Tree) (path : Path) : Except Refusal (Option Value) :=
  match t.read path with
  | .error _ => .ok none
  | .ok bytes =>
    match Text.Encoding.utf8.decode? bytes with
    | none => .ok none
    | some text =>
      match Json.parse (String.ofList text) with
      | .ok v => .ok (some v)
      | .error .malformed => .ok none
      | .error .tooManyDigits => .error .badValue

/-- The documents that are loaded, and warnings about files that cannot be. -/
structure Loaded where
  documents : List Value := []
  warnings : List Warning := []

/-- Load the documents of files. -/
def loadFiles (t : Tree) : List Path → Except Refusal Loaded
  | [] => .ok {}
  | path :: rest => do
    let v ← readFile t path
    let others ← loadFiles t rest
    match v with
    | some v =>
      return { others with documents := namedDocuments path.stem v ++ others.documents }
    | none => return { others with warnings := unreadable path :: others.warnings }

/-- The files that paths stand for. -/
def allFilesOf (t : Tree) (paths : List Path) : Except Refusal (List Path) :=
  (paths.mapM (filesOf t)).map List.flatten

/-- Load the documents of files and directories. -/
def load (t : Tree) (paths : List Path) : Except Refusal Loaded := do
  loadFiles t (← allFilesOf t paths)

end SecurityAudit.Iam
