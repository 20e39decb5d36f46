import SecurityAudit.Report.Basic
import SecurityAudit.Tree

/-!
# The files of an audit

All files below a directory are looked at, but for those in directories that tools keep for
themselves.  The files of a directory come first, by name, and then its directories, by name.  A
link to a file counts as one; a link to a directory is not followed.  A file that cannot be read is
left with a warning.  A directory that cannot be listed is passed over, and there is no warning.
-/

namespace SecurityAudit

namespace Path

/-- The path of what lies below a path under some names. -/
def below (p : Path) (names : List String) : Path :=
  p.append { root := "", names }

/-- A text with a name behind it, after one slash. -/
def joined (text name : String) : String :=
  if text.toList.getLast? == some '/' then text ++ name else text ++ "/" ++ name

/-- The text under which a walk that starts at a path comes to what lies below it.  From the empty
path on, the dot for it stays in front. -/
def walked (p : Path) (names : List String) : String :=
  names.foldl joined p.text

end Path

namespace Tree

/-- The directories that are never looked into. -/
def skippedNames : List String :=
  [".git", ".hg", ".svn", "__pycache__", ".venv", "venv", ".tox", ".mypy_cache", ".pytest_cache"]

/-- What is found below a directory: paths, each with its bytes or with a reason why it cannot be
read. -/
abbrev Listing := List (List String × Except Failure (List UInt8))

/-- The entry to which a walk from the path `p` comes under the names `below`. -/
def walkTo (t : Tree) (p : Path) (below : List String) : Except Failure Entry :=
  t.findAs (p.walked below) (p.below below)

/-- A walk comes to a directory that it can list. -/
def canList (t : Tree) (p : Path) (below : List String) : Bool :=
  match t.walkTo p below with
  | .ok (.directory _ mode) => mode.read
  | _ => false

/-- A walk comes to a directory. -/
def walksToDirectory (t : Tree) (p : Path) (below : List String) : Bool :=
  match t.walkTo p below with
  | .ok found => found.isDirectory
  | .error _ => false

/-- The entry of a directory, which lies under the names `below` from the path `p`, counts as a
file: it is no directory, and no link that leads to one. -/
def isListed (t : Tree) (p : Path) (below : List String) (entry : String × Entry) : Bool :=
  match entry.2 with
  | .directory .. => false
  | .link _ => !t.walksToDirectory p (below ++ [entry.1])
  | _ => true

/-- Entries by name. -/
def byName (entries : List (String × Entry)) : List (String × Entry) :=
  entries.mergeSort fun a b => (compare a.1 b.1).isLE

/-- The files of a directory itself. -/
def ownFiles (t : Tree) (p : Path) (below : List String) (entries : List (String × Entry)) :
    Listing :=
  (byName (entries.filter (t.isListed p below))).map fun e =>
    (below ++ [e.1], t.read (p.below (below ++ [e.1])))

/-- Listings joined in the order of the names that they come with. -/
def joinByName (listings : List (String × Listing)) : Listing :=
  (listings.mergeSort fun a b => (compare a.1 b.1).isLE).flatMap Prod.snd

mutual

/-- The files below an entry, which lies under the names `below` from the path `p` where the listing
starts.  In a directory that cannot be listed there are none. -/
def filesIn (t : Tree) (p : Path) (below : List String) : Entry → Listing
  | .directory entries _ =>
    if t.canList p below then
      t.ownFiles p below entries ++ joinByName (filesBelow t p below entries)
    else []
  | _ => []

/-- The files below each of the entries of a directory that is looked into. -/
def filesBelow (t : Tree) (p : Path) (below : List String) :
    List (String × Entry) → List (String × Listing)
  | [] => []
  | (name, entry) :: rest =>
    if entry.isDirectory && !skippedNames.contains name then
      (name, filesIn t p (below ++ [name]) entry) :: filesBelow t p below rest
    else filesBelow t p below rest

end

/-- The files at or below a path; a file itself goes by its name. -/
def filesAt (t : Tree) (p : Path) : Except Refusal Listing := do
  if ← t.hasFile p then return [([p.name], t.read p)]
  else
    match t.find p with
    | .ok found => return t.filesIn p [] found
    | .error _ => return []

end Tree

namespace Audit

/-- The files to be scanned, and warnings about those that cannot be read. -/
structure Collected where
  files : List (String × List UInt8) := []
  warnings : List Warning := []

/-- The warning about a file that cannot be read. -/
def unreadable (path : String) (e : Tree.Failure) : Warning where
  kind := "io"
  target := path
  message := "unreadable: " ++ e.message

/-- Divide what is found by whether it can be read. -/
def divide : Tree.Listing → Collected
  | [] => {}
  | (names, content) :: rest =>
    let path := Text.join "/" names
    let others := divide rest
    match content with
    | .ok bytes => { others with files := (path, bytes) :: others.files }
    | .error e => { others with warnings := unreadable path e :: others.warnings }

/-- Collect the files at or below a path, which is refused when the path cannot be followed. -/
def collect (t : Tree) (p : Path) : Except Refusal Collected :=
  (t.filesAt p).map divide

end Audit

end SecurityAudit
