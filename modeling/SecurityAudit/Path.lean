import SecurityAudit.Text.Blank

/-!
# Paths

A path is a root and the names after it.  Empty names and single dots say nothing and are dropped;
two slashes in front are a root of their own, three or more count as one.
-/

namespace SecurityAudit

/-- A path: its root, which is empty for a relative path, and its names. -/
structure Path where
  root : String
  names : List String
  deriving Repr, DecidableEq, Inhabited

namespace Path

/-- The root in front of a text: as many slashes as say something. -/
def rootOf : List Char → String
  | '/' :: '/' :: '/' :: _ => "/"
  | '/' :: '/' :: _ => "//"
  | '/' :: _ => "/"
  | _ => ""

/-- The names between the slashes of a text that say something. -/
def namesOf (cs : List Char) : List String :=
  (Text.splitAt '/' cs).filterMap fun name =>
    if name.isEmpty || name == ['.'] then none else some (String.ofList name)

/-- Read a path. -/
def ofString (s : String) : Path where
  root := rootOf s.toList
  names := namesOf s.toList

/-- The root, if there is one, and the names. -/
def parts (p : Path) : List String :=
  if p.root.isEmpty then p.names else p.root :: p.names

/-- The path as a text; the empty path is a dot. -/
def text (p : Path) : String :=
  let body := p.root ++ Text.join "/" p.names
  if body.isEmpty then "." else body

/-- The last name, empty if there is none. -/
def name (p : Path) : String :=
  p.names.getLast?.getD ""

/-- A name split before its last dot, unless that dot is its first or its last character. -/
def splitName (name : String) : String × String :=
  let cs := name.toList
  let tail := (cs.reverse.takeWhile (· != '.')).reverse
  let front := cs.take (cs.length - tail.length - 1)
  if tail.isEmpty || front.isEmpty then (name, "")
  else (String.ofList front, String.ofList ('.' :: tail))

/-- The ending of the last name, from its last dot on. -/
def suffix (p : Path) : String :=
  (splitName p.name).2

/-- The last name without its ending. -/
def stem (p : Path) : String :=
  (splitName p.name).1

/-- A path taken from another one; a path with a root stands for itself. -/
def append (p q : Path) : Path :=
  if q.root.isEmpty then { p with names := p.names ++ q.names } else q

/-- The path with one more name. -/
def child (p : Path) (name : String) : Path :=
  { p with names := p.names ++ [name] }

/-- The path without its last name. -/
def parent (p : Path) : Path :=
  { p with names := p.names.dropLast }

end Path

end SecurityAudit
