import SecurityAudit.Path
import SecurityAudit.Refusal

/-!
# File trees

The files that a process sees, as they are at one moment: the entry at the root, and the names of
the working directory.  A path is followed from name to name; a symbolic link is replaced by its
target, taken from the directory that holds the link or from the root.  `resolve` finds the names of
the entry that a path leads to, without links; all other operations go through it.

What a process may do with an entry is said by its mode, for the process that looks at it.  Paths
and names have a greatest length.  Names are texts: a name of bytes that are not UTF-8 is left out,
and so is an entry that keeps whoever reads it waiting, such as a pipe that nothing is written to.
-/

namespace SecurityAudit

/-- What may be done with a file or a directory: to read it, which for a directory is to list its
entries; to write it, which is to make entries in it; and to reach what is in a directory. -/
structure Mode where
  read : Bool := true
  write : Bool := true
  pass : Bool := true
  deriving Repr, DecidableEq, Inhabited

namespace Tree

/-- Why a path leads nowhere, or to something that cannot be used. -/
inductive Failure where
  /-- A name is missing: the last one of a path, which could be made under these names, or one
  before it. -/
  | missing (place : Option (List String))
  | notDirectory
  | isDirectory
  | tooManyLinks
  | denied
  | nameTooLong
  /-- Nothing is behind the entry, as with the socket of another process. -/
  | noDevice
  deriving Repr, DecidableEq, Inhabited

/-- What the system says about a failure. -/
def Failure.message : Failure → String
  | .missing _ => "No such file or directory"
  | .notDirectory => "Not a directory"
  | .isDirectory => "Is a directory"
  | .tooManyLinks => "Too many levels of symbolic links"
  | .denied => "Permission denied"
  | .nameTooLong => "File name too long"
  | .noDevice => "No such device or address"

/-- A failure as a refusal. -/
def Failure.refusal : Failure → Refusal
  | .missing _ => .missingFile
  | .notDirectory => .notDirectory
  | .isDirectory => .isDirectory
  | .tooManyLinks => .tooManyLinks
  | .denied => .notPermitted
  | .nameTooLong => .nameTooLong
  | .noDevice => .noDevice

/-- A failure that says that there is nothing at the end of a path. -/
def Failure.saysAbsent : Failure → Bool
  | .missing _ | .notDirectory | .tooManyLinks => true
  | _ => false

end Tree

/-- A file, a directory, a symbolic link, or something else that can be opened like a file: what
reading it gives. -/
inductive Entry where
  | file (bytes : List UInt8) (mode : Mode := {})
  | directory (entries : List (String × Entry)) (mode : Mode := {})
  | link (target : String)
  | special (content : Except Tree.Failure (List UInt8))
  deriving Inhabited

namespace Entry

open SecurityAudit.Tree (Failure)

/-- The entry of a directory under a name. -/
def child? (t : Entry) (name : String) : Option Entry :=
  match t with
  | .directory entries _ => entries.lookup name
  | _ => none

/-- The entry under names, one directory below the other. -/
def at? (t : Entry) : List String → Option Entry
  | [] => some t
  | name :: rest => (t.child? name).bind (·.at? rest)

/-- Put an entry under names, making the directories that are missing. -/
def put (t : Entry) (entry : Entry) : List String → Entry
  | [] => entry
  | name :: rest =>
    let below := ((t.child? name).getD (.directory [])).put entry rest
    match t with
    | .directory entries mode =>
      if entries.any (·.1 == name) then
        .directory (entries.map fun e => if e.1 == name then (name, below) else e) mode
      else .directory (entries ++ [(name, below)]) mode
    | t => t

/-- An entry is a file. -/
def isFile : Entry → Bool
  | .file .. => true
  | _ => false

/-- An entry is a directory. -/
def isDirectory : Entry → Bool
  | .directory .. => true
  | _ => false

/-- The names of the entries of a directory, in order. -/
def names : Entry → Except Failure (List String)
  | .directory entries mode =>
    if mode.read then .ok (entries.map Prod.fst).mergeSort else .error .denied
  | _ => .error .notDirectory

/-- The bytes that reading an entry gives. -/
def bytes : Entry → Except Failure (List UInt8)
  | .file bytes mode => if mode.read then .ok bytes else .error .denied
  | .directory .. => .error .isDirectory
  | .link _ => .error (.missing none)
  | .special content => content

/-! ### Following names -/

/-- The most links on the way of a path. -/
def maxLinks : Nat := 40

/-- The most bytes in a name. -/
def maxNameSize : Nat := 255

/-- The names of a target: at its end a slash, or a slash and a dot, asks for a directory, which is
told by a dot as the last name. -/
def namesOfTarget (target : String) : List String :=
  let names := Path.namesOf target.toList
  match (Text.splitAt '/' target.toList).getLast? with
  | some [] | some ['.'] => names ++ ["."]
  | _ => names

/-- Where one name leads: to a place, or to the target of a link. -/
inductive Stride where
  | place (names : List String)
  | link (target : String)

/-- Follow one name from the directory under the names `here`. -/
def stride (t : Entry) (here : List String) (name : String) : Except Failure Stride :=
  match t.at? here with
  | some (.directory entries mode) =>
    if !mode.pass then .error .denied
    else if name == "." then .ok (.place here)
    else if name == ".." then .ok (.place here.dropLast)
    else if maxNameSize < name.utf8ByteSize then .error .nameTooLong
    else
      match entries.lookup name with
      | none => .error (.missing (some (here ++ [name])))
      | some (.link target) =>
        if target.isEmpty then .error (.missing none) else .ok (.link target)
      | some _ => .ok (.place (here ++ [name]))
  | _ => .error .notDirectory

/-- The failure of a name with others behind it: what is missing could not be made. -/
def failureBefore (rest : List String) : Failure → Failure
  | .missing place => .missing (if rest.isEmpty then place else none)
  | e => e

/-- Follow names from the directory under the names `here`; `links` bounds the number of links, and
`fuel` the number of names. -/
def follow (t : Entry) : (fuel links : Nat) → (here names : List String) →
    Except Failure (List String)
  | 0, _, _, _ => .error .tooManyLinks
  | _ + 1, _, here, [] => .ok here
  | fuel + 1, links, here, name :: rest =>
    match t.stride here name with
    | .error e => .error (failureBefore rest e)
    | .ok (.place there) => t.follow fuel links there rest
    | .ok (.link target) =>
      match links with
      | 0 => .error .tooManyLinks
      | links + 1 =>
        let start := if (Path.rootOf target.toList).isEmpty then here else []
        t.follow fuel links start (namesOfTarget target ++ rest)

/-- The most names that following one link of a tree adds, summed over all of its links. -/
def linkNames : Entry → Nat
  | .link target => target.length + 1
  | .directory entries _ => sum entries
  | _ => 0
where
  sum : List (String × Entry) → Nat
    | [] => 0
    | (_, t) :: rest => linkNames t + sum rest

/-- The names of the entry to which names lead from a directory. -/
def resolveFrom (t : Entry) (here names : List String) : Except Failure (List String) :=
  t.follow (names.length + (maxLinks + 1) * (t.linkNames + 1) + 1) maxLinks here names

end Entry

/-- The files that a process sees: the entry at the root, and the working directory. -/
structure Tree where
  root : Entry
  here : List String := []
  deriving Inhabited

namespace Tree

/-- The most bytes in a path. -/
def maxPathSize : Nat := 4095

/-- The names of the entry to which a path leads that is given as a text. -/
def resolveAs (t : Tree) (text : String) (p : Path) : Except Failure (List String) :=
  if maxPathSize < text.utf8ByteSize then .error .nameTooLong
  else t.root.resolveFrom (if p.root.isEmpty then t.here else []) p.names

/-- The names of the entry to which a path leads. -/
def resolve (t : Tree) (p : Path) : Except Failure (List String) :=
  t.resolveAs p.text p

/-- The entry to which a path leads that is given as a text. -/
def findAs (t : Tree) (text : String) (p : Path) : Except Failure Entry := do
  let names ← t.resolveAs text p
  match t.root.at? names with
  | some found => .ok found
  | none => .error (.missing none)

/-- The entry to which a path leads. -/
def find (t : Tree) (p : Path) : Except Failure Entry :=
  t.findAs p.text p

/-- The entry to which a path leads, or nothing if there is none. -/
def find? (t : Tree) (p : Path) : Except Refusal (Option Entry) :=
  match t.find p with
  | .ok found => .ok (some found)
  | .error e => if e.saysAbsent then .ok none else .error e.refusal

/-- The path leads to something. -/
def exists_ (t : Tree) (p : Path) : Except Refusal Bool :=
  (t.find? p).map Option.isSome

/-- The path leads to a file. -/
def hasFile (t : Tree) (p : Path) : Except Refusal Bool :=
  (t.find? p).map (·.any Entry.isFile)

/-- The path leads to a directory. -/
def hasDirectory (t : Tree) (p : Path) : Except Refusal Bool :=
  (t.find? p).map (·.any Entry.isDirectory)

/-- The bytes of the file to which a path leads. -/
def read (t : Tree) (p : Path) : Except Failure (List UInt8) := do
  (← t.find p).bytes

/-- The names of the entries of the directory to which a path leads, in order. -/
def list (t : Tree) (p : Path) : Except Failure (List String) := do
  (← t.find p).names

/-- The tree with an entry under some names. -/
def put (t : Tree) (entry : Entry) (names : List String) : Tree :=
  { t with root := t.root.put entry names }

/-- An entry can be made under names: the directory that is to hold it can be written. -/
def canMake (t : Tree) (names : List String) : Bool :=
  match t.root.at? names.dropLast with
  | some (.directory _ mode) => mode.write
  | _ => false

/-- The tree with a file written at the end of a path; the directory that holds it must be there. -/
def write (t : Tree) (p : Path) (bytes : List UInt8) : Except Failure Tree :=
  match t.resolve p with
  | .ok names =>
    match t.root.at? names with
    | some (.file _ mode) =>
      if mode.write then .ok (t.put (.file bytes mode) names) else .error .denied
    | some (.special content) => content.map fun _ => t
    | some (.directory ..) => .error .isDirectory
    | _ => .error (.missing none)
  | .error (.missing (some names)) =>
    if t.canMake names then .ok (t.put (.file bytes) names) else .error .denied
  | .error e => .error e

end Tree

end SecurityAudit
