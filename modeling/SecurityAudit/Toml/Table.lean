import SecurityAudit.Value.Basic

/-!
# Tables

How the statements of a TOML document build up its tables.  A table is a mapping with text keys; a
path of keys leads from a table to one below it, and on the way through an array of tables to the
last of them.

Some paths are marked: those that have been opened by a header and must not be opened again, and
those that hold an inline value, below which nothing can be added.  The marks of keys with dots
take effect at the next header only.
-/

namespace SecurityAudit.Toml

/-- The entries of a table. -/
abbrev Entries := List (Value × Value)

/-- A path of keys from the document down. -/
abbrev KeyPath := List String

/-- The entry under a key. -/
def valueAt? (es : Entries) (key : String) : Option Value :=
  (Value.mapping es).get? key

/-- Bind a key, in its place if it is there. -/
def put (es : Entries) (key : String) (v : Value) : Entries :=
  putEntry es (.text key) v

/-- Change the table at the end of a path, making the tables that are missing on the way.  With
`throughArrays` an array of tables stands for its last table. -/
def within (throughArrays : Bool) (f : Entries → Option Entries) :
    KeyPath → Entries → Option Entries
  | [], es => f es
  | key :: path, es =>
    match valueAt? es key with
    | none => (within throughArrays f path []).map fun inner => put es key (.mapping inner)
    | some (.mapping inner) =>
      (within throughArrays f path inner).map fun inner => put es key (.mapping inner)
    | some (.list items) =>
      match throughArrays, items.getLast? with
      | true, some (.mapping inner) =>
        (within throughArrays f path inner).map fun inner =>
          put es key (.list (items.dropLast ++ [.mapping inner]))
      | _, _ => none
    | some _ => none

/-- Bind a key that is not there yet. -/
def insertNew (key : String) (v : Value) (es : Entries) : Option Entries :=
  if (valueAt? es key).isSome then none else some (put es key v)

/-- Add an empty table to the array of tables under a key. -/
def addToArray (key : String) (es : Entries) : Option Entries :=
  match valueAt? es key with
  | none => some (put es key (.list [.mapping []]))
  | some (.list items) => some (put es key (.list (items ++ [.mapping []])))
  | some _ => none

/-- A document under construction. -/
structure Draft where
  /-- The tables so far. -/
  entries : Entries
  /-- The table that a header has opened. -/
  header : KeyPath
  /-- The paths that no header may open. -/
  opened : List KeyPath
  /-- The paths that get into `opened` at the next header. -/
  pending : List KeyPath
  /-- The paths of inline values. -/
  frozen : List KeyPath

namespace Draft

/-- The empty document. -/
def empty : Draft :=
  ⟨[], [], [], [], []⟩

/-- A path lies at or below an inline value. -/
def isFrozen (frozen : List KeyPath) (path : KeyPath) : Bool :=
  frozen.any (·.isPrefixOf path)

/-- A header that opens a table. -/
def openTable (d : Draft) (path : KeyPath) : Option Draft :=
  let opened := d.pending ++ d.opened
  if opened.contains path || isFrozen d.frozen path then none
  else
    (within true some path d.entries).map fun entries =>
      { d with entries, header := path, opened := path :: opened, pending := [] }

/-- A header that adds a table to an array and opens it. -/
def openArray (d : Draft) (path : KeyPath) : Option Draft :=
  if isFrozen d.frozen path then none
  else
    let kept (p : KeyPath) : Bool := !path.isPrefixOf p
    (within true (addToArray (path.getLast?.getD "")) path.dropLast d.entries).map fun entries =>
      { entries, header := path, opened := path :: (d.pending ++ d.opened).filter kept,
        pending := [], frozen := d.frozen.filter kept }

/-- The paths that lead to a key with dots: one for each dot. -/
def dotted (header path : KeyPath) : List KeyPath :=
  (List.range (path.length - 1)).map fun i => header ++ path.take (i + 1)

/-- Whether a value is an inline table or array. -/
def isInline : Value → Bool
  | .list _ | .mapping _ => true
  | _ => false

/-- A statement that binds a key of the open table. -/
def bind (d : Draft) (path : KeyPath) (v : Value) : Option Draft :=
  let ways := dotted d.header path
  let parent := d.header ++ path.dropLast
  if ways.any d.opened.contains || isFrozen d.frozen parent then none
  else
    (within true (insertNew (path.getLast?.getD "") v) parent d.entries).map fun entries =>
      { d with
        entries
        pending := ways ++ d.pending
        frozen := if isInline v then (d.header ++ path) :: d.frozen else d.frozen }

end Draft

/-- Add an entry to an inline table, whose inline values so far are at the paths `frozen`. -/
def bindInline (frozen : List KeyPath) (es : Entries) (path : KeyPath) (v : Value) :
    Option Entries :=
  if Draft.isFrozen frozen path then none
  else within false (insertNew (path.getLast?.getD "") v) path.dropLast es

end SecurityAudit.Toml
