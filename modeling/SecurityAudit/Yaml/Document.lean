import SecurityAudit.Yaml.Implicit
import SecurityAudit.Yaml.Node

/-!
# YAML documents

The value of a text: that of the only document in it, or nothing when there is none.  A mapping may
take over the entries of other mappings under the key `<<`; its own entries go before them.

A tag may ask for a value that a scalar would not be read as.  There are no values for bytes, for
sets and for lists of pairs, so the tags that ask for these are not read.
-/

namespace SecurityAudit.Yaml

/-- A character that a text may hold. -/
def isAllowed (c : Char) : Bool :=
  let n := c.toNat
  n == 9 || n == 10 || n == 13 || (32 ≤ n && n ≤ 126) || n == 0x85 || (0xA0 ≤ n && n ≤ 0xFFFD) ||
    0x10000 ≤ n

/-- Every line end made a line feed. -/
def unifyLines : List Char → List Char
  | '\r' :: '\n' :: rest => '\n' :: unifyLines rest
  | '\r' :: rest => '\n' :: unifyLines rest
  | c :: rest => c :: unifyLines rest
  | [] => []

/-- The short name of a tag, if it is one of those for values. -/
def tagName? (tag : String) : Option String :=
  let long := "!<tag:yaml.org,2002:".toList
  let cs := tag.toList
  if "!!".toList.isPrefixOf cs then some (String.ofList (cs.drop 2))
  else if long.isPrefixOf cs && cs.getLast? == some '>' then
    some (String.ofList (cs.drop long.length).dropLast)
  else none

/-- A whole number that a tag asks for. -/
def wholeValue (text : String) : Outcome Value :=
  match wholeNumber? text.toList with
  | some n => n.map .int
  | none => refuse .badValue

/-- A floating-point number that a tag asks for. -/
def pointedValue (text : String) : Outcome Value :=
  match Text.parseFloat? text with
  | some x => .ok (.float x)
  | none => refuse .badValue

/-- A truth value that a tag asks for. -/
def truthValue (text : String) : Outcome Value :=
  match truthWords.lookup (Text.lower text) with
  | some b => .ok (.bool b)
  | none => refuse .missingKey

/-- A date or a moment that a tag asks for. -/
def timeValue (text : String) : Outcome Value :=
  (timestamp? text.toList).getD (refuse .noOperation)

/-- The value of a scalar. -/
def scalarValue (tag : Option String) (text : RawText) (plain : Bool) : Outcome Value :=
  let implicit : Outcome Value :=
    match text with
    | .sound s => plainValue s
    | text => .ok (.ofRaw text)
  match tag with
  | none => if plain then implicit else .ok (.ofRaw text)
  | some tag =>
    if tag == "!" then implicit
    else
      match tagName? tag with
      | some "str" => .ok (.ofRaw text)
      | some "null" => .ok .null
      | some "bool" => truthValue text.readable
      | some "int" => wholeValue text.readable
      | some "float" => pointedValue text.readable
      | some "timestamp" => timeValue text.readable
      | _ => malformed

/-- A collection may have a tag that says no more than its shape does. -/
def checkTag (tag : Option String) (name : String) : Outcome Unit :=
  match tag with
  | none => .ok ()
  | some tag => if tag == "!" || tagName? tag == some name then .ok () else malformed

/-- The key that stands for the entries of other mappings. -/
def isMergeKey : Node → Bool
  | .scalar none (.sound "<<") true => true
  | _ => false

/-- The key that is a text although it has the shape of a special scalar. -/
def isEqualsKey : Node → Bool
  | .scalar none (.sound "=") true => true
  | _ => false

/-- A value that can be a key. -/
def asKey (v : Value) : Outcome Value :=
  if v.isKey then .ok v else malformed

/-- The mapping of some entries: a later value takes the place of an earlier one under the same
key. -/
def mappingOf (entries : List (Value × Value)) : Value :=
  .mapping (entries.foldl (fun done (k, v) => putEntry done k v) [])

/-- The entries that are taken over, and those of the mapping itself. -/
structure Parts where
  taken : List (Value × Value)
  own : List (Value × Value)

/-- All entries, those that are taken over first. -/
def Parts.all (p : Parts) : List (Value × Value) :=
  p.taken ++ p.own

mutual

/-- The value of a node. -/
def valueOf : Node → Outcome Value
  | .scalar tag text plain => scalarValue tag text plain
  | .sequence tag items => do
    checkTag tag "seq"
    return .list (← valuesOf items)
  | .mapping tag entries => do
    checkTag tag "map"
    return mappingOf (← partsOf entries).all

/-- The values of nodes. -/
def valuesOf : List Node → Outcome (List Value)
  | [] => .ok []
  | n :: rest => do
    let v ← valueOf n
    return v :: (← valuesOf rest)

/-- The entries of a mapping. -/
def partsOf : List (Node × Node) → Outcome Parts
  | [] => .ok ⟨[], []⟩
  | (k, v) :: rest =>
    if isMergeKey k then do
      let first ← takenFrom v
      let p ← partsOf rest
      return { p with taken := first ++ p.taken }
    else do
      let key ← if isEqualsKey k then .ok (.text "=") else (valueOf k).bind asKey
      let value ← valueOf v
      let p ← partsOf rest
      return { p with own := (key, value) :: p.own }

/-- The entries that are taken over from a mapping or from several. -/
def takenFrom : Node → Outcome (List (Value × Value))
  | .mapping _ entries => do return (← partsOf entries).all
  | .sequence _ items => takenFromAll items
  | .scalar _ _ _ => malformed

/-- The entries that are taken over from several mappings, the first of which goes before the
others. -/
def takenFromAll : List Node → Outcome (List (Value × Value))
  | [] => .ok []
  | .mapping _ entries :: rest => do
    let own ← partsOf entries
    return (← takenFromAll rest) ++ own.all
  | _ :: _ => malformed

end

/-- Read a text: the value of its document, if there is one. -/
def parse (text : List Char) : Outcome (Option Value) :=
  if !text.all isAllowed then malformed
  else do
    match ← Node.ofText? (unifyLines text) with
    | none => return none
    | some n => return some (← valueOf n)

end SecurityAudit.Yaml
