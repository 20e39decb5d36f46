import SecurityAudit.Pattern.Match

/-!
# Searching

The first place of a text at which a pattern matches, and all matches one after another.  After a
match the search goes on at its end; a match of the empty text does not follow another match of the
empty text at the same place.
-/

namespace SecurityAudit.Pattern

/-- A match: from where to where, and what the groups remember. -/
structure Match where
  first : Nat
  last : Nat
  groups : List (Nat × (Nat × Nat))
  deriving Repr, DecidableEq

/-- Match at one place; with `advance`, in a way that is not empty. -/
def matchAt? (p : Pattern) (text : List Char) (size : Nat) (advance : Bool) (s : State) :
    Option State :=
  p.node.run text size s fun t => if advance && t.pos == s.pos then none else some t

/-- The first match at or after a place, given by the characters before and after it: where it
begins, and the place at its end.  `advance` holds for the first place only. -/
def searchFrom (p : Pattern) (text : List Char) (size : Nat) :
    (before after : List Char) → (pos : Nat) → (advance : Bool) → Option (Nat × State)
  | before, [], pos, advance =>
    (matchAt? p text size advance ⟨before, [], pos, []⟩).map (pos, ·)
  | before, c :: rest, pos, advance =>
    match matchAt? p text size advance ⟨before, c :: rest, pos, []⟩ with
    | some t => some (pos, t)
    | none => searchFrom p text size (c :: before) rest (pos + 1) false

/-- All matches from a place on; `fuel` bounds their number. -/
def matchesFrom (p : Pattern) (text : List Char) (size : Nat) :
    (fuel : Nat) → State → (advance : Bool) → List Match
  | 0, _, _ => []
  | fuel + 1, s, advance =>
    match searchFrom p text size s.before s.after s.pos advance with
    | none => []
    | some (first, t) =>
      ⟨first, t.pos, t.groups⟩ :: matchesFrom p text size fuel t (first == t.pos)

/-- The first match in a text. -/
def search (p : Pattern) (text : List Char) : Option Match :=
  (searchFrom p text text.length [] text 0 false).map fun (first, t) => ⟨first, t.pos, t.groups⟩

/-- All matches in a text that do not overlap, in order. -/
def allMatches (p : Pattern) (text : List Char) : List Match :=
  matchesFrom p text text.length (2 * text.length + 2) (State.start text) false

/-- The text of a match. -/
def Match.text (m : Match) (text : List Char) : List Char :=
  slice text m.first m.last

/-- What a match remembers under a name, if it has a group of that name that took part. -/
def Match.named? (p : Pattern) (m : Match) (text : List Char) (name : String) :
    Option (List Char) := do
  let index ← p.names.lookup name
  let (first, last) ← m.groups.lookup index
  return slice text first last

end SecurityAudit.Pattern
