import SecurityAudit.Pattern.CharSet

/-!
# Patterns

A pattern describes texts, and with its groups the parts of them that are of interest.  `Node` is
its syntax, `Node.width` the lengths of the texts that it can match.
-/

namespace SecurityAudit.Pattern

/-- A condition on a place in a text. -/
inductive Anchor where
  /-- The start of the text. -/
  | start
  /-- The start of the text or of a line. -/
  | lineStart
  /-- The end of the text, or before a line feed that ends it. -/
  | finish
  /-- The end of the text or of a line. -/
  | lineEnd
  /-- The very end of the text. -/
  | veryEnd
  /-- Between a word character and what is none. -/
  | wordEdge (ascii : Bool)
  /-- Between two word characters or two that are none. -/
  | noWordEdge (ascii : Bool)
  deriving Repr, DecidableEq

/-- How often to repeat, when both more and fewer times are possible. -/
inductive Greed where
  /-- As often as possible, fewer times if what follows does not match. -/
  | greedy
  /-- As rarely as possible, more times if what follows does not match. -/
  | lazy
  /-- As often as possible, whatever follows. -/
  | possessive
  deriving Repr, DecidableEq

/-- The syntax of patterns. -/
inductive Node where
  /-- The empty text. -/
  | empty
  /-- One character of a set. -/
  | char (set : CharSet)
  /-- One after the other. -/
  | seq (a b : Node)
  /-- The first, or else the second. -/
  | alt (a b : Node)
  /-- Remember what is matched under a number. -/
  | group (index : Nat) (body : Node)
  /-- The text remembered under a number. -/
  | backref (index : Nat) (mode : CaseMode)
  /-- Several times. -/
  | rep (greed : Greed) (min : Nat) (max : Option Nat) (body : Node)
  /-- What follows does, or does not, match. -/
  | ahead (negated : Bool) (body : Node)
  /-- What precedes, over a given width, does, or does not, match. -/
  | behind (negated : Bool) (width : Nat) (body : Node)
  /-- A condition on the place. -/
  | anchor (a : Anchor)
  /-- One or the other, by whether something is remembered under a number. -/
  | ifGroup (index : Nat) (yes no : Node)
  /-- The first way to match, and no other. -/
  | atomic (body : Node)
  deriving Repr, DecidableEq

/-- The least and the greatest length of a text; none when there is no greatest. -/
structure Width where
  least : Nat
  greatest : Option Nat
  deriving Repr, DecidableEq

namespace Width

/-- The width of one text after another. -/
def append (v w : Width) : Width :=
  ⟨v.least + w.least, do return (← v.greatest) + (← w.greatest)⟩

/-- The width of one text or another. -/
def or (v w : Width) : Width :=
  ⟨min v.least w.least, do return max (← v.greatest) (← w.greatest)⟩

/-- The width of a repetition. -/
def repeated (w : Width) (least : Nat) (greatest : Option Nat) : Width :=
  ⟨w.least * least,
    match w.greatest, greatest with
    | some 0, _ => some 0
    | some n, some m => some (n * m)
    | _, _ => none⟩

/-- The length of all texts, if they have one. -/
def fixed? (w : Width) : Option Nat :=
  if w.greatest == some w.least then some w.least else none

end Width

/-- The width of the texts that a pattern matches, given the widths of its groups. -/
def Node.width (groups : List (Nat × Width)) : Node → Width
  | .empty | .anchor _ | .ahead _ _ | .behind _ _ _ => ⟨0, some 0⟩
  | .char _ => ⟨1, some 1⟩
  | .seq a b => (a.width groups).append (b.width groups)
  | .alt a b => (a.width groups).or (b.width groups)
  | .group _ a | .atomic a => a.width groups
  | .backref i _ => (groups.lookup i).getD ⟨0, none⟩
  | .rep _ least greatest a => (a.width groups).repeated least greatest
  | .ifGroup _ a b => (a.width groups).or (b.width groups)

end SecurityAudit.Pattern

namespace SecurityAudit

/-- A pattern, with the text that it was read from and the numbers of its named groups. -/
structure Pattern where
  source : String
  node : Pattern.Node
  names : List (String × Nat)
  deriving Repr, DecidableEq

end SecurityAudit
