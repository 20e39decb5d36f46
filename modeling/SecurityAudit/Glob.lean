/-!
# Globs

A glob is a pattern for whole texts: a star stands for any text, a question mark for any character,
a bracket expression for one character of a set, and every other character for itself.  Letter case
counts.

A bracket expression runs to the next closing bracket; one that comes first, possibly after an
exclamation mark, is a member.  An exclamation mark in front takes the complement.  A hyphen between
two characters makes a range of them, and a range whose ends are reversed is left out.  An opening
bracket that is never closed stands for itself.
-/

namespace SecurityAudit

namespace Glob

/-- One step of a glob. -/
inductive Token where
  /-- Any text. -/
  | star
  /-- Any character. -/
  | any
  /-- One character. -/
  | char (c : Char)
  /-- A character in one of the ranges, or in none of them. -/
  | set (negated : Bool) (ranges : List (Char × Char))
  deriving Repr, DecidableEq

/-- The character lies in the range. -/
def inRange (c : Char) (r : Char × Char) : Bool :=
  r.1 ≤ c && c ≤ r.2

/-- The token accepts a character; a star is no token for single characters. -/
def Token.accepts : Token → Char → Bool
  | .star, _ => false
  | .any, _ => true
  | .char d, c => c == d
  | .set negated ranges, c => ranges.any (inRange c) != negated

/-- The ranges of a bracket expression.  A hyphen with a character on both sides makes a range;
every other character, and a hyphen elsewhere, is a range of one. -/
def rangesOf : List Char → List (Char × Char)
  | a :: '-' :: b :: rest => (a, b) :: rangesOf rest
  | a :: rest => (a, a) :: rangesOf rest
  | [] => []

/-- The members of a bracket expression, by ranges that are not reversed; the exclamation mark in
front is one of them. -/
def membersOf (body : List Char) : List (Char × Char) :=
  let ranges := match body with
    | '!' :: rest => ('!', '!') :: rangesOf rest
    | rest => rangesOf rest
  ranges.filter fun r => r.1 ≤ r.2

/-- The token of a bracket expression. -/
def Token.ofBody (body : List Char) : Token :=
  match membersOf body with
  | ('!', '!') :: members => .set true members
  | members => .set false members

/-- Split a text at the next closing bracket. -/
def closing? (body : List Char) : List Char → Option (List Char × List Char)
  | [] => none
  | ']' :: rest => some (body.reverse, rest)
  | c :: rest => closing? (c :: body) rest

/-- Split what follows an opening bracket into the body of the bracket expression and the rest. -/
def body? : List Char → Option (List Char × List Char)
  | '!' :: ']' :: rest => closing? [']', '!'] rest
  | '!' :: rest => closing? ['!'] rest
  | ']' :: rest => closing? [']'] rest
  | rest => closing? [] rest

/-- The tokens of a glob; `fuel` bounds their number. -/
def tokensFrom : (fuel : Nat) → List Char → List Token
  | 0, _ => []
  | _ + 1, [] => []
  | fuel + 1, '*' :: rest => .star :: tokensFrom fuel rest
  | fuel + 1, '?' :: rest => .any :: tokensFrom fuel rest
  | fuel + 1, '[' :: rest =>
    match body? rest with
    | some (body, rest) => .ofBody body :: tokensFrom fuel rest
    | none => .char '[' :: tokensFrom fuel rest
  | fuel + 1, c :: rest => .char c :: tokensFrom fuel rest

/-- The tokens of a glob. -/
def tokens (glob : List Char) : List Token :=
  tokensFrom glob.length glob

/-- A text, the text without its first character, and so on to the empty one. -/
def tails : List Char → List (List Char)
  | [] => [[]]
  | c :: rest => (c :: rest) :: tails rest

/-- The tokens match the whole text. -/
def matchTokens : List Token → List Char → Bool
  | [], cs => cs.isEmpty
  | .star :: ts, cs => (tails cs).any (matchTokens ts)
  | t :: ts, c :: cs => t.accepts c && matchTokens ts cs
  | _ :: _, [] => false

end Glob

/-- The glob matches the whole text. -/
def globMatches (glob text : String) : Bool :=
  Glob.matchTokens (Glob.tokens glob.toList) text.toList

end SecurityAudit
