import SecurityAudit.Refusal

/-!
# Cursors

A place in a YAML text.  Lines end at line feeds, at next-line controls and at line and paragraph
separators; columns count the characters of a line, without byte order marks.
-/

namespace SecurityAudit.Yaml

/-- Why a text is not read. -/
inductive Problem where
  | malformed
  deriving Repr, DecidableEq, Inhabited

/-- The outcome of reading. -/
abbrev Outcome (α : Type) := Except (Fault Problem) α

/-- The text is malformed. -/
def malformed {α : Type} : Outcome α :=
  fail .malformed

/-- A character that ends a line. -/
def isBreak (c : Char) : Bool :=
  c == '\n' || c == '\r' || c.toNat == 0x85 || c.toNat == 0x2028 || c.toNat == 0x2029

/-- A blank within a line. -/
def isSpace (c : Char) : Bool :=
  c == ' ' || c == '\t'

/-- The end of the text or of a line. -/
def endsLine (next : Option Char) : Bool :=
  next.all isBreak

/-- The end of the text or of a line, or a blank. -/
def endsWord (next : Option Char) : Bool :=
  next.all fun c => isBreak c || isSpace c

/-- The end of the text or of a line, or a space; a tab does not count. -/
def endsHeader (next : Option Char) : Bool :=
  next.all fun c => isBreak c || c == ' '

/-- A place in a text. -/
structure Cursor where
  rest : List Char
  index : Nat
  line : Nat
  column : Nat
  deriving Repr, DecidableEq, Inhabited

namespace Cursor

/-- The start of a text. -/
def start (text : List Char) : Cursor :=
  ⟨text, 0, 0, 0⟩

/-- The next character, if the text goes on. -/
def next? (c : Cursor) : Option Char :=
  c.rest.head?

/-- The character after the next one. -/
def second? (c : Cursor) : Option Char :=
  c.rest.tail.head?

/-- The next character is a given one. -/
def isAt (c : Cursor) (char : Char) : Bool :=
  c.next? == some char

/-- The place after the next character. -/
def forward (c : Cursor) : Cursor :=
  match c.rest with
  | [] => c
  | char :: rest =>
    if isBreak char then ⟨rest, c.index + 1, c.line + 1, 0⟩
    else if char == '\uFEFF' then ⟨rest, c.index + 1, c.line, c.column⟩
    else ⟨rest, c.index + 1, c.line, c.column + 1⟩

/-- The place some characters further on. -/
def advance (c : Cursor) : Nat → Cursor
  | 0 => c
  | n + 1 => c.forward.advance n

/-- Take the characters that satisfy a condition. -/
def takeWhile (c : Cursor) (p : Char → Bool) : List Char × Cursor :=
  let taken := c.rest.takeWhile p
  (taken, c.advance taken.length)

/-- Leave out the characters that satisfy a condition. -/
def dropWhile (c : Cursor) (p : Char → Bool) : Cursor :=
  (c.takeWhile p).2

/-- Leave out the rest of the line. -/
def dropLine (c : Cursor) : Cursor :=
  c.dropWhile fun char => !isBreak char

/-- Take a line end, and what it stands for: the separators stand for themselves, all others for a
line feed. -/
def lineEnd? (c : Cursor) : Option (Char × Cursor) :=
  match c.rest with
  | '\r' :: '\n' :: _ => some ('\n', c.advance 2)
  | char :: _ =>
    if !isBreak char then none
    else if char.toNat == 0x2028 || char.toNat == 0x2029 then some (char, c.forward)
    else some ('\n', c.forward)
  | [] => none

/-- At the start of a line: the mark between documents or at the end of one. -/
def isSeparator (c : Cursor) (mark : String) : Bool :=
  mark.toList.isPrefixOf c.rest && endsWord (c.rest.drop 3).head?

/-- One of the two marks. -/
def isAnySeparator (c : Cursor) : Bool :=
  c.isSeparator "---" || c.isSeparator "..."

end Cursor

end SecurityAudit.Yaml
