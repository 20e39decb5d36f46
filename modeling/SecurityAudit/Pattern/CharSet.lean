import SecurityAudit.Text.Blank
import SecurityAudit.Text.Case
import SecurityAudit.Text.Digits
import SecurityAudit.Text.Letters

/-!
# Sets of characters

The sets that a pattern matches one character against: ranges of code points and the classes of
word characters, digits and blanks, possibly complemented, possibly without regard to case.
-/

namespace SecurityAudit.Pattern

/-- A class of characters. -/
inductive CharClass where
  | word
  | digit
  | blank
  deriving Repr, DecidableEq

/-- The class contains a character; `ascii` keeps it to ASCII. -/
def CharClass.contains (ascii : Bool) (k : CharClass) (c : Char) : Bool :=
  if ascii then
    match k with
    | .word => Text.isAsciiWord c
    | .digit => Text.isAsciiDigit c
    | .blank => c.toNat < 128 && (c == ' ' || (9 ≤ c.toNat && c.toNat ≤ 13))
  else
    match k with
    | .word => Text.isWord c
    | .digit => Text.isDigit c
    | .blank => Text.isBlank c

/-- How letters are compared: as they are, without regard to the case of ASCII letters, or without
regard to the case of any letter. -/
inductive CaseMode where
  | exact
  | ascii
  | full
  deriving Repr, DecidableEq

/-- The code points of the characters that a comparison takes for the character. -/
def CaseMode.variants (mode : CaseMode) (c : Char) : List Nat :=
  match mode with
  | .exact => [c.toNat]
  | .ascii => if c.isAlpha then [c.toLower.toNat, c.toUpper.toNat] else [c.toNat]
  | .full =>
    if c.toNat < 128 then
      if c.isAlpha then
        let small := c.toLower.toNat
        let more := match c.toLower with
          | 'i' => [0x130, 0x131]
          | 'k' => [0x212A]
          | 's' => [0x17F]
          | _ => []
        small :: c.toUpper.toNat :: more
      else [c.toNat]
    else c.toNat :: (Text.caseVariants c).map Char.toNat

/-- One member of a set. -/
inductive Member where
  | range (first last : Nat)
  | cls (k : CharClass) (ascii negated : Bool)
  deriving Repr, DecidableEq

/-- A member covers a character. -/
def Member.covers (mode : CaseMode) (c : Char) : Member → Bool
  | .range first last =>
    (first ≤ c.toNat && c.toNat ≤ last) ||
      (mode != .exact && (mode.variants c).any fun n => first ≤ n && n ≤ last)
  | .cls k ascii negated => k.contains ascii c != negated

/-- A set of characters. -/
structure CharSet where
  negated : Bool
  members : List Member
  mode : CaseMode
  deriving Repr, DecidableEq

namespace CharSet

/-- The set contains a character. -/
def contains (s : CharSet) (c : Char) : Bool :=
  s.members.any (·.covers s.mode c) != s.negated

/-- The set of one character. -/
def single (mode : CaseMode) (code : Nat) : CharSet :=
  ⟨false, [.range code code], mode⟩

/-- Every character. -/
def all : CharSet :=
  ⟨true, [], .exact⟩

/-- Every character but the line feed. -/
def notLineFeed : CharSet :=
  ⟨true, [.range 10 10], .exact⟩

end CharSet

end SecurityAudit.Pattern
