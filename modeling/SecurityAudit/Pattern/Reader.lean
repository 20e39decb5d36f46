import SecurityAudit.Pattern.Basic
import SecurityAudit.Text.Identifier
import SecurityAudit.Text.Numeral

/-!
# Reading patterns

The written form of patterns.  Alternatives are separated by bars and consist of items, each
possibly followed by a quantifier:

* a character, a dot, an anchor, a set between square brackets, or an escape;
* a group in round brackets.  A question mark after the bracket says what kind it is: without a
  number, named, atomic, a look ahead or behind, a choice by a group, a comment, a reference to a
  named group, or flags for the group or, at the very start only, for the whole pattern.

`Pattern.parse` reports a malformed pattern, or a repetition count that is too large.
-/

namespace SecurityAudit.Pattern

/-- Why a text is no pattern. -/
inductive Problem where
  | malformed
  | countTooLarge
  deriving Repr, DecidableEq

/-- What changes the meaning of the characters of a pattern. -/
structure Flags where
  ignoreCase : Bool := false
  multiLine : Bool := false
  dotAll : Bool := false
  verbose : Bool := false
  ascii : Bool := false
  deriving Repr, DecidableEq

namespace Flags

/-- How letters are compared. -/
def mode (f : Flags) : CaseMode :=
  if f.ignoreCase then (if f.ascii then .ascii else .full) else .exact

/-- The flags with one letter switched on or off; the letter u means all of Unicode. -/
def put (f : Flags) (letter : Char) (on : Bool) : Flags :=
  match letter with
  | 'i' => { f with ignoreCase := on }
  | 'm' => { f with multiLine := on }
  | 's' => { f with dotAll := on }
  | 'x' => { f with verbose := on }
  | 'a' => { f with ascii := on }
  | 'u' => { f with ascii := !on }
  | _ => f

/-- The flags with several letters switched on or off. -/
def putAll (f : Flags) (letters : List Char) (on : Bool) : Flags :=
  letters.foldl (fun f letter => f.put letter on) f

end Flags

/-- The letters of flags. -/
def flagLetters : List Char := ['i', 'L', 'm', 's', 'x', 'a', 'u']

/-- Where the reader stands: what is left of the text, the number of the next group, the names and
widths of the groups, those that are closed, the first group that a look behind may not refer to,
the groups that a choice refers to, and the flags of the whole pattern. -/
structure Reading where
  rest : List Char
  groups : Nat := 1
  names : List (String × Nat) := []
  widths : List (Nat × Width) := []
  behindLimit : Option Nat := none
  choices : List Nat := []
  flags : Flags := {}

/-- A step of the reader. -/
abbrev Reader := StateT Reading (Except Problem)

/-- Give up: the text is no pattern. -/
def malformed {α : Type} : Reader α :=
  throw .malformed

/-- The next character, which stays. -/
def peek : Reader (Option Char) := do
  return (← get).rest.head?

/-- The next character, which is taken. -/
def next : Reader (Option Char) := do
  let s ← get
  match s.rest with
  | [] => return none
  | c :: rest =>
    set { s with rest := rest }
    return some c

/-- The next character, which has to be there. -/
def take : Reader Char := do
  match ← next with
  | some c => return c
  | none => malformed

/-- Take the next character if it is a given one. -/
def accept (c : Char) : Reader Bool := do
  if (← peek) == some c then
    let _ ← next
    return true
  else return false

/-- Take characters as long as they belong to a class, `count` at most. -/
def takeWhile (belongs : Char → Bool) : (count : Nat) → Reader (List Char)
  | 0 => return []
  | count + 1 => do
    match ← peek with
    | some c =>
      if belongs c then
        let _ ← next
        return c :: (← takeWhile belongs count)
      else return []
    | none => return []

/-- Take characters up to a terminator, which is taken too; there is at least one. -/
def takeUntil (terminator : Char) : Reader (List Char) := do
  let s ← get
  let body := s.rest.takeWhile (· != terminator)
  match s.rest.drop body.length with
  | [] => malformed
  | _ :: rest =>
    if body.isEmpty then malformed
    else
      set { s with rest := rest }
      return body

/-- The name of a group, up to a terminator. -/
def groupName (terminator : Char) : Reader String := do
  let body ← takeUntil terminator
  if Text.isIdentifier body then return String.ofList body else malformed

/-- A closed group can be referred to, inside a look behind only if it was opened before it. -/
def checkReference (index : Nat) : Reader Unit := do
  let s ← get
  match s.behindLimit with
  | some limit =>
    if index < s.groups && (s.widths.lookup index).isSome && index < limit then return ()
    else malformed
  | none => return ()

/-- A reference to a group by its number. -/
def reference (index : Nat) (mode : CaseMode) : Reader Node := do
  let s ← get
  if index < s.groups && (s.widths.lookup index).isSome then
    checkReference index
    return .backref index mode
  else malformed

/-- A code point in a number of hexadecimal digits. -/
def hexCode (count : Nat) : Reader Nat := do
  let digits ← takeWhile (fun c => (Text.hexValue? c).isSome) count
  if digits.length == count then
    return Text.positional 16 (digits.filterMap Text.hexValue?)
  else malformed

/-- An octal digit. -/
def isOctal (c : Char) : Bool :=
  '0' ≤ c && c ≤ '7'

/-- The value of ASCII digits in a base. -/
def digitsValue (base : Nat) (digits : List Char) : Nat :=
  Text.positional base (digits.map fun c => c.toNat - 48)

/-- The class that an escape letter stands for. -/
def classOf? (ascii : Bool) (c : Char) : Option Member :=
  match c with
  | 'd' => some (.cls .digit ascii false)
  | 'D' => some (.cls .digit ascii true)
  | 's' => some (.cls .blank ascii false)
  | 'S' => some (.cls .blank ascii true)
  | 'w' => some (.cls .word ascii false)
  | 'W' => some (.cls .word ascii true)
  | _ => none

/-- The control character that an escape letter stands for. -/
def controlOf? (c : Char) : Option Nat :=
  match c with
  | 'a' => some 7
  | 'b' => some 8
  | 'f' => some 12
  | 'n' => some 10
  | 'r' => some 13
  | 't' => some 9
  | 'v' => some 11
  | '\\' => some 92
  | _ => none

/-- The code point of an escape whose letter begins a code point in digits. -/
def codeEscape? (c : Char) : Option (Reader Nat) :=
  match c with
  | 'x' => some (hexCode 2)
  | 'u' => some (hexCode 4)
  | 'U' => some do
    let code ← hexCode 8
    if code < 0x110000 then return code else malformed
  | _ => none

/-- The code point of an escape that has no other meaning: a character that is no ASCII letter
stands for itself. -/
def plainEscape (c : Char) : Reader Nat :=
  if c.isAlpha then malformed else return c.toNat

/-- An escape inside a set, after its backslash. -/
def setEscape (ascii : Bool) : Reader Member := do
  let c ← take
  match classOf? ascii c, controlOf? c, codeEscape? c with
  | some m, _, _ => return m
  | _, some code, _ => return .range code code
  | _, _, some read =>
    let code ← read
    return .range code code
  | none, none, none =>
    if isOctal c then
      let more ← takeWhile isOctal 2
      let code := digitsValue 8 (c :: more)
      if 0o377 < code then malformed else return .range code code
    else if c.isDigit then malformed
    else
      let code ← plainEscape c
      return .range code code

/-- A reference or an octal code, whose first digit has been taken. -/
def numberEscape (flags : Flags) (first : Char) : Reader Node := do
  let code (n : Nat) : Node := .char (.single flags.mode n)
  if first == '0' then
    let more ← takeWhile isOctal 2
    return code (digitsValue 8 more)
  else
    let second ← takeWhile Char.isDigit 1
    let third ←
      if isOctal first && !second.isEmpty && second.all isOctal then takeWhile isOctal 1
      else pure []
    if third.isEmpty then reference (digitsValue 10 (first :: second)) flags.mode
    else
      let n := digitsValue 8 (first :: second ++ third)
      if 0o377 < n then malformed else return code n

/-- An escape outside a set, after its backslash. -/
def escape (flags : Flags) : Reader Node := do
  let c ← take
  let anchor? : Option Anchor := match c with
    | 'A' => some .start
    | 'Z' => some .veryEnd
    | 'b' => some (.wordEdge flags.ascii)
    | 'B' => some (.noWordEdge flags.ascii)
    | _ => none
  match anchor?, classOf? flags.ascii c, controlOf? c, codeEscape? c with
  | some a, _, _, _ => return .anchor a
  | _, some m, _, _ => return .char ⟨false, [m], flags.mode⟩
  | _, _, some code, _ => return .char (.single flags.mode code)
  | _, _, _, some read => return .char (.single flags.mode (← read))
  | none, none, none, none =>
    if c.isDigit then numberEscape flags c
    else return .char (.single flags.mode (← plainEscape c))

/-- One end of a range in a set, whose first character has been taken. -/
def setMember (flags : Flags) (c : Char) : Reader Member :=
  if c == '\\' then setEscape flags.ascii else return .range c.toNat c.toNat

/-- The members of a set, up to its closing bracket; `fuel` bounds their number.  A closing
bracket that comes first is a member. -/
def setMembers (flags : Flags) : (fuel : Nat) → (members : List Member) → Reader (List Member)
  | 0, _ => malformed
  | fuel + 1, members => do
    let c ← take
    if c == ']' && !members.isEmpty then return members.reverse
    else
      let first ← setMember flags c
      if ← accept '-' then
        let d ← take
        if d == ']' then return (Member.range 45 45 :: first :: members).reverse
        else
          let last ← setMember flags d
          match first, last with
          | .range a _, .range b _ =>
            if b < a then malformed else setMembers flags fuel (.range a b :: members)
          | _, _ => malformed
      else setMembers flags fuel (first :: members)

/-- A set, after its opening bracket. -/
def charSet (flags : Flags) : Reader CharSet := do
  let negated ← accept '^'
  let s ← get
  let members ← setMembers flags (s.rest.length + 1) []
  return ⟨negated, members, flags.mode⟩

/-- What an item is, as far as a quantifier after it is concerned. -/
inductive ItemKind where
  | anchor
  | repeated
  | other
  deriving DecidableEq

/-- An item of a sequence. -/
structure Item where
  kind : ItemKind
  node : Node

/-- The nodes of items in reverse order as one. -/
def Item.join (items : List Item) : Node :=
  items.foldl (fun node item => if node == .empty then item.node else .seq item.node node) .empty

/-- The least repetition count that is too large. -/
def countLimit : Nat := 4294967295

/-- The least number of a group that is too large. -/
def groupLimit : Int := 1073741823

/-- A count in digits; none when there are no digits. -/
def count? (digits : List Char) : Reader (Option Nat) := do
  if digits.isEmpty then return none
  else
    let n := digitsValue 10 digits
    if countLimit ≤ n then throw .countTooLarge else return some n

/-- The counts between braces after the opening one.  If they are not well formed, the brace stands
for itself and nothing is taken. -/
def braces? : Reader (Option (Nat × Option Nat)) := do
  let s ← get
  let size := s.rest.length
  if s.rest.head? == some '\x7d' then return none
  else
    let low ← takeWhile Char.isDigit size
    let high ← if ← accept ',' then takeWhile Char.isDigit size else pure low
    if ← accept '\x7d' then
      let min ← count? low
      let max ← count? high
      let least := min.getD 0
      match max with
      | some m => if m < least then malformed else return some (least, some m)
      | none => return some (least, none)
    else
      set s
      return none

/-- The counts of a quantifier that begins with a given character, which has been taken. -/
def quantifier? (c : Char) : Reader (Option (Nat × Option Nat)) :=
  match c with
  | '*' => return some (0, none)
  | '+' => return some (1, none)
  | '?' => return some (0, some 1)
  | '\x7b' => braces?
  | _ => return none

/-- The mark behind a quantifier, if there is one. -/
def greed : Reader Greed := do
  if ← accept '?' then return .lazy
  else if ← accept '+' then return .possessive
  else return .greedy

/-- Repeat the last item. -/
def quantify (items : List Item) (min : Nat) (max : Option Nat) : Reader (List Item) := do
  match items with
  | ⟨.other, node⟩ :: items =>
    return ⟨.repeated, .rep (← greed) min max node⟩ :: items
  | _ => malformed

/-- Letters of flags, from one that has been taken up to one of the terminators, which is taken
and returned. -/
def flagRun (terminators : List Char) : (fuel : Nat) → Char → Reader (List Char × Char)
  | 0, _ => malformed
  | fuel + 1, c => do
    if flagLetters.contains c && c != 'L' then
      let d ← take
      if terminators.contains d then return ([c], d)
      else
        let (letters, stop) ← flagRun terminators fuel d
        return (c :: letters, stop)
    else malformed

/-- Flags from a first letter or hyphen on: those switched on, those switched off, and whether they
hold for the whole pattern. -/
def flagGroup (c : Char) : Reader (List Char × List Char × Bool) := do
  let s ← get
  let fuel := s.rest.length + 1
  let (on, stop) ←
    if c == '-' then pure ([], '-') else flagRun [')', '-', ':'] fuel c
  if on.contains 'a' && on.contains 'u' then malformed
  else if stop == ')' then return (on, [], true)
  else if stop == ':' then return (on, [], false)
  else
    let (off, _) ← flagRun [':'] fuel (← take)
    if off.contains 'a' || off.contains 'u' || off.any on.contains then malformed
    else return (on, off, false)

/-- Open a group: its number, with a name if it has one. -/
def openGroup (name : Option String) : Reader Nat := do
  let s ← get
  let index := s.groups
  match name with
  | none =>
    set { s with groups := index + 1 }
    return index
  | some name =>
    if (s.names.lookup name).isSome then malformed
    else
      set { s with groups := index + 1, names := (name, index) :: s.names }
      return index

/-- Close a group: from here on it can be referred to. -/
def closeGroup (index : Nat) (body : Node) : Reader Unit :=
  modify fun s => { s with widths := (index, body.width s.widths) :: s.widths }

/-- The closing bracket of a group. -/
def closing : Reader Unit := do
  if ← accept ')' then return () else malformed

/-- The number of a group that may come later. -/
def groupNumber (body : List Char) : Reader Nat := do
  match Text.parseInt? (String.ofList body) with
  | some n =>
    if n < 1 || groupLimit ≤ n then malformed
    else
      modify fun s => { s with choices := n.toNat :: s.choices }
      return n.toNat
  | none => malformed

/-- The group that a choice depends on, by its name or its number, up to the closing bracket. -/
def choiceGroup : Reader Nat := do
  let body ← takeUntil ')'
  let index ←
    if Text.isIdentifier body then
      match (← get).names.lookup (String.ofList body) with
      | some n => pure n
      | none => malformed
    else groupNumber body
  checkReference index
  return index

/-- The characters between items that a verbose pattern passes over. -/
def isLayout (c : Char) : Bool :=
  c == ' ' || (9 ≤ c.toNat && c.toNat ≤ 13)

/-- What follows a character in a text, in which a backslash hides the character after it; nothing
follows if the text ends before.  A text never ends with a backslash. -/
def following? (stop : Char) : List Char → Option (Option (List Char))
  | [] => some none
  | ['\\'] => none
  | '\\' :: _ :: rest => following? stop rest
  | c :: rest => if c == stop then some (some rest) else following? stop rest

/-- Pass over a comment of a verbose pattern, up to the end of the line. -/
def skipComment : Reader Unit := do
  match following? '\n' (← get).rest with
  | some rest => modify fun s => { s with rest := rest.getD [] }
  | none => malformed

/-- Pass over a comment in brackets. -/
def skipBracketComment : Reader Unit := do
  match following? ')' (← get).rest with
  | some (some rest) => modify fun s => { s with rest := rest }
  | _ => malformed

/-- Run a reader inside a look behind: groups opened in it cannot be referred to. -/
def insideBehind {α : Type} (read : Reader α) : Reader α := do
  let limit := (← get).behindLimit
  modify fun s => { s with behindLimit := some (limit.getD s.groups) }
  let result ← read
  modify fun s => { s with behindLimit := limit }
  return result

/-- The look behind of a body whose texts all have one length. -/
def behindOf (negated : Bool) (body : Node) : Reader Node := do
  let s ← get
  match (body.width s.widths).fixed? with
  | some width => return .behind negated width body
  | none => malformed

mutual

/-- Alternatives up to a closing bracket or the end. -/
def alternatives : (fuel : Nat) → Flags → (outermost : Bool) → Reader Node
  | 0, _, _ => malformed
  | fuel + 1, flags, outermost => do
    let node ← items fuel flags outermost []
    if ← accept '|' then
      let whole := (← get).flags
      let flags := if outermost then whole else flags
      return .alt node (← moreAlternatives fuel flags)
    else return node

/-- The alternatives after a bar. -/
def moreAlternatives : (fuel : Nat) → Flags → Reader Node
  | 0, _ => malformed
  | fuel + 1, flags => do
    let node ← items fuel flags false []
    if ← accept '|' then return .alt node (← moreAlternatives fuel flags) else return node

/-- The items of one alternative.  Flags for the whole pattern may stand before its first item. -/
def items : (fuel : Nat) → Flags → (outermost : Bool) → List Item → Reader Node
  | 0, _, _, _ => malformed
  | fuel + 1, flags, outermost, done => do
    match ← peek with
    | none => return Item.join done
    | some c =>
      if c == '|' || c == ')' then return Item.join done
      else
        let _ ← next
        if flags.verbose && isLayout c then items fuel flags outermost done
        else if flags.verbose && c == '#' then
          skipComment
          items fuel flags outermost done
        else if c == '(' then
          if ← accept '?' then
            let d ← take
            special fuel flags outermost done d
          else
            let index ← openGroup none
            let body ← alternatives fuel flags false
            closing
            closeGroup index body
            items fuel flags outermost (⟨.other, .group index body⟩ :: done)
        else if c == '*' || c == '+' || c == '?' || c == '\x7b' then
          match ← quantifier? c with
          | some (min, max) =>
            let done ← quantify done min max
            items fuel flags outermost done
          | none =>
            items fuel flags outermost (⟨.other, .char (.single flags.mode c.toNat)⟩ :: done)
        else
          let item ← match c with
            | '\\' => do
              let node ← escape flags
              let kind := match node with
                | .anchor _ => ItemKind.anchor
                | _ => ItemKind.other
              pure (Item.mk kind node)
            | '[' => do pure (Item.mk .other (.char (← charSet flags)))
            | '.' =>
              pure (Item.mk .other (.char (if flags.dotAll then .all else .notLineFeed)))
            | '^' =>
              pure (Item.mk .anchor (.anchor (if flags.multiLine then .lineStart else .start)))
            | '$' =>
              pure (Item.mk .anchor (.anchor (if flags.multiLine then .lineEnd else .finish)))
            | c => pure (Item.mk .other (.char (.single flags.mode c.toNat)))
          items fuel flags outermost (item :: done)

/-- A group that begins with a question mark, after which `c` has been taken, and the items after
it. -/
def special : (fuel : Nat) → Flags → (outermost : Bool) → List Item → Char → Reader Node
  | 0, _, _, _, _ => malformed
  | fuel + 1, flags, outermost, done, c => do
    match c with
    | 'P' =>
      if ← accept '<' then
        let name ← groupName '>'
        let index ← openGroup (some name)
        let body ← alternatives fuel flags false
        closing
        closeGroup index body
        items fuel flags outermost (⟨.other, .group index body⟩ :: done)
      else if ← accept '=' then
        let name ← groupName ')'
        match (← get).names.lookup name with
        | none => malformed
        | some index =>
          let node ← reference index flags.mode
          items fuel flags outermost (⟨.other, node⟩ :: done)
      else malformed
    | ':' =>
      let body ← alternatives fuel flags false
      closing
      items fuel flags outermost (⟨.other, body⟩ :: done)
    | '>' =>
      let body ← alternatives fuel flags false
      closing
      items fuel flags outermost (⟨.other, .atomic body⟩ :: done)
    | '#' =>
      skipBracketComment
      items fuel flags outermost done
    | '=' | '!' =>
      let body ← alternatives fuel flags false
      closing
      items fuel flags outermost (⟨.other, .ahead (c == '!') body⟩ :: done)
    | '<' =>
      let d ← take
      if d == '=' || d == '!' then
        let body ← insideBehind (alternatives fuel flags false)
        closing
        let node ← behindOf (d == '!') body
        items fuel flags outermost (⟨.other, node⟩ :: done)
      else malformed
    | '(' =>
      let index ← choiceGroup
      let yes ← items fuel flags false []
      let no ← if ← accept '|' then items fuel flags false [] else pure .empty
      closing
      items fuel flags outermost (⟨.other, .ifGroup index yes no⟩ :: done)
    | c =>
      if flagLetters.contains c || c == '-' then
        let (on, off, whole) ← flagGroup c
        if whole then
          if outermost && done.isEmpty then
            modify fun s => { s with flags := s.flags.putAll on true }
            items fuel (flags.putAll on true) outermost done
          else malformed
        else
          let body ← alternatives fuel ((flags.putAll on true).putAll off false) false
          closing
          items fuel flags outermost (⟨.other, body⟩ :: done)
      else malformed

end

/-- Nothing is left, and every group that a choice depends on exists. -/
def Reading.complete (r : Reading) : Bool :=
  r.rest.isEmpty && r.choices.all (· < r.groups)

/-- Read a pattern. -/
def parse (source : String) : Except Problem Pattern := do
  let text := source.toList
  let (node, r) ← (alternatives (4 * text.length + 16) {} true).run { rest := text }
  if r.complete then return { source, node, names := r.names.reverse } else throw .malformed

/-- The pattern of a text that is known to be one; of any other text, the empty pattern. -/
def literal (source : String) : Pattern :=
  match parse source with
  | .ok p => p
  | .error _ => { source, node := .empty, names := [] }

end SecurityAudit.Pattern
