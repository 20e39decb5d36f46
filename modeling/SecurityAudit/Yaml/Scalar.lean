import SecurityAudit.Text.Digits
import SecurityAudit.Text.Raw
import SecurityAudit.Yaml.Cursor

/-!
# YAML scalars

Plain scalars, quoted scalars and block scalars, read from a cursor.  Line ends inside a scalar are
folded: a single one becomes a space, and of several the first is dropped.  Block scalars keep their
line ends when they are literal, and say in their first line what becomes of the line ends after
them.
-/

namespace SecurityAudit.Yaml

/-- A line end and those after it, folded. -/
def folded (first : Char) (more : List Char) : List Char :=
  if first != '\n' then first :: more
  else if more.isEmpty then [' ']
  else more

/-- Blanks, and line ends with blanks around them, up to what is neither; the line ends are given,
last one first.  None when a mark between documents comes first in a line. -/
def lineEnds (blank : Char → Bool) : (fuel : Nat) → (done : List Char) → Cursor →
    Option (List Char) × Cursor
  | 0, done, c => (some done.reverse, c)
  | fuel + 1, done, c =>
    if c.isAnySeparator then (none, c)
    else
      let c := c.dropWhile blank
      match c.lineEnd? with
      | none => (some done.reverse, c)
      | some (char, c) => lineEnds blank fuel (char :: done) c

/-! ## Plain scalars -/

/-- Characters that only have a meaning of their own between brackets. -/
def isFlowMark (c : Char) : Bool :=
  c == ',' || c == '[' || c == ']' || c == '\x7b' || c == '\x7d'

/-- A plain scalar ends before this character. -/
def endsPlain (inFlow : Bool) (c : Char) (next : Option Char) : Bool :=
  endsWord (some c) ||
    (c == ':' && (endsWord next || (inFlow && next.any isFlowMark))) ||
    (inFlow && (isFlowMark c || c == '?'))

/-- The characters of a plain scalar up to the next blank. -/
def plainRun (inFlow : Bool) : List Char → List Char
  | [] => []
  | c :: rest => if endsPlain inFlow c rest.head? then [] else c :: plainRun inFlow rest

/-- The blanks after a run of a plain scalar: what they stand for inside the scalar, nothing when it
ends here, and whether there was a line end among them. -/
def plainSpaces (c : Cursor) : List Char × Bool × Cursor :=
  let (spaces, c) := c.takeWhile (· == ' ')
  match c.lineEnd? with
  | none => (spaces, false, c)
  | some (first, c) =>
    match lineEnds (· == ' ') c.rest.length [] c with
    | (none, c) => ([], true, c)
    | (some more, c) => (folded first more, true, c)

/-- Read a plain scalar; `indent` is the column that further lines must reach, `done` what has been
read, last character first, and `spaces` what comes between that and the next run.  Besides the
text it is given whether the scalar is followed by a line end. -/
def plainFrom (inFlow : Bool) (indent : Nat) :
    (fuel : Nat) → (done spaces : List Char) → (broken : Bool) → Cursor →
    List Char × Bool × Cursor
  | 0, done, _, broken, c => (done.reverse, broken, c)
  | fuel + 1, done, spaces, broken, c =>
    let run := if c.isAt '#' then [] else plainRun inFlow c.rest
    if run.isEmpty then (done.reverse, broken, c)
    else
      let done := run.reverse ++ (spaces.reverse ++ done)
      let (spaces, broken, c) := plainSpaces (c.advance run.length)
      if spaces.isEmpty || c.isAt '#' || (!inFlow && c.column < indent) then
        (done.reverse, broken, c)
      else plainFrom inFlow indent fuel done spaces broken c

/-- Read a plain scalar. -/
def readPlain (inFlow : Bool) (indent : Nat) (c : Cursor) : List Char × Bool × Cursor :=
  plainFrom inFlow indent (c.rest.length + 1) [] [] false c

/-! ## Quoted scalars -/

/-- The character of an escape of one letter. -/
def shortEscape? : Char → Option Char
  | '0' => some (Char.ofNat 0)
  | 'a' => some '\x07'
  | 'b' => some '\x08'
  | 't' => some '\t'
  | '\t' => some '\t'
  | 'n' => some '\n'
  | 'v' => some '\x0b'
  | 'f' => some '\x0c'
  | 'r' => some '\r'
  | 'e' => some '\x1b'
  | ' ' => some ' '
  | '"' => some '"'
  | '\\' => some '\\'
  | '/' => some '/'
  | 'N' => some '\u0085'
  | '_' => some '\u00A0'
  | 'L' => some '\u2028'
  | 'P' => some '\u2029'
  | _ => none

/-- The number of hexadecimal digits after the letter of an escape. -/
def codeWidth? : Char → Option Nat
  | 'x' => some 2
  | 'u' => some 4
  | 'U' => some 8
  | _ => none

/-- The code point of a number; there is none beyond the last one. -/
def codePoint (n : Nat) : Outcome CodePoint :=
  if n < 0x110000 then .ok (.ofNat n)
  else if n < 0x80000000 then refuse .badValue
  else refuse .tooLarge

/-- Line ends inside a quoted scalar. -/
def quotedLineEnds (c : Cursor) : Outcome (List Char × Cursor) :=
  match lineEnds isSpace (c.rest.length + 1) [] c with
  | (some ends, c) => .ok (ends, c)
  | (none, _) => malformed

/-- Read an escape after its backslash. -/
def readEscape (c : Cursor) : Outcome (List CodePoint × Cursor) :=
  match c.next? with
  | none => malformed
  | some char =>
    match shortEscape? char, codeWidth? char with
    | some found, _ => .ok ([.char found], c.forward)
    | none, some width =>
      let digits := (c.rest.drop 1).take width
      match digits.mapM Text.hexValue? with
      | none => malformed
      | some values =>
        if values.length != width then malformed
        else do
          let found ← codePoint (Text.positional 16 values)
          return ([found], c.advance (width + 1))
    | none, none =>
      match c.lineEnd? with
      | none => malformed
      | some (_, c) => do
        let (ends, c) ← quotedLineEnds c
        return (ends.map .char, c)

/-- Read the blanks inside a quoted scalar. -/
def readSpaces (c : Cursor) : Outcome (List Char × Cursor) :=
  let (spaces, c) := c.takeWhile isSpace
  match c.next? with
  | none => malformed
  | some _ =>
    match c.lineEnd? with
    | none => .ok (spaces, c)
    | some (first, c) => do
      let (more, c) ← quotedLineEnds c
      return (folded first more, c)

/-- Read a quoted scalar after its opening quote; `done` holds what has been read, last code point
first. -/
def readQuoted (double : Bool) : (fuel : Nat) → (done : List CodePoint) → Cursor →
    Outcome (RawText × Cursor)
  | 0, _, _ => malformed
  | fuel + 1, done, c =>
    match c.next? with
    | none => malformed
    | some char =>
      if endsWord (some char) then
        match readSpaces c with
        | .ok (spaces, c) => readQuoted double fuel ((spaces.map .char).reverse ++ done) c
        | .error f => .error f
      else if char == (if double then '"' else '\'') then
        if !double && c.second? == some '\'' then
          readQuoted double fuel (.char '\'' :: done) (c.advance 2)
        else .ok (.ofPoints done.reverse, c.forward)
      else if double && char == '\\' then
        match readEscape c.forward with
        | .ok (points, c) => readQuoted double fuel (points.reverse ++ done) c
        | .error f => .error f
      else readQuoted double fuel (.char char :: done) c.forward

/-! ## Block scalars -/

/-- What becomes of the line ends after a block scalar. -/
inductive Chomping where
  /-- All are dropped. -/
  | strip
  /-- The first is kept. -/
  | clip
  /-- All are kept. -/
  | keep
  deriving Repr, DecidableEq

/-- Take the mark of a chomping. -/
def takeChomping (c : Cursor) : Option Chomping × Cursor :=
  if c.isAt '+' then (some .keep, c.forward)
  else if c.isAt '-' then (some .strip, c.forward)
  else (none, c)

/-- Take the digit that says how deep a block scalar is indented; it is not zero. -/
def takeIndent (c : Cursor) : Outcome (Option Nat × Cursor) :=
  match c.next? with
  | none => .ok (none, c)
  | some char =>
    if !Text.isAsciiDigit char then .ok (none, c)
    else if char == '0' then malformed
    else .ok (some (char.toNat - 48), c.forward)

/-- Leave out blanks, a comment and the line end. -/
def dropHeaderLine (c : Cursor) : Outcome Cursor :=
  let c := c.dropWhile (· == ' ')
  let c := if c.isAt '#' then c.dropLine else c
  if endsLine c.next? then .ok ((c.lineEnd?.map Prod.snd).getD c) else malformed

/-- Take chomping and indentation, in either order, and the rest of the line. -/
def takeHeader (c : Cursor) : Outcome (Chomping × Option Nat × Cursor) := do
  let (before, c) := takeChomping c
  let (indent, c) ← takeIndent c
  let (after, c) :=
    if before.isNone && indent.isSome then takeChomping c else (none, c)
  if endsHeader c.next? then
    return ((before.or after).getD .clip, indent, ← dropHeaderLine c)
  else malformed

/-- The line ends before the first line of a block scalar, last one first, and the greatest column
that the blanks among them reach. -/
def leadingLines : (fuel : Nat) → (done : List Char) → (deepest : Nat) → Cursor →
    List Char × Nat × Cursor
  | 0, done, deepest, c => (done.reverse, deepest, c)
  | fuel + 1, done, deepest, c =>
    let c := c.dropWhile (· == ' ')
    let deepest := max deepest c.column
    match c.lineEnd? with
    | none => (done.reverse, deepest, c)
    | some (char, c) => leadingLines fuel (char :: done) deepest c

/-- Leave out spaces as long as the column is below `indent`. -/
def dropIndent (indent : Nat) : (fuel : Nat) → Cursor → Cursor
  | 0, c => c
  | fuel + 1, c =>
    if c.column < indent && c.isAt ' ' then dropIndent indent fuel c.forward else c

/-- The line ends of empty lines, last one first, and the place where the next line begins. -/
def emptyLines (indent : Nat) : (fuel : Nat) → (done : List Char) → Cursor → List Char × Cursor
  | 0, done, c => (done.reverse, c)
  | fuel + 1, done, c =>
    let c := dropIndent indent (indent + 1) c
    match c.lineEnd? with
    | none => (done.reverse, c)
    | some (char, c) => emptyLines indent fuel (char :: done) c

/-- There is a further line in the block. -/
def inBlock (indent : Nat) (c : Cursor) : Bool :=
  c.column == indent && c.next?.isSome

/-- What a line end inside a block scalar stands for. -/
def blockLineEnd (fold : Bool) (lineEnd : List Char) (startsFull : Bool) (breaks : List Char)
    (c : Cursor) : List Char :=
  if fold && lineEnd == ['\n'] && startsFull && !(c.next?.any isSpace) then
    if breaks.isEmpty then [' '] else []
  else lineEnd

/-- Read the lines of a block scalar; `done` holds what has been read, last character first, and
`breaks` the line ends of the empty lines before the next line. -/
def blockLines (fold : Bool) (chomping : Chomping) (indent : Nat) :
    (fuel : Nat) → (done breaks : List Char) → (lineEnd : List Char) → Cursor →
    List Char × Cursor
  | 0, done, _, _, c => (done.reverse, c)
  | fuel + 1, done, breaks, lineEnd, c =>
    if !inBlock indent c then
      let tail := match chomping with
        | .strip => []
        | .clip => lineEnd
        | .keep => lineEnd ++ breaks
      (done.reverse ++ tail, c)
    else
      let startsFull := !(c.next?.any isSpace)
      let (line, c) := c.takeWhile fun char => !isBreak char
      let (lineEnd, c) := match c.lineEnd? with
        | some (char, c) => ([char], c)
        | none => ([], c)
      let read := line.reverse ++ (breaks.reverse ++ done)
      let (breaks, c) := emptyLines indent (c.rest.length + 1) [] c
      let done :=
        if inBlock indent c then (blockLineEnd fold lineEnd startsFull breaks c).reverse ++ read
        else read
      blockLines fold chomping indent fuel done breaks lineEnd c

/-- Read a block scalar after its mark; `outer` is one more than the column of what it belongs
to. -/
def readBlock (fold : Bool) (outer : Nat) (c : Cursor) : Outcome (List Char × Cursor) := do
  let (chomping, depth, c) ← takeHeader c
  let least := max outer 1
  let (breaks, indent, c) :=
    match depth with
    | some n =>
      let indent := least + n - 1
      let (breaks, c) := emptyLines indent (c.rest.length + 1) [] c
      (breaks, indent, c)
    | none =>
      let (breaks, deepest, c) := leadingLines (c.rest.length + 1) [] 0 c
      (breaks, max least deepest, c)
  return blockLines fold chomping indent (c.rest.length + 2) [] breaks [] c

end SecurityAudit.Yaml
