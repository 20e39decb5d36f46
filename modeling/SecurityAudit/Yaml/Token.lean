import SecurityAudit.Yaml.Scalar

/-!
# YAML tokens

A text is divided into tokens.  Some tokens are not written: where the indentation grows, a block
sequence or a block mapping begins, and where it shrinks, one ends.

A key in front of a colon is written like any other node, and only the colon shows that it was a
key.  So a place is kept before every token that may begin a key, and filled when the colon comes.
A place is given up at the end of its line or after 1024 characters; when the indentation says that
a key has to stand there, giving it up is an error.
-/

namespace SecurityAudit.Yaml

/-- A token. -/
inductive Token where
  | version (major : Nat)
  | directive
  | documentStart
  | documentEnd
  | streamEnd
  | blockSequence
  | blockMapping
  | blockEnd
  | flowSequence
  | flowSequenceEnd
  | flowMapping
  | flowMappingEnd
  | blockEntry
  | flowEntry
  | key
  | value
  | alias_ (name : String)
  | anchor (name : String)
  | tag (name : String)
  | scalar (text : RawText) (plain : Bool)
  deriving Repr, DecidableEq, Inhabited

/-- A token, or a place that may be filled. -/
inductive Slot where
  | token (t : Token)
  | place (id : Nat)
  deriving Repr, DecidableEq

/-- A key that may begin at a place. -/
structure Candidate where
  id : Nat
  required : Bool
  index : Nat
  line : Nat
  column : Nat
  deriving Repr, DecidableEq

/-- What is known after some tokens of a text. -/
structure Scanner where
  cursor : Cursor
  /-- The slots so far, last one first. -/
  slots : List Slot
  /-- The tokens with which places have been filled. -/
  filled : List (Nat × List Token)
  /-- The number of places. -/
  places : Nat
  /-- The number of brackets that are open. -/
  depth : Nat
  /-- The column of the innermost block collection; -1 outside of all. -/
  indent : Int
  /-- The columns of the block collections around it. -/
  outer : List Int
  /-- A key without a mark may come next. -/
  keyAllowed : Bool
  /-- The keys that may have begun, by the number of brackets around them. -/
  candidates : List (Nat × Candidate)

namespace Scanner

/-- Before the first token. -/
def start (text : List Char) : Scanner where
  cursor := .start text
  slots := []
  filled := []
  places := 0
  depth := 0
  indent := -1
  outer := []
  keyAllowed := true
  candidates := []

/-- The tokens so far. -/
def tokens (s : Scanner) : List Token :=
  s.slots.reverse.flatMap fun
    | .token t => [t]
    | .place id => (s.filled.lookup id).getD []

/-- Add a token. -/
def push (s : Scanner) (t : Token) : Scanner :=
  { s with slots := .token t :: s.slots }

/-- No bracket is open. -/
def inBlock (s : Scanner) : Bool :=
  s.depth == 0

/-- The candidate within the brackets that are open. -/
def candidate? (s : Scanner) : Option Candidate :=
  s.candidates.lookup s.depth

/-- Forget the candidate within the brackets that are open. -/
def dropCandidate (s : Scanner) : Scanner :=
  { s with candidates := s.candidates.filter (·.1 != s.depth) }

/-- Give up the candidate within the brackets that are open. -/
def giveUp (s : Scanner) : Outcome Scanner :=
  match s.candidate? with
  | some c => if c.required then malformed else .ok s.dropCandidate
  | none => .ok s

/-- The cursor has gone too far for a candidate. -/
def isStale (s : Scanner) (c : Candidate) : Bool :=
  c.line != s.cursor.line || 1024 < s.cursor.index - c.index

/-- Give up the candidates for which the cursor has gone too far. -/
def giveUpStale (s : Scanner) : Outcome Scanner :=
  if s.candidates.any fun e => s.isStale e.2 && e.2.required then malformed
  else .ok { s with candidates := s.candidates.filter fun e => !s.isStale e.2 }

/-- Keep a place for a key that may begin here. -/
def keepPlace (s : Scanner) : Outcome Scanner :=
  if !s.keyAllowed then .ok s
  else do
    let required := s.inBlock && s.indent == (s.cursor.column : Int)
    let s ← s.giveUp
    let c : Candidate := ⟨s.places, required, s.cursor.index, s.cursor.line, s.cursor.column⟩
    return { s with
      slots := .place s.places :: s.slots
      places := s.places + 1
      candidates := (s.depth, c) :: s.candidates }

/-- Close the block collections that are deeper than a column; `fuel` bounds their number. -/
def unwindFrom : (fuel : Nat) → (column : Int) → Scanner → Scanner
  | 0, _, s => s
  | fuel + 1, column, s =>
    if column < s.indent then
      unwindFrom fuel column
        { s.push .blockEnd with indent := s.outer.headD (-1), outer := s.outer.tail }
    else s

/-- Close the block collections that are deeper than a column, unless a bracket is open. -/
def unwind (s : Scanner) (column : Int) : Scanner :=
  if s.inBlock then unwindFrom s.outer.length column s else s

/-- Open a block collection at a column, if it lies deeper; true if it does. -/
def indentTo (s : Scanner) (column : Nat) : Bool × Scanner :=
  if s.indent < (column : Int) then
    (true, { s with indent := column, outer := s.indent :: s.outer })
  else (false, s)

/-- Open a block collection at the cursor, if it lies deeper. -/
def open_ (s : Scanner) (t : Token) : Scanner :=
  match s.indentTo s.cursor.column with
  | (true, s) => s.push t
  | (false, s) => s

/-- Leave out blanks, comments and line ends; `fuel` bounds the number of lines. -/
def skipFrom : (fuel : Nat) → Scanner → Scanner
  | 0, s => s
  | fuel + 1, s =>
    let c := s.cursor.dropWhile (· == ' ')
    let c := if c.isAt '#' then c.dropLine else c
    match c.lineEnd? with
    | none => { s with cursor := c }
    | some (_, c) =>
      skipFrom fuel { s with cursor := c, keyAllowed := s.keyAllowed || s.inBlock }

/-- Leave out what stands between tokens, and a byte order mark at the start. -/
def skip (s : Scanner) : Scanner :=
  let c := s.cursor
  let c := if c.index == 0 && c.isAt '\uFEFF' then c.forward else c
  skipFrom (c.rest.length + 1) { s with cursor := c }

/-- Take a name of letters, digits, hyphens and underscores. -/
def name? (c : Cursor) : Option (String × Cursor) :=
  let (name, c) := c.takeWhile fun char =>
    char.isAlphanum || char == '-' || char == '_'
  if name.isEmpty then none else some (String.ofList name, c)

/-- Take a number. -/
def number? (c : Cursor) : Option (Nat × Cursor) :=
  let (digits, c) := c.takeWhile Text.isAsciiDigit
  if digits.isEmpty then none
  else some (Text.positional 10 (digits.map fun d => d.toNat - 48), c)

/-- Take what follows the name of a directive. -/
def directiveOf (name : String) (c : Cursor) : Outcome (Token × Cursor) :=
  if name == "YAML" then
    match number? (c.dropWhile (· == ' ')) with
    | none => malformed
    | some (major, c) =>
      if !c.isAt '.' then malformed
      else
        match number? c.forward with
        | none => malformed
        | some (_, c) => if endsHeader c.next? then .ok (.version major, c) else malformed
  else .ok (.directive, c.dropLine)

/-- Take a directive. -/
def takeDirective (s : Scanner) : Outcome Scanner := do
  let s ← (s.unwind (-1)).giveUp
  match name? s.cursor.forward with
  | none => malformed
  | some (name, c) =>
    if !endsHeader c.next? then malformed
    else do
      let (t, c) ← directiveOf name c
      let c ← dropHeaderLine c
      return { s with cursor := c, keyAllowed := false }.push t

/-- Take a mark between documents or at the end of one. -/
def takeSeparator (s : Scanner) (t : Token) : Outcome Scanner := do
  let s ← (s.unwind (-1)).giveUp
  return { s with cursor := s.cursor.advance 3, keyAllowed := false }.push t

/-- Take an opening bracket. -/
def takeOpening (s : Scanner) (t : Token) : Outcome Scanner := do
  let s ← s.keepPlace
  return { s with cursor := s.cursor.forward, depth := s.depth + 1, keyAllowed := true }.push t

/-- Take a closing bracket. -/
def takeClosing (s : Scanner) (t : Token) : Outcome Scanner :=
  if s.inBlock then malformed
  else do
    let s ← s.giveUp
    return { s with cursor := s.cursor.forward, depth := s.depth - 1, keyAllowed := false }.push t

/-- Take a comma. -/
def takeFlowEntry (s : Scanner) : Outcome Scanner := do
  let s ← s.giveUp
  return { s with cursor := s.cursor.forward, keyAllowed := true }.push .flowEntry

/-- Take the hyphen of an entry of a block sequence. -/
def takeBlockEntry (s : Scanner) : Outcome Scanner :=
  if s.inBlock && !s.keyAllowed then malformed
  else do
    let s := if s.inBlock then s.open_ .blockSequence else s
    let s ← s.giveUp
    return { s with cursor := s.cursor.forward, keyAllowed := true }.push .blockEntry

/-- Take the question mark before a key. -/
def takeKey (s : Scanner) : Outcome Scanner :=
  if s.inBlock && !s.keyAllowed then malformed
  else do
    let s := if s.inBlock then s.open_ .blockMapping else s
    let s ← s.giveUp
    return { s with cursor := s.cursor.forward, keyAllowed := s.inBlock }.push .key

/-- Take the colon before a value. -/
def takeValue (s : Scanner) : Outcome Scanner :=
  match s.candidate? with
  | some c =>
    let s := s.dropCandidate
    let (opens, s) := if s.inBlock then s.indentTo c.column else (false, s)
    let filling := if opens then [.blockMapping, .key] else [.key]
    .ok ({ s with
      cursor := s.cursor.forward
      filled := (c.id, filling) :: s.filled
      keyAllowed := false }.push .value)
  | none =>
    if s.inBlock && !s.keyAllowed then malformed
    else do
      let s := if s.inBlock then s.open_ .blockMapping else s
      let s ← s.giveUp
      return { s with cursor := s.cursor.forward, keyAllowed := s.inBlock }.push .value

/-- What may follow the name of an anchor. -/
def endsName (next : Option Char) : Bool :=
  endsWord next || next.any fun c => "?:,]\x7d%@".toList.contains c || c.toNat == 96

/-- Take an anchor or an alias. -/
def takeName (s : Scanner) (make : String → Token) : Outcome Scanner := do
  let s ← s.keepPlace
  match name? s.cursor.forward with
  | none => malformed
  | some (name, c) =>
    if endsName c.next? then return { s with cursor := c, keyAllowed := false }.push (make name)
    else malformed

/-- Take a tag. -/
def takeTag (s : Scanner) : Outcome Scanner := do
  let s ← s.keepPlace
  let (name, c) := s.cursor.takeWhile fun char => !endsWord (some char)
  if endsHeader c.next? then
    return { s with cursor := c, keyAllowed := false }.push (.tag (String.ofList name))
  else malformed

/-- Take a block scalar. -/
def takeBlock (s : Scanner) (fold : Bool) : Outcome Scanner := do
  let s ← s.giveUp
  let (text, c) ← readBlock fold (s.indent + 1).toNat s.cursor.forward
  return { s with cursor := c, keyAllowed := true }.push
    (.scalar (.sound (String.ofList text)) false)

/-- Take a quoted scalar. -/
def takeQuoted (s : Scanner) (double : Bool) : Outcome Scanner := do
  let s ← s.keepPlace
  let c := s.cursor.forward
  let (text, c) ← readQuoted double (c.rest.length + 1) [] c
  return { s with cursor := c, keyAllowed := false }.push (.scalar text false)

/-- Take a plain scalar. -/
def takePlain (s : Scanner) : Outcome Scanner := do
  let s ← s.keepPlace
  let (text, broken, c) := readPlain (!s.inBlock) (s.indent + 1).toNat s.cursor
  return { s with cursor := c, keyAllowed := broken }.push
    (.scalar (.sound (String.ofList text)) true)

/-- The characters with a meaning of their own at the start of a token. -/
def isIndicator (c : Char) : Bool :=
  "-?:,[]\x7b\x7d#&*!|>'\"%@".toList.contains c || c.toNat == 96

/-- A plain scalar may begin here. -/
def startsPlain (s : Scanner) (char : Char) : Bool :=
  (!endsWord (some char) && !isIndicator char) ||
    (!endsWord s.cursor.second? && (char == '-' || (s.inBlock && (char == '?' || char == ':'))))

/-- Take the token that begins with a character. -/
def take (s : Scanner) (char : Char) : Outcome Scanner :=
  let c := s.cursor
  let blank := endsWord c.second?
  if char == '%' && c.column == 0 then s.takeDirective
  else if c.column == 0 && c.isSeparator "---" then s.takeSeparator .documentStart
  else if c.column == 0 && c.isSeparator "..." then s.takeSeparator .documentEnd
  else if char == '[' then s.takeOpening .flowSequence
  else if char == '\x7b' then s.takeOpening .flowMapping
  else if char == ']' then s.takeClosing .flowSequenceEnd
  else if char == '\x7d' then s.takeClosing .flowMappingEnd
  else if char == ',' then s.takeFlowEntry
  else if char == '-' && blank then s.takeBlockEntry
  else if char == '?' && (!s.inBlock || blank) then s.takeKey
  else if char == ':' && (!s.inBlock || blank) then s.takeValue
  else if char == '*' then s.takeName .alias_
  else if char == '&' then s.takeName .anchor
  else if char == '!' then s.takeTag
  else if char == '|' && s.inBlock then s.takeBlock false
  else if char == '>' && s.inBlock then s.takeBlock true
  else if char == '\'' then s.takeQuoted false
  else if char == '"' then s.takeQuoted true
  else if s.startsPlain char then s.takePlain
  else malformed

/-- Close everything at the end of the text. -/
def finish (s : Scanner) : Outcome Scanner := do
  let s ← (s.unwind (-1)).giveUp
  return s.push .streamEnd

/-- Take tokens up to the end of the text: the tokens, and the fault that ended them, if there is
one.  `fuel` bounds their number. -/
def run : (fuel : Nat) → Scanner → List Token × Option (Fault Problem)
  | 0, s => (s.tokens, some (.problem .malformed))
  | fuel + 1, s =>
    match s.skip.giveUpStale with
    | .error f => (s.tokens, some f)
    | .ok s =>
      let s := s.unwind s.cursor.column
      match s.cursor.next? with
      | none =>
        match s.finish with
        | .ok s => (s.tokens, none)
        | .error f => (s.tokens, some f)
      | some char =>
        match s.take char with
        | .ok s => run fuel s
        | .error f => (s.tokens, some f)

end Scanner

/-- The tokens of a text, and the fault that ended them, if there is one. -/
def tokensOf (text : List Char) : List Token × Option (Fault Problem) :=
  Scanner.run (text.length + 2) (.start text)

end SecurityAudit.Yaml
