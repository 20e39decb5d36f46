import SecurityAudit.Refusal
import SecurityAudit.Text.Encoding
import SecurityAudit.Toml.Scalar
import SecurityAudit.Toml.Table

/-!
# Reading TOML

A document is a sequence of statements, one a line: headers, which open tables, and bindings of
keys to values.  Reading gives one mapping.
-/

namespace SecurityAudit.Toml

/-- Leave out a comment, up to the end of its line. -/
def skipComment (cs : List Char) : Except Problem (List Char) :=
  match cs with
  | '#' :: rest =>
    if (rest.takeWhile (· != '\n')).any isControl then .error .malformed
    else .ok (rest.dropWhile (· != '\n'))
  | cs => .ok cs

/-- Leave out blanks, line ends and comments; `fuel` bounds the number of comments. -/
def skipLines : (fuel : Nat) → List Char → Except Problem (List Char)
  | 0, cs => .ok cs
  | fuel + 1, cs =>
    match cs.dropWhile isSpaceOrNewline with
    | '#' :: rest =>
      match skipComment ('#' :: rest) with
      | .ok rest => skipLines fuel rest
      | .error p => .error p
    | cs => .ok cs

mutual

/-- Read a value; `fuel` bounds the number of steps. -/
def readValue : (fuel : Nat) → Reader Value
  | 0, _ => .error .malformed
  | fuel + 1, '[' :: rest =>
    match skipLines rest.length rest with
    | .error p => .error p
    | .ok (']' :: rest) => .ok (.list [], rest)
    | .ok rest => readItems fuel [] rest
  | fuel + 1, '\x7b' :: rest =>
    match rest.dropWhile isSpace with
    | '\x7d' :: rest => .ok (.mapping [], rest)
    | rest => readInline fuel [] [] rest
  | _ + 1, cs => readScalar cs

/-- Read the items of an array after those in `done`, which holds the last of them first. -/
def readItems : (fuel : Nat) → (done : List Value) → Reader Value
  | 0, _, _ => .error .malformed
  | fuel + 1, done, cs =>
    match readValue fuel cs with
    | .error p => .error p
    | .ok (v, rest) =>
      match skipLines rest.length rest with
      | .error p => .error p
      | .ok (']' :: rest) => .ok (.list (v :: done).reverse, rest)
      | .ok (',' :: rest) =>
        match skipLines rest.length rest with
        | .error p => .error p
        | .ok (']' :: rest) => .ok (.list (v :: done).reverse, rest)
        | .ok rest => readItems fuel (v :: done) rest
      | .ok _ => .error .malformed

/-- Read a key and its value. -/
def readBinding : (fuel : Nat) → Reader (KeyPath × Value)
  | 0, _ => .error .malformed
  | fuel + 1, cs =>
    match readKey (cs.length + 1) cs with
    | .error p => .error p
    | .ok (path, '=' :: rest) =>
      match readValue fuel (rest.dropWhile isSpace) with
      | .error p => .error p
      | .ok (v, rest) => .ok ((path, v), rest)
    | .ok _ => .error .malformed

/-- Read the entries of an inline table after those in `done`. -/
def readInline : (fuel : Nat) → (frozen : List KeyPath) → (done : Entries) → Reader Value
  | 0, _, _, _ => .error .malformed
  | fuel + 1, frozen, done, cs =>
    match readBinding fuel cs with
    | .error p => .error p
    | .ok ((path, v), rest) =>
      match bindInline frozen done path v with
      | none => .error .malformed
      | some entries =>
        match rest.dropWhile isSpace with
        | '\x7d' :: rest => .ok (.mapping entries, rest)
        | ',' :: rest =>
          readInline fuel (if Draft.isInline v then path :: frozen else frozen) entries
            (rest.dropWhile isSpace)
        | _ => .error .malformed

end

/-- A change of the document that may turn out to be impossible. -/
def changed (d : Option Draft) (rest : List Char) : Except Problem (Draft × List Char) :=
  match d with
  | some d => .ok (d, rest)
  | none => .error .malformed

/-- Read a header, from its opening bracket on. -/
def readHeader (d : Draft) (cs : List Char) : Except Problem (Draft × List Char) :=
  let isArray := "[[".toList.isPrefixOf cs
  let (opening, closing) := if isArray then (2, "]]") else (1, "]")
  match readKey (cs.length + 1) ((cs.drop opening).dropWhile isSpace) with
  | .error p => .error p
  | .ok (path, rest) =>
    match after? closing rest with
    | none => .error .malformed
    | some rest => changed (if isArray then d.openArray path else d.openTable path) rest

/-- Read what one line says, up to the comment or the line end. -/
def readStatement (d : Draft) (cs : List Char) : Except Problem (Draft × List Char) :=
  match cs with
  | [] => .ok (d, [])
  | c :: _ =>
    if c == '\n' || c == '#' then .ok (d, cs)
    else if c == '[' then readHeader d cs
    else if isBare c || c == '"' || c == '\'' then
      match readBinding (2 * cs.length + 2) cs with
      | .error p => .error p
      | .ok ((path, v), rest) => changed (d.bind path v) rest
    else .error .malformed

/-- Read statements one after another; `fuel` bounds their number. -/
def readStatements : (fuel : Nat) → Draft → List Char → Except Problem Draft
  | 0, d, _ => .ok d
  | fuel + 1, d, cs =>
    match readStatement d (cs.dropWhile isSpace) with
    | .error p => .error p
    | .ok (d, rest) =>
      match skipComment (rest.dropWhile isSpace) with
      | .error p => .error p
      | .ok [] => .ok d
      | .ok ('\n' :: rest) => readStatements fuel d rest
      | .ok _ => .error .malformed

/-- A carriage return before a line feed says nothing. -/
def unifyLines : List Char → List Char
  | '\r' :: '\n' :: rest => '\n' :: unifyLines rest
  | c :: rest => c :: unifyLines rest
  | [] => []

/-- Read a document. -/
def parse (text : List Char) : Except Problem (List (Value × Value)) :=
  (readStatements (text.length + 1) .empty (unifyLines text)).map Draft.entries

end SecurityAudit.Toml
