import SecurityAudit.Refusal
import SecurityAudit.Text.Blank
import SecurityAudit.Value.Text

/-!
# Suppression

A marker at the end of a line silences findings: all of them, or those of the rules that it lists
between square brackets.  It stands in a comment that begins with `#` or `//`:

    password = ask()  # nosec
    // vulnaudit-ignore[RULE_A, RULE_B]

A marker covers its own line.  On a line that is nothing but a comment it covers the next line too,
unless that line has a marker of its own.
-/

namespace SecurityAudit

/-- A marker, with the rules that it is for; none when it is for all. -/
structure Marker where
  rules : Option (List String)
  deriving Repr, DecidableEq, Inhabited

namespace Marker

/-- The words that make a marker. -/
def words : List String :=
  ["vulnaudit-ignore", "nosec"]

/-- What follows a word in front of a text. -/
def after? (word : String) (cs : List Char) : Option (List Char) :=
  if word.toList.isPrefixOf cs then some (cs.drop word.length) else none

/-- A character of a list of rules. -/
def isScopeChar (c : Char) : Bool :=
  c.isAlphanum || c == '_' || c == ',' || Text.isBlank c

/-- Take a list of rules between brackets off the front. -/
def scope? (cs : List Char) : Option (List Char × List Char) :=
  (after? "[" cs).bind fun rest =>
    let body := rest.takeWhile isScopeChar
    if body.isEmpty then none
    else (after? "]" (rest.drop body.length)).map fun rest => (body, rest)

/-- The rules of a list: what stands between commas, trimmed, without what is empty then. -/
def rulesOf (body : List Char) : List String :=
  (((Text.splitAt ',' body).map Text.trimChars).filter fun piece => !piece.isEmpty).map
    String.ofList

/-- Nothing but blanks and the end of a comment is left. -/
def isTail (cs : List Char) : Bool :=
  let rest := Text.trimLeft cs
  (Text.trimLeft ((after? "*/" rest).getD rest)).isEmpty

/-- Read a marker after its word. -/
def ofTail? (cs : List Char) : Option Marker :=
  match scope? cs with
  | some (body, rest) => if isTail rest then some ⟨some (rulesOf body)⟩ else none
  | none => if isTail cs then some ⟨none⟩ else none

/-- Read a marker that begins with the first character. -/
def here? (cs : List Char) : Option Marker :=
  ((after? "#" cs).or (after? "//" cs)).bind fun rest =>
    (words.findSome? fun word => after? word (Text.trimLeft rest)).bind ofTail?

/-- The marker of a line, if it has one. -/
def ofLine? : List Char → Option Marker
  | [] => none
  | c :: rest => (here? (c :: rest)).or (ofLine? rest)

/-- The marker is for a rule. -/
def covers (m : Marker) (rule : Value) : Bool :=
  match m.rules with
  | none => true
  | some rules => rule.text?.any rules.contains

end Marker

/-- A line that holds nothing but a comment. -/
def isCommentLine (line : List Char) : Bool :=
  let rest := Text.trimLeft line
  ["//", "#", "*", "/*"].any fun mark => mark.toList.isPrefixOf rest

/-- Where the marker stands that covers a line. -/
inductive MarkerPlace where
  | inline
  | previousLine
  deriving Repr, DecidableEq, Inhabited

/-- The reason that is given for a suppression. -/
def MarkerPlace.reason : MarkerPlace → String
  | .inline => "inline"
  | .previousLine => "next-line"

/-- A marker that covers a line, and where it stands. -/
structure Coverage where
  place : MarkerPlace
  marker : Marker
  deriving Repr, DecidableEq, Inhabited

/-- The numbers of the lines that are covered, with what covers them. -/
abbrev Coverings := List (Int × Coverage)

namespace Coverings

/-- The coverings of lines in order; `carried` is the marker of the comment line before them. -/
def ofLines (carried : Option Marker) : List (Int × List Char) → Coverings
  | [] => []
  | (number, line) :: rest =>
    match Marker.ofLine? line with
    | some m =>
      (number, ⟨.inline, m⟩) :: ofLines (if isCommentLine line then some m else none) rest
    | none =>
      match carried with
      | some m => (number, ⟨.previousLine, m⟩) :: ofLines none rest
      | none => ofLines none rest

/-- What covers a line; of several lines with one number the last counts. -/
def find? (cs : Coverings) (number : Int) : Option Coverage :=
  cs.reverse.lookup number

end Coverings

/-- The record of a finding that is suppressed. -/
structure Suppression where
  rule : Value
  file : String
  line : Int
  reason : String
  source : String
  deriving Inhabited

namespace Suppression

/-- The record of a suppression by a marker. -/
def ofCoverage (c : Coverage) (rule : Value) (file : String) (line : Int) : Suppression where
  rule := rule
  file := file
  line := line
  reason := c.place.reason
  source :=
    match c.marker.rules with
    | none => "# vulnaudit-ignore"
    | some _ => "# vulnaudit-ignore[" ++ rule.shown ++ "]"

/-- The record of a finding on a line, if it is suppressed.  A rule is looked up in a list of rules
only if it can be looked up at all. -/
def check? (cs : Coverings) (rule : Value) (file : String) (line : Int) :
    Except Refusal (Option Suppression) :=
  match cs.find? line with
  | none => .ok none
  | some c =>
    if c.marker.rules.isSome && !rule.isKey then .error .wrongKind
    else .ok (if c.marker.covers rule then some (ofCoverage c rule file line) else none)

/-- A suppression as a document. -/
def document (s : Suppression) : Value :=
  .record [("rule", s.rule), ("file", .text s.file), ("line", .int s.line),
    ("reason", .text s.reason), ("source", .text s.source)]

end Suppression

/-- The coverings of files. -/
abbrev Register := List (String × Coverings)

namespace Register

/-- Take note of the markers in the lines of a file.  Lines without a marker leave what is known
about the file as it is. -/
def add (r : Register) (file : String) (lines : List (Int × List Char)) : Register :=
  match Coverings.ofLines none lines with
  | [] => r
  | cs => (file, cs) :: r.filter (·.1 != file)

/-- The coverings of a file. -/
def coverings (r : Register) (file : String) : Coverings :=
  (r.lookup file).getD []

end Register

end SecurityAudit
