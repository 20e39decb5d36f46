import SecurityAudit.Pattern.Reader
import SecurityAudit.Rule.Basic
import SecurityAudit.Rule.Problem
import SecurityAudit.Text.Numeral

/-!
# Custom entries

Rules and secret patterns are read from the entries of rule files.  An entry is a mapping; what it
does not say has a default, except for its id, its pattern and the category of a rule.

An id, a name or a description may be any text.  A pattern and a vector are texts that can be
encoded; what has half of a surrogate pair in it is refused for them like a value of another kind.
-/

namespace SecurityAudit

namespace Rule

/-- The outcome of reading rules. -/
abbrev Reading (α : Type) := Except (Fault Problem) α

/-- The whole number that a value can be taken for: a fraction is cut off, and a text is read. -/
def wholeNumber (v : Value) : Reading Int :=
  match v with
  | .bool b => .ok (if b then 1 else 0)
  | .int n => .ok n
  | .float x =>
    match Decimal.exact x with
    | .nan => refuse .badValue
    | .infinite _ => refuse .tooLarge
    | .finite _ _ _ => .ok ((Decimal.toward? x).getD 0)
  | .text s => orRefuse .badValue (Text.parseInt? s)
  | .broken _ _ _ => refuse .badValue
  | _ => refuse .wrongKind

/-- The floating-point number nearest to a whole number; there is none for those that are too
large. -/
def nearestFloat (n : Int) : Reading Float :=
  let x := Decimal.nearest (n < 0) n.natAbs 0
  if x.isInf then refuse .tooLarge else .ok x

/-- The floating-point number that a value can be taken for. -/
def pointNumber (v : Value) : Reading Float :=
  match v with
  | .bool b => .ok (if b then 1.0 else 0.0)
  | .int n => nearestFloat n
  | .float x => .ok x
  | .text s => orRefuse .badValue (Text.parseFloat? s)
  | .broken _ _ _ => refuse .badValue
  | _ => refuse .wrongKind

/-- The pattern of an entry.  It has to be a text that can be encoded. -/
def readPattern (id pattern : Value) : Reading Pattern := do
  let source ← orRefuse .wrongKind pattern.text?
  match Pattern.parse source with
  | .ok p => return p
  | .error .malformed => failAbout id (.malformedPattern id)
  | .error .countTooLarge => refuse .tooLarge

/-- The value of a key that an entry must have. -/
def required (path : String) (kind : EntryKind) (entry : Value) (key : String) : Reading Value :=
  match entry.get? key with
  | some v => .ok v
  | none => fail (.missingKey path kind key)

/-- The value of a key, or what holds without it. -/
def optional (entry : Value) (key : String) (default : Value) : Value :=
  (entry.get? key).getD default

/-- The metrics of an entry, if it has a vector, which has to be a text that can be encoded. -/
def readMetrics (path : String) (entry : Value) : Reading (Option Cvss.Metrics) :=
  let vector := optional entry "cvss" .null
  if !vector.holds then .ok none
  else
    match vector.text? with
    | none => refuse .noOperation
    | some text =>
      match Cvss.Metrics.ofVector text with
      | .ok m => .ok (some m)
      | .error p => fail (.badVector path p)

/-- The globs of an entry, if it has any. -/
def readGlobs (entry : Value) : Reading (Option (List Value)) :=
  let globs := optional entry "file_patterns" .null
  if globs.holds then (orRefuse .wrongKind globs.elements?).map some else .ok none

/-- Read a rule from an entry of the file at a path. -/
def ofEntry (path : String) (entry : Value) : Reading Rule := do
  let id ← required path .rule entry "id"
  let metrics ← readMetrics path entry
  let category ← required path .rule entry "category"
  let cwe ← allowing (optional entry "cwe" (.text "")).asText
  let pattern ← required path .rule entry "pattern"
  let references ← orRefuse .wrongKind (optional entry "references" (.list [])).elements?
  let filePatterns ← readGlobs entry
  let window ← wholeNumber (optional entry "window" (.int 1))
  match category.text?.bind Category.ofLabel? with
  | none => failAbout (.list [id, category]) (.unknownCategory id category)
  | some c =>
    if h : 1 ≤ window then do
      let compiled ← readPattern id pattern
      return {
        id
        name := optional entry "name" id
        description := optional entry "description" (.text "")
        category := c
        cwe := cwe.readable
        pattern := compiled
        remediation := optional entry "remediation" (.text "")
        metrics := metrics.getD c.metrics
        references
        filePatterns
        window := window.toNat
        window_pos := by omega }
    else failAbout id (.windowTooSmall id)

end Rule

/-- Read a secret pattern from an entry of the file at a path. -/
def SecretPattern.ofEntry (path : String) (entry : Value) : Rule.Reading SecretPattern := do
  let id ← Rule.required path .secret entry "id"
  let pattern ← Rule.required path .secret entry "pattern"
  let threshold ← Rule.pointNumber (Rule.optional entry "entropy_threshold" (.float 3.0))
  let severity := Rule.optional entry "severity" (.text "high")
  match severity.text?.bind SecretSeverity.ofLabel? with
  | none => failAbout (.list [id, severity]) (.unknownSeverity id severity)
  | some s => do
    let compiled ← Rule.readPattern id pattern
    return {
      id
      name := Rule.optional entry "name" id
      description := Rule.optional entry "description" (.text "")
      pattern := compiled
      severity := s
      entropyThreshold := threshold }

end SecurityAudit
