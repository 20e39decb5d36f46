import SecurityAudit.Detect.Entropy
import SecurityAudit.Detect.Evidence
import SecurityAudit.Detect.LineCap
import SecurityAudit.Finding.Basic
import SecurityAudit.Settings.Basic
import SecurityAudit.Source
import SecurityAudit.Suppression

/-!
# Secrets

Secret patterns are run line by line; of the matches of a pattern on a line, the first that is
random enough is reported, with its middle masked.  Comment lines are left out, and so are lines and
paths with a marker that says that what they hold is not real.
-/

namespace SecurityAudit

/-- The finding of a secret on a line of a file, under an id, with the name and the description of
its pattern written out. -/
def SecretPattern.findingAs (p : SecretPattern) (now : Calendar.Moment) (id file : String)
    (name description : RawText) (line : Nat) (c : Detect.Candidate) : Finding where
  id
  ruleId := p.id
  title := .ofRaw (name ++ " exposed")
  description := .ofRaw (description ++
    (" Shannon entropy " ++ Decimal.fixed 2 c.entropy ++ " bits/char."))
  severity := p.severity.level.label
  category := Finding.secretCategory
  file
  line
  evidence := String.ofList (Detect.masked c.value)
  remediation := .text SecretPattern.remediation
  cvss := none
  references := []
  cwe := some SecretPattern.cwe
  cve := none
  entropy := some (.float c.entropy)
  status := "open"
  detectedAt := now

/-- The finding of a secret on a line. -/
def SecretPattern.finding (p : SecretPattern) (now : Calendar.Moment) (path : RawText) (line : Nat)
    (c : Detect.Candidate) : Except Refusal Finding := do
  let id ← Finding.idOf (← p.id.asText) path (toString (line : Int))
  let file ← path.encoded
  return p.findingAs now id file (← p.name.asText) (← p.description.asText) line c

namespace Detect

/-- What secrets are looked for with: the markers in small letters. -/
structure SecretScan where
  patterns : List SecretPattern
  lineMarkers : List (List Char)
  pathMarkers : List (List Char)
  cap : Value

namespace SecretScan

/-- The markers of a setting, in small letters. -/
def markersOf (v : Value) : Except Refusal (List (List Char)) := do
  match v.elements? with
  | none => .error .wrongKind
  | some items =>
    items.mapM fun item =>
      match item.text? with
      | some s => .ok (Text.lowerChars s.toList)
      | none => .error .noOperation

/-- The search for secrets that settings ask for. -/
def ofSettings (patterns : List SecretPattern) (s : Settings) : Except Refusal SecretScan := do
  return {
    patterns
    lineMarkers := ← markersOf s.secrets.skipMarkers
    pathMarkers := ← markersOf s.secrets.skipPathMarkers
    cap := s.scan.maxLineLength }

/-- A text holds another one. -/
def holds (part : List Char) : List Char → Bool
  | [] => part.isEmpty
  | c :: rest => part.isPrefixOf (c :: rest) || holds part rest

/-- A text holds one of some markers, in whatever letter case. -/
def isMarked (markers : List (List Char)) (cs : List Char) : Bool :=
  let small := Text.lowerChars cs
  markers.any fun m => holds m small

/-- A line in which nothing is looked for. -/
def skips (s : SecretScan) (line : List Char) : Bool :=
  isCommentLine line || isMarked s.lineMarkers line

/-- The patterns that have a candidate on a line, each with its first one. -/
def candidatesOn (s : SecretScan) (line : List Char) : List (SecretPattern × Candidate) :=
  if s.skips line then []
  else s.patterns.filterMap fun p => (candidates p line).head?.map fun c => (p, c)

/-- The findings on a line, pattern by pattern. -/
def findingsOn (s : SecretScan) (now : Calendar.Moment) (path : RawText) (number : Nat)
    (line : List Char) : Except Refusal (List Finding) :=
  (s.candidatesOn line).mapM fun (p, c) => p.finding now path number c

/-- Nothing is looked for in the file of a path with a marker.  No marker has half of a surrogate
pair in it, so it lies between the halves of the path. -/
def skipsPath (s : SecretScan) (path : RawText) : Bool :=
  path.pieces.any fun piece => isMarked s.pathMarkers piece.toList

/-- The secrets in a file, line by line. -/
def run (s : SecretScan) (now : Calendar.Moment) (f : SourceFile) :
    Except Refusal (List Finding) := do
  if s.skipsPath f.path then return []
  else
    let found ← f.numbered.mapM fun (number, line) => do
      s.findingsOn now f.path number (← cutIfBeyond s.cap line)
    return found.flatten

end SecretScan

end Detect

end SecurityAudit
