import SecurityAudit.Detect.Evidence
import SecurityAudit.Detect.LineCap
import SecurityAudit.Finding.Basic
import SecurityAudit.Rule.Basic
import SecurityAudit.Source

/-!
# Vulnerabilities

Every rule that is for a file is run on its lines; where it matches, there is a finding.  A rule
with a window sees some lines at a time, joined by line feeds, and a match belongs to the line on
which it begins: it is reported from the window that starts with that line, and from no other.
-/

namespace SecurityAudit

/-- A line of a file on which a rule matches, with the text that is matched. -/
structure Hit where
  line : Nat
  text : List Char
  deriving Repr, DecidableEq, Inhabited

namespace Rule

/-- Lines joined by line feeds. -/
def joined (lines : List (List Char)) : List Char :=
  ['\n'].intercalate lines

/-- The match that begins on the first of the lines that a window starts with. -/
def hitAt? (r : Rule) (first : List Char) (rest : List (List Char)) : Option (List Char) :=
  let text := joined (first :: rest.take (r.window - 1))
  match Pattern.search r.pattern text with
  | some m => if m.first ≤ first.length then some (m.text text) else none
  | none => none

/-- The lines on which a rule matches; the first of `lines` has the number `number`. -/
def hitsFrom (r : Rule) (number : Nat) (lines : List (List Char)) : List Hit :=
  match lines with
  | [] => []
  | first :: rest =>
    match r.hitAt? first rest with
    | some text => ⟨number, text⟩ :: r.hitsFrom (number + 1) rest
    | none => r.hitsFrom (number + 1) rest

/-- The lines that have a match of a pattern in themselves, wherever it begins; the first of `lines`
has the number `number`. -/
def lineHitsFrom (p : Pattern) (number : Nat) (lines : List (List Char)) : List Hit :=
  match lines with
  | [] => []
  | line :: rest =>
    match Pattern.search p line with
    | some m => ⟨number, m.text line⟩ :: lineHitsFrom p (number + 1) rest
    | none => lineHitsFrom p (number + 1) rest

/-- The lines on which a rule matches.  A rule that sees one line at a time needs no windows. -/
def hits (r : Rule) (lines : List (List Char)) : List Hit :=
  if r.window == 1 then lineHitsFrom r.pattern 1 lines else r.hitsFrom 1 lines

/-- The finding of a hit in a file, under an id. -/
def findingAs (r : Rule) (now : Calendar.Moment) (id file : String) (h : Hit) : Finding where
  id
  ruleId := r.id
  title := r.name
  description := r.description
  severity := r.score.severity.label
  category := r.category.label
  file
  line := h.line
  evidence := String.ofList (Detect.evidence h.text)
  remediation := r.remediation
  cvss := some r.score
  references := r.references
  cwe := if r.cwe.isEmpty then none else some r.cwe
  cve := none
  entropy := none
  status := "open"
  detectedAt := now

/-- The finding of a hit. -/
def finding (r : Rule) (now : Calendar.Moment) (path : RawText) (h : Hit) :
    Except Refusal Finding := do
  let id ← Finding.idOf (← r.id.asText) path (toString (h.line : Int))
  return r.findingAs now id (← path.encoded) h

/-- The findings of a rule in the lines of a file, if the rule is for it. -/
def findings (r : Rule) (now : Calendar.Moment) (path : RawText) (lines : List (List Char)) :
    Except Refusal (List Finding) := do
  if ← r.appliesTo path.readable then (r.hits lines).mapM (r.finding now path) else return []

end Rule

namespace Detect

/-- The vulnerabilities in a file, rule by rule. -/
def vulnerabilities (rules : List Rule) (cap : Value) (now : Calendar.Moment) (f : SourceFile) :
    Except Refusal (List Finding) := do
  let lines ← f.lines.mapM (cutUnlessWithin cap)
  return (← rules.mapM fun r => r.findings now f.path lines).flatten

end Detect

end SecurityAudit
