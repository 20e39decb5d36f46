import SecurityAudit.Cvss.Metrics
import SecurityAudit.Refusal
import SecurityAudit.Text.Blank
import SecurityAudit.Value.Text

/-!
# Vectors

A vector is the text of eight metrics: `CVSS:3.1/AV:N/AC:L/PR:N/UI:N/S:U/C:H/I:H/A:N`.  It is read
in any order of its components and in any letter case, with blanks around codes and tokens, and
with or without the version in front; every metric has to come exactly once.
-/

namespace SecurityAudit.Cvss

/-- Why a text is no vector, or words are no metrics. -/
inductive Problem where
  | unsupportedVersion (version : String)
  | malformedComponent (text : String)
  | repeatedComponent (metric : Metric)
  | unknownToken (metric : Metric) (token : String)
  | missingComponents (metrics : List Metric)
  | unknownLevel (metric : Metric) (level : Value)
  deriving Inhabited

/-- The message of a problem. -/
def Problem.message : Problem → String
  | .unsupportedVersion version => "Unsupported CVSS version: " ++ version
  | .malformedComponent text => "Malformed vector component: " ++ Text.quoted text
  | .repeatedComponent metric => "Duplicate vector component: " ++ metric.code
  | .unknownToken metric token => "Invalid value for " ++ metric.code ++ ": " ++ Text.quoted token
  | .missingComponents metrics =>
    "Vector is missing components: " ++ Text.join ", " (metrics.map Metric.code)
  | .unknownLevel metric level => "Invalid " ++ metric.name ++ ": " ++ level.quoted

/-- The text of metrics. -/
def Metrics.vector (m : Metrics) : String :=
  "CVSS:3.1/" ++ Text.join "/" (Metric.all.map fun k => k.code ++ ":" ++ m.token k)

/-- What precedes the first occurrence of a character and what follows it, if it occurs. -/
def cut (c : Char) (cs : List Char) : List Char × Option (List Char) :=
  match cs.dropWhile (· != c) with
  | [] => (cs, none)
  | _ :: rest => (cs.takeWhile (· != c), some rest)

/-- A text in capital letters, without blanks around it. -/
def normal (cs : List Char) : String :=
  Text.upper (String.ofList (Text.trimChars cs))

/-- A text in capital letters. -/
def capital (cs : List Char) : String :=
  Text.upper (String.ofList cs)

/-- Take off the version, if there is one. -/
def withoutVersion (text : List Char) : Except Problem (List Char) :=
  if "CVSS:".toList.isPrefixOf (Text.upperChars text) then
    let (version, rest) := cut '/' text
    if ["CVSS:3.1", "CVSS:3.0"].contains (capital version) then .ok (rest.getD [])
    else .error (.unsupportedVersion (String.ofList version))
  else .ok text

/-- Read one component and set its metric, which must not be among those already `seen`. -/
def readComponent (m : Metrics) (seen : List Metric) (part : List Char) :
    Except Problem (Metrics × List Metric) :=
  let (code, token) := cut ':' part
  match token, Metric.ofCode? (normal code) with
  | some token, some metric =>
    if seen.contains metric then .error (.repeatedComponent metric)
    else
      match m.set? (Level.ofToken? (normal token)) metric with
      | some m => .ok (m, metric :: seen)
      | none => .error (.unknownToken metric (String.ofList token))
  | _, _ => .error (.malformedComponent (String.ofList part))

/-- Read components one after another. -/
def readComponents (m : Metrics) (seen : List Metric) :
    List (List Char) → Except Problem (Metrics × List Metric)
  | [] => .ok (m, seen)
  | part :: rest =>
    match readComponent m seen part with
    | .ok (m, seen) => readComponents m seen rest
    | .error p => .error p

/-- Read a vector. -/
def Metrics.ofVector (vector : String) : Except Problem Metrics := do
  let text ← withoutVersion (Text.trimChars vector.toList)
  let (m, seen) ← readComponents {} [] (Text.splitAt '/' text)
  match Metric.all.filter fun k => !seen.contains k with
  | [] => .ok m
  | missing => .error (.missingComponents missing)

/-- Read metrics from words under their names, one by one in the order of vectors.  A metric that
has no word keeps the level it has by default. -/
def Metrics.ofWords (words : List (String × Value)) : Except (Fault Problem) Metrics :=
  if words.any fun e => !(Metric.all.any (·.name == e.1)) then refuse .wrongKind
  else
    Metric.all.foldlM (fun (m : Metrics) metric =>
      match words.lookup metric.name with
      | none => .ok m
      | some level =>
        if !level.isKey then refuse .wrongKind
        else
          match level.text?.bind fun w => m.set? (Level.ofWord? w) metric with
          | some m => .ok m
          | none => failAbout level (.unknownLevel metric level)) {}

end SecurityAudit.Cvss
