import SecurityAudit.Finding.Basic
import SecurityAudit.Refusal

/-!
# The life of a finding

A finding is open at first.  It is confirmed or found to be no issue at all; a confirmed one is
mitigated, or its risk is accepted.  Nothing else about a finding ever changes: the fields that it
was made with can only be read.
-/

namespace SecurityAudit

namespace Finding

/-- The states that may follow a state. -/
def successors : (status : String) → List String
  | "open" => ["confirmed", "false_positive"]
  | "confirmed" => ["mitigated", "accepted_risk"]
  | _ => []

/-- No state may follow. -/
def isTerminal (f : Finding) : Bool :=
  (successors f.status).isEmpty

/-- Why a finding is not changed. -/
inductive Problem where
  | invalidTransition (id status : String) (target : Value)
  | readOnly (field : String)
  deriving Inhabited

/-- The message of a problem. -/
def Problem.message : Problem → String
  | .invalidTransition id status target =>
    id ++ ": cannot move from " ++ Text.quoted status ++ " to " ++ target.quoted
  | .readOnly field => "Finding." ++ field ++ " is read-only"

/-- Move a finding to another state. -/
def transition (f : Finding) (target : Value) : Except (Fault Problem) Finding :=
  if !target.isKey then refuse .wrongKind
  else
    match target.text?.filter (successors f.status).contains with
    | some status => .ok { f with status }
    | none => failAbout target (.invalidTransition f.id f.status target)

/-- The fields that a finding is made with. -/
def fields : List String :=
  ["id", "rule_id", "title", "description", "severity", "category", "location", "evidence",
    "remediation", "cvss", "references", "cwe", "cve", "entropy", "status", "detected_at"]

/-- What is computed from the fields under a name of its own. -/
def derivedFields : List String :=
  ["file", "line", "is_terminal"]

/-- Attach a new name to a finding that has the names in `attached` already: the names with the new
one.  A name can be attached once, and the name of a field never. -/
def attach (attached : List String) (name : String) : Except (Fault Problem) (List String) :=
  if fields.contains name || attached.contains name then fail (.readOnly name)
  else if derivedFields.contains name then refuse .noOperation
  else .ok (name :: attached)

end Finding

end SecurityAudit
