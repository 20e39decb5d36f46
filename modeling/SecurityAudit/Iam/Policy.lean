import SecurityAudit.Calendar.IsoText
import SecurityAudit.Value.Text

/-!
# Policies

A policy is a list of permissions.  A permission allows or denies an action on a resource, possibly
under a condition.
-/

namespace SecurityAudit.Iam

/-- Whether a permission allows or denies. -/
inductive Effect where
  | allow
  | deny
  deriving Repr, DecidableEq, Inhabited

/-- The label of an effect. -/
def Effect.label : Effect → String
  | .allow => "allow"
  | .deny => "deny"

/-- One permission.  A condition that says nothing is none. -/
structure Permission where
  action : String
  resource : String
  effect : Effect := .allow
  condition : Value := .mapping []
  deriving Inhabited

namespace Permission

/-- The permission allows its action. -/
def allows (p : Permission) : Bool :=
  p.effect == .allow

/-- The permission holds under a condition only. -/
def hasCondition (p : Permission) : Bool :=
  p.condition.holds

end Permission

/-- A policy, with the moment when it was last used, if that is known. -/
structure Policy where
  name : RawText
  provider : RawText
  permissions : List Permission
  lastUsed : Option Calendar.Moment

/-- Where the findings about a policy are. -/
def Policy.location (p : Policy) : RawText :=
  "iam://" ++ p.provider ++ "/" ++ p.name

end SecurityAudit.Iam
