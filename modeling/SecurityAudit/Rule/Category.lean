import SecurityAudit.Cvss.Metrics

/-!
# Categories of rules

The classes of vulnerabilities that rules look for.  Each has metrics that hold for a rule of its
class unless the rule brings its own.
-/

namespace SecurityAudit

/-- A class of vulnerabilities. -/
inductive Category where
  | injection
  | xss
  | brokenAuth
  | sensitiveData
  | brokenAccessControl
  | misconfiguration
  | ssrf
  deriving Repr, DecidableEq, Inhabited

namespace Category

/-- All categories. -/
def all : List Category :=
  [.injection, .xss, .brokenAuth, .sensitiveData, .brokenAccessControl, .misconfiguration, .ssrf]

/-- The label of a category. -/
def label : Category → String
  | .injection => "injection"
  | .xss => "xss"
  | .brokenAuth => "broken_auth"
  | .sensitiveData => "sensitive_data"
  | .brokenAccessControl => "broken_access_control"
  | .misconfiguration => "security_misconfiguration"
  | .ssrf => "ssrf"

/-- The category of a label. -/
def ofLabel? (label : String) : Option Category :=
  all.find? (·.label == label)

/-- The metrics of a category. -/
def metrics : Category → Cvss.Metrics
  -- Remote and unauthenticated, with read and write access to the data behind.
  | .injection => { confidentiality := .high, integrity := .high }
  -- A victim has to load the page, and the impact leaves the application.
  | .xss => { interaction := .required, scope := .changed, confidentiality := .low,
              integrity := .low }
  | .brokenAuth => { confidentiality := .high }
  -- An attack needs interception or work offline.
  | .sensitiveData => { attackComplexity := .high, confidentiality := .high }
  | .brokenAccessControl => { privileges := .low, confidentiality := .high, integrity := .high }
  | .misconfiguration => { confidentiality := .low, integrity := .low }
  -- Leads on to services inside.
  | .ssrf => { scope := .changed, confidentiality := .low, integrity := .low }

end Category

end SecurityAudit
