import SecurityAudit.Cvss.Vector

/-!
# Problems with rules

The reasons for which rules and secret patterns are not accepted, and their messages.
-/

namespace SecurityAudit

/-- What a custom entry describes. -/
inductive EntryKind where
  | rule
  | secret
  deriving Repr, DecidableEq, Inhabited

/-- The words for an entry in messages. -/
def EntryKind.name : EntryKind → String
  | .rule => "rule"
  | .secret => "secret pattern"

namespace Rule

/-- Why rules are not accepted. -/
inductive Problem where
  | unreadableFile (path : String)
  | notAMapping (path : String)
  | missingKey (path : String) (kind : EntryKind) (key : String)
  | badVector (path : String) (p : Cvss.Problem)
  | unknownCategory (id category : Value)
  | windowTooSmall (id : Value)
  | malformedPattern (id : Value)
  | unknownSeverity (id severity : Value)
  deriving Inhabited

/-- The message of a problem. -/
def Problem.message : Problem → String
  | .unreadableFile path => "Failed to read custom rules " ++ path
  | .notAMapping path => path ++ ": each rule must be a mapping"
  | .missingKey path kind key =>
    path ++ ": " ++ kind.name ++ " is missing required key " ++ Text.quoted key
  | .badVector path p => path ++ ": invalid cvss vector: " ++ p.message
  | .unknownCategory id category =>
    "Rule " ++ id.shown ++ ": unknown category " ++ category.quoted
  | .windowTooSmall id => "Rule " ++ id.shown ++ ": window must be at least 1"
  | .malformedPattern id => "Rule " ++ id.shown ++ ": malformed pattern"
  | .unknownSeverity id severity =>
    "Secret pattern " ++ id.shown ++ ": invalid severity " ++ severity.quoted

end Rule

end SecurityAudit
