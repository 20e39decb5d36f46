import SecurityAudit.Settings.Basic
import SecurityAudit.Text.Blank

/-!
# Problems with settings

The reasons for which settings are not accepted, and their messages.
-/

namespace SecurityAudit.Settings

/-- Why settings are not accepted. -/
inductive Problem where
  | fileNotFound (path : String)
  | unreadableFile (path : String)
  | notATable (section_ : String)
  | maxFindingsNotANumber (text : String)
  | timeoutNotANumber (text : String)
  | unknownThreshold (level : Value)
  | unknownFailLevel (level : Value)
  | noScanTypes
  | unknownScanTypes (types : List String)
  | maxFindingsTooSmall
  | timeoutTooSmall
  | tooFewWorkers
  | linesTooShort
  | staleTooSoon
  | unknownFormat (format : Value)
  deriving Inhabited

/-- The message of a problem. -/
def Problem.message : Problem → String
  | .fileNotFound path => "Config file not found: " ++ path
  | .unreadableFile path => "Failed to parse " ++ path
  | .notATable section_ => "[" ++ section_ ++ "] must be a table"
  | .maxFindingsNotANumber text =>
    "VULNAUDIT_MAX_FINDINGS must be an integer: " ++ Text.quoted text
  | .timeoutNotANumber text => "VULNAUDIT_TIMEOUT must be a number: " ++ Text.quoted text
  | .unknownThreshold level =>
    "Invalid severity_threshold " ++ level.quoted ++ "; expected one of " ++
      Text.join ", " (Severity.thresholds.map Severity.label)
  | .unknownFailLevel level => "Invalid fail_on " ++ level.quoted
  | .noScanTypes => "scan_types must not be empty"
  | .unknownScanTypes types =>
    "Unknown scan type(s): " ++ Text.join ", " types ++ "; expected a subset of " ++
      Text.join ", " scanTypes
  | .maxFindingsTooSmall => "max_findings must be a positive integer"
  | .timeoutTooSmall => "timeout must be positive"
  | .tooFewWorkers => "workers must be at least 1"
  | .linesTooShort => "max_line_length must be at least 1"
  | .staleTooSoon => "stale_after_days must be at least 1"
  | .unknownFormat format => "Invalid output format " ++ format.quoted

end SecurityAudit.Settings
