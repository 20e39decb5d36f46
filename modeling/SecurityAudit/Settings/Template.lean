/-!
# A file to start with

The settings that are written for a project that has none: what holds anyway, explained line by
line, with some more exclusions.
-/

namespace SecurityAudit.Settings

/-- The lines of the file to start with. -/
def templateLines : List String := [
  "# vulnaudit configuration",
  "version = \"1.0\"",
  "",
  "[scan]",
  "scan_types = [\"all\"]          # owasp | secrets | iam | all",
  "severity_threshold = \"low\"    # low | medium | high | critical; report at or above",
  "fail_on = \"high\"              # CLI exits 1 on findings at or above this level",
  "# globs match the path or any trailing part of it: node_modules/* also skips " ++
    "web/node_modules/x.js",
  "exclusions = [\"node_modules/*\", \"vendor/*\", \"*.min.js\"]",
  "# max_findings = 500          # stop scanning further files once reached",
  "timeout = 300                 # seconds",
  "workers = 4",
  "max_line_length = 4096",
  "",
  "[rules]",
  "# enable = [\"SQL_INJECTION_CONCAT\"]   # empty = all enabled",
  "# disable = [\"DEBUG_ENABLED\"]",
  "custom_dir = \".vulnaudit-rules\"",
  "",
  "[secrets]",
  "skip_markers = [\"example\", \"placeholder\", \"dummy\"]",
  "skip_path_markers = [\"test\", \"spec\", \"mock\", \"fixture\"]",
  "",
  "[iam]",
  "stale_after_days = 90",
  "# extra_dangerous_actions = [\"kms:Decrypt\"]",
  "",
  "[output]",
  "format = \"terminal\"           # terminal | json",
  "show_summary = true"]

/-- The text of the file to start with. -/
def template : String :=
  String.join (templateLines.map (· ++ "\n"))

end SecurityAudit.Settings
