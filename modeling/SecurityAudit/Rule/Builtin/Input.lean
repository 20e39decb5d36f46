import SecurityAudit.Rule.Basic
import SecurityAudit.Pattern.Reader

/-!
# Rules on hostile input

Input that is taken for something else: for a query, a command or code, for markup, or for the
address of a request.
-/

namespace SecurityAudit.Builtin

/-! ## Rules on injection -/

/-- SQL Query Built by Concatenation. -/
def sqlInjectionConcat : Rule where
  id := .text "SQL_INJECTION_CONCAT"
  name := .text "SQL Query Built by Concatenation"
  description := .text (
    "SQL statement assembled with string concatenation or %-formatting before execution.")
  category := .injection
  cwe := "CWE-89"
  pattern := .literal (
    "(?i)\\b(?:execute|executemany|query|raw)\\s*\\(\\s*[\\\"'][^\\\"'\\n]\x7b0,200\x7d\\b(" ++
    "?:select|insert|update|delete)\\b[^\\\"'\\n]\x7b0,200\x7d[\\\"']\\s*(?:\\+|%)")
  remediation := .text (
    "Use parameterized queries or an ORM query builder; never interpolate input into SQL " ++
    "text.")
  metrics := Category.injection.metrics
  references := [.text "https://owasp.org/Top10/A03_2021-Injection/",
    .text "https://cwe.mitre.org/data/definitions/89.html"]
  filePatterns := none
  window := 1
  window_pos := Nat.one_pos

/-- SQL Query Built with Interpolation. -/
def sqlInjectionFstring : Rule where
  id := .text "SQL_INJECTION_FSTRING"
  name := .text "SQL Query Built with Interpolation"
  description := .text (
    "SQL statement built from an f-string or template literal with embedded expressions.")
  category := .injection
  cwe := "CWE-89"
  pattern := .literal (
    "(?i)\\b(?:execute|executemany|query|raw)\\s*\\(\\s*(?:f[\\\"']" ++
    "|\x60)[^\\\"'\x60\\n]\x7b0,200\x7d\\b(?:select|insert|update" ++
    "|delete)\\b[^\\\"'\x60\\n]\x7b0,200\x7d(?:\\\x7b|\\$\\\x7b)")
  remediation := .text (
    "Pass values as bound parameters instead of formatting them into the query string.")
  metrics := Category.injection.metrics
  references := [.text "https://owasp.org/Top10/A03_2021-Injection/"]
  filePatterns := none
  window := 1
  window_pos := Nat.one_pos

/-- SQL Query Concatenated Across Lines. -/
def sqlInjectionMultiline : Rule where
  id := .text "SQL_INJECTION_MULTILINE"
  name := .text "SQL Query Concatenated Across Lines"
  description := .text (
    "An execute() call whose SQL literal on the next line is concatenated with a variable.")
  category := .injection
  cwe := "CWE-89"
  pattern := .literal (
    "(?i)\\b(?:execute|query)\\s*\\(\\s*\\n\\s*[\\\"'][^\\\"'\\n]\x7b0,200\x7d\\b(?:select" ++
    "|insert|update|delete)\\b[^\\\"'\\n]\x7b0,200\x7d[\\\"']\\s*\\+")
  remediation := .text "Use parameterized queries; keep SQL text constant."
  metrics := Category.injection.metrics
  references := [.text "https://owasp.org/Top10/A03_2021-Injection/"]
  filePatterns := none
  window := 2
  window_pos := by decide

/-- Shell Command Execution. -/
def commandInjectionShell : Rule where
  id := .text "COMMAND_INJECTION_SHELL"
  name := .text "Shell Command Execution"
  description := .text (
    "Process spawned through a shell, where metacharacters in arguments are interpreted.")
  category := .injection
  cwe := "CWE-78"
  pattern := .literal (
    "\\bos\\.(?:system|popen)\\s*\\(|\\bsubprocess\\.\\w+\\s*\\([^)\\n]\x7b0,300\x7d\\bshel" ++
    "l\\s*=\\s*True|\\bchild_process\\.exec(?:Sync)?\\s*\\(" ++
    "|\\bRuntime\\.getRuntime\\(\\)\\.exec\\s*\\(")
  remediation := .text (
    "Invoke programs with an argument list and shell=False; validate arguments against an " ++
    "allowlist.")
  metrics := Category.injection.metrics
  references := [.text "https://owasp.org/Top10/A03_2021-Injection/",
    .text "https://cwe.mitre.org/data/definitions/78.html"]
  filePatterns := none
  window := 1
  window_pos := Nat.one_pos

/-- Dynamic Code Evaluation. -/
def codeInjectionEval : Rule where
  id := .text "CODE_INJECTION_EVAL"
  name := .text "Dynamic Code Evaluation"
  description := .text "eval()/exec()/new Function() executes strings as code."
  category := .injection
  cwe := "CWE-95"
  pattern := .literal "(?<![\\w.])(?:eval|exec)\\s*\\(|\\bnew\\s+Function\\s*\\("
  remediation := .text (
    "Remove dynamic evaluation; use a parser such as ast.literal_eval or JSON.parse for " ++
    "data.")
  metrics := Category.injection.metrics
  references := [.text "https://owasp.org/Top10/A03_2021-Injection/"]
  filePatterns := none
  window := 1
  window_pos := Nat.one_pos

/-- Unsafe Deserialization. -/
def insecureDeserialization : Rule where
  id := .text "INSECURE_DESERIALIZATION"
  name := .text "Unsafe Deserialization"
  description := .text "Deserializer that can instantiate arbitrary objects from untrusted bytes."
  category := .injection
  cwe := "CWE-502"
  pattern := .literal (
    "\\b(?:pickle|cPickle|marshal|shelve)\\.loads?\\s*\\(" ++
    "|\\byaml\\.load\\s*\\((?![^)\\n]\x7b0,200\x7dSafeLoader)|\\bunserialize\\s*\\(")
  remediation := .text "Deserialize untrusted data only with safe formats (JSON, yaml.safe_load)."
  metrics := Category.injection.metrics
  references := [.text "https://owasp.org/Top10/A08_2021-Software_and_Data_Integrity_Failures/"]
  filePatterns := none
  window := 1
  window_pos := Nat.one_pos

/-- NoSQL $where Clause. -/
def nosqlInjectionWhere : Rule where
  id := .text "NOSQL_INJECTION_WHERE"
  name := .text "NoSQL $where Clause"
  description := .text "MongoDB $where executes JavaScript on the server."
  category := .injection
  cwe := "CWE-943"
  pattern := .literal "[\\\"']\\$where[\\\"']\\s*:"
  remediation := .text "Replace $where with standard query operators."
  metrics := Category.injection.metrics
  references := [.text "https://owasp.org/Top10/A03_2021-Injection/"]
  filePatterns := none
  window := 1
  window_pos := Nat.one_pos

/-- Rules on injection. -/
def injectionRules : List Rule :=
  [sqlInjectionConcat,
    sqlInjectionFstring,
    sqlInjectionMultiline,
    commandInjectionShell,
    codeInjectionEval,
    insecureDeserialization,
    nosqlInjectionWhere]

/-! ## Rules on cross-site scripting -/

/-- React dangerouslySetInnerHTML. -/
def dangerousInnerHtml : Rule where
  id := .text "DANGEROUS_INNER_HTML"
  name := .text "React dangerouslySetInnerHTML"
  description := .text "Raw HTML injected into the DOM bypasses React's escaping."
  category := .xss
  cwe := "CWE-79"
  pattern := .literal "\\bdangerouslySetInnerHTML\\s*="
  remediation := .text (
    "Render text nodes instead, or sanitize with DOMPurify before injecting HTML.")
  metrics := Category.xss.metrics
  references := [.text "https://owasp.org/www-community/attacks/xss/"]
  filePatterns := some [.text "*.js", .text "*.jsx", .text "*.ts", .text "*.tsx"]
  window := 1
  window_pos := Nat.one_pos

/-- innerHTML Assignment. -/
def innerHtmlAssignment : Rule where
  id := .text "INNER_HTML_ASSIGNMENT"
  name := .text "innerHTML Assignment"
  description := .text "Assigning to innerHTML/outerHTML parses the value as markup."
  category := .xss
  cwe := "CWE-79"
  pattern := .literal "\\.(?:innerHTML|outerHTML)\\s*\\+?=(?!=)"
  remediation := .text "Use textContent, or sanitize the value before assignment."
  metrics := Category.xss.metrics
  references := [.text "https://owasp.org/www-community/attacks/xss/"]
  filePatterns := none
  window := 1
  window_pos := Nat.one_pos

/-- document.write Call. -/
def documentWrite : Rule where
  id := .text "DOCUMENT_WRITE"
  name := .text "document.write Call"
  description := .text "document.write() writes unescaped markup into the page."
  category := .xss
  cwe := "CWE-79"
  pattern := .literal "\\bdocument\\.write(?:ln)?\\s*\\("
  remediation := .text "Build DOM nodes explicitly instead of writing markup strings."
  metrics := Category.xss.metrics
  references := [.text "https://owasp.org/www-community/attacks/xss/"]
  filePatterns := none
  window := 1
  window_pos := Nat.one_pos

/-- Template Auto-Escaping Bypassed. -/
def templateAutoescapeBypass : Rule where
  id := .text "TEMPLATE_AUTOESCAPE_BYPASS"
  name := .text "Template Auto-Escaping Bypassed"
  description := .text "Template output marked safe or rendered with triple braces is not escaped."
  category := .xss
  cwe := "CWE-79"
  pattern := .literal (
    "\\|\\s*safe\\b|\\bmark_safe\\s*\\(" ++
    "|\\\x7b\\\x7b\\\x7b[^\x7d\\n]\x7b1,200\x7d\\\x7d\\\x7d\\\x7d" ++
    "|\\bautoescape\\s+false\\b")
  remediation := .text (
    "Keep auto-escaping enabled; sanitize any value that must be rendered as HTML.")
  metrics := Category.xss.metrics
  references := [.text "https://owasp.org/www-community/attacks/xss/"]
  filePatterns := none
  window := 1
  window_pos := Nat.one_pos

/-- Rules on cross-site scripting. -/
def xssRules : List Rule :=
  [dangerousInnerHtml,
    innerHtmlAssignment,
    documentWrite,
    templateAutoescapeBypass]

/-! ## Rules on forged server-side requests -/

/-- Outbound Request to Request-Supplied URL. -/
def ssrfHttpClient : Rule where
  id := .text "SSRF_HTTP_CLIENT"
  name := .text "Outbound Request to Request-Supplied URL"
  description := .text "An HTTP client is called with a URL taken from the incoming request."
  category := .ssrf
  cwe := "CWE-918"
  pattern := .literal (
    "\\b(?:requests|httpx|axios|http|https|urllib\\.request)\\.(?:get|post|put|patch" ++
    "|delete|head|request|urlopen)\\s*\\(\\s*(?:url\\s*=\\s*)?(?:request|req)\\.(?:args" ++
    "|params|query|GET|POST|form|body|values)\\b")
  remediation := .text (
    "Validate the destination against an allowlist of hosts and block private address " ++
    "ranges.")
  metrics := Category.ssrf.metrics
  references := [.text "https://owasp.org/Top10/A10_2021-Server-Side_Request_Forgery_%28SSRF%29/"]
  filePatterns := none
  window := 1
  window_pos := Nat.one_pos

/-- urlopen/fetch on Request Input. -/
def ssrfUrlopen : Rule where
  id := .text "SSRF_URLOPEN"
  name := .text "urlopen/fetch on Request Input"
  description := .text "urlopen() or fetch() called with a value derived from the request."
  category := .ssrf
  cwe := "CWE-918"
  pattern := .literal (
    "\\b(?:urlopen|fetch)\\s*\\(\\s*(?:request|req)\\.(?:args|params|query|GET|POST|form" ++
    "|body|values)\\b")
  remediation := .text "Resolve and validate the target host before issuing the request."
  metrics := Category.ssrf.metrics
  references := [.text "https://owasp.org/Top10/A10_2021-Server-Side_Request_Forgery_%28SSRF%29/"]
  filePatterns := none
  window := 1
  window_pos := Nat.one_pos

/-- Cloud Metadata Endpoint Reference. -/
def cloudMetadataEndpoint : Rule where
  id := .text "CLOUD_METADATA_ENDPOINT"
  name := .text "Cloud Metadata Endpoint Reference"
  description := .text (
    "Code reaches the instance metadata service, a common SSRF pivot for credential theft.")
  category := .ssrf
  cwe := "CWE-918"
  pattern := .literal "\\b169\\.254\\.169\\.254\\b|\\bmetadata\\.google\\.internal\\b"
  remediation := .text "Block metadata addresses in outbound request filters and require IMDSv2."
  metrics := Category.ssrf.metrics
  references := [.text "https://owasp.org/Top10/A10_2021-Server-Side_Request_Forgery_%28SSRF%29/"]
  filePatterns := none
  window := 1
  window_pos := Nat.one_pos

/-- Rules on forged server-side requests. -/
def ssrfRules : List Rule :=
  [ssrfHttpClient,
    ssrfUrlopen,
    cloudMetadataEndpoint]

end SecurityAudit.Builtin
