import SecurityAudit.Rule.Basic
import SecurityAudit.Pattern.Reader

/-!
# Rules on missing protection

Protection that is weak, switched off or left out: of accounts, of data, of access and of services.
-/

namespace SecurityAudit.Builtin

/-! ## Rules on authentication -/

/-- JWT Signature Verification Disabled. -/
def jwtVerificationDisabled : Rule where
  id := .text "JWT_VERIFICATION_DISABLED"
  name := .text "JWT Signature Verification Disabled"
  description := .text (
    "Tokens are decoded without verifying their signature, or the 'none' algorithm is " ++
    "accepted.")
  category := .brokenAuth
  cwe := "CWE-347"
  pattern := .literal (
    "(?i)[\\\"']verify_signature[\\\"']\\s*:\\s*False" ++
    "|\\bverify\\s*=\\s*False[^\\n]\x7b0,80\x7d\\bjwt\\b" ++
    "|\\bjwt\\b[^\\n]\x7b0,80\x7d\\bverify\\s*=\\s*False" ++
    "|algorithms\\s*[=:]\\s*\\[\\s*[\\\"']none[\\\"']")
  remediation := .text (
    "Always verify token signatures with an explicit allowlist of strong algorithms.")
  metrics := Category.brokenAuth.metrics
  references := [.text "https://owasp.org/Top10/A07_2021-Identification_and_Authentication_Failures/"]
  filePatterns := none
  window := 1
  window_pos := Nat.one_pos

/-- Password Hashed with Fast Digest. -/
def weakPasswordHash : Rule where
  id := .text "WEAK_PASSWORD_HASH"
  name := .text "Password Hashed with Fast Digest"
  description := .text "Passwords hashed with MD5/SHA-1 can be brute-forced offline."
  category := .brokenAuth
  cwe := "CWE-916"
  pattern := .literal "(?i)\\bpass(?:word|wd)?\\w*[^\\n]\x7b0,60\x7d\\b(?:md5|sha1)\\b"
  remediation := .text "Hash passwords with bcrypt, scrypt or Argon2."
  metrics := Category.brokenAuth.metrics
  references := [.text "https://owasp.org/Top10/A07_2021-Identification_and_Authentication_Failures/"]
  filePatterns := none
  window := 1
  window_pos := Nat.one_pos

/-- Session Cookie Without Secure/HttpOnly. -/
def insecureSessionCookie : Rule where
  id := .text "INSECURE_SESSION_COOKIE"
  name := .text "Session Cookie Without Secure/HttpOnly"
  description := .text "Session cookies readable by scripts or sent over plaintext HTTP."
  category := .brokenAuth
  cwe := "CWE-1004"
  pattern := .literal (
    "\\bSESSION_COOKIE_(?:SECURE|HTTPONLY)\\s*=\\s*False|\\bhttpOnly\\s*:\\s*false" ++
    "|\\bsecure\\s*:\\s*false")
  remediation := .text "Set Secure, HttpOnly and SameSite on session cookies."
  metrics := Category.brokenAuth.metrics
  references := [.text "https://owasp.org/Top10/A07_2021-Identification_and_Authentication_Failures/"]
  filePatterns := none
  window := 1
  window_pos := Nat.one_pos

/-- Authentication Check Short-Circuited. -/
def authCheckBypassed : Rule where
  id := .text "AUTH_CHECK_BYPASSED"
  name := .text "Authentication Check Short-Circuited"
  description := .text "Authentication helper that unconditionally returns success."
  category := .brokenAuth
  cwe := "CWE-287"
  pattern := .literal (
    "(?i)\\bdef\\s+(?:is_authenticated|check_auth\\w*" ++
    "|authenticate\\w*)\\s*\\([^)\\n]\x7b0,120\x7d\\)\\s*(?:->\\s*\\w+\\s*)?:\\s*return\\s+" ++
    "True\\b")
  remediation := .text "Implement the credential check; never ship stubbed authentication."
  metrics := Category.brokenAuth.metrics
  references := [.text "https://owasp.org/Top10/A07_2021-Identification_and_Authentication_Failures/"]
  filePatterns := none
  window := 1
  window_pos := Nat.one_pos

/-- Rules on authentication. -/
def authRules : List Rule :=
  [jwtVerificationDisabled,
    weakPasswordHash,
    insecureSessionCookie,
    authCheckBypassed]

/-! ## Rules on sensitive data -/

/-- Weak Hash Algorithm. -/
def weakHashAlgorithm : Rule where
  id := .text "WEAK_HASH_ALGORITHM"
  name := .text "Weak Hash Algorithm"
  description := .text "MD5 and SHA-1 are broken for integrity and signature use."
  category := .sensitiveData
  cwe := "CWE-327"
  pattern := .literal (
    "\\bhashlib\\.(?:md5|sha1)\\s*\\(|\\bcreateHash\\s*\\(\\s*[\\\"'](?:md5|sha1)[\\\"']" ++
    "|\\bMessageDigest\\.getInstance\\s*\\(\\s*\\\"(?:MD5|SHA-?1)\\\"")
  remediation := .text "Use SHA-256 or stronger; use HMAC for message authentication."
  metrics := Category.sensitiveData.metrics
  references := [.text "https://owasp.org/Top10/A02_2021-Cryptographic_Failures/"]
  filePatterns := none
  window := 1
  window_pos := Nat.one_pos

/-- Predictable Random for Security Value. -/
def insecureRandom : Rule where
  id := .text "INSECURE_RANDOM"
  name := .text "Predictable Random for Security Value"
  description := .text "Tokens, nonces or salts drawn from a non-cryptographic PRNG."
  category := .sensitiveData
  cwe := "CWE-330"
  pattern := .literal (
    "(?i)\\b\\w*(?:token|secret|nonce|salt|otp)\\w*\\s*=[^\\n]\x7b0,60\x7d(?:\\brandom\\.(?" ++
    ":random|randint|choice|choices|getrandbits)\\b|\\bMath\\.random\\s*\\()")
  remediation := .text "Generate security values with the secrets module or crypto.randomBytes."
  metrics := Category.sensitiveData.metrics
  references := [.text "https://owasp.org/Top10/A02_2021-Cryptographic_Failures/"]
  filePatterns := none
  window := 1
  window_pos := Nat.one_pos

/-- Plaintext HTTP Endpoint. -/
def plaintextHttpUrl : Rule where
  id := .text "PLAINTEXT_HTTP_URL"
  name := .text "Plaintext HTTP Endpoint"
  description := .text "Hard-coded http:// URL to a non-local host sends data unencrypted."
  category := .sensitiveData
  cwe := "CWE-319"
  pattern := .literal (
    "[\\\"']http://(?!localhost\\b|127\\.0\\.0\\.1\\b|0\\.0\\.0\\.0\\b" ++
    "|\\[::1\\])[A-Za-z0-9.\\-]\x7b1,253\x7d[^\\\"'\\s]\x7b0,500\x7d[\\\"']")
  remediation := .text "Use https:// for every remote endpoint."
  metrics := Category.sensitiveData.metrics
  references := [.text "https://owasp.org/Top10/A02_2021-Cryptographic_Failures/"]
  filePatterns := none
  window := 1
  window_pos := Nat.one_pos

/-- Sensitive Value Written to Logs. -/
def sensitiveDataLogged : Rule where
  id := .text "SENSITIVE_DATA_LOGGED"
  name := .text "Sensitive Value Written to Logs"
  description := .text "Credentials or personal data passed to a logging or print call."
  category := .sensitiveData
  cwe := "CWE-532"
  pattern := .literal (
    "(?i)\\b(?:log(?:ger|ging)?\\.(?:debug|info|warning|warn|error|critical|exception)" ++
    "|print|console\\.log)\\s*\\([^)\\n]\x7b0,200\x7d\\b(?:password|passwd|secret|api_?key" ++
    "|ssn|credit_?card)\\b")
  remediation := .text "Never log secrets or personal data; log identifiers and mask values."
  metrics := Category.sensitiveData.metrics
  references := [.text "https://owasp.org/Top10/A09_2021-Security_Logging_and_Monitoring_Failures/"]
  filePatterns := none
  window := 1
  window_pos := Nat.one_pos

/-- Rules on sensitive data. -/
def dataRules : List Rule :=
  [weakHashAlgorithm,
    insecureRandom,
    plaintextHttpUrl,
    sensitiveDataLogged]

/-! ## Rules on access control -/

/-- File Path from Request Input. -/
def pathTraversal : Rule where
  id := .text "PATH_TRAVERSAL"
  name := .text "File Path from Request Input"
  description := .text "A file is opened or sent using a path taken directly from the request."
  category := .brokenAccessControl
  cwe := "CWE-22"
  pattern := .literal (
    "\\b(?:open|send_file|sendFile|readFile(?:Sync)?|os\\.path\\.join" ++
    "|path\\.join)\\s*\\([^)\\n]\x7b0,200\x7d\\b(?:request|req)\\.(?:args|params|query|GET" ++
    "|POST|form|body|values)\\b")
  remediation := .text "Resolve the path and verify it stays under an allowed base directory."
  metrics := Category.brokenAccessControl.metrics
  references := [.text "https://owasp.org/Top10/A01_2021-Broken_Access_Control/"]
  filePatterns := none
  window := 1
  window_pos := Nat.one_pos

/-- CSRF Protection Disabled. -/
def csrfProtectionDisabled : Rule where
  id := .text "CSRF_PROTECTION_DISABLED"
  name := .text "CSRF Protection Disabled"
  description := .text "View or application opts out of CSRF protection."
  category := .brokenAccessControl
  cwe := "CWE-352"
  pattern := .literal (
    "@csrf_exempt\\b|\\bWTF_CSRF_ENABLED\\s*=\\s*False|\\bcsrf\\(\\)\\.disable\\(\\)")
  remediation := .text "Keep CSRF protection enabled for state-changing endpoints."
  metrics := Category.brokenAccessControl.metrics
  references := [.text "https://owasp.org/Top10/A01_2021-Broken_Access_Control/"]
  filePatterns := none
  window := 1
  window_pos := Nat.one_pos

/-- Object Lookup by Request-Supplied Id. -/
def insecureDirectObjectReference : Rule where
  id := .text "INSECURE_DIRECT_OBJECT_REFERENCE"
  name := .text "Object Lookup by Request-Supplied Id"
  description := .text (
    "A record is fetched by an id from the request with no ownership check on the same " ++
    "line.")
  category := .brokenAccessControl
  cwe := "CWE-639"
  pattern := .literal (
    "\\.(?:get|get_object_or_404|filter|find_by_id|findById" ++
    "|findOne)\\s*\\([^)\\n]\x7b0,120\x7d\\b(?:request|req)\\.(?:args|params|query|GET" ++
    "|POST|form|body|values)\\b")
  remediation := .text (
    "Scope lookups to the authenticated principal (e.g. filter by owner) before returning " ++
    "data.")
  metrics := Category.brokenAccessControl.metrics
  references := [.text "https://owasp.org/Top10/A01_2021-Broken_Access_Control/"]
  filePatterns := none
  window := 1
  window_pos := Nat.one_pos

/-- Endpoint Open to Everyone. -/
def permitAll : Rule where
  id := .text "PERMIT_ALL"
  name := .text "Endpoint Open to Everyone"
  description := .text "Authorization explicitly disabled for a route or view."
  category := .brokenAccessControl
  cwe := "CWE-284"
  pattern := .literal (
    "\\bpermitAll\\s*\\(\\)|\\bpermission_classes\\s*=\\s*[\\[(]\\s*AllowAny\\b" ++
    "|@PermitAll\\b")
  remediation := .text "Require authentication and an explicit role or permission check."
  metrics := Category.brokenAccessControl.metrics
  references := [.text "https://owasp.org/Top10/A01_2021-Broken_Access_Control/"]
  filePatterns := none
  window := 1
  window_pos := Nat.one_pos

/-- Rules on access control. -/
def accessRules : List Rule :=
  [pathTraversal,
    csrfProtectionDisabled,
    insecureDirectObjectReference,
    permitAll]

/-! ## Rules on configuration -/

/-- Debug Mode Enabled. -/
def debugEnabled : Rule where
  id := .text "DEBUG_ENABLED"
  name := .text "Debug Mode Enabled"
  description := .text "Debug mode exposes stack traces and interactive consoles."
  category := .misconfiguration
  cwe := "CWE-489"
  pattern := .literal (
    "^\\s*DEBUG\\s*=\\s*True\\b|\\.run\\s*\\([^)\\n]\x7b0,200\x7d\\bdebug\\s*=\\s*True")
  remediation := .text (
    "Drive debug mode from environment configuration and keep it off in production.")
  metrics := Category.misconfiguration.metrics
  references := [.text "https://owasp.org/Top10/A05_2021-Security_Misconfiguration/"]
  filePatterns := none
  window := 1
  window_pos := Nat.one_pos

/-- CORS Allows Any Origin. -/
def corsWildcard : Rule where
  id := .text "CORS_WILDCARD"
  name := .text "CORS Allows Any Origin"
  description := .text "Cross-origin requests accepted from every origin."
  category := .misconfiguration
  cwe := "CWE-942"
  pattern := .literal (
    "(?i)Access-Control-Allow-Origin[\\\"']?\\s*[:,]\\s*[\\\"']\\*[\\\"']" ++
    "|\\bCORS_ORIGIN_ALLOW_ALL\\s*=\\s*True|\\bCORS_ALLOW_ALL_ORIGINS\\s*=\\s*True" ++
    "|\\borigins?\\s*[:=]\\s*[\\\"']\\*[\\\"']")
  remediation := .text "Allow only the specific origins that need access."
  metrics := Category.misconfiguration.metrics
  references := [.text "https://owasp.org/Top10/A05_2021-Security_Misconfiguration/"]
  filePatterns := none
  window := 1
  window_pos := Nat.one_pos

/-- TLS Certificate Verification Disabled. -/
def tlsVerificationDisabled : Rule where
  id := .text "TLS_VERIFICATION_DISABLED"
  name := .text "TLS Certificate Verification Disabled"
  description := .text "Outbound TLS connections accept any certificate."
  category := .misconfiguration
  cwe := "CWE-295"
  pattern := .literal (
    "\\bverify\\s*=\\s*False\\b|\\brejectUnauthorized\\s*:\\s*false" ++
    "|\\bInsecureSkipVerify\\s*:\\s*true|\\bssl\\._create_unverified_context\\s*\\(" ++
    "|\\bCERT_NONE\\b")
  remediation := .text "Keep certificate verification on; pin a CA bundle if a private CA is used."
  metrics := Category.misconfiguration.metrics
  references := [.text "https://owasp.org/Top10/A05_2021-Security_Misconfiguration/"]
  filePatterns := none
  window := 1
  window_pos := Nat.one_pos

/-- Service Bound to All Interfaces. -/
def bindAllInterfaces : Rule where
  id := .text "BIND_ALL_INTERFACES"
  name := .text "Service Bound to All Interfaces"
  description := .text "Listening on 0.0.0.0 exposes the service on every network interface."
  category := .misconfiguration
  cwe := "CWE-1327"
  pattern := .literal "\\bhost\\s*[=:]\\s*[\\\"']0\\.0\\.0\\.0[\\\"']"
  remediation := .text (
    "Bind to localhost or a specific interface unless external exposure is intended.")
  metrics := Category.misconfiguration.metrics
  references := [.text "https://owasp.org/Top10/A05_2021-Security_Misconfiguration/"]
  filePatterns := none
  window := 1
  window_pos := Nat.one_pos

/-- Rules on configuration. -/
def misconfigurationRules : List Rule :=
  [debugEnabled,
    corsWildcard,
    tlsVerificationDisabled,
    bindAllInterfaces]

end SecurityAudit.Builtin
