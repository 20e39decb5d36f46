import SecurityAudit.Rule.Basic
import SecurityAudit.Pattern.Reader

/-!
# Secret patterns

Cloud keys, tokens, private keys and passwords.  Each pattern has an entropy that a match has to
reach.
-/

namespace SecurityAudit.Builtin

/-- AWS Access Key ID. -/
def awsAccessKey : SecretPattern where
  id := .text "AWS_ACCESS_KEY"
  name := .text "AWS Access Key ID"
  description := .text "AWS access key id (AKIA/ASIA prefix)."
  pattern := .literal (
    "(?:^|[^A-Za-z0-9])(?P<secret>(?:AKIA|ASIA)[0-9A-Z]\x7b16\x7d)(?:$|[^A-Za-z0-9])")
  severity := .critical
  entropyThreshold := 3.0

/-- AWS Secret Access Key. -/
def awsSecretKey : SecretPattern where
  id := .text "AWS_SECRET_KEY"
  name := .text "AWS Secret Access Key"
  description := .text "AWS secret access key assigned in code."
  pattern := .literal (
    "(?i)(?:aws_secret_access_key|aws_secret_key)\\s*[:=]\\s*['\\\"]?(?P<secret>[A-Za-z0-9/" ++
    "+=]\x7b40\x7d)['\\\"]?")
  severity := .critical
  entropyThreshold := 4.0

/-- GitHub Token. -/
def githubToken : SecretPattern where
  id := .text "GITHUB_TOKEN"
  name := .text "GitHub Token"
  description := .text "GitHub personal access / OAuth / app token (ghp_, gho_, ghu_, ghs_, ghr_)."
  pattern := .literal "(?P<secret>gh[pousr]_[A-Za-z0-9_]\x7b36,255\x7d)"
  severity := .critical
  entropyThreshold := 3.5

/-- GitLab Personal Access Token. -/
def gitlabToken : SecretPattern where
  id := .text "GITLAB_TOKEN"
  name := .text "GitLab Personal Access Token"
  description := .text "GitLab PAT (glpat- prefix)."
  pattern := .literal "(?P<secret>glpat-[A-Za-z0-9\\-_]\x7b20,\x7d)"
  severity := .critical
  entropyThreshold := 3.5

/-- Stripe Secret Key. -/
def stripeSecretKey : SecretPattern where
  id := .text "STRIPE_SECRET_KEY"
  name := .text "Stripe Secret Key"
  description := .text "Stripe live secret key."
  pattern := .literal "(?P<secret>sk_live_[A-Za-z0-9]\x7b24,\x7d)"
  severity := .critical
  entropyThreshold := 3.5

/-- Private Key. -/
def privateKey : SecretPattern where
  id := .text "PRIVATE_KEY"
  name := .text "Private Key"
  description := .text "PEM-encoded private key header (RSA, EC, DSA, OpenSSH, PGP)."
  pattern := .literal (
    "(?P<secret>-----BEGIN (?:RSA |EC |DSA |OPENSSH |PGP )?PRIVATE KEY(?: BLOCK)?-----)")
  severity := .critical
  entropyThreshold := 2.5

/-- Slack Token. -/
def slackToken : SecretPattern where
  id := .text "SLACK_TOKEN"
  name := .text "Slack Token"
  description := .text "Slack bot/user/workspace token."
  pattern := .literal (
    "(?P<secret>xox[bporsca]-[0-9]\x7b10,13\x7d-[0-9]\x7b10,13\x7d[a-zA-Z0-9-]*)")
  severity := .high
  entropyThreshold := 3.5

/-- Google API Key. -/
def googleApiKey : SecretPattern where
  id := .text "GOOGLE_API_KEY"
  name := .text "Google API Key"
  description := .text "Google Cloud / Maps API key (AIza prefix)."
  pattern := .literal "(?P<secret>AIza[0-9A-Za-z\\-_]\x7b35\x7d)"
  severity := .high
  entropyThreshold := 3.5

/-- JSON Web Token. -/
def jsonWebToken : SecretPattern where
  id := .text "JSON_WEB_TOKEN"
  name := .text "JSON Web Token"
  description := .text "Three-part base64url JWT."
  pattern := .literal (
    "(?P<secret>eyJ[A-Za-z0-9_-]\x7b10,\x7d\\.eyJ[A-Za-z0-9_-]\x7b10,\x7d\\.[A-Za-z0-9_-]+)")
  severity := .high
  entropyThreshold := 4.0

/-- Generic API Key Assignment. -/
def genericApiKey : SecretPattern where
  id := .text "GENERIC_API_KEY"
  name := .text "Generic API Key Assignment"
  description := .text "API key, secret or token assigned to a string literal."
  pattern := .literal (
    "(?i)(?:api[_-]?key|api[_-]?secret|api[_-]?token|access[_-]?token|auth[_-]?token" ++
    "|client[_-]?secret)\\s*[:=]\\s*['\\\"](?P<secret>[A-Za-z0-9_\\-./+=]\x7b16,\x7d)['\\\"" ++
    "]")
  severity := .high
  entropyThreshold := 3.5

/-- Hardcoded Password. -/
def hardcodedPassword : SecretPattern where
  id := .text "HARDCODED_PASSWORD"
  name := .text "Hardcoded Password"
  description := .text "Password assigned to a string literal."
  pattern := .literal (
    "(?i)\\b(?:password|passwd|pwd)\\s*[:=]\\s*['\\\"](?P<secret>[^'\\\"\\s]\x7b6,\x7d)['\\" ++
    "\"]")
  severity := .high
  entropyThreshold := 3.0

/-- Credentials in Connection String. -/
def connectionString : SecretPattern where
  id := .text "CONNECTION_STRING"
  name := .text "Credentials in Connection String"
  description := .text "Database or broker URL with an embedded password."
  pattern := .literal (
    "(?i)(?:mongodb(?:\\+srv)?|postgres(?:ql)?|mysql|redis|amqp" ++
    "|mssql)://[^:/\\s]+:(?P<secret>[^@\\s]\x7b6,\x7d)@[^\\s'\\\"]+")
  severity := .high
  entropyThreshold := 3.0

/-- Slack Webhook URL. -/
def slackWebhook : SecretPattern where
  id := .text "SLACK_WEBHOOK"
  name := .text "Slack Webhook URL"
  description := .text "Slack incoming webhook URL."
  pattern := .literal (
    "(?P<secret>https://hooks\\.slack\\.com/services/T[A-Za-z0-9]+/B[A-Za-z0-9]+/[A-Za-z0-9" ++
    "]+)")
  severity := .medium
  entropyThreshold := 3.5

/-- The secret patterns. -/
def secretPatterns : List SecretPattern :=
  [awsAccessKey,
    awsSecretKey,
    githubToken,
    gitlabToken,
    stripeSecretKey,
    privateKey,
    slackToken,
    googleApiKey,
    jsonWebToken,
    genericApiKey,
    hardcodedPassword,
    connectionString,
    slackWebhook]

end SecurityAudit.Builtin
