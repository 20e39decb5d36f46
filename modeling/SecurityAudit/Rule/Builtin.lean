import SecurityAudit.Rule.Builtin.Input
import SecurityAudit.Rule.Builtin.Protection
import SecurityAudit.Rule.Builtin.Secrets
import SecurityAudit.Rule.Load

/-!
# The built-in catalog

The rules, secret patterns and dangerous actions that every catalog starts from, and the catalog of
an audit: the built-in rules, the custom rules of a project, and the choice of the settings.
-/

namespace SecurityAudit

namespace Builtin

/-- All rules. -/
def rules : List Rule :=
  injectionRules ++ xssRules ++ authRules ++ dataRules ++ accessRules ++ misconfigurationRules ++
    ssrfRules

/-- Actions with which a principal can raise its own privileges. -/
def dangerousActions : List String :=
  ["iam:CreateUser",
    "iam:CreateAccessKey",
    "iam:CreateLoginProfile",
    "iam:UpdateLoginProfile",
    "iam:AttachUserPolicy",
    "iam:AttachRolePolicy",
    "iam:AttachGroupPolicy",
    "iam:PutUserPolicy",
    "iam:PutRolePolicy",
    "iam:PutGroupPolicy",
    "iam:CreatePolicyVersion",
    "iam:SetDefaultPolicyVersion",
    "iam:UpdateAssumeRolePolicy",
    "iam:PassRole",
    "sts:AssumeRole",
    "s3:PutBucketPolicy",
    "s3:PutBucketAcl",
    "kms:PutKeyPolicy",
    "lambda:AddPermission",
    "iam.serviceAccountKeys.create",
    "iam.serviceAccounts.actAs",
    "resourcemanager.projects.setIamPolicy",
    "Microsoft.Authorization/roleAssignments/write",
    "Microsoft.Authorization/roleDefinitions/write"]

/-- The builder of a catalog before custom rules. -/
def builder : CatalogBuilder where
  rules := rules
  secrets := secretPatterns
  actions := dangerousActions.map .text
  enable := []
  disable := []

end Builtin

/-- A project: its files, and the directory in which it lies. -/
structure Project where
  tree : Tree
  root : Path

namespace CatalogBuilder

/-- Load the custom rules of a project, from the directory that the settings name. -/
def loadCustom (s : Settings) (p : Project) : Step Unit := do
  let name ← (orRefuse .wrongKind s.rules.customDir.text? : Rule.Reading String)
  let _ ← loadDirectory p.tree (p.root.append (.ofString name))

/-- Load the custom rules of a project, if there is one, and apply the settings. -/
def prepare (s : Settings) (project : Option Project) : Step Unit := do
  match project with
  | none => pure ()
  | some p => loadCustom s p
  applySettings s

end CatalogBuilder

/-- The catalog of an audit. -/
def Catalog.ofSettings (s : Settings) (project : Option Project) : Rule.Reading Catalog :=
  match (CatalogBuilder.prepare s project).run.run Builtin.builder with
  | (.ok (), b) => .ok b.build
  | (.error f, _) => .error f

end SecurityAudit
