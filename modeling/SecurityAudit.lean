import SecurityAudit.Finding.Lifecycle
import SecurityAudit.Main
import SecurityAudit.Proofs.OrderIndependence
import SecurityAudit.Proofs.Disclosure
import SecurityAudit.Proofs.SharedBudget
import SecurityAudit.Proofs.Coverage
import SecurityAudit.Proofs.Limit
import SecurityAudit.Proofs.Isolation
import SecurityAudit.Proofs.Encoded
import SecurityAudit.Proofs.Deadline
import SecurityAudit.Proofs.Decomposition
import SecurityAudit.Proofs.Disabling
import SecurityAudit.Proofs.Canonical
import SecurityAudit.Proofs.Verdict
import SecurityAudit.Proofs.WellFormed
import SecurityAudit.Proofs.BoundedLines
import SecurityAudit.Proofs.CheckedSettings
import SecurityAudit.Proofs.CustomRules
import SecurityAudit.Proofs.ExitStatus
import SecurityAudit.Proofs.DistinctFindings
import SecurityAudit.Proofs.PolicyForms
import SecurityAudit.Proofs.FullWildcards
import SecurityAudit.Proofs.Partition
import SecurityAudit.Proofs.ScannedFiles
import SecurityAudit.Proofs.ReportConsistency
import SecurityAudit.Proofs.PermissionFindings
import SecurityAudit.Proofs.StatementExpansion
import SecurityAudit.Proofs.WidenedGrants
import SecurityAudit.Proofs.VectorStyles
import SecurityAudit.Proofs.Staleness
import SecurityAudit.Proofs.WindowedMatching
import SecurityAudit.Proofs.LocalMatching
import SecurityAudit.Proofs.Exposures
import SecurityAudit.Proofs.MaskedSecrets
import SecurityAudit.Proofs.MarkerGrammar
import SecurityAudit.Proofs.CatalogHistory
import SecurityAudit.Proofs.RiskScores
import SecurityAudit.Proofs.ExcludedFiles
import SecurityAudit.Proofs.Lifecycle
import SecurityAudit.Proofs.Precedence
import SecurityAudit.Proofs.PolicyFiles
import SecurityAudit.Proofs.CollectedFiles
import SecurityAudit.Proofs.Construction
import SecurityAudit.Proofs.TidyEvidence
import SecurityAudit.Proofs.BlankRuns
