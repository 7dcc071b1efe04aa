import Phlo.Api.PreviewFilters
import Phlo.Audit.ChainCoverage
import Phlo.Audit.HonestChains
import Phlo.Capabilities.Authorization
import Phlo.Compliance.PackVerification
import Phlo.Compose.ServiceFiles
import Phlo.Controls.AtMostOnce
import Phlo.Controls.AuditRotation
import Phlo.Controls.MutationExclusion
import Phlo.Controls.RateLimit
import Phlo.Dataset.OverlayEntries
import Phlo.Dataset.Policy
import Phlo.Dataset.Replay
import Phlo.Helpers.CorrectionChains
import Phlo.Helpers.EffectiveDates
import Phlo.Helpers.Supersession
import Phlo.Iceberg.AppendOnlyHistory
import Phlo.Iceberg.MergeToTable
import Phlo.Identity.Bridge
import Phlo.Identity.Membership
import Phlo.Identity.Signatures
import Phlo.Lineage.LoadedGraph
import Phlo.Maintenance.OwnedInventory
import Phlo.Operations.BackupAgreement
import Phlo.Operations.RestoreOnce
import Phlo.Operations.UpgradeOnce
import Phlo.Operations.UpgradeRemedies
import Phlo.Pagination.Cursors
import Phlo.Promotion.AbortExclusion
import Phlo.Promotion.AtomicReleases
import Phlo.Publishing.CopyTable
import Phlo.Rbac.DocumentsKept
import Phlo.Rbac.MinioGrants
import Phlo.Rbac.RoleHierarchy
import Phlo.Rbac.TrinoConverges
import Phlo.RunEvidence.ChronologicalPages
import Phlo.RunEvidence.EvidencePrecedence
import Phlo.RunEvidence.Idempotence
import Phlo.RunEvidence.ImmutableRecords
import Phlo.RunEvidence.ObserverTotal
import Phlo.RunEvidence.ProfileOrder
import Phlo.RunEvidence.RecordIdentity
import Phlo.RunEvidence.RowOrder
import Phlo.RunEvidence.SinkVerdicts
import Phlo.RunEvidence.TenantIsolation
import Phlo.RunEvidence.UpsertsCommute
import Phlo.RunEvidence.VerdictSoundness
import Phlo.SchemaMigration.PlannedUpdate
import Phlo.SchemaMigration.Residue
import Phlo.Services.MigrationKeepsFiles
import Phlo.Wap.CleanupGate
