import Phlo.Library.Fallible
import Phlo.Library.KeyedTable
import Phlo.RunEvidence.Reconciliation

/-!
# The tables of the run-evidence store

One structure per table with all its columns, and `Store` with one keyed table for each: the keys are
the PRIMARY KEY and UNIQUE constraints of the schema.  Rows are kept in insertion order.

Timestamps are stored as they were given (`_timestamp`) and read back in UTC (`_canonical_timestamp`);
JSON columns hold canonical JSON, and text columns what `_text` leaves of a text.
-/

namespace Phlo.RunEvidence

open Phlo.Library

/-- `_resource_identity`: the canonical JSON of a resource reference. -/
def resourceIdentity (r : Option ResourceRef) : Option Json :=
  r.map fun r => canonicalJson r.asDict

structure PipelineRunRow where
  projectId : String
  runId : String
  pipelineName : Option String := none
  providerRunId : Option String := none
  trigger : Option String := none
  initiator : Option String := none
  effectiveIdentity : Option String := none
  partitionKey : Option String := none
  codeVersion : Option String := none
  configVersion : Option String := none
  attempt : ℕ
  traceId : Option String := none
  status : RunStatus
  startedAt : Option Timestamp := none
  finishedAt : Option Timestamp := none
  failureSummary : Option String := none
  evidenceCompleteness : EvidenceCompleteness
  createdAt : Timestamp
  updatedAt : Timestamp
  lastHeartbeatAt : Option Timestamp := none
  reconciledAt : Option Timestamp := none
  reconciliationReason : Option String := none
  deriving DecidableEq

structure EventRow where
  projectId : String
  runId : String
  stageId : Option String
  eventId : String
  eventType : String
  schemaVersion : String
  producer : String
  observedAt : Timestamp
  sequence : Option ℤ
  attempt : ℕ
  payload : Json
  payloadChecksum : Sha256
  resourceIdentity : Option Json
  deriving DecidableEq

structure StageRow where
  stageId : String
  projectId : String
  runId : String
  stageType : String
  provider : Option String
  tool : Option String
  asset : Option String
  attempt : ℕ
  status : RunStatus
  startedAt : Option Timestamp
  finishedAt : Option Timestamp
  metrics : Json
  error : Option String
  recordChecksum : Sha256
  resourceIdentity : Option Json
  deriving DecidableEq

structure ResourceRow where
  resourceId : String
  projectId : String
  runId : String
  attempt : ℕ
  resourceKind : String
  role : String
  normalizedIdentity : Option String
  uri : Option String
  tableName : Option String
  catalog : Option String
  refName : Option String
  schemaHash : Option String
  schemaHashBefore : Option String
  schemaHashAfter : Option String
  watermark : Option String
  recordCount : Option ℤ
  byteCount : Option ℤ
  stagedObjects : Json
  snapshotBefore : Option String
  snapshotAfter : Option String
  metadata : Json
  recordChecksum : Sha256
  resourceIdentity : Option Json
  deriving DecidableEq

structure LineageEdgeRow where
  lineageEdgeId : String
  projectId : String
  runId : String
  attempt : ℕ
  source : String
  target : String
  columnMapping : Json
  origin : String
  derivation : String
  confidence : Option String
  recordChecksum : Sha256
  sourceResourceIdentity : Option Json
  targetResourceIdentity : Option Json
  deriving DecidableEq

structure CatalogChangeRow where
  catalogChangeId : String
  projectId : String
  runId : String
  attempt : ℕ
  catalogRef : Option String
  contentKey : Option String
  operation : String
  sourceHash : Option String
  targetHash : Option String
  commitHash : Option String
  commitMessage : Option String
  mergeOutcome : Option String
  snapshotBefore : Option String
  snapshotAfter : Option String
  qualityDecisionId : Option String
  metadata : Json
  recordChecksum : Sha256
  resourceIdentity : Option Json
  deriving DecidableEq

structure QualityResultRow where
  qualityResultId : String
  projectId : String
  runId : String
  attempt : ℕ
  stageId : Option String
  checkId : String
  asset : Option String
  severity : Option String
  blocking : Bool
  passed : Bool
  evaluatedCount : Option ℤ
  failedCount : Option ℤ
  failureArtifactId : Option String
  metadata : Json
  recordChecksum : Sha256
  resourceIdentity : Option Json
  deriving DecidableEq

structure ArtifactRow where
  artifactId : String
  projectId : String
  runId : String
  attempt : ℕ
  artifactKind : String
  uri : Option String
  contentType : Option String
  checksum : Option String
  retentionClass : Option String
  expiresAt : Option Timestamp
  legalHold : Bool
  status : EvidenceCompleteness
  recordChecksum : Sha256
  resourceIdentity : Option Json
  deriving DecidableEq

structure DecisionRow where
  decisionId : Sha256
  projectId : String
  runId : String
  attempt : ℕ
  profileId : String
  profileVersion : String
  status : RunStatus
  evidenceCompleteness : EvidenceCompleteness
  reason : String
  missingEvidence : List String
  evidenceChecksum : Sha256
  observedEventCount : ℕ
  source : String
  heartbeatAt : Option Timestamp
  staleAfterSeconds : Option ℤ
  decidedAt : Timestamp
  finishedAt : Option Timestamp
  recordChecksum : Sha256
  deriving DecidableEq

/-! ### Keys -/

def PipelineRunRow.key (r : PipelineRunRow) : String × String := (r.projectId, r.runId)

/-- `UNIQUE (project_id, producer, event_id)`: not scoped to a run. -/
def EventRow.key (r : EventRow) : String × String × String := (r.projectId, r.producer, r.eventId)

def StageRow.key (r : StageRow) : String × String × String := (r.projectId, r.runId, r.stageId)

def ResourceRow.key (r : ResourceRow) : String × String × String :=
  (r.projectId, r.runId, r.resourceId)

def LineageEdgeRow.key (r : LineageEdgeRow) : String × String × String :=
  (r.projectId, r.runId, r.lineageEdgeId)

def CatalogChangeRow.key (r : CatalogChangeRow) : String × String × String :=
  (r.projectId, r.runId, r.catalogChangeId)

def QualityResultRow.key (r : QualityResultRow) : String × String × String :=
  (r.projectId, r.runId, r.qualityResultId)

def ArtifactRow.key (r : ArtifactRow) : String × String × String :=
  (r.projectId, r.runId, r.artifactId)

/-- `UNIQUE (project_id, decision_id)` -/
def DecisionRow.key (r : DecisionRow) : String × Sha256 := (r.projectId, r.decisionId)

@[ext] structure Store where
  runs : KeyedTable PipelineRunRow.key
  events : KeyedTable EventRow.key
  stages : KeyedTable StageRow.key
  resources : KeyedTable ResourceRow.key
  lineageEdges : KeyedTable LineageEdgeRow.key
  catalogChanges : KeyedTable CatalogChangeRow.key
  qualityResults : KeyedTable QualityResultRow.key
  artifacts : KeyedTable ArtifactRow.key
  decisions : KeyedTable DecisionRow.key

def Store.empty : Store where
  runs := .empty _
  events := .empty _
  stages := .empty _
  resources := .empty _
  lineageEdges := .empty _
  catalogChanges := .empty _
  qualityResults := .empty _
  artifacts := .empty _
  decisions := .empty _

/-- What a refused call raises. -/
inductive StoreError where
  | valueError (message : String)
  /-- The `ValueError` of a stage that is referred to at another attempt. -/
  | stageAttempt (message : String)
  | idempotencyConflict (message : String)
  | runEvidenceNotFound (message : String)
  | invalidRunEvidence (message : String)
  | integrityError
  deriving DecidableEq, Repr

/-- `_require_id` -/
def requireId (name value : String) : Except StoreError Unit :=
  require (isBlank value = false)
    (.valueError s!"{name} must be a stable non-empty identifier")

/-! ### Rows as the evaluator reads them -/

/-- `parse_stored_row(StoredEvent, row)` -/
def EventRow.parse (r : EventRow) : Except StoreError StoredEvent :=
  match EventPayload.parse r.payload with
  | some payload =>
    if h : storedRow r.projectId r.runId r.attempt = true ∧
        (r.eventId != "" && r.producer != "" && r.eventType != "") = true then
      .ok
        { projectId := r.projectId, runId := r.runId, attempt := r.attempt, eventId := r.eventId
          producer := r.producer, eventType := r.eventType, schemaVersion := r.schemaVersion
          stageId := r.stageId, observedAt := r.observedAt.canonical, sequence := r.sequence
          payload := payload, payloadChecksum := r.payloadChecksum, row_valid := h.1
          ids_valid := h.2, observedAt_aware := rfl }
    else .error (.invalidRunEvidence "invalid StoredEvent fields")
  | none => .error (.invalidRunEvidence "invalid StoredEvent fields")

theorem canonical_all_aware (t : Option Timestamp) : (t.map Timestamp.canonical).all Timestamp.aware = true := by
  cases t <;> rfl

/-- `parse_stored_row(StoredStage, row)` -/
def StageRow.parse (r : StageRow) : Except StoreError StoredStage :=
  if h : storedRow r.projectId r.runId r.attempt = true ∧ (r.stageId != "") = true then
    .ok
      { projectId := r.projectId, runId := r.runId, attempt := r.attempt, stageId := r.stageId
        stageType := r.stageType, provider := r.provider, tool := r.tool, asset := r.asset
        status := r.status, startedAt := r.startedAt.map Timestamp.canonical
        finishedAt := r.finishedAt.map Timestamp.canonical, metrics := r.metrics, error := r.error
        recordChecksum := r.recordChecksum, row_valid := h.1, ids_valid := h.2
        timestamps_aware := by rw [canonical_all_aware, canonical_all_aware]; rfl }
  else .error (.invalidRunEvidence "invalid StoredStage fields")

/-- The checks and columns all record families share; `model` is the name in the error. -/
def parseRecord (model projectId runId : String) (attempt : ℕ) (recordId : String)
    (recordChecksum : Sha256) (evidenceCompleteness : Option EvidenceCompleteness)
    (family : RecordFamily) : Except StoreError StoredRecord :=
  if h : storedRow projectId runId attempt = true ∧ (recordId != "") = true then
    .ok
      { projectId := projectId, runId := runId, attempt := attempt, recordId := recordId
        recordChecksum := recordChecksum, evidenceCompleteness := evidenceCompleteness
        family := family, row_valid := h.1, ids_valid := h.2 }
  else .error (.invalidRunEvidence s!"invalid {model} fields")

/-- `parse_stored_row(StoredResource, row)` -/
def ResourceRow.parse (r : ResourceRow) : Except StoreError StoredRecord :=
  match parseMetadata r.metadata with
  | some declared =>
    parseRecord "StoredResource" r.projectId r.runId r.attempt r.resourceId r.recordChecksum declared
      .resource
  | none => .error (.invalidRunEvidence "invalid StoredResource fields")

/-- `merge_outcome`, a literal or null. -/
def parseMergeOutcome (outcome : Option String) : Option (Option MergeOutcome) :=
  match outcome with
  | none => some none
  | some s => (MergeOutcome.ofValue s).map some

/-- `parse_stored_row(StoredCatalogChange, row)` -/
def CatalogChangeRow.parse (r : CatalogChangeRow) : Except StoreError StoredRecord :=
  match parseMetadata r.metadata, parseMergeOutcome r.mergeOutcome with
  | some declared, some outcome =>
    parseRecord "StoredCatalogChange" r.projectId r.runId r.attempt r.catalogChangeId
      r.recordChecksum declared (.catalogChange outcome)
  | _, _ => .error (.invalidRunEvidence "invalid StoredCatalogChange fields")

/-- `parse_stored_row(StoredQualityResult, row)` -/
def QualityResultRow.parse (r : QualityResultRow) : Except StoreError StoredRecord :=
  match parseMetadata r.metadata with
  | some declared =>
    parseRecord "StoredQualityResult" r.projectId r.runId r.attempt r.qualityResultId
      r.recordChecksum declared (.qualityResult r.passed)
  | none => .error (.invalidRunEvidence "invalid StoredQualityResult fields")

/-- `parse_stored_row(StoredArtifact, row)`: artifacts have no metadata column. -/
def ArtifactRow.parse (r : ArtifactRow) : Except StoreError StoredRecord :=
  parseRecord "StoredArtifact" r.projectId r.runId r.attempt r.artifactId r.recordChecksum none
    (.artifact r.status (r.expiresAt.map Timestamp.canonical) r.legalHold)

end Phlo.RunEvidence
