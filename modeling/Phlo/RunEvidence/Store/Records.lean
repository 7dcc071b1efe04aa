import Phlo.RunEvidence.Store.Rows

/-!
# Writing events, stages and immutable records

The private `_insert_...` helpers of the store.  An event and the five immutable families are inserted
unless their key is taken, and a taken key has to hold the same content; a stage that exists is
updated.  The attempt of a stage is checked against everything that refers to it, before or after the
write.
-/

namespace Phlo.RunEvidence

open Phlo.Library

def runName (projectId runId : String) : String := s!"{projectId}/{runId}"

/-- `_lock_run` -/
def lockRun (s : Store) (projectId runId : String) : Except StoreError Unit :=
  require ((s.runs.find (projectId, runId)).isSome = true)
    (.valueError s!"run {runName projectId runId} does not exist")

/-! ### Stage references -/

/-- `_validate_existing_stage_attempt`; `mismatch` is the exception type. -/
def validateExistingStageAttempt (s : Store) (projectId runId stageId : String) (attempt : ℕ)
    (mismatch : String → StoreError) : Except StoreError Unit :=
  match s.stages.find (projectId, runId, stageId) with
  | some row => require (row.attempt = attempt) (mismatch
      s!"stage {runName projectId runId}/{stageId} has attempt {row.attempt}, expected {attempt}")
  | none => .ok ()

def eventAttempts (s : Store) (projectId runId stageId : String) : List ℕ :=
  (s.events.rows.filter fun row => row.projectId == projectId && row.runId == runId &&
    row.stageId == some stageId).map EventRow.attempt

def qualityAttempts (s : Store) (projectId runId stageId : String) : List ℕ :=
  (s.qualityResults.rows.filter fun row => row.projectId == projectId && row.runId == runId &&
    row.stageId == some stageId).map QualityResultRow.attempt

/-- The rows of `table` that name the stage carry its attempt. -/
def validateReferences (stage : RunStage) (table : String) (attempts : List ℕ) : Except StoreError Unit :=
  match attempts.filter (· != stage.attempt) with
  | [] => .ok ()
  | attempt :: _ => .error (.stageAttempt
      s!"stage {runName stage.projectId stage.runId}/{stage.stageId} attempt {stage.attempt} conflicts with {table} attempt {attempt}")

def validateStageWriteReferences (s : Store) (stage : RunStage) : Except StoreError Unit := do
  validateExistingStageAttempt s stage.projectId stage.runId stage.stageId stage.attempt
    .idempotencyConflict
  validateReferences stage "run_event"
    (eventAttempts s stage.projectId stage.runId stage.stageId)
  validateReferences stage "run_quality_result"
    (qualityAttempts s stage.projectId stage.runId stage.stageId)

/-! ### Events -/

/-- `redact_payload(event.payload)` -/
def redactedPayload (event : RunEvent) : Json := redactPayload none (.obj event.payload)

/-- The row `_insert_event` writes. -/
def eventRow (event : RunEvent) : EventRow where
  projectId := event.projectId
  runId := event.runId
  stageId := event.stageId
  eventId := event.eventId
  eventType := event.eventType
  schemaVersion := event.schemaVersion
  producer := event.producer
  observedAt := event.observedAt
  sequence := event.sequence
  attempt := event.attempt
  payload := canonicalJson (redactedPayload event)
  payloadChecksum := payloadChecksum (redactedPayload event)
  resourceIdentity := resourceIdentity event.resourceRef

/-- What a replayed event has to share with the stored one. -/
def EventRow.content (r : EventRow) : String × String × Option String × ℕ × Sha256 × Option Json :=
  (r.eventType, r.schemaVersion, r.stageId, r.attempt, r.payloadChecksum, r.resourceIdentity)

/-- `_insert_event`: the flag tells whether a row was added. -/
def insertEvent (s : Store) (event : RunEvent) : Except StoreError (Store × Bool) := do
  requireId "event_id" event.eventId
  requireId "producer" event.producer
  let row := eventRow event
  let (events, inserted) := s.events.insertOrIgnore row
  let stored := (events.find row.key).getD row
  require (stored.runId = event.runId)
    (.idempotencyConflict s!"event {event.producer}/{event.eventId} is correlated to another run")
  require (stored.content = row.content) (.idempotencyConflict
    s!"event {event.producer}/{event.eventId} was replayed with different attempt or payload")
  let s := { s with events }
  event.stageId.forM fun stageId =>
    validateExistingStageAttempt s event.projectId event.runId stageId event.attempt .stageAttempt
  return (s, inserted)

/-! ### Stages -/

def stageIdentity (stage : RunStage) : Dict :=
  [("stage_id", .str stage.stageId), ("project_id", .str stage.projectId),
    ("run_id", .str stage.runId), ("stage_type", .str stage.stageType),
    ("provider", .ofText stage.provider), ("tool", .ofText stage.tool),
    ("asset", .ofText stage.asset), ("attempt", .int stage.attempt)] ++
  (stage.resourceRef.map fun r => ("resource_ref", r.asDict)).toList

/-- The row `_insert_stage` writes. -/
def stageRow (stage : RunStage) : StageRow where
  stageId := stage.stageId
  projectId := stage.projectId
  runId := stage.runId
  stageType := stage.stageType
  provider := text stage.provider
  tool := text stage.tool
  asset := text stage.asset
  attempt := stage.attempt
  status := stage.status
  startedAt := stage.startedAt
  finishedAt := stage.finishedAt
  metrics := canonicalJson (.obj stage.metrics)
  error := text stage.error
  recordChecksum := payloadChecksum (.obj (stageIdentity stage))
  resourceIdentity := resourceIdentity stage.resourceRef

/-- The statuses SQL text lists as terminal; `canceled` is an alias no parsed status has. -/
def sqlTerminalStatuses : List String :=
  ["success", "failed", "error", "cancelled", "canceled", "skipped", "no_data", "abandoned"]

def RunStatus.isSqlTerminal (r : RunStatus) : Bool := sqlTerminalStatuses.contains r.value

theorem RunStatus.isSqlTerminal_eq (r : RunStatus) : r.isSqlTerminal = r.isTerminal := by
  cases r <;> rfl

/-- `status IN ('running', 'started', 'start')` -/
def RunStatus.isSqlStarting (r : RunStatus) : Bool :=
  ["running", "started", "start"].contains r.value

/-- The `UPDATE` of an existing stage: its identity and attempt stay, a terminal status and its
metrics are frozen, missing times and errors are filled in. -/
def updateStage (stage : RunStage) (row : StageRow) : StageRow :=
  { row with
    startedAt :=
      if row.startedAt.isSome then row.startedAt
      else if stage.status.isSqlStarting then stage.startedAt else row.startedAt
    status := if row.status.isSqlTerminal then row.status else stage.status
    finishedAt :=
      if row.status.isSqlTerminal then row.finishedAt.or stage.finishedAt
      else stage.finishedAt.or row.finishedAt
    metrics :=
      if row.status.isSqlTerminal then row.metrics else canonicalJson (.obj stage.metrics)
    error :=
      if row.status.isSqlTerminal then row.error.or (text stage.error)
      else (text stage.error).or row.error }

theorem updateStage_key (stage : RunStage) (row : StageRow) : (updateStage stage row).key = row.key := rfl

/-- `_insert_stage` -/
def insertStage (s : Store) (stage : RunStage) : Except StoreError Store := do
  requireId "stage_id" stage.stageId
  validateStageWriteReferences s stage
  let row := stageRow stage
  let (stages, inserted) := s.stages.insertOrIgnore row
  if inserted then return { s with stages }
  else
    require ((stages.find row.key).any (·.recordChecksum = row.recordChecksum))
      (.idempotencyConflict s!"stage {stage.projectId}/{stage.stageId} was replayed differently")
    return { s with stages := stages.update row.key (updateStage stage) (updateStage_key stage) }

/-! ### Immutable records -/

/-- `INSERT ... ON CONFLICT DO NOTHING` followed, when the key was taken, by `_confirm_immutable`. -/
def insertImmutable {α : Type} {key : α → String × String × String} (checksum : α → Sha256)
    (table : String) (t : KeyedTable key) (row : α) : Except StoreError (KeyedTable key) :=
  let (t, inserted) := t.insertOrIgnore row
  if inserted then .ok t
  else do
    require ((t.find (key row)).any fun stored => checksum stored = checksum row)
      (.idempotencyConflict
        s!"{table} {(key row).1}/{(key row).2.2} was replayed with different evidence")
    return t

/-- A field that a checksum payload leaves out when it is empty. -/
def optionalField (name : String) (v : Json) : Dict :=
  if v = .null ∨ v = .obj [] then [] else [(name, v)]

def refJson (r : Option ResourceRef) : Json := r.elim .null ResourceRef.asDict

def resourceChecksumPayload (r : RunResource) : Dict :=
  [("project_id", .str r.projectId), ("run_id", .str r.runId),
    ("resource_kind", .str r.resourceKind), ("role", .str r.role),
    ("normalized_identity", .ofText r.normalizedIdentity), ("uri", .ofText r.uri),
    ("table_name", .ofText r.tableName), ("catalog", .ofText r.catalog),
    ("ref_name", .ofText r.refName), ("schema_hash", .ofText r.schemaHash),
    ("watermark", .ofText r.watermark), ("record_count", .ofInt r.recordCount),
    ("byte_count", .ofInt r.byteCount), ("staged_objects", .arr r.stagedObjects),
    ("snapshot_before", .ofText r.snapshotBefore), ("snapshot_after", .ofText r.snapshotAfter),
    ("attempt", .int r.attempt)] ++
  optionalField "schema_hash_before" (.ofText r.schemaHashBefore) ++
  optionalField "schema_hash_after" (.ofText r.schemaHashAfter) ++
  optionalField "metadata" (.obj r.metadata) ++
  optionalField "resource_ref" (refJson r.resourceRef)

def resourceRow (r : RunResource) : ResourceRow where
  resourceId := r.resourceId
  projectId := r.projectId
  runId := r.runId
  attempt := r.attempt
  resourceKind := r.resourceKind
  role := r.role
  normalizedIdentity := text r.normalizedIdentity
  uri := text r.uri
  tableName := text r.tableName
  catalog := text r.catalog
  refName := text r.refName
  schemaHash := text r.schemaHash
  schemaHashBefore := text r.schemaHashBefore
  schemaHashAfter := text r.schemaHashAfter
  watermark := text r.watermark
  recordCount := r.recordCount
  byteCount := r.byteCount
  stagedObjects := canonicalJson (.arr r.stagedObjects)
  snapshotBefore := text r.snapshotBefore
  snapshotAfter := text r.snapshotAfter
  metadata := canonicalJson (.obj r.metadata)
  recordChecksum := payloadChecksum (.obj (resourceChecksumPayload r))
  resourceIdentity := resourceIdentity r.resourceRef

/-- `_insert_resource` -/
def insertResource (s : Store) (r : RunResource) : Except StoreError Store := do
  requireId "resource_id" r.resourceId
  let resources ←
    insertImmutable ResourceRow.recordChecksum "run_resource" s.resources (resourceRow r)
  return { s with resources }

def lineageChecksumPayload (e : RunLineageEdge) : Dict :=
  [("project_id", .str e.projectId), ("run_id", .str e.runId), ("source", .str e.source),
    ("target", .str e.target), ("column_mapping", .obj e.columnMapping), ("origin", .str e.origin),
    ("derivation", .str e.derivation), ("confidence", e.confidence.elim .null .float)] ++
  (if e.attempt = 1 then [] else [("attempt", .int e.attempt)]) ++
  (e.sourceResourceRef.map fun r => ("source_resource_ref", r.asDict)).toList ++
  (e.targetResourceRef.map fun r => ("target_resource_ref", r.asDict)).toList

def lineageEdgeRow (e : RunLineageEdge) : LineageEdgeRow where
  lineageEdgeId := e.lineageEdgeId
  projectId := e.projectId
  runId := e.runId
  attempt := e.attempt
  source := redactText e.source
  target := redactText e.target
  columnMapping := canonicalJson (.obj e.columnMapping)
  origin := redactText e.origin
  derivation := redactText e.derivation
  confidence := e.confidence
  recordChecksum := payloadChecksum (.obj (lineageChecksumPayload e))
  sourceResourceIdentity := resourceIdentity e.sourceResourceRef
  targetResourceIdentity := resourceIdentity e.targetResourceRef

/-- `_insert_lineage` -/
def insertLineage (s : Store) (e : RunLineageEdge) : Except StoreError Store := do
  requireId "lineage_edge_id" e.lineageEdgeId
  let lineageEdges ←
    insertImmutable LineageEdgeRow.recordChecksum "run_lineage_edge" s.lineageEdges
      (lineageEdgeRow e)
  return { s with lineageEdges }

def qualityChecksumPayload (q : RunQualityResult) : Dict :=
  [("project_id", .str q.projectId), ("run_id", .str q.runId), ("check_id", .str q.checkId),
    ("asset", .ofText q.asset), ("stage_id", .ofText q.stageId), ("severity", .ofText q.severity),
    ("blocking", .bool q.blocking), ("passed", .bool q.passed),
    ("evaluated_count", .ofInt q.evaluatedCount), ("failed_count", .ofInt q.failedCount),
    ("failure_artifact_id", .ofText q.failureArtifactId), ("metadata", .obj q.metadata),
    ("attempt", .int q.attempt)] ++
  (q.resourceRef.map fun r => ("resource_ref", r.asDict)).toList

def qualityResultRow (q : RunQualityResult) : QualityResultRow where
  qualityResultId := q.qualityResultId
  projectId := q.projectId
  runId := q.runId
  attempt := q.attempt
  stageId := q.stageId
  checkId := redactText q.checkId
  asset := text q.asset
  severity := text q.severity
  blocking := q.blocking
  passed := q.passed
  evaluatedCount := q.evaluatedCount
  failedCount := q.failedCount
  failureArtifactId := text q.failureArtifactId
  metadata := canonicalJson (.obj q.metadata)
  recordChecksum := payloadChecksum (.obj (qualityChecksumPayload q))
  resourceIdentity := resourceIdentity q.resourceRef

/-- `_insert_quality` -/
def insertQuality (s : Store) (q : RunQualityResult) : Except StoreError Store := do
  requireId "quality_result_id" q.qualityResultId
  q.stageId.forM fun stageId =>
    validateExistingStageAttempt s q.projectId q.runId stageId q.attempt .stageAttempt
  let qualityResults ←
    insertImmutable QualityResultRow.recordChecksum "run_quality_result" s.qualityResults
      (qualityResultRow q)
  return { s with qualityResults }

def catalogChecksumPayload (c : RunCatalogChange) : Dict :=
  [("project_id", .str c.projectId), ("run_id", .str c.runId), ("operation", .str c.operation),
    ("catalog_ref", .ofText c.catalogRef), ("content_key", .ofText c.contentKey),
    ("source_hash", .ofText c.sourceHash), ("target_hash", .ofText c.targetHash),
    ("commit_hash", .ofText c.commitHash), ("commit_message", .ofText c.commitMessage),
    ("merge_outcome", .ofText c.mergeOutcome), ("snapshot_before", .ofText c.snapshotBefore),
    ("snapshot_after", .ofText c.snapshotAfter), ("metadata", .obj c.metadata),
    ("attempt", .int c.attempt)] ++
  (c.qualityDecisionId.map fun id => ("quality_decision_id", Json.str id)).toList ++
  (c.resourceRef.map fun r => ("resource_ref", r.asDict)).toList

def catalogChangeRow (c : RunCatalogChange) : CatalogChangeRow where
  catalogChangeId := c.catalogChangeId
  projectId := c.projectId
  runId := c.runId
  attempt := c.attempt
  catalogRef := text c.catalogRef
  contentKey := text c.contentKey
  operation := redactText c.operation
  sourceHash := text c.sourceHash
  targetHash := text c.targetHash
  commitHash := text c.commitHash
  commitMessage := text c.commitMessage
  mergeOutcome := text c.mergeOutcome
  snapshotBefore := text c.snapshotBefore
  snapshotAfter := text c.snapshotAfter
  qualityDecisionId := text c.qualityDecisionId
  metadata := canonicalJson (.obj c.metadata)
  recordChecksum := payloadChecksum (.obj (catalogChecksumPayload c))
  resourceIdentity := resourceIdentity c.resourceRef

def insertCatalogChange (s : Store) (c : RunCatalogChange) : Except StoreError Store := do
  requireId "catalog_change_id" c.catalogChangeId
  let catalogChanges ←
    insertImmutable CatalogChangeRow.recordChecksum "run_catalog_change" s.catalogChanges
      (catalogChangeRow c)
  return { s with catalogChanges }

def artifactChecksumPayload (a : RunArtifact) : Dict :=
  [("project_id", .str a.projectId), ("run_id", .str a.runId),
    ("artifact_kind", .str a.artifactKind), ("uri", .ofText a.uri),
    ("content_type", .ofText a.contentType), ("checksum", .ofText a.checksum),
    ("retention_class", .ofText a.retentionClass), ("expires_at", .ofInstant a.expiresAt),
    ("legal_hold", .bool a.legalHold), ("status", .str a.status.value),
    ("attempt", .int a.attempt)] ++
  (a.resourceRef.map fun r => ("resource_ref", r.asDict)).toList

def artifactRow (a : RunArtifact) : ArtifactRow where
  artifactId := a.artifactId
  projectId := a.projectId
  runId := a.runId
  attempt := a.attempt
  artifactKind := redactText a.artifactKind
  uri := text a.uri
  contentType := text a.contentType
  checksum := text a.checksum
  retentionClass := text a.retentionClass
  expiresAt := a.expiresAt
  legalHold := a.legalHold
  status := a.status
  recordChecksum := payloadChecksum (.obj (artifactChecksumPayload a))
  resourceIdentity := resourceIdentity a.resourceRef

/-- `_insert_artifact` -/
def insertArtifact (s : Store) (a : RunArtifact) : Except StoreError Store := do
  requireId "artifact_id" a.artifactId
  let artifacts ←
    insertImmutable ArtifactRow.recordChecksum "run_artifact" s.artifacts (artifactRow a)
  return { s with artifacts }

end Phlo.RunEvidence
