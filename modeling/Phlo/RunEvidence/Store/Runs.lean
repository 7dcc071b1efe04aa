import Phlo.RunEvidence.Store.Records

/-!
# Writing runs and event bundles

`upsertRun` is the INSERT ... ON CONFLICT DO UPDATE of a run, `mergeRun` its CASE expressions: a higher
attempt replaces the execution columns, a lower one is ignored, and a write of the stored attempt
fills in what is missing without leaving a terminal status.

`appendEvent` stores an event with the records derived from it in one transaction; a transaction ends
with the deferred foreign keys of the quality table.
-/

namespace Phlo.RunEvidence

open Phlo.Library

/-- The clocks a call reads: `CURRENT_TIMESTAMP` of the database and `datetime.now(UTC)`. -/
structure Clock where
  currentTimestamp : Timestamp
  utcNow : Timestamp

/-! ### Runs -/

def runRow (clock : Clock) (run : PipelineRun) : PipelineRunRow where
  projectId := run.projectId
  runId := run.runId
  pipelineName := text run.pipelineName
  providerRunId := text run.providerRunId
  trigger := text run.trigger
  initiator := text run.initiator
  effectiveIdentity := text run.effectiveIdentity
  partitionKey := text run.partitionKey
  codeVersion := text run.codeVersion
  configVersion := text run.configVersion
  attempt := run.attempt
  traceId := text run.traceId
  status := run.status
  startedAt := run.startedAt
  finishedAt := run.finishedAt
  failureSummary := text run.failureSummary
  evidenceCompleteness := run.evidenceCompleteness
  createdAt := clock.currentTimestamp
  updatedAt := clock.currentTimestamp

/-- `CASE WHEN EXCLUDED.attempt > existing.attempt THEN new WHEN EXCLUDED.attempt < existing.attempt
THEN old ELSE same END` -/
def byAttempt {α : Type} (existing excluded : PipelineRunRow) (new old same : α) : α :=
  if excluded.attempt > existing.attempt then new
  else if excluded.attempt < existing.attempt then old
  else same

/-- A column of the execution attempt that the stored attempt only fills in. -/
def attemptColumn (existing excluded : PipelineRunRow) (column : PipelineRunRow → Option String) : Option String :=
  byAttempt existing excluded (column excluded) (column existing)
    ((column existing).or (column excluded))

/-- `existing_run.evidence_completeness IN ('complete', 'expired', 'redacted') AND
EXCLUDED.evidence_completeness = 'incomplete'` -/
def keepsCompleteness (existing excluded : EvidenceCompleteness) : Bool :=
  (existing == .complete || existing == .expired || existing == .redacted) &&
    excluded == .incomplete

/-- The `DO UPDATE SET` of `_upsert_run`. -/
def mergeRun (clock : Clock) (excluded existing : PipelineRunRow) : PipelineRunRow :=
  let terminal := existing.status.isSqlTerminal
  { existing with
    pipelineName := existing.pipelineName.or excluded.pipelineName
    providerRunId := existing.providerRunId.or excluded.providerRunId
    trigger := existing.trigger.or excluded.trigger
    initiator := existing.initiator.or excluded.initiator
    partitionKey := existing.partitionKey.or excluded.partitionKey
    effectiveIdentity := attemptColumn existing excluded (·.effectiveIdentity)
    codeVersion := attemptColumn existing excluded (·.codeVersion)
    configVersion := attemptColumn existing excluded (·.configVersion)
    startedAt := byAttempt existing excluded excluded.startedAt existing.startedAt
      (existing.startedAt.or excluded.startedAt)
    attempt := if existing.attempt > excluded.attempt then existing.attempt else excluded.attempt
    status := byAttempt existing excluded excluded.status existing.status
      (if terminal then existing.status else excluded.status)
    traceId := attemptColumn existing excluded (·.traceId)
    finishedAt := byAttempt existing excluded excluded.finishedAt existing.finishedAt
      (if terminal then existing.finishedAt.or excluded.finishedAt
        else excluded.finishedAt.or existing.finishedAt)
    failureSummary := byAttempt existing excluded excluded.failureSummary existing.failureSummary
      (if terminal then existing.failureSummary.or excluded.failureSummary
        else excluded.failureSummary.or existing.failureSummary)
    evidenceCompleteness :=
      byAttempt existing excluded excluded.evidenceCompleteness existing.evidenceCompleteness
        (if terminal then existing.evidenceCompleteness
          else if keepsCompleteness existing.evidenceCompleteness excluded.evidenceCompleteness then
            existing.evidenceCompleteness
          else excluded.evidenceCompleteness)
    updatedAt := clock.currentTimestamp }

theorem mergeRun_key (clock : Clock) (excluded existing : PipelineRunRow) :
    (mergeRun clock excluded existing).key = existing.key := rfl

/-- `_upsert_run` -/
def upsertRun (s : Store) (clock : Clock) (run : PipelineRun) : Store :=
  let row := runRow clock run
  { s with runs := s.runs.upsert row (mergeRun clock row) (mergeRun_key clock row) }

/-! ### Transactions -/

/-- The deferred foreign keys of a quality row: its stage and its failure artifact exist. -/
def Store.referencesExist (s : Store) (row : QualityResultRow) : Bool :=
  (row.stageId.all fun stageId => (s.stages.find (row.projectId, row.runId, stageId)).isSome) &&
    row.failureArtifactId.all fun artifactId =>
      (s.artifacts.find (row.projectId, row.runId, artifactId)).isSome

/-- `connection.commit()` -/
def commit (s : Store) : Except StoreError Store := do
  require (s.qualityResults.rows.all s.referencesExist = true) .integrityError
  return s

/-- `append_pipeline_run` -/
def appendPipelineRun (s : Store) (clock : Clock) (run : PipelineRun) : Except StoreError Store :=
  commit (upsertRun s clock run)

/-- `append_stage` -/
def appendStage (s : Store) (stage : RunStage) : Except StoreError Store := do
  lockRun s stage.projectId stage.runId
  let s ← insertStage s stage
  commit s

/-- `append_resource` -/
def appendResource (s : Store) (r : RunResource) : Except StoreError Store := do
  lockRun s r.projectId r.runId
  let s ← insertResource s r
  commit s

/-- `append_lineage_edge` -/
def appendLineageEdge (s : Store) (e : RunLineageEdge) : Except StoreError Store := do
  lockRun s e.projectId e.runId
  let s ← insertLineage s e
  commit s

/-- `append_quality_result` -/
def appendQualityResult (s : Store) (q : RunQualityResult) : Except StoreError Store := do
  lockRun s q.projectId q.runId
  let s ← insertQuality s q
  commit s

/-- `append_catalog_change` -/
def appendCatalogChange (s : Store) (c : RunCatalogChange) : Except StoreError Store := do
  lockRun s c.projectId c.runId
  let s ← insertCatalogChange s c
  commit s

/-- `append_artifact` -/
def appendArtifact (s : Store) (a : RunArtifact) : Except StoreError Store := do
  lockRun s a.projectId a.runId
  let s ← insertArtifact s a
  commit s

/-! ### Event bundles -/

/-- The arguments of `append_event`. -/
structure EventBundle where
  event : RunEvent
  run : Option PipelineRun := none
  stage : Option RunStage := none
  qualityResult : Option RunQualityResult := none
  lineageEdges : List RunLineageEdge := []
  resources : List RunResource := []
  catalogChange : Option RunCatalogChange := none
  artifacts : List RunArtifact := []

namespace EventBundle

variable (b : EventBundle)

/-- `validate_object`: the record belongs to the run and attempt of the event. -/
def validateObject (label projectId runId : String) (attempt : ℕ) (objectId : Option String) :
    Except StoreError Unit := do
  require (projectId = b.event.projectId ∧ runId = b.event.runId)
    (.valueError s!"{label} crossed project/run boundaries")
  require (attempt = b.event.attempt) (.valueError s!"{label} crossed attempt boundaries")
  match objectId with
  | some objectId => requireId s!"{label}_id" objectId
  | none => .ok ()

def stageIds : List String :=
  b.event.stageId.toList ++ (b.stage.map RunStage.stageId).toList ++
    (b.qualityResult.bind RunQualityResult.stageId).toList

/-- `_validate_append_event_inputs` -/
def validateInputs : Except StoreError Unit := do
  requireId "project_id" b.event.projectId
  requireId "run_id" b.event.runId
  requireId "event_id" b.event.eventId
  requireId "producer" b.event.producer
  b.run.forM fun r => b.validateObject "run" r.projectId r.runId r.attempt none
  b.stage.forM fun r => b.validateObject "stage" r.projectId r.runId r.attempt r.stageId
  b.qualityResult.forM fun r =>
    b.validateObject "quality_result" r.projectId r.runId r.attempt r.qualityResultId
  require (∀ x ∈ b.stageIds, ∀ y ∈ b.stageIds, x = y)
    (.valueError "optional evidence has conflicting stage identities")
  b.lineageEdges.forM fun r =>
    b.validateObject "lineage_edge" r.projectId r.runId r.attempt r.lineageEdgeId
  b.resources.forM fun r => b.validateObject "resource" r.projectId r.runId r.attempt r.resourceId
  b.catalogChange.forM fun r =>
    b.validateObject "catalog_change" r.projectId r.runId r.attempt r.catalogChangeId
  b.artifacts.forM fun r => b.validateObject "artifact" r.projectId r.runId r.attempt r.artifactId

/-- The row under the identity of the event: `_event_identity`. -/
def eventKey : String × String × String := (b.event.projectId, b.event.producer, b.event.eventId)

/-- `_validate_event_stage_references` -/
def validateStageReferences (s : Store) : Except StoreError Unit := do
  (b.event.stageId.toList ++ (b.qualityResult.bind RunQualityResult.stageId).toList).forM
    fun stageId => validateExistingStageAttempt s b.event.projectId b.event.runId stageId
      b.event.attempt .stageAttempt
  b.stage.forM (validateStageWriteReferences s)

/-- `_ensure_event_parent`: a missing parent is created without the data of the run. -/
def ensureParent (s : Store) (clock : Clock) : Except StoreError Store :=
  match s.runs.find (b.event.projectId, b.event.runId), b.run with
  | some _, _ => .ok s
  | none, none =>
    .error (.valueError s!"run {runName b.event.projectId b.event.runId} does not exist")
  | none, some run =>
    let parent : PipelineRunRow :=
      { projectId := b.event.projectId, runId := b.event.runId, attempt := run.attempt
        status := .running, evidenceCompleteness := .incomplete
        createdAt := clock.currentTimestamp, updatedAt := clock.currentTimestamp }
    .ok { s with runs := (s.runs.insertOrIgnore parent).1 }

/-- The records written with a new event. -/
def insertDerived (s : Store) (clock : Clock) : Except StoreError Store := do
  let s := b.run.elim s (upsertRun s clock)
  let s ← b.stage.toList.foldlM insertStage s
  let s ← b.qualityResult.toList.foldlM insertQuality s
  let s ← b.lineageEdges.foldlM insertLineage s
  let s ← b.resources.foldlM insertResource s
  let s ← b.catalogChange.toList.foldlM insertCatalogChange s
  b.artifacts.foldlM insertArtifact s

end EventBundle

/-- `append_event`; the flag is its result. -/
def appendEvent (s : Store) (clock : Clock) (b : EventBundle) : Except StoreError (Store × Bool) := do
  b.validateInputs
  -- a replay under another run is a conflict even when that run does not exist
  if (s.events.find b.eventKey).any (·.runId != b.event.runId) then
    let (s, inserted) ← insertEvent s b.event
    let s ← commit s
    return (s, inserted)
  else
    b.validateStageReferences s
    let s ← b.ensureParent s clock
    lockRun s b.event.projectId b.event.runId
    b.validateStageReferences s
    let known := (s.events.find b.eventKey).isSome
    let (s, inserted) ← insertEvent s b.event
    let inserted := !known && inserted
    let s ← (if inserted then b.insertDerived s clock else .ok s)
    let s ← commit s
    return (s, inserted)

end Phlo.RunEvidence
