import Phlo.RunEvidence.Store.Runs

/-!
# Reconciling an observation

`reconcileObservation` ingests a provider observation, reads the evidence of the run back, evaluates
it and stores the decision; a decision that is new updates the run.  The steps of the source are
functions of their own: `ingestObservation`, `insertObservationRecords`, `readEvidence`,
`insertReconciliationDecision`, `applyDecision`.

The SELECTs that read the evidence have no ORDER BY.  A `Scan` says in which order they return their
rows; any order is allowed.
-/

namespace Phlo.RunEvidence

open Phlo.Library

/-- A reordering of rows. -/
structure RowOrder (α : Type) where
  apply : List α → List α
  perm : ∀ l, (apply l).Perm l

def RowOrder.insertion {α : Type} : RowOrder α := ⟨id, fun l => List.Perm.refl l⟩

/-- The order in which each table is read. -/
structure Scan where
  events : RowOrder EventRow := .insertion
  stages : RowOrder StageRow := .insertion
  resources : RowOrder ResourceRow := .insertion
  catalogChanges : RowOrder CatalogChangeRow := .insertion
  qualityResults : RowOrder QualityResultRow := .insertion
  artifacts : RowOrder ArtifactRow := .insertion

/-- The arguments of `reconcile_observation`. -/
structure ReconcileRequest where
  observation : RunObservation
  profile : RequiredEvidenceProfile
  now : Timestamp
  staleAfter : Option ℤ := none
  clockSkew : ℤ := 60000000

/-! ### Ingesting the observation -/

/-- `a or b` on optional texts -/
def orText (a b : Option String) : Option String := if truthy a then a else b

/-- The observation of a run the provider no longer has: the stored run stands in for it. -/
def absentObservation (o : RunObservation) (row : PipelineRunRow) : RunObservation :=
  { o with
    attempt := max o.attempt row.attempt
    pipelineName := orText o.pipelineName row.pipelineName
    providerRunId := orText o.providerRunId row.providerRunId
    status := some row.status
    startedAt := row.startedAt.map Timestamp.canonical
    finishedAt := row.finishedAt.map Timestamp.canonical
    heartbeatAt := row.lastHeartbeatAt.map Timestamp.canonical
    attempt_pos := lt_of_lt_of_le o.attempt_pos (le_max_left _ _)
    timestamps_aware := by
      rw [canonical_all_aware, canonical_all_aware, canonical_all_aware]
      rfl }

def observedRun (o : RunObservation) : PipelineRun where
  projectId := o.projectId
  runId := o.runId
  pipelineName := o.pipelineName
  providerRunId := o.providerRunId
  attempt := o.attempt
  status := o.status.getD .running
  startedAt := o.startedAt
  finishedAt := o.finishedAt
  evidenceCompleteness := o.evidenceState.getD .incomplete
  attempt_pos := o.attempt_pos

def ingestObservation (s : Store) (clock : Clock) (o : RunObservation) : Except StoreError (Store × RunObservation) :=
  match o.lookupOutcome with
  | .present => .ok (upsertRun s clock (observedRun o), o)
  | .absent =>
    match s.runs.find (o.projectId, o.runId) with
    | some row => .ok (s, absentObservation o row)
    | none => .error (.runEvidenceNotFound
        s!"provider has no durable run {runName o.projectId o.runId}")

def insertObservedEvent (o : RunObservation) (s : Store) (event : RunEvent) : Except StoreError Store := do
  require (event.projectId = o.projectId ∧ event.runId = o.runId)
    (.valueError "event source crossed project/run boundaries")
  require (event.attempt = o.attempt) (.valueError "event source crossed attempt boundaries")
  let (s, _) ← insertEvent s event
  return s

def insertObservedStage (o : RunObservation) (s : Store) (stage : RunStage) : Except StoreError Store := do
  require (stage.projectId = o.projectId ∧ stage.runId = o.runId)
    (.valueError "stage source crossed project/run boundaries")
  require (stage.attempt = o.attempt) (.valueError "stage source crossed attempt boundaries")
  insertStage s stage

def insertObservationRecords (s : Store) (o : RunObservation) : Except StoreError Store :=
  match o.lookupOutcome with
  | .absent => .ok s
  | .present => do
    let s ← o.events.foldlM (insertObservedEvent o) s
    o.stages.foldlM (insertObservedStage o) s

/-! ### Reading the evidence -/

def selectRun {α : Type} (order : RowOrder α) (projectId runId : α → String) (o : RunObservation)
    (rows : List α) : List α :=
  order.apply (rows.filter fun row => projectId row == o.projectId && runId row == o.runId)

def selectAttempt {α : Type} (order : RowOrder α) (projectId runId : α → String) (attempt : α → ℕ)
    (o : RunObservation) (rows : List α) : List α :=
  order.apply (rows.filter fun row =>
    projectId row == o.projectId && runId row == o.runId && attempt row == o.attempt)

/-- The arguments of the evaluation: the rows of the run are selected and validated. -/
def readEvidence (s : Store) (scan : Scan) (q : ReconcileRequest) (o : RunObservation) :
    Except StoreError ReconciliationInput := do
  let resources ← (selectAttempt scan.resources ResourceRow.projectId ResourceRow.runId
    ResourceRow.attempt o s.resources.rows).mapM ResourceRow.parse
  let catalogChanges ← (selectAttempt scan.catalogChanges CatalogChangeRow.projectId
    CatalogChangeRow.runId CatalogChangeRow.attempt o s.catalogChanges.rows).mapM
      CatalogChangeRow.parse
  let qualityResults ← (selectAttempt scan.qualityResults QualityResultRow.projectId
    QualityResultRow.runId QualityResultRow.attempt o s.qualityResults.rows).mapM
      QualityResultRow.parse
  let artifacts ← (selectAttempt scan.artifacts ArtifactRow.projectId ArtifactRow.runId
    ArtifactRow.attempt o s.artifacts.rows).mapM ArtifactRow.parse
  let eventRows ← (selectRun scan.events EventRow.projectId EventRow.runId o s.events.rows).mapM
    EventRow.parse
  let stageRows ← (selectRun scan.stages StageRow.projectId StageRow.runId o s.stages.rows).mapM
    StageRow.parse
  return {
    observation := o
    profile := q.profile
    eventRows := eventRows
    stageRows := stageRows
    recordRows := [("resource", resources), ("catalog_change", catalogChanges),
      ("quality_result", qualityResults), ("artifact", artifacts)]
    now := q.now
    staleAfter := q.staleAfter
    clockSkew := q.clockSkew }

/-! ### Storing the decision -/

/-- What `record_checksum` of a decision digests. -/
def decisionPayload (d : ReconciliationDecision) : Dict :=
  [("decision_id", d.decisionId.json),
    ("project_id", .str d.projectId),
    ("run_id", .str d.runId),
    ("attempt", .int d.attempt),
    ("profile_id", .str d.profileId),
    ("profile_version", .str d.profileVersion),
    ("status", .str d.status.value),
    ("evidence_completeness", .str d.evidenceCompleteness.value),
    ("reason", .str d.reason),
    ("missing_evidence", .ofTexts d.missingEvidence),
    ("evidence_checksum", d.evidenceChecksum.json),
    ("source", .str d.source),
    ("heartbeat_at", .ofInstant d.heartbeatAt),
    ("stale_after_seconds", .ofInt d.staleAfterSeconds),
    ("observed_event_count", .int d.observedEventCount),
    ("finished_at", .ofInstant d.finishedAt)]

def decisionRow (d : ReconciliationDecision) : DecisionRow where
  decisionId := d.decisionId
  projectId := d.projectId
  runId := d.runId
  attempt := d.attempt
  profileId := d.profileId
  profileVersion := d.profileVersion
  status := d.status
  evidenceCompleteness := d.evidenceCompleteness
  reason := redactText d.reason
  missingEvidence := d.missingEvidence.map redactText
  evidenceChecksum := d.evidenceChecksum
  observedEventCount := d.observedEventCount
  source := redactText d.source
  heartbeatAt := d.heartbeatAt
  staleAfterSeconds := d.staleAfterSeconds
  decidedAt := d.decidedAt
  finishedAt := d.finishedAt
  recordChecksum := payloadChecksum (.obj (decisionPayload d))

/-- `_decision_from_row` -/
def decisionFromRow (r : DecisionRow) : ReconciliationDecision where
  decisionId := r.decisionId
  projectId := r.projectId
  runId := r.runId
  attempt := r.attempt
  profileId := r.profileId
  profileVersion := r.profileVersion
  status := r.status
  evidenceCompleteness := r.evidenceCompleteness
  reason := r.reason
  missingEvidence := r.missingEvidence
  evidenceChecksum := r.evidenceChecksum
  observedEventCount := r.observedEventCount
  source := r.source
  heartbeatAt := r.heartbeatAt.map Timestamp.canonical
  staleAfterSeconds := r.staleAfterSeconds
  decidedAt := r.decidedAt.canonical
  finishedAt := r.finishedAt.map Timestamp.canonical

/-- `_insert_reconciliation_decision`: the decision to return, and whether it is new. -/
def insertReconciliationDecision (s : Store) (d : ReconciliationDecision) :
    Except StoreError (Store × ReconciliationDecision × Bool) := do
  let row := decisionRow d
  let (decisions, inserted) := s.decisions.insertOrIgnore row
  if inserted then return ({ s with decisions }, d, true)
  else
    let stored := (decisions.find row.key).getD row
    require (stored.recordChecksum = row.recordChecksum)
      (.idempotencyConflict "reconciliation decision conflicted")
    return ({ s with decisions }, decisionFromRow stored, false)

/-! ### Updating the run -/

/-- `_restore_run_updated_at` -/
def restoreUpdatedAt (s : Store) (projectId runId : String) (updatedAt : Timestamp) : Store :=
  { s with runs :=
      s.runs.update (projectId, runId) (fun row => { row with updatedAt }) fun _ => rfl }

/-- The columns a new decision on an absent run writes. -/
def markReconciled (clock : Clock) (d : ReconciliationDecision) (row : PipelineRunRow) : PipelineRunRow :=
  { row with
    evidenceCompleteness := d.evidenceCompleteness
    reconciledAt := some d.decidedAt
    reconciliationReason := some (redactText d.reason)
    updatedAt := clock.utcNow }

/-- A terminal status stored for the attempt wins over a contradicting one. -/
def contradictsStored (current : PipelineRunRow) (o : RunObservation) (d : ReconciliationDecision) : Bool :=
  current.attempt == o.attempt && current.status.isTerminal && d.status.isTerminal &&
    d.status != current.status

/-- The decision writes the run: its attempt is not lower than the stored one, and a terminal run is
not sent back to running, incomplete or abandoned. -/
def writesRun (current : PipelineRunRow) (o : RunObservation) (d : ReconciliationDecision) : Bool :=
  current.attempt ≤ o.attempt &&
    !(current.attempt == o.attempt && current.status.isTerminal &&
      (d.status == .running || d.status == .incomplete || d.status == .abandoned))

/-- The columns a new decision on a present run writes; `current` is the row the decision was
evaluated with. -/
def decideRun (clock : Clock) (current : PipelineRunRow) (o : RunObservation)
    (d : ReconciliationDecision) (row : PipelineRunRow) : PipelineRunRow :=
  if row.attempt = o.attempt then
    { row with
      status := if contradictsStored current o d then current.status else d.status
      finishedAt :=
        if contradictsStored current o d then current.finishedAt.map Timestamp.canonical
        else d.finishedAt
      evidenceCompleteness := d.evidenceCompleteness
      lastHeartbeatAt := d.heartbeatAt
      reconciledAt := some d.decidedAt
      reconciliationReason := some (redactText d.reason)
      updatedAt := clock.utcNow }
  else row

theorem decideRun_key (clock : Clock) (current : PipelineRunRow) (o : RunObservation)
    (d : ReconciliationDecision) (row : PipelineRunRow) : (decideRun clock current o d row).key = row.key := by
  unfold decideRun
  split
  · rfl
  · rfl

def applyDecision (s : Store) (clock : Clock) (current : PipelineRunRow) (o : RunObservation)
    (d : ReconciliationDecision) : Store :=
  match o.lookupOutcome with
  | .absent =>
    { s with runs :=
        s.runs.update (o.projectId, o.runId) (markReconciled clock d) fun _ => rfl }
  | .present =>
    if writesRun current o d then
      { s with runs := s.runs.update (o.projectId, o.runId) (decideRun clock current o d)
                (decideRun_key clock current o d) }
    else s

/-! ### `reconcile_observation` -/

/-- The store and the evidence an observation is evaluated on. -/
structure Ingested where
  store : Store
  observation : RunObservation
  current : PipelineRunRow
  evidence : ReconciliationInput

/-- The part of `reconcile_observation` before the evaluation. -/
def ingest (s : Store) (clock : Clock) (scan : Scan) (q : ReconcileRequest) : Except StoreError Ingested := do
  let (s, o) ← ingestObservation s clock q.observation
  lockRun s o.projectId o.runId
  let s ← insertObservationRecords s o
  let evidence ← readEvidence s scan q o
  match s.runs.find (o.projectId, o.runId) with
  | some current => return ⟨s, o, current, evidence⟩
  | none => .error (.valueError s!"run {runName o.projectId o.runId} does not exist")

/-- `reconcile_observation` -/
def reconcileObservation (s : Store) (clock : Clock) (scan : Scan) (q : ReconcileRequest) :
    Except StoreError (Store × ReconciliationDecision) := do
  let before := s.runs.find (q.observation.projectId, q.observation.runId)
  let i ← ingest s clock scan q
  let d ← (evaluateReconciliation i.evidence).mapError .valueError
  let (s, d, inserted) ← insertReconciliationDecision i.store d
  let s :=
    if inserted then applyDecision s clock i.current i.observation d
    else before.elim s fun row =>
      restoreUpdatedAt s i.observation.projectId i.observation.runId row.updatedAt.canonical
  let s ← commit s
  return (s, d)

end Phlo.RunEvidence
