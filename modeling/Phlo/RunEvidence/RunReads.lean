import Phlo.Library.StateView
import Phlo.RunEvidence.SettledRow
import Phlo.RunEvidence.TimestampText

/-!
# Reading a project's evidence

The reads of the store that take a project: `get_run`, `list_events`, `list_stages`, the other
`list_...` methods, `count_events` and `read_run_attempt`.  Each selects rows of one run, orders them
by the columns of `_REPORT_ORDER_BY` and converts them with `_row_dict`.

`run_event` has a surrogate key, `id`, that counts its rows across all projects; a listed event carries
it.  The other columns the database fills in by itself are left out of the rows.
-/

namespace Phlo.RunEvidence

open Phlo.Library

/-! ### `_row_dict` -/

def requireObject (column : String) (value : Json) : Except StoreError Unit :=
  match value with
  | .obj _ => .ok ()
  | _ => .error (.invalidRunEvidence s!"{column} must be a dict")

def requireArray (column : String) (value : Json) : Except StoreError Unit :=
  match value with
  | .arr _ => .ok ()
  | _ => .error (.invalidRunEvidence s!"{column} must be a list")

def requireOptionalObject (column : String) (value : Option Json) : Except StoreError Unit :=
  match value with
  | none | some .null | some (.obj _) => .ok ()
  | some _ => .error (.valueError s!"{column} must be an object or null")

def EventRow.read (row : EventRow) : Except StoreError EventRow := do
  requireObject "run_event.payload" row.payload
  requireOptionalObject "run_event.resource_identity" row.resourceIdentity
  return { row with observedAt := row.observedAt.canonical }

def StageRow.read (row : StageRow) : Except StoreError StageRow := do
  requireObject "run_stage.metrics" row.metrics
  requireOptionalObject "run_stage.resource_identity" row.resourceIdentity
  return { row with
    startedAt := row.startedAt.map Timestamp.canonical
    finishedAt := row.finishedAt.map Timestamp.canonical }

def ResourceRow.read (row : ResourceRow) : Except StoreError ResourceRow := do
  requireArray "run_resource.staged_objects" row.stagedObjects
  requireObject "run_resource.metadata" row.metadata
  requireOptionalObject "run_resource.resource_identity" row.resourceIdentity
  return row

def LineageEdgeRow.read (row : LineageEdgeRow) : Except StoreError LineageEdgeRow := do
  requireObject "run_lineage_edge.column_mapping" row.columnMapping
  requireOptionalObject "run_lineage_edge.source_resource_identity" row.sourceResourceIdentity
  requireOptionalObject "run_lineage_edge.target_resource_identity" row.targetResourceIdentity
  return row

def CatalogChangeRow.read (row : CatalogChangeRow) : Except StoreError CatalogChangeRow := do
  requireObject "run_catalog_change.metadata" row.metadata
  requireOptionalObject "run_catalog_change.resource_identity" row.resourceIdentity
  return row

def QualityResultRow.read (row : QualityResultRow) : Except StoreError QualityResultRow := do
  requireObject "run_quality_result.metadata" row.metadata
  requireOptionalObject "run_quality_result.resource_identity" row.resourceIdentity
  return row

def ArtifactRow.read (row : ArtifactRow) : Except StoreError ArtifactRow := do
  requireOptionalObject "run_artifact.resource_identity" row.resourceIdentity
  return { row with expiresAt := row.expiresAt.map Timestamp.canonical }

def DecisionRow.read (row : DecisionRow) : DecisionRow :=
  { row with
    heartbeatAt := row.heartbeatAt.map Timestamp.canonical
    decidedAt := row.decidedAt.canonical
    finishedAt := row.finishedAt.map Timestamp.canonical }

/-! ### `_REPORT_ORDER_BY` -/

/-- A nullable text column: NULL comes first. -/
def nullsFirst (value : Option String) : List String := value.toList

def EventRow.order (row : EventRow) : Lex (Bool × Lex (ℤ × Lex (String × Lex (String × String)))) :=
  toLex (row.sequence.isNone, toLex (row.sequence.getD 0,
    toLex (row.observedAt.isoformat, toLex (row.eventId, row.producer))))

def StageRow.order (row : StageRow) : Lex (Bool × Lex (List String × String)) :=
  toLex (row.startedAt.isNone, toLex (nullsFirst (row.startedAt.map Timestamp.isoformat), row.stageId))

def ResourceRow.order (row : ResourceRow) : Lex (String × Lex (List String × String)) :=
  toLex (row.role, toLex (nullsFirst row.normalizedIdentity, row.resourceId))

def LineageEdgeRow.order (row : LineageEdgeRow) : Lex (String × Lex (String × String)) :=
  toLex (row.source, toLex (row.target, row.lineageEdgeId))

def QualityResultRow.order (row : QualityResultRow) : Lex (String × String) :=
  toLex (row.checkId, row.qualityResultId)

def CatalogChangeRow.order (row : CatalogChangeRow) : Lex (List String × Lex (String × String)) :=
  toLex (nullsFirst row.catalogRef, toLex (row.operation, row.catalogChangeId))

def ArtifactRow.order (row : ArtifactRow) : Lex (String × String) :=
  toLex (row.artifactKind, row.artifactId)

/-- `hex` is the text of a digest. -/
def DecisionRow.order (hex : Sha256 → String) (row : DecisionRow) : Lex (String × String) :=
  toLex (row.decidedAt.isoformat, hex row.decisionId)

/-! ### The reads -/

/-- `_positive_attempt` -/
def positiveAttempt (attempt : ℤ) : Except StoreError ℕ := do
  require (0 < attempt) (.valueError "attempt must be a positive integer")
  return attempt.toNat

/-- Which rows a read asks for: a run, and an attempt of it unless that is `none`. -/
structure RunScope where
  projectId : String
  runId : String
  attempt : Option ℕ := none

def RunScope.selects (scope : RunScope) (projectId runId : String) (attempt : ℕ) : Bool :=
  projectId == scope.projectId && runId == scope.runId && scope.attempt.all (· == attempt)

def selectRows {α κ : Type} [LinearOrder κ] (scope : RunScope) (projectId runId : α → String)
    (attempt : α → ℕ) (order : α → κ) (read : α → Except StoreError α) (rows : List α) : Except StoreError (List α) :=
  (sortBy order (rows.filter fun row => scope.selects (projectId row) (runId row) (attempt row))).mapM
    read

/-- An event with its surrogate key. -/
structure EventRecord where
  id : ℕ
  row : EventRow

/-- The rows of `run_event`, numbered in the order they were inserted. -/
def Store.eventRecords (s : Store) : List EventRecord :=
  s.events.rows.zipIdx.map fun entry => ⟨entry.2 + 1, entry.1⟩

def EventRecord.read (event : EventRecord) : Except StoreError EventRecord := do
  let row ← event.row.read
  return { event with row }

section Selections

variable (s : Store) (scope : RunScope)

def selectEvents : Except StoreError (List EventRecord) :=
  selectRows scope (·.row.projectId) (·.row.runId) (·.row.attempt) (·.row.order) EventRecord.read
    s.eventRecords

def selectStages : Except StoreError (List StageRow) :=
  selectRows scope StageRow.projectId StageRow.runId StageRow.attempt StageRow.order StageRow.read
    s.stages.rows

def selectResources : Except StoreError (List ResourceRow) :=
  selectRows scope ResourceRow.projectId ResourceRow.runId ResourceRow.attempt ResourceRow.order
    ResourceRow.read s.resources.rows

def selectLineageEdges : Except StoreError (List LineageEdgeRow) :=
  selectRows scope LineageEdgeRow.projectId LineageEdgeRow.runId LineageEdgeRow.attempt
    LineageEdgeRow.order LineageEdgeRow.read s.lineageEdges.rows

def selectQualityResults : Except StoreError (List QualityResultRow) :=
  selectRows scope QualityResultRow.projectId QualityResultRow.runId QualityResultRow.attempt
    QualityResultRow.order QualityResultRow.read s.qualityResults.rows

def selectCatalogChanges : Except StoreError (List CatalogChangeRow) :=
  selectRows scope CatalogChangeRow.projectId CatalogChangeRow.runId CatalogChangeRow.attempt
    CatalogChangeRow.order CatalogChangeRow.read s.catalogChanges.rows

def selectArtifacts : Except StoreError (List ArtifactRow) :=
  selectRows scope ArtifactRow.projectId ArtifactRow.runId ArtifactRow.attempt ArtifactRow.order
    ArtifactRow.read s.artifacts.rows

def selectDecisions (hex : Sha256 → String) : Except StoreError (List DecisionRow) :=
  selectRows scope DecisionRow.projectId DecisionRow.runId DecisionRow.attempt (DecisionRow.order hex)
    (fun row => .ok row.read) s.decisions.rows

def selectRunRow : Option PipelineRunRow :=
  ((s.runs.rows.filter fun row => scope.selects row.projectId row.runId row.attempt).head?).map
    PipelineRunRow.asInstants

end Selections

/-- What `read_run_attempt` returns. -/
structure AttemptReport where
  run : Option PipelineRunRow
  events : List EventRecord
  stages : List StageRow
  resources : List ResourceRow
  lineage : List LineageEdgeRow
  quality : List QualityResultRow
  catalogChanges : List CatalogChangeRow
  artifacts : List ArtifactRow
  reconciliation : List DecisionRow

/-- `read_run_attempt` -/
def readRunAttempt (hex : Sha256 → String) (s : Store) (projectId runId : String) (attempt : ℤ) :
    Except StoreError AttemptReport := do
  let attempt ← positiveAttempt attempt
  let scope : RunScope := { projectId, runId, attempt := some attempt }
  return {
    run := selectRunRow s scope
    events := ← selectEvents s scope
    stages := ← selectStages s scope
    resources := ← selectResources s scope
    lineage := ← selectLineageEdges s scope
    quality := ← selectQualityResults s scope
    catalogChanges := ← selectCatalogChanges s scope
    artifacts := ← selectArtifacts s scope
    reconciliation := ← selectDecisions s scope hex }

/-- The methods that read one table. -/
inductive Listing where
  | getRun
  | listEvents
  | listStages
  | listResources
  | listLineageEdges
  | listQualityResults
  | listCatalogChanges
  | listArtifacts
  deriving DecidableEq, Repr

/-- A read of the store with its arguments. -/
inductive ReadCall where
  | list (table : Listing) (projectId runId : String) (attempt : Option ℤ)
  | countEvents (projectId runId : String)
  | listReconciliationDecisions (projectId runId : String)
  | readRunAttempt (projectId runId : String) (attempt : ℤ)

inductive ReadResult where
  | run (row : Option PipelineRunRow)
  | events (rows : List EventRecord)
  | stages (rows : List StageRow)
  | resources (rows : List ResourceRow)
  | lineageEdges (rows : List LineageEdgeRow)
  | qualityResults (rows : List QualityResultRow)
  | catalogChanges (rows : List CatalogChangeRow)
  | artifacts (rows : List ArtifactRow)
  | decisions (rows : List DecisionRow)
  | count (n : ℕ)
  | report (report : AttemptReport)

def readListing (s : Store) (scope : RunScope) : Listing → Except StoreError ReadResult
  | .getRun => .ok (.run (selectRunRow s scope))
  | .listEvents => (selectEvents s scope).map .events
  | .listStages => (selectStages s scope).map .stages
  | .listResources => (selectResources s scope).map .resources
  | .listLineageEdges => (selectLineageEdges s scope).map .lineageEdges
  | .listQualityResults => (selectQualityResults s scope).map .qualityResults
  | .listCatalogChanges => (selectCatalogChanges s scope).map .catalogChanges
  | .listArtifacts => (selectArtifacts s scope).map .artifacts

def read (hex : Sha256 → String) (s : Store) : ReadCall → Except StoreError ReadResult
  | .list table projectId runId attempt => do
    let attempt ← attempt.mapM positiveAttempt
    readListing s { projectId, runId, attempt } table
  | .countEvents projectId runId =>
    .ok (.count (s.events.rows.filter fun row =>
      row.projectId == projectId && row.runId == runId).length)
  | .listReconciliationDecisions projectId runId =>
    (selectDecisions s { projectId, runId } hex).map .decisions
  | .readRunAttempt projectId runId attempt =>
    (readRunAttempt hex s projectId runId attempt).map .report

end Phlo.RunEvidence
