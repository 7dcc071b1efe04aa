import Phlo.RunEvidence.Json
import Phlo.RunEvidence.TextRedaction

/-!
# The run-evidence data model

The records a producer hands in: runs, events, stages, resources, lineage edges, quality results,
catalog changes and artifacts.  What the constructors check (a positive attempt, a resource reference
scoped to the project, staged objects with an identity) is carried as a field, so a record that
would be refused cannot be built.
-/

namespace Phlo.RunEvidence

/-! ### Status vocabulary -/

inductive RunStatus where
  | unknown | observed | unsupported | incomplete | queued | notStarted | starting | started | start
  | running | canceling | success | failed | error | cancelled | skipped | noData | abandoned
  deriving DecidableEq, Repr, Inhabited

namespace RunStatus

def value : RunStatus → String
  | unknown => "unknown"
  | observed => "observed"
  | unsupported => "unsupported"
  | incomplete => "incomplete"
  | queued => "queued"
  | notStarted => "not_started"
  | starting => "starting"
  | started => "started"
  | start => "start"
  | running => "running"
  | canceling => "canceling"
  | success => "success"
  | failed => "failed"
  | error => "error"
  | cancelled => "cancelled"
  | skipped => "skipped"
  | noData => "no_data"
  | abandoned => "abandoned"

def all : List RunStatus :=
  [unknown, observed, unsupported, incomplete, queued, notStarted, starting, started, start, running,
    canceling, success, failed, error, cancelled, skipped, noData, abandoned]

/-- `RunStatus(value)` -/
def ofValue (s : String) : Option RunStatus := all.find? fun r => r.value == s

/-- `RunStatus.parse`: provider aliases are normalized, other texts refused. -/
def parse (s : String) : Option RunStatus :=
  let normalized := String.ofList (lower (strip s.toList))
  ofValue (match normalized with
    | "canceled" => "cancelled"
    | "failure" => "failed"
    | "succeeded" => "success"
    | _ => normalized)

/-- `TERMINAL_STATUSES` -/
def isTerminal : RunStatus → Bool
  | success | failed | error | cancelled | skipped | noData | abandoned => true
  | _ => false

/-- `NONTERMINAL_STATUSES` -/
def isNonterminal : RunStatus → Bool
  | queued | notStarted | starting | started | running | canceling => true
  | _ => false

theorem parse_value (r : RunStatus) : parse r.value = some r := by
  cases r <;> decide

theorem value_injective : Function.Injective value := by
  intro r r' h
  have hp : parse r.value = parse r'.value := by rw [h]
  rw [parse_value, parse_value] at hp
  exact Option.some.inj hp

theorem redactText_value (r : RunStatus) : redactText r.value = r.value := by
  have hall : all.all fun r => redactText r.value == r.value := by decide +kernel
  have hmem : r ∈ all := by cases r <;> decide
  exact beq_iff_eq.1 (List.all_eq_true.1 hall r hmem)

end RunStatus

/-- `normalize_status`: an unknown status text becomes `unsupported`. -/
def normalizeStatus (s : Option String) : Option RunStatus :=
  s.map fun s => (RunStatus.parse s).getD .unsupported

inductive EvidenceCompleteness where
  | complete | incomplete | missing | expired | redacted
  deriving DecidableEq, Repr, Inhabited

namespace EvidenceCompleteness

def value : EvidenceCompleteness → String
  | complete => "complete"
  | incomplete => "incomplete"
  | missing => "missing"
  | expired => "expired"
  | redacted => "redacted"

def ofValue (s : String) : Option EvidenceCompleteness :=
  [complete, incomplete, missing, expired, redacted].find? fun c => c.value == s

/-- `EVIDENCE_STATE_PRECEDENCE` -/
def precedence : EvidenceCompleteness → ℕ
  | complete => 0
  | incomplete => 0
  | missing => 1
  | expired => 2
  | redacted => 3

/-- Missing, expired and redacted evidence overrides an otherwise complete verdict. -/
def degraded (c : EvidenceCompleteness) : Bool := 0 < c.precedence

theorem value_injective : Function.Injective value := by
  intro c c' h
  cases c <;> cases c' <;> first | rfl | exact absurd h (by decide)

theorem redactText_value (c : EvidenceCompleteness) : redactText c.value = c.value := by
  cases c <;> decide +kernel

end EvidenceCompleteness

/-! ### Records -/

/-- `ResourceRef` -/
structure ResourceRef where
  resourceType : String
  resourceId : String
  tenant : Option String := none
  attributes : List (String × String) := []
  deriving DecidableEq, Repr

/-- `_validate_resource_ref` -/
def ResourceRef.validFor (projectId : String) (r : ResourceRef) : Bool :=
  !isBlank r.resourceType && !isBlank r.resourceId && r.tenant == some projectId

/-- `asdict(resource_ref)` -/
def ResourceRef.asDict (r : ResourceRef) : Json :=
  .obj [("resource_type", .str r.resourceType), ("resource_id", .str r.resourceId),
    ("tenant", .ofText r.tenant), ("attributes", .obj (r.attributes.map fun a => (a.1, .str a.2)))]

structure PipelineRun where
  projectId : String
  runId : String
  pipelineName : Option String := none
  providerRunId : Option String := none
  trigger : Option String := none
  initiator : Option String := none
  effectiveIdentity : Option String := none
  partitionKey : Option String := none
  codeVersion : Option String := none
  configVersion : Option String := none
  attempt : ℕ := 1
  traceId : Option String := none
  status : RunStatus := .running
  startedAt : Option Timestamp := none
  finishedAt : Option Timestamp := none
  failureSummary : Option String := none
  evidenceCompleteness : EvidenceCompleteness := .incomplete
  attempt_pos : 0 < attempt := by first | exact Nat.one_pos | exact Nat.succ_pos _
  deriving DecidableEq

structure RunEvent where
  projectId : String
  runId : String
  eventId : String
  eventType : String
  producer : String
  payload : Dict := []
  stageId : Option String := none
  schemaVersion : String := "1.0"
  observedAt : Timestamp := ⟨0, some 0⟩
  sequence : Option ℤ := none
  attempt : ℕ := 1
  resourceRef : Option ResourceRef := none
  attempt_pos : 0 < attempt := by first | exact Nat.one_pos | exact Nat.succ_pos _
  resourceRef_valid : resourceRef.all (ResourceRef.validFor projectId) := by exact Eq.refl true
  deriving DecidableEq

structure RunStage where
  projectId : String
  runId : String
  stageId : String
  stageType : String := "unknown"
  provider : Option String := none
  tool : Option String := none
  asset : Option String := none
  attempt : ℕ := 1
  status : RunStatus := .unknown
  startedAt : Option Timestamp := none
  finishedAt : Option Timestamp := none
  metrics : Dict := []
  error : Option String := none
  resourceRef : Option ResourceRef := none
  attempt_pos : 0 < attempt := by first | exact Nat.one_pos | exact Nat.succ_pos _
  resourceRef_valid : resourceRef.all (ResourceRef.validFor projectId) := by exact Eq.refl true
  deriving DecidableEq

/-- A staged object is a text, or a dict with a text under `identity`. -/
def isStagedObject : Json → Bool
  | .str _ => true
  | .obj fields => match fields.lookup "identity" with
    | some (.str _) => true
    | _ => false
  | _ => false

structure RunResource where
  projectId : String
  runId : String
  resourceId : String
  resourceKind : String := "unknown"
  role : String := "unknown"
  normalizedIdentity : Option String := none
  uri : Option String := none
  tableName : Option String := none
  catalog : Option String := none
  refName : Option String := none
  schemaHash : Option String := none
  watermark : Option String := none
  recordCount : Option ℤ := none
  byteCount : Option ℤ := none
  stagedObjects : List Json := []
  snapshotBefore : Option String := none
  snapshotAfter : Option String := none
  attempt : ℕ := 1
  schemaHashBefore : Option String := none
  schemaHashAfter : Option String := none
  metadata : Dict := []
  resourceRef : Option ResourceRef := none
  attempt_pos : 0 < attempt := by first | exact Nat.one_pos | exact Nat.succ_pos _
  resourceRef_valid : resourceRef.all (ResourceRef.validFor projectId) := by exact Eq.refl true
  stagedObjects_valid : stagedObjects.all isStagedObject := by exact Eq.refl true
  deriving DecidableEq

structure RunLineageEdge where
  projectId : String
  runId : String
  source : String
  target : String
  lineageEdgeId : String
  columnMapping : Dict := []
  origin : String := "observed"
  derivation : String := "exact"
  /-- The decimal text of a floating-point number. -/
  confidence : Option String := none
  attempt : ℕ := 1
  sourceResourceRef : Option ResourceRef := none
  targetResourceRef : Option ResourceRef := none
  attempt_pos : 0 < attempt := by first | exact Nat.one_pos | exact Nat.succ_pos _
  sourceResourceRef_valid : sourceResourceRef.all (ResourceRef.validFor projectId) := by exact Eq.refl true
  targetResourceRef_valid : targetResourceRef.all (ResourceRef.validFor projectId) := by exact Eq.refl true
  deriving DecidableEq

structure RunQualityResult where
  projectId : String
  runId : String
  qualityResultId : String
  checkId : String
  asset : Option String := none
  stageId : Option String := none
  severity : Option String := none
  blocking : Bool := false
  passed : Bool := false
  evaluatedCount : Option ℤ := none
  failedCount : Option ℤ := none
  failureArtifactId : Option String := none
  metadata : Dict := []
  attempt : ℕ := 1
  resourceRef : Option ResourceRef := none
  attempt_pos : 0 < attempt := by first | exact Nat.one_pos | exact Nat.succ_pos _
  resourceRef_valid : resourceRef.all (ResourceRef.validFor projectId) := by exact Eq.refl true
  deriving DecidableEq

structure RunCatalogChange where
  projectId : String
  runId : String
  catalogChangeId : String
  operation : String
  catalogRef : Option String := none
  contentKey : Option String := none
  sourceHash : Option String := none
  targetHash : Option String := none
  commitHash : Option String := none
  commitMessage : Option String := none
  mergeOutcome : Option String := none
  snapshotBefore : Option String := none
  snapshotAfter : Option String := none
  metadata : Dict := []
  attempt : ℕ := 1
  qualityDecisionId : Option String := none
  resourceRef : Option ResourceRef := none
  attempt_pos : 0 < attempt := by first | exact Nat.one_pos | exact Nat.succ_pos _
  resourceRef_valid : resourceRef.all (ResourceRef.validFor projectId) := by exact Eq.refl true
  deriving DecidableEq

structure RunArtifact where
  projectId : String
  runId : String
  artifactId : String
  artifactKind : String
  uri : Option String := none
  contentType : Option String := none
  checksum : Option String := none
  retentionClass : Option String := none
  expiresAt : Option Timestamp := none
  legalHold : Bool := false
  status : EvidenceCompleteness := .complete
  attempt : ℕ := 1
  resourceRef : Option ResourceRef := none
  attempt_pos : 0 < attempt := by first | exact Nat.one_pos | exact Nat.succ_pos _
  resourceRef_valid : resourceRef.all (ResourceRef.validFor projectId) := by exact Eq.refl true
  deriving DecidableEq

end Phlo.RunEvidence
