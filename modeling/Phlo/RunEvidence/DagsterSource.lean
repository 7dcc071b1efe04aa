import Mathlib.Data.PNat.Basic
import Phlo.Library.VisitedWalk
import Phlo.RunEvidence.HookSink
import Phlo.RunEvidence.Reconciliation

/-!
# The Dagster event-log adapter

`DagsterRunEvidenceSource.observe_run` reads a run, its record and its event log from a Dagster
instance and makes a `RunObservation` of them.  The instance is a parameter: functions that answer or
raise, over a log that ends and runs that are finitely many.  What `getattr` finds missing is none.

The two loops of the source, along the retry chain and through the pages of the log, are walks that
visit no place twice; `diverged` is their lack of fuel.
-/

namespace Phlo.RunEvidence

open Phlo.Library

/-- How `observe_run` can fail; `unavailable` is `RunEvidenceUnavailable`. -/
inductive ObserveError where
  | unavailable (message : String)
  | valueError (message : String)
  | overflowError
  | diverged
  deriving DecidableEq

/-! ### What Dagster holds -/

/-- A provider timestamp: absent, not convertible to a float, no number, too large for a float or
infinite, or a number of seconds, given rounded to microseconds. -/
inductive EpochValue where
  | missing
  | notNumber
  | nan
  | infinite
  | micros (n : ℤ)
  deriving DecidableEq

structure DagsterRun where
  runId : String
  status : Option String := none
  tags : List (String × String) := []
  parentRunId : Option String := none
  rootRunId : Option String := none
  jobName : Option String := none
  startTime : EpochValue := .missing
  endTime : EpochValue := .missing

structure RunRecord where
  startTime : EpochValue := .missing
  endTime : EpochValue := .missing

structure AssetCheckEvaluation where
  passed : Bool := false
  checkName : Option String := none
  checkKey : Option String := none
  name : Option String := none

structure DagsterEvent where
  stepKey : Option String := none
  partition : Option String := none
  /-- The path of the asset key. -/
  assetKey : Option (List String) := none
  assetCheckEvaluation : Option AssetCheckEvaluation := none

/-- `eventType` is the text of any event type, known or not. -/
structure EventLogEntry where
  timestamp : EpochValue := .missing
  eventType : Option String := none
  message : Option String := none
  storageId : Option ℤ := none
  stepKey : Option String := none
  partition : Option String := none
  checkName : Option String := none
  dagsterEvent : Option DagsterEvent := none

/-- A page of the event log. -/
structure Connection where
  records : List (EventLogEntry × Option ℤ)
  cursor : Option String := none
  hasMore : Bool := false

/-- What the adapter calls on an instance.  Only finitely many runs are anybody's parent, and a run's
log hands out finitely many cursors. -/
structure DagsterInstance where
  getRunById : String → Except Unit (Option DagsterRun)
  getRunRecordById : String → Except Unit (Option RunRecord)
  /-- None for an instance without `get_records_for_run`. -/
  getRecordsForRun : Option (String → Option String → Except Unit Connection)
  getEventLogEntries : String → Except Unit (List EventLogEntry)
  parents : List String
  cursors : String → List String
  parent_mem : ∀ {runId run parentId}, getRunById runId = .ok (some run) →
    run.parentRunId = some parentId → parentId ∈ parents
  cursor_mem : ∀ {read runId cursor page next}, getRecordsForRun = some read →
    read runId cursor = .ok page → page.cursor = some next → next ∈ cursors runId

structure DagsterRunEvidenceSource where
  dagster : DagsterInstance
  projectId : String
  heartbeatResolver : Option (DagsterRun → Option Timestamp) := none
  logicalRunIdResolver : Option (DagsterRun → String) := none

/-! ### Reading single values -/

/-- `a or b` -/
def orElse (a b : Option String) : Option String := if truthy a then a else b

/-- `_datetime_from_epoch`: what does not fit `time_t` is an `OverflowError`, which is not caught; a
year outside 1 to 9999 is a `ValueError`, which is. -/
def datetimeFromEpoch : EpochValue → Except ObserveError (Option Timestamp)
  | .missing | .notNumber | .nan => .ok none
  | .infinite => .error .overflowError
  | .micros n =>
    let seconds := n / 1000000
    if seconds < -2 ^ 63 ∨ 2 ^ 63 ≤ seconds then .error .overflowError
    else if -62135596800000000 ≤ n ∧ n < 253402300800000000 then .ok (some ⟨n, some 0⟩)
    else .ok none

/-- `_status` -/
def providerStatus (value : Option String) : Option String :=
  value.map fun raw =>
    let normalized := String.ofList (lower raw.toList)
    match normalized with
    | "failure" => "failed"
    | "succeeded" => "success"
    | "canceled" => "cancelled"
    | _ => normalized

/-- The attempt that the tags of a run state: the first tag with a positive number. -/
def explicitAttempt (tags : List (String × String)) : Option ℕ+ :=
  ["phlo/attempt", "dagster/attempt", "attempt"].findSome? fun key =>
    ((tags.lookup key).bind intOfText).bind fun value =>
      if h : 0 < value.toNat then some ⟨value.toNat, h⟩ else none

/-- One step up the retry chain. -/
def visitParent (dagster : DagsterInstance) (_seen : List String) (parentId : String) (attempt : ℕ+) :
    Except ObserveError (Visit String ℕ+ ℕ+) :=
  match dagster.getRunById parentId with
  | .error _ => .error (.unavailable
      "Dagster retry-chain lookup was unavailable; reconciliation did not change the run")
  | .ok none => .error (.unavailable
      "Dagster retry-chain parent was missing; reconciliation did not change the run")
  | .ok (some parent) =>
    match parent.parentRunId.filter (· ≠ "") with
    | none => .ok (.done (attempt + 1))
    | some next => .ok (.next next (attempt + 1))

def chainLength (dagster : DagsterInstance) (run : DagsterRun) : Except ObserveError ℕ+ :=
  match run.parentRunId.filter (· ≠ "") with
  | none => .ok 1
  | some parentId =>
    (walk (visitParent dagster) (.unavailable
        "Dagster retry-chain parent cycle was detected; reconciliation did not change the run")
      (dagster.parents.length + 1) [run.runId] parentId 1).getD (.error .diverged)

/-- `_attempt` -/
def attempt (dagster : DagsterInstance) (run : DagsterRun) : Except ObserveError ℕ+ := do
  let attempt ← chainLength dagster run
  match explicitAttempt run.tags with
  | none => return attempt
  | some explicit =>
    require (¬ (1 < attempt ∧ explicit ≠ attempt)) (ObserveError.unavailable
      ("Dagster retry-chain attempt tag disagreed with its parent chain; " ++
        "reconciliation did not change the run"))
    return explicit

/-- `_asset_name` -/
def EventLogEntry.assetName (entry : EventLogEntry) : Option String :=
  match entry.dagsterEvent.bind DagsterEvent.assetKey with
  | none | some [] => none
  | some path => some (".".intercalate path)

/-- `_check_identity` -/
def EventLogEntry.checkIdentity (entry : EventLogEntry) : Option String :=
  let evaluation := entry.dagsterEvent.bind DagsterEvent.assetCheckEvaluation
  (orElse entry.checkName (orElse (evaluation.bind AssetCheckEvaluation.checkName)
    (orElse (evaluation.bind AssetCheckEvaluation.checkKey)
      (evaluation.bind AssetCheckEvaluation.name)))).filter (· ≠ "")

/-- `_logical_run_id` -/
def DagsterRunEvidenceSource.logicalRunId (source : DagsterRunEvidenceSource) (run : DagsterRun) :
    Except ObserveError String :=
  match source.logicalRunIdResolver with
  | some resolver =>
    if isBlank (resolver run) then
      .error (.valueError "Dagster logical run ID resolver returned an empty ID")
    else .ok (resolver run)
  | none => .ok ((orElse (run.tags.lookup "phlo/run_id")
      (orElse run.rootRunId (some run.runId))).getD run.runId)

/-- `_safe_message` -/
def EventLogEntry.safeMessage (entry : EventLogEntry) : String × Sha256 :=
  let raw := entry.message.getD ""
  (redactText (String.ofList (raw.toList.take 512)), payloadChecksum (.str raw))

/-! ### The event log -/

def pageRepeated : ObserveError := .unavailable
  "Dagster event-log pagination cursor repeated; reconciliation did not change the run"

def logUnavailable : ObserveError := .unavailable
  "Dagster event-log lookup was unavailable; reconciliation did not change the run"

/-- One page of the log; `records` are those read before it. -/
def visitPage (read : Option String → Except Unit Connection) (seenCursors : List (Option String))
    (cursor : Option String) (records : List (EventLogEntry × Option ℤ)) : Except ObserveError
      (Visit (Option String) (List (EventLogEntry × Option ℤ)) (List (EventLogEntry × Option ℤ))) :=
  match read cursor with
  | .error _ => .error logUnavailable
  | .ok page =>
    let records := records ++ page.records
    if !page.hasMore then .ok (.done records)
    else if page.cursor ∈ seenCursors then .error pageRepeated
    else if page.cursor = none ∨ page.cursor = cursor then
      .error (.unavailable
        "Dagster event-log pagination did not advance; reconciliation did not change the run")
    else .ok (.next page.cursor records)

/-- `_event_records` -/
def eventRecords (dagster : DagsterInstance) (runId : String) :
    Except ObserveError (List (EventLogEntry × Option ℤ)) :=
  match dagster.getRecordsForRun with
  | none =>
    match dagster.getEventLogEntries runId with
    | .error _ => .error logUnavailable
    | .ok entries => .ok (entries.map fun entry => (entry, entry.storageId))
  | some read =>
    (walk (visitPage (read runId)) pageRepeated ((dagster.cursors runId).length + 2) [] none []).getD
      (.error .diverged)

/-! ### Normalizing an entry -/

def normalizedEventType (eventName : String) (eventStatus : Option String) : String :=
  if ["RUN_START", "PIPELINE_START"].contains eventName then "run.start"
  else if eventStatus.isSome then "run.terminal"
  else if ["RUN_ENQUEUED", "PIPELINE_ENQUEUED"].contains eventName then "run.queued"
  else if ["RUN_STARTING", "PIPELINE_STARTING"].contains eventName then "run.starting"
  else if ["RUN_CANCELING", "PIPELINE_CANCELING"].contains eventName then "run.canceling"
  else if ["STEP_START", "STEP_SUCCESS", "STEP_FAILURE", "STEP_SKIPPED", "STEP_UP_FOR_RETRY",
      "STEP_RESTARTED"].contains eventName then "stage.step"
  else if eventName = "ASSET_MATERIALIZATION" then "stage.materialization"
  else if eventName = "ASSET_CHECK_EVALUATION" then "stage.check"
  else "dagster." ++ String.ofList (lower eventName.toList)

def stepStatus : String → Option String
  | "STEP_START" => some "running"
  | "STEP_SUCCESS" => some "success"
  | "STEP_FAILURE" => some "failed"
  | "STEP_SKIPPED" => some "skipped"
  | "STEP_UP_FOR_RETRY" => some "retrying"
  | "STEP_RESTARTED" => some "running"
  | _ => none

def providerEventStatus : String → Option String
  | "RUN_SUCCESS" => some "success"
  | "PIPELINE_SUCCESS" => some "success"
  | "RUN_FAILURE" => some "failed"
  | "PIPELINE_FAILURE" => some "failed"
  | "RUN_CANCELED" => some "cancelled"
  | "PIPELINE_CANCELED" => some "cancelled"
  | _ => none

/-- What all entries of a run are normalized with. -/
structure RunContext where
  projectId : String
  attempt : ℕ+
  providerRunId : String
  resourceRef : ResourceRef
  tags : List (String × String)
  noData : Bool

/-- `str(value)` of an optional value -/
def pythonText (value : Option String) : String := value.getD "None"

namespace EventLogEntry

variable (entry : EventLogEntry)

def eventName : String := (entry.eventType.filter (· ≠ "")).getD "UNKNOWN"

def resolvedStorageId (recordStorageId : Option ℤ) : Option ℤ :=
  (recordStorageId.filter (· ≠ 0)).or entry.storageId

def resolvedStepKey : Option String :=
  orElse entry.stepKey (entry.dagsterEvent.bind DagsterEvent.stepKey)

def resolvedPartition (c : RunContext) : Option String :=
  orElse entry.partition (orElse (entry.dagsterEvent.bind DagsterEvent.partition)
    (c.tags.lookup "dagster/partition"))

def eventStatus (c : RunContext) : Option String :=
  if c.noData && providerEventStatus entry.eventName == some "success" then some "no_data"
  else providerEventStatus entry.eventName

def normalizedType (c : RunContext) : String :=
  normalizedEventType entry.eventName (entry.eventStatus c)

def stageType (c : RunContext) : Option String :=
  match entry.normalizedType c with
  | "stage.materialization" => some "materialization"
  | "stage.check" => some "check"
  | "stage.step" => some "dagster_step"
  | _ => none

def stageStatus (c : RunContext) : Option String :=
  match entry.normalizedType c with
  | "stage.materialization" => some "success"
  | "stage.check" =>
    if (entry.dagsterEvent.bind DagsterEvent.assetCheckEvaluation).any AssetCheckEvaluation.passed
    then some "success" else some "failed"
  | _ => stepStatus entry.eventName

/-- The asset the entry names, if the stage is a check its identity. -/
def stageCheck (c : RunContext) : Option String :=
  if entry.stageType c = some "check" then entry.checkIdentity else none

/-- `_stage_id`, for an entry that names a step or an asset. -/
def stageId (d : StableDigest) (c : RunContext) (recordStorageId : Option ℤ) : Option String :=
  (entry.stageType c).bind fun stageType =>
    if truthy entry.resolvedStepKey || truthy entry.assetName then
      let identity := [c.resourceRef.resourceId, toString (c.attempt : ℕ), stageType,
        pythonText entry.resolvedStepKey, pythonText entry.assetName,
        pythonText (entry.resolvedPartition c), pythonText (entry.stageCheck c)]
      some (stableId d (if stageType = "materialization" then
        identity ++ [pythonText ((entry.resolvedStorageId recordStorageId).map toString)]
        else identity))
    else none

def eventId (d : StableDigest) (c : RunContext) (recordStorageId : Option ℤ) (index : ℕ) : String :=
  match entry.resolvedStorageId recordStorageId with
  | some storageId => c.providerRunId ++ ":" ++ toString storageId
  | none => stableId d [c.providerRunId, entry.eventName, toString index]

def eventPayload (d : StableDigest) (c : RunContext) (recordStorageId : Option ℤ) : Dict :=
  [("provider_event_type", .str entry.eventName),
    ("message_summary", .str entry.safeMessage.1),
    ("message_checksum", entry.safeMessage.2.json),
    ("storage_id", .ofInt (entry.resolvedStorageId recordStorageId)),
    ("asset", .ofText entry.assetName),
    ("stage_id", .ofText (entry.stageId d c recordStorageId)),
    ("check_identity", .ofText (entry.stageCheck c)),
    ("status", .ofText (entry.eventStatus c)),
    ("provider_status", .ofText (providerEventStatus entry.eventName))]

end EventLogEntry

/-- That a reference has passed the check. -/
structure ValidatedRef (projectId : String) (r : ResourceRef) : Type where
  valid : r.validFor projectId = true

def validateResourceRef (projectId : String) (r : ResourceRef) : Except ObserveError (ValidatedRef projectId r) :=
  if h : r.validFor projectId = true then .ok ⟨h⟩
  else if isBlank r.resourceType || isBlank r.resourceId then
    .error (.valueError "resource_ref requires non-empty resource_type and resource_id")
  else .error (.valueError "resource_ref tenant must match the evidence project_id")

/-- The status of a stage, which `RunStage` parses. -/
def parseStageStatus (status : String) : Except ObserveError RunStatus :=
  match RunStatus.parse status with
  | some parsed => .ok parsed
  | none => .error (.valueError ("'" ++ status ++ "' is not a valid RunStatus"))

/-- The stage of an entry observed at `observedAt`. -/
def normalizeStage (d : StableDigest) (c : RunContext) (entry : EventLogEntry)
    (recordStorageId : Option ℤ) (observedAt : Timestamp)
    (href : c.resourceRef.validFor c.projectId = true) : Except ObserveError (Option RunStage) :=
  match entry.stageId d c recordStorageId, entry.stageType c with
  | some stageId, some stageType => do
    let status ← parseStageStatus ((entry.stageStatus c).getD "unknown")
    return some {
      projectId := c.projectId
      runId := c.resourceRef.resourceId
      stageId, stageType
      provider := some "dagster"
      tool := some "dagster"
      asset := entry.assetName
      attempt := c.attempt
      status
      startedAt := some observedAt
      finishedAt := if entry.stageStatus c = some "running" ∨ entry.stageStatus c = some "retrying"
        then none else some observedAt
      error := if entry.stageStatus c = some "failed" then some entry.safeMessage.1 else none
      resourceRef := some c.resourceRef
      attempt_pos := c.attempt.pos
      resourceRef_valid := href }
  | _, _ => .ok none

/-- `_normalize_event` -/
def normalizeEvent (d : StableDigest) (c : RunContext) (entry : EventLogEntry)
    (recordStorageId : Option ℤ) (index : ℕ) : Except ObserveError (Option RunEvent × Option RunStage) := do
  match ← datetimeFromEpoch entry.timestamp with
  | none => return (none, none)
  | some observedAt =>
    let ⟨href⟩ ← validateResourceRef c.projectId c.resourceRef
    let event : RunEvent := {
      projectId := c.projectId
      runId := c.resourceRef.resourceId
      eventId := entry.eventId d c recordStorageId index
      eventType := entry.normalizedType c
      producer := "dagster"
      payload := entry.eventPayload d c recordStorageId
      stageId := entry.stageId d c recordStorageId
      observedAt
      sequence := some ((entry.resolvedStorageId recordStorageId).getD index)
      attempt := c.attempt
      resourceRef := some c.resourceRef
      attempt_pos := c.attempt.pos
      resourceRef_valid := href }
    let stage ← normalizeStage d c entry recordStorageId observedAt href
    return (some event, stage)

/-! ### Observing a run -/

namespace DagsterRun

variable (run : DagsterRun)

def taggedNoData : Bool :=
  ["1", "true", "yes"].contains
    (String.ofList (lower ((run.tags.lookup "phlo/no_data").getD "").toList))

def successfulTerminal (entries : List (EventLogEntry × Option ℤ)) : Bool :=
  let status := providerStatus run.status
  [some "success", some "no_data"].contains status ||
    (!([some "failed", some "error", some "cancelled", some "canceled", some "skipped",
        some "abandoned"].contains status) &&
      entries.any fun entry =>
        [some "RUN_SUCCESS", some "PIPELINE_SUCCESS"].contains entry.1.eventType)

def noData (entries : List (EventLogEntry × Option ℤ)) : Bool :=
  run.taggedNoData && run.successfulTerminal entries

end DagsterRun

def noDataEvent (d : StableDigest) (c : RunContext) (observedAt : Timestamp) : Except ObserveError RunEvent := do
  let ⟨href⟩ ← validateResourceRef c.projectId c.resourceRef
  return {
    projectId := c.projectId
    runId := c.resourceRef.resourceId
    eventId := stableId d [c.providerRunId, "no_data"]
    eventType := "run.no_data"
    producer := "dagster"
    payload := [("status", .str "no_data"), ("source", .str "phlo/no_data")]
    observedAt
    attempt := c.attempt
    resourceRef := some c.resourceRef
    attempt_pos := c.attempt.pos
    resourceRef_valid := href }

def DagsterRun.context (run : DagsterRun) (projectId runId logicalRunId : String) (attempt : ℕ+)
    (entries : List (EventLogEntry × Option ℤ)) : RunContext where
  projectId := projectId
  attempt := attempt
  providerRunId := runId
  resourceRef :=
    { resourceType := "run"
      resourceId := logicalRunId
      tenant := some projectId
      attributes := [("attempt", toString (attempt : ℕ))] }
  tags := run.tags
  noData := run.noData entries

def DagsterRunEvidenceSource.observation (d : StableDigest) (source : DagsterRunEvidenceSource)
    (projectId runId logicalRunId : String) (attempt : ℕ+) (run : DagsterRun)
    (record : Option RunRecord) (entries : List (EventLogEntry × Option ℤ)) : Except ObserveError RunObservation := do
  let startedAt ← datetimeFromEpoch (record.elim run.startTime RunRecord.startTime)
  let finishedAt ← datetimeFromEpoch (record.elim run.endTime RunRecord.endTime)
  let c := run.context projectId runId logicalRunId attempt entries
  let normalized ← entries.zipIdx.mapM fun x => normalizeEvent d c x.1.1 x.1.2 x.2
  let tagged ← ((finishedAt.or startedAt).toList.filter fun _ => c.noData).mapM (noDataEvent d c)
  let heartbeatAt := source.heartbeatResolver.bind fun resolver => resolver run
  if hids : (isBlank projectId || isBlank logicalRunId) = false then
    if haware : (startedAt.all Timestamp.aware && finishedAt.all Timestamp.aware &&
        heartbeatAt.all Timestamp.aware) = true then
      return {
        projectId
        runId := logicalRunId
        attempt := attempt
        pipelineName := run.jobName
        provider := some "dagster"
        providerRunId := some runId
        status := normalizeStatus (if c.noData then some "no_data" else providerStatus run.status)
        startedAt, finishedAt, heartbeatAt
        source := "dagster"
        events := normalized.filterMap Prod.fst ++ tagged
        stages := normalized.filterMap Prod.snd
        ids_valid := hids
        attempt_pos := attempt.pos
        timestamps_aware := haware }
    else throw (.valueError "observation timestamps must be timezone-aware")
  else throw (.valueError "project_id and run_id must be non-empty")

def missingObservation (projectId runId : String) : Except ObserveError RunObservation :=
  if hids : (isBlank projectId || isBlank runId) = false then
    .ok {
      projectId, runId
      source := "dagster"
      evidenceState := some .missing
      lookupOutcome := .absent
      ids_valid := hids }
  else .error (.valueError "project_id and run_id must be non-empty")

/-- `observe_run` -/
def DagsterRunEvidenceSource.observeRun (d : StableDigest) (source : DagsterRunEvidenceSource)
    (projectId runId : String) : Except ObserveError RunObservation :=
  if projectId ≠ source.projectId then
    .error (.valueError "Dagster event source is configured for another project")
  else match source.dagster.getRunById runId with
  | .error _ => .error (.unavailable
      "Dagster run lookup was unavailable; reconciliation did not change the run")
  | .ok none => missingObservation projectId runId
  | .ok (some run) => do
    let logicalRunId ← source.logicalRunId run
    let attempt ← attempt source.dagster run
    let record ← (source.dagster.getRunRecordById runId).mapError fun _ => ObserveError.unavailable
      "Dagster run-record lookup was unavailable; reconciliation did not change the run"
    let entries ← eventRecords source.dagster runId
    source.observation d projectId runId logicalRunId attempt run record entries

end Phlo.RunEvidence
