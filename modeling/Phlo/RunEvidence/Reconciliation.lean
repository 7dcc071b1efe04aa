import Mathlib.Data.Prod.Lex
import Phlo.RunEvidence.Stored

/-!
# Evaluating an observation against durable evidence

`evaluateReconciliation` turns a provider observation, a profile of required evidence and the stored
rows of the run into a decision.  It is written as the source computes it: five collectors of gaps,
the strongest evidence state, the outcome of the run, and the two digests that identify the decision.

Durations are counted in microseconds.  The stored run row is not an argument: the source passes it
but never reads it.
-/

namespace Phlo.RunEvidence

open Phlo.Library

/-- The truth value of an optional text: present and not empty. -/
def truthy (s : Option String) : Bool := s.any (· != "")

/-- `value.strip().lower()` -/
def stripLower (s : String) : String := String.ofList (lower (strip s.toList))

/-! ### Profiles and observations -/

/-- The keys of `record_rows` a requirement can name. -/
inductive EvidenceFamily where
  | resource | catalogChange | qualityResult | artifact
  deriving DecidableEq, Repr

namespace EvidenceFamily

def value : EvidenceFamily → String
  | resource => "resource"
  | catalogChange => "catalog_change"
  | qualityResult => "quality_result"
  | artifact => "artifact"

def statuses : EvidenceFamily → List String
  | resource => []
  | artifact => ["complete", "incomplete", "missing", "expired", "redacted"]
  | qualityResult => ["passed", "failed"]
  | catalogChange => ["merged", "failed", "conflict", "skipped", "cancelled"]

end EvidenceFamily

structure RequiredEvidenceStage where
  stageType : String
  provider : Option String := none
  requiredEventTypes : List String := []
  requiredStatus : Option String := none
  allowedStatuses : List String := []
  allowNoData : Bool := false
  stageType_valid : isBlank stageType = false := by exact Eq.refl false
  statuses_exclusive : (truthy requiredStatus && !allowedStatuses.isEmpty) = false := by exact Eq.refl false

structure RequiredEvidenceRecord where
  family : EvidenceFamily
  minimum : ℕ := 1
  requiredStatus : Option String := none
  minimum_pos : 0 < minimum := by first | exact Nat.one_pos | exact Nat.succ_pos _
  requiredStatus_valid :
    (requiredStatus.all fun s => family.statuses.contains (stripLower s)) = true := by exact Eq.refl true

structure RequiredEvidenceProfile where
  profileId : String
  version : String
  pipelineName : Option String := none
  provider : Option String := none
  stages : List RequiredEvidenceStage := []
  runTerminalEventTypes : List String := ["run.terminal"]
  requiredRunFields : List String := ["status", "started_at", "finished_at", "provider_run_id"]
  requiredRecords : List RequiredEvidenceRecord := []
  ids_valid : (isBlank profileId || isBlank version) = false := by exact Eq.refl false

inductive RunLookupOutcome where
  | present | absent
  deriving DecidableEq, Repr

/-- `status` is what `normalize_status` made of the provider's text. -/
structure RunObservation where
  projectId : String
  runId : String
  attempt : ℕ := 1
  pipelineName : Option String := none
  provider : Option String := none
  providerRunId : Option String := none
  status : Option RunStatus := none
  startedAt : Option Timestamp := none
  finishedAt : Option Timestamp := none
  heartbeatAt : Option Timestamp := none
  source : String := "unknown"
  events : List RunEvent := []
  stages : List RunStage := []
  evidenceState : Option EvidenceCompleteness := none
  lookupOutcome : RunLookupOutcome := .present
  ids_valid : (isBlank projectId || isBlank runId) = false := by exact Eq.refl false
  attempt_pos : 0 < attempt := by first | exact Nat.one_pos | exact Nat.succ_pos _
  timestamps_aware : (startedAt.all Timestamp.aware && finishedAt.all Timestamp.aware &&
    heartbeatAt.all Timestamp.aware) = true := by exact Eq.refl true

/-- The arguments of `evaluate_reconciliation`; `recordRows` is a dict in insertion order. -/
structure ReconciliationInput where
  observation : RunObservation
  profile : RequiredEvidenceProfile
  eventRows : List StoredEvent := []
  stageRows : List StoredStage := []
  recordRows : List (String × List StoredRecord) := []
  now : Timestamp
  staleAfter : Option ℤ := none
  clockSkew : ℤ := 60000000

structure ReconciliationDecision where
  decisionId : Sha256
  projectId : String
  runId : String
  attempt : ℕ
  profileId : String
  profileVersion : String
  status : RunStatus
  evidenceCompleteness : EvidenceCompleteness
  reason : String
  missingEvidence : List String
  evidenceChecksum : Sha256
  observedEventCount : ℕ
  source : String
  heartbeatAt : Option Timestamp
  staleAfterSeconds : Option ℤ
  decidedAt : Timestamp
  finishedAt : Option Timestamp
  deriving DecidableEq

/-! ### Reading events -/

/-- One comparison of `max`: an earlier state is kept unless a later one ranks higher. -/
def stronger (best : Option EvidenceCompleteness) (state : EvidenceCompleteness) : Option EvidenceCompleteness :=
  match best with
  | none => some state
  | some best => if best.precedence < state.precedence then some state else some best

/-- `_strongest_evidence_state`: the first state of the highest precedence. -/
def strongestEvidenceState (states : List (Option EvidenceCompleteness)) : Option EvidenceCompleteness :=
  (states.filterMap id).foldl stronger none

/-- `_event_is_no_data` -/
def eventIsNoData (event : StoredEvent) : Bool :=
  event.eventType == "run.no_data" || event.eventType == "pipeline.no_data" || event.payload.noData

/-- `_event_status` -/
def eventStatus (event : StoredEvent) : Option RunStatus :=
  event.payload.status.or event.payload.runStatus

/-- `row.stage_id or row.payload.stage_id or None` -/
def eventStage (event : StoredEvent) : Option String :=
  if truthy event.stageId then event.stageId
  else if truthy event.payload.stageId then event.payload.stageId
  else none

/-- `event_statuses.get((event_type, stage_id), set())` -/
def eventStatuses (attemptEvents : List StoredEvent) (eventType : String) (stageId : Option String) :
    List (Option RunStatus) :=
  (attemptEvents.filter fun row => row.eventType == eventType && eventStage row == stageId).map
    eventStatus

/-! ### The collectors -/

/-- `_collect_event_timing_gaps` on one stage row. -/
def stageTimingGaps (now : Timestamp) (clockSkew : ℤ) (row : StoredStage) : List String :=
  let inFuture (t : Option Timestamp) := t.any fun t => now.instant + clockSkew < t.instant
  (if inFuture row.startedAt then [s!"stage:{row.stageId}:started_at_in_future"] else []) ++
  (if inFuture row.finishedAt then [s!"stage:{row.stageId}:finished_at_in_future"] else []) ++
  (if row.startedAt.any fun started => row.finishedAt.any fun finished =>
      finished.instant < started.instant
    then [s!"stage:{row.stageId}:finished_before_started"] else [])

def collectEventTimingGaps (attemptEvents : List StoredEvent) (now : Timestamp) (clockSkew : ℤ)
    (attemptStages : List StoredStage) : List String :=
  ((attemptEvents.filter fun row => now.instant + clockSkew < row.observedAt.instant).map fun row =>
    s!"event:{row.eventId}:timestamp_in_future") ++
  attemptStages.flatMap (stageTimingGaps now clockSkew)

/-- `value is None or value == ""` for a field a profile requires; unknown fields are missing. -/
def isRunFieldMissing (observation : RunObservation) (fieldName : String) : Bool :=
  match fieldName with
  | "status" => observation.status.isNone
  | "started_at" => observation.startedAt.isNone
  | "finished_at" => observation.finishedAt.isNone
  | "provider_run_id" => !truthy observation.providerRunId
  | "pipeline_name" => !truthy observation.pipelineName
  | "provider" => !truthy observation.provider
  | _ => true

/-- The events that can end a run. -/
def terminalEvents (profile : RequiredEvidenceProfile) (attemptEvents : List StoredEvent) : List StoredEvent :=
  attemptEvents.filter fun row => profile.runTerminalEventTypes.contains row.eventType

def collectRunTerminalGaps (attemptEvents : List StoredEvent) (profile : RequiredEvidenceProfile)
    (status : Option RunStatus) (noData : Bool) (observation : RunObservation) : List String :=
  let terminalEvents := terminalEvents profile attemptEvents
  if status.any RunStatus.isTerminal then
    (if terminalEvents.isEmpty && !(status == some .noData && noData)
      then profile.runTerminalEventTypes.map fun eventType => s!"event:{eventType}" else []) ++
    (if terminalEvents.any fun row => (eventStatus row).isSome && eventStatus row != status
      then ["event:contradictory_run_terminal_status"] else []) ++
    (profile.requiredRunFields.filter (isRunFieldMissing observation)).map fun fieldName =>
      s!"run:{fieldName}"
  else []

namespace RequiredEvidenceStage

variable (requirement : RequiredEvidenceStage)

/-- The stage rows of the type, and of the provider when one is required. -/
def matchingStages (attemptStages : List StoredStage) : List StoredStage :=
  attemptStages.filter fun row => row.stageType == requirement.stageType &&
    requirement.provider.all fun provider => row.provider == some provider

/-- `requirement.allowed_statuses or ((requirement.required_status,) if ... else ())` -/
def expectedStatuses : List String :=
  if requirement.allowedStatuses.isEmpty then
    (if truthy requirement.requiredStatus then requirement.requiredStatus.toList else [])
  else requirement.allowedStatuses

/-- `{normalize_status(value) for value in expected_statuses}` -/
def normalizedExpected : List RunStatus :=
  requirement.expectedStatuses.map fun value => (RunStatus.parse value).getD .unsupported

def attributedStatuses (attemptEvents : List StoredEvent) (matching : List StoredStage)
    (eventType : String) : List (Option RunStatus) :=
  matching.flatMap (fun row => eventStatuses attemptEvents eventType (some row.stageId)) ++
    (if matching.length = 1 then eventStatuses attemptEvents eventType none else [])

def isEventSatisfied (attemptEvents : List StoredEvent) (matching : List StoredStage)
    (eventType : String) : Bool :=
  let statuses := attributedStatuses attemptEvents matching eventType
  !statuses.isEmpty &&
    (requirement.normalizedExpected.isEmpty ||
      (statuses.any fun status => status.any requirement.normalizedExpected.contains) ||
      (statuses.contains none && matching.length == 1 &&
        matching.all fun row => requirement.normalizedExpected.contains row.status))

/-- `_collect_stage_gaps` on one requirement. -/
def stageGaps (attemptEvents : List StoredEvent) (attemptStages : List StoredStage) (noData : Bool) : List String :=
  let matching := requirement.matchingStages attemptStages
  let waived := noData && requirement.allowNoData
  let expected := "|".intercalate requirement.expectedStatuses
  if matching.isEmpty && !waived then [s!"stage:{requirement.stageType}"]
  else
    (if !requirement.expectedStatuses.isEmpty && !matching.isEmpty &&
        !matching.any fun row => requirement.normalizedExpected.contains row.status
      then [s!"stage_status:{requirement.stageType}={expected}"] else []) ++
    (requirement.requiredEventTypes.filter fun eventType =>
      !requirement.isEventSatisfied attemptEvents matching eventType && !waived).map fun eventType =>
        s!"event:{eventType}"

end RequiredEvidenceStage

/-- `_collect_stage_gaps` -/
def collectStageGaps (profile : RequiredEvidenceProfile) (attemptEvents : List StoredEvent)
    (attemptStages : List StoredStage) (noData : Bool) : List String :=
  profile.stages.flatMap fun requirement =>
    requirement.stageGaps attemptEvents attemptStages noData

/-- An artifact whose retention ran out: past `expires_at`, not redacted and not on hold. -/
def StoredRecord.isExpiredArtifact (now : Timestamp) (row : StoredRecord) : Bool :=
  match row.family with
  | .artifact status (some expiresAt) legalHold =>
    expiresAt.instant ≤ now.instant && status != .redacted && !legalHold
  | _ => false

namespace RequiredEvidenceRecord

variable (requirement : RequiredEvidenceRecord)

/-- `record_rows.get(requirement.family, [])` -/
def rows (recordRows : List (String × List StoredRecord)) : List StoredRecord :=
  (recordRows.lookup requirement.family.value).getD []

/-- The gaps `_collect_record_gaps` adds for one requirement. -/
def gaps (rows : List StoredRecord) (now : Timestamp) : List String :=
  (if rows.length < requirement.minimum
    then [s!"{requirement.family.value}:minimum:{requirement.minimum}"] else []) ++
  (match requirement.requiredStatus with
    | some status =>
      if status != "" && !rows.any fun row => row.evidenceStatus == some (stripLower status)
      then [s!"{requirement.family.value}:status:{status}"] else []
    | none => []) ++
  ((rows.filter fun row => row.evidenceCompleteness == some .incomplete).map fun _ =>
    s!"{requirement.family.value}:incomplete") ++
  (if requirement.family == .artifact
    then (rows.filter (StoredRecord.isExpiredArtifact now)).map fun _ => "artifact:expired" else [])

/-- The states `_collect_record_gaps` adds for one requirement. -/
def states (rows : List StoredRecord) (now : Timestamp) : List EvidenceCompleteness :=
  let statuses := rows.map StoredRecord.evidenceStatus
  (if statuses.contains (some "redacted") then [.redacted]
    else if statuses.contains (some "expired") then [.expired]
    else if statuses.contains (some "missing") then [.missing] else []) ++
  (if requirement.family == .artifact
    then (rows.filter (StoredRecord.isExpiredArtifact now)).map fun _ => .expired else [])

end RequiredEvidenceRecord

/-- The gaps of `_collect_record_gaps`. -/
def collectRecordGaps (profile : RequiredEvidenceProfile)
    (recordRows : List (String × List StoredRecord)) (now : Timestamp) : List String :=
  profile.requiredRecords.flatMap fun requirement =>
    requirement.gaps (requirement.rows recordRows) now

/-- The states of `_collect_record_gaps`. -/
def collectRecordStates (profile : RequiredEvidenceProfile)
    (recordRows : List (String × List StoredRecord)) (now : Timestamp) : List EvidenceCompleteness :=
  profile.requiredRecords.flatMap fun requirement =>
    requirement.states (requirement.rows recordRows) now

/-- `_RunTiming` -/
structure RunTiming where
  missing : List String
  invalidHeartbeat : Bool
  futureEndpoint : Bool

/-- `_run_timing_gaps` -/
def runTimingGaps (now : Timestamp) (clockSkew : ℤ) (observation : RunObservation)
    (heartbeat : Option Timestamp) : RunTiming :=
  let futureCutoff := now.instant + clockSkew
  let invalidTiming := observation.startedAt.any fun started =>
    observation.finishedAt.any fun finished => finished.instant < started.instant
  let futureStarted := observation.startedAt.any fun t => futureCutoff < t.instant
  let futureFinished := observation.finishedAt.any fun t => futureCutoff < t.instant
  let invalidHeartbeat := heartbeat.any fun heartbeat => futureCutoff < heartbeat.instant ||
    observation.startedAt.any fun started => heartbeat.instant < started.instant
  { missing :=
      (if invalidTiming then ["run:finished_before_started"] else []) ++
      (if futureStarted then ["run:started_at_in_future"] else []) ++
      (if futureFinished then ["run:finished_at_in_future"] else []) ++
      (if invalidHeartbeat then ["run:invalid_heartbeat"] else [])
    invalidHeartbeat
    futureEndpoint := futureStarted || futureFinished }

/-! ### The outcome of the run -/

/-- What `_resolve_run_outcome` returns; finish time, heartbeat and stale seconds are copied from
the arguments. -/
structure RunOutcome where
  status : RunStatus
  reason : String
  completeness : EvidenceCompleteness

def resolveNonterminal (heartbeat : Option Timestamp) (timing : RunTiming) (now : Timestamp)
    (staleAfter : Option ℤ) (status : RunStatus) : RunStatus × String :=
  let expired := staleAfter.any fun staleAfter => heartbeat.any fun heartbeat =>
    staleAfter ≤ now.instant - heartbeat.instant
  if timing.invalidHeartbeat then (status, "invalid_heartbeat")
  else if timing.futureEndpoint then (status, "invalid_timing")
  else if expired then (.abandoned, "heartbeat_expired")
  else if heartbeat.isSome then (status, "awaiting_terminal_evidence")
  else (status, "missing_heartbeat")

def terminalReason (completeness : EvidenceCompleteness)
    (explicitState : Option EvidenceCompleteness) (missing : List String) : String :=
  if completeness = .complete then "complete"
  else if explicitState.isSome then
    ",".intercalate (("source_evidence_" ++ completeness.value) :: missing)
  else ",".intercalate ("missing_required_evidence" :: missing)

/-- `_resolve_run_outcome`, after `timing.missing` has been appended to `missing`. -/
def resolveRunOutcome (completeness : EvidenceCompleteness) (heartbeat : Option Timestamp)
    (timing : RunTiming) (now : Timestamp) (missing : List String)
    (explicitState : Option EvidenceCompleteness) (staleAfter : Option ℤ) (status : Option RunStatus) : RunOutcome :=
  let degraded := explicitState.any EvidenceCompleteness.degraded
  let completeness :=
    if !timing.missing.isEmpty && !degraded then .incomplete else completeness
  match status with
  | none =>
    ⟨.unknown, "missing_provider_status", if degraded then completeness else .incomplete⟩
  | some status =>
    if !status.isTerminal && !status.isNonterminal then
      ⟨.unsupported, "unsupported_provider_status", .incomplete⟩
    else if !status.isTerminal then
      let resolved := resolveNonterminal heartbeat timing now staleAfter status
      ⟨resolved.1, resolved.2, if degraded then completeness else .incomplete⟩
    else ⟨status, terminalReason completeness explicitState missing, completeness⟩

/-! ### `evaluate_reconciliation` -/

/-- `int(duration.total_seconds())` -/
def totalSeconds (microseconds : ℤ) : ℤ := microseconds.tdiv 1000000

namespace ReconciliationInput

variable (x : ReconciliationInput)

def attemptEvents : List StoredEvent :=
  x.eventRows.filter fun row => row.attempt == x.observation.attempt

def attemptStages : List StoredStage :=
  x.stageRows.filter fun row => row.attempt == x.observation.attempt

def taggedNoData : Bool := x.attemptEvents.any eventIsNoData

def successfulEvent : Bool :=
  (terminalEvents x.profile x.attemptEvents).any fun row => eventStatus row == some .success

def successfulTerminal : Bool :=
  x.observation.status == some .success || x.observation.status == some .noData ||
    (!x.observation.status.any RunStatus.isTerminal && x.successfulEvent)

/-- A no-data tag only downgrades a successful termination. -/
def noData : Bool := x.taggedNoData && x.successfulTerminal

/-- The observed status, with a successful no-data run downgraded. -/
def status : Option RunStatus :=
  if x.observation.status = some .success ∧ x.noData = true then some .noData
  else x.observation.status

def timingGaps : List String :=
  collectEventTimingGaps x.attemptEvents x.now x.clockSkew x.attemptStages

def terminalGaps : List String :=
  collectRunTerminalGaps x.attemptEvents x.profile x.status x.noData x.observation

def stageGaps : List String :=
  collectStageGaps x.profile x.attemptEvents x.attemptStages x.noData

def recordGaps : List String := collectRecordGaps x.profile x.recordRows x.now

/-- The gaps found before the outcome of the run is resolved. -/
def collectedGaps : List String := x.timingGaps ++ x.terminalGaps ++ x.stageGaps ++ x.recordGaps

def runTiming : RunTiming := runTimingGaps x.now x.clockSkew x.observation x.observation.heartbeatAt

/-- `missing`, with the gaps of the run's own timestamps. -/
def missing : List String := x.collectedGaps ++ x.runTiming.missing

def explicitState : Option EvidenceCompleteness :=
  let recordStates := collectRecordStates x.profile x.recordRows x.now
  strongestEvidenceState
    [x.observation.evidenceState, strongestEvidenceState (recordStates.map some)]

/-- The completeness before the outcome of the run is resolved. -/
def initialCompleteness : EvidenceCompleteness :=
  match x.explicitState with
  | some state => if state.degraded then state
    else if x.collectedGaps.isEmpty then .complete else .incomplete
  | none => if x.collectedGaps.isEmpty then .complete else .incomplete

def outcome : RunOutcome :=
  resolveRunOutcome x.initialCompleteness x.observation.heartbeatAt x.runTiming x.now x.missing
    x.explicitState x.staleAfter x.status

def staleSeconds : Option ℤ := x.staleAfter.map totalSeconds

def eventEvidence (row : StoredEvent) : Json :=
  .obj [("producer", .str row.producer), ("event_id", .str row.eventId),
    ("event_type", .str row.eventType), ("schema_version", .str row.schemaVersion),
    ("stage_id", .ofText row.stageId), ("observed_at", .instant row.observedAt),
    ("sequence", .ofInt row.sequence), ("attempt", .int row.attempt),
    ("payload_checksum", row.payloadChecksum.json)]

def stageEvidence (row : StoredStage) : Json :=
  .arr [.str row.stageId, .str row.stageType, .ofText row.provider, .ofText row.tool,
    .ofText row.asset, .int row.attempt, row.recordChecksum.json, .str row.status.value,
    .ofInstant row.startedAt, .ofInstant row.finishedAt, row.metrics, .ofText row.error]

/-- The rows of one family.  Record identifiers are distinct within a family, so the checksum the
source sorts by in the second place never decides. -/
def recordEvidence (rows : List StoredRecord) : Json :=
  .arr ((sortBy StoredRecord.recordId rows).map fun row =>
    .obj [("id", .str row.recordId), ("record_checksum", row.recordChecksum.json)])

def sortedEvents : List StoredEvent :=
  sortBy (fun row => toLex (row.producer, row.eventId)) x.attemptEvents

def sortedStages : List StoredStage := sortBy StoredStage.stageId x.attemptStages

/-- What `evidence_checksum` digests. -/
def evidencePayload : Dict :=
  [("project_id", .str x.observation.projectId),
    ("run_id", .str x.observation.runId),
    ("attempt", .int x.observation.attempt),
    ("status", .str x.outcome.status.value),
    ("provider_status", .ofText (x.observation.status.map RunStatus.value)),
    ("started_at", .ofInstant x.observation.startedAt),
    ("finished_at", .ofInstant x.observation.finishedAt),
    ("heartbeat_at", .ofInstant x.observation.heartbeatAt),
    ("events", .arr (x.sortedEvents.map eventEvidence)),
    ("stages", .arr (x.sortedStages.map stageEvidence)),
    ("records", .obj ((sortBy Prod.fst x.recordRows).map fun family =>
      (family.1, recordEvidence family.2))),
    ("source", .str x.observation.source),
    ("pipeline_name", .ofText x.observation.pipelineName),
    ("provider", .ofText x.observation.provider),
    ("provider_run_id", .ofText x.observation.providerRunId),
    ("evidence_state", .ofText (x.explicitState.map EvidenceCompleteness.value)),
    ("missing_evidence", .ofTexts (sortedSet x.missing)),
    ("timing_policy_seconds", .int (totalSeconds x.clockSkew)),
    ("profile", .ofTexts [x.profile.profileId, x.profile.version]),
    ("reason", .str x.outcome.reason)]

def evidenceChecksum : Sha256 := payloadChecksum (.obj x.evidencePayload)

/-- What `decision_id` digests. -/
def identityPayload : Dict :=
  [("project_id", .str x.observation.projectId),
    ("run_id", .str x.observation.runId),
    ("attempt", .int x.observation.attempt),
    ("profile_id", .str x.profile.profileId),
    ("profile_version", .str x.profile.version),
    ("evidence_checksum", x.evidenceChecksum.json)]

def decisionId : Sha256 := payloadChecksum (.obj x.identityPayload)

def decision : ReconciliationDecision where
  decisionId := x.decisionId
  projectId := x.observation.projectId
  runId := x.observation.runId
  attempt := x.observation.attempt
  profileId := x.profile.profileId
  profileVersion := x.profile.version
  status := x.outcome.status
  evidenceCompleteness := x.outcome.completeness
  reason := x.outcome.reason
  missingEvidence := x.missing
  evidenceChecksum := x.evidenceChecksum
  observedEventCount := x.attemptEvents.length
  source := x.observation.source
  heartbeatAt := x.observation.heartbeatAt
  staleAfterSeconds := x.staleSeconds
  decidedAt := x.now
  finishedAt := x.observation.finishedAt

end ReconciliationInput

/-- `evaluate_reconciliation`; the error is the text of its `ValueError`. -/
def evaluateReconciliation (x : ReconciliationInput) : Except String ReconciliationDecision :=
  if !x.now.aware then .error "reconciliation time must be timezone-aware"
  else if x.clockSkew < 0 then .error "clock skew must not be negative"
  else if truthy x.profile.pipelineName && x.observation.pipelineName != x.profile.pipelineName then
    .error "evidence profile does not match the observed pipeline"
  else if truthy x.profile.provider && x.observation.provider != x.profile.provider then
    .error "evidence profile does not match the observed provider"
  else .ok x.decision

end Phlo.RunEvidence
