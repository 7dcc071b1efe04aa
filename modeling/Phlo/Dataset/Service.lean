import Phlo.Dataset.Store

/-!
# The Dataset transition service

`DatasetService.transition` as a program over the store's operations: it validates the request, then up
to three times reads the record, compares the expected state, looks the action up, checks the state
machine, asks the policy and tries a compare-and-set.  A result of `error` is a raised exception; what
the injected sources raise ends a call like a client that gives up.
-/

namespace Phlo.Dataset

open Phlo.Library Phlo.Library.Program

/-- The result of a call: an outcome, or the message of a raised exception. -/
abbrev TransitionResult := Except String TransitionOutcome

abbrev ServiceProgram := Program DatasetOp TransitionResult

def maxCasAttempts : ℕ := 3

/-- `_outcome`: every attempt appends an audit event. -/
def finishWith (request : TransitionRequest) (status : TransitionStatus)
    (beforeState afterState : Option String) (record : Option DatasetStateRecord) (message : String)
    (auditOutcome : String) (verdict : Option PolicyVerdict) : ServiceProgram := do
  let audit : TransitionAuditEvent :=
    { actor := request.actor
      scope := request.scope
      actionId := request.actionId
      resourceId := request.resourceId
      action := request.action
      beforeState, afterState
      outcome := if auditOutcome = "" then status.value else auditOutcome
      detail := message }
  perform (.appendAudit audit)
  return .ok { request, status, beforeState, afterState, record, verdict, message, audit }

/-- `_failed_outcome` -/
def failedOutcome (request : TransitionRequest) (status : TransitionStatus) (message : String)
    (beforeState afterState : Option String) (verdict : Option PolicyVerdict) : ServiceProgram :=
  finishWith request status beforeState afterState none message "" verdict

/-- `_replay_outcome` -/
def replayOutcome (request : TransitionRequest) (committed : CommittedAction) (beforeState : String) :
    ServiceProgram := do
  if committed.fingerprint = request.fingerprint then
    let record ← perform (.load request.resourceId)
    finishWith request .replayed (some beforeState) committed.afterState record
      ("Action " ++ quoted request.action ++ " already committed; replaying outcome.") "replayed" none
  else
    failedOutcome request .conflict
      ("action_id " ++ quoted request.actionId ++ " was already committed with a different request.")
      (some beforeState) none none

def fromStates (resource : DatasetId) (action : String) : Option (List String) :=
  if resource.isCandidate then (workflowTransitions action).map Prod.fst
  else (publicationTransitions action).map Prod.fst

/-- `_state_machine_check`: none when the action is allowed, else the message. -/
def stateMachineCheck (resource : DatasetId) (action currentState : String) : Option String :=
  match fromStates resource action with
  | none => some ("Action " ++ quoted action ++ " is not a recognized transition.")
  | some states =>
    if states.contains currentState then none
    else some ("Action " ++ quoted action ++ " is not allowed from state " ++ quoted currentState ++
      " for " ++ resource.text ++ ".")

/-- `allowed_transitions` -/
def allowedTransitions (s : Store) (datasetId : String) : Except String (List String) :=
  match validatedResourceId datasetId with
  | .error message => .error message
  | .ok resource =>
    let listed := fun actions current => (actions.filter fun action =>
      (fromStates resource action).any (·.contains current)).mergeSort
    match resource, s.records resource.text with
    | .candidate _, record => .ok (listed workflowActions (record.elim workflowStateOpen DatasetStateRecord.currentState))
    | .promoted _, none => .ok []
    | .promoted _, some record => .ok (listed publicationActions record.currentState)

def isIdempotentPublish (resource : DatasetId) (action currentState : String) : Bool :=
  !resource.isCandidate && action == "publish" && currentState == PublicationState.published.value

/-- `a or b` -/
def orElse (a b : Option String) : Option String := if a.any (· ≠ "") then a else b

def nextCandidate (table : TableKey) (state : WorkflowState) (owner : Option String)
    (policyVersion : String) (schemaVersion : ℤ) (actionId : String) : CandidateRecord where
  tableId := table
  state := state
  owner := owner
  approvalState := some state.value
  policyVersion := some policyVersion
  schemaVersion := schemaVersion
  lastActionId := some actionId
  promoted_only h := by cases h

def promotedCandidate (table : TableKey) (owner : Option String) (policyVersion : String)
    (schemaVersion : ℤ) (actionId : String) : CandidateRecord where
  tableId := table
  state := .promoted
  owner := owner
  approvalState := some WorkflowState.review.value
  promotedDatasetId := some table.name
  publicationState := some PublicationState.draft.value
  policyVersion := some policyVersion
  schemaVersion := schemaVersion
  lastActionId := some actionId
  promoted_only _ := rfl

def promotedDataset (table : TableKey) (owner : Option String) (policyVersion actionId : String) :
    DatasetRecord where
  tableId := table
  publicationState := .draft
  owner := owner
  approvalState := some WorkflowState.review.value
  policyVersion := some policyVersion
  lastActionId := some actionId

def nextDataset (record : DatasetRecord) (state : PublicationState) (policyVersion actionId : String) :
    DatasetRecord where
  tableId := record.tableId
  publicationState := state
  owner := record.owner
  approvalState := some state.value
  policyVersion := some policyVersion
  schemaVersion := record.schemaVersion
  lastActionId := some actionId

/-- `_plan_writes`; the errors are unreachable after the state machine check. -/
def planWrites (resource : DatasetId) (request : TransitionRequest) (record : Option DatasetStateRecord)
    (policyVersion : String) : Except String WriteBatch :=
  let expected := some (record.elim workflowStateOpen DatasetStateRecord.currentState)
  match resource with
  | .candidate table =>
    match workflowTransitions request.action with
    | none => .error (quoted request.action)
    | some (_, toState) =>
      let owner := record.elim (orElse request.owner request.actor) DatasetStateRecord.owner
      let schemaVersion := record.elim datasetStateSchemaVersion DatasetStateRecord.schemaVersion
      if toState = .promoted then
        .ok
          { before := [{
              recordId := resource.text
              expectedState := expected
              nextRecord := .candidate
                (promotedCandidate table owner policyVersion schemaVersion request.actionId) }]
            last :=
              { recordId := table.name
                expectedState := some workflowStateOpen
                nextRecord := .dataset (promotedDataset table owner policyVersion request.actionId) } }
      else
        .ok
          { last :=
              { recordId := resource.text
                expectedState := expected
                nextRecord := .candidate
                  (nextCandidate table toState owner policyVersion schemaVersion request.actionId) } }
  | .promoted _ =>
    match publicationTransitions request.action, record with
    | some (_, toState), some (.dataset record) =>
      .ok
        { last :=
            { recordId := resource.text
              expectedState := expected
              nextRecord := .dataset (nextDataset record toState policyVersion request.actionId) } }
    | none, _ => .error (quoted request.action)
    | _, some (.candidate _) => .error "DatasetRecord dataset_id must be the promoted <table_id> form"
    | _, none => .error ""

/-- The part of an attempt that follows the compare-and-set; `retry` is the next attempt. -/
def afterWrite (resource : DatasetId) (request : TransitionRequest) (beforeState : String)
    (verdict : PolicyVerdict) (retry : ServiceProgram) (result : StoreWriteResult) : ServiceProgram :=
  let after := result.records.getLast?
  let afterState := after.elim beforeState DatasetStateRecord.currentState
  match result.status with
  | .preconditionFailed => retry
  | .replayed => do
    let _ ← perform (.committedAction resource.text request.actionId)
    finishWith request .replayed (some beforeState) (some afterState) after
      (if result.detail = "" then "Transition already committed; replaying outcome."
        else result.detail) "replayed" none
  | .actionConflict =>
    failedOutcome request .conflict
      (if result.detail = "" then "action_id already committed for this record." else result.detail)
      (some beforeState) none none
  | .committed =>
    finishWith request .committed (some beforeState) (some afterState) after
      (if result.detail = "" then
        quoted request.action ++ " committed for " ++ resource.text ++ "." else result.detail)
      "committed" (some verdict)

/-- The part of an attempt that follows the lookup of the action. -/
def checkAndWrite (resource : DatasetId) (request : TransitionRequest)
    (record : Option DatasetStateRecord) (beforeState : String) (retry : ServiceProgram) : ServiceProgram :=
  match stateMachineCheck resource request.action beforeState with
  | some message =>
    if isIdempotentPublish resource request.action beforeState then
      failedOutcome request .idempotent
        (resource.text ++ " is already published; reporting the existing state.")
        (some beforeState) (some beforeState) none
    else failedOutcome request .conflict message (some beforeState) none none
  | none => do
    let verdict ← perform (.readiness resource.text request.action)
    if !verdict.ready then
      failedOutcome request .blocked
        ("Policy blocked " ++ quoted request.action ++ " on " ++ resource.text ++ ".")
        (some beforeState) none (some verdict)
    else
      match planWrites resource request record verdict.policyVersion with
      | .error message => return .error message
      | .ok batch => do
        let result ← perform
          (.compareAndSet batch request.actionId request.action request.fingerprint)
        afterWrite resource request beforeState verdict retry result

/-- The attempts of `transition`. -/
def attempt (resource : DatasetId) (request : TransitionRequest) : ℕ → ServiceProgram
  | 0 => failedOutcome request .conflict
      ("Concurrent modification of " ++ resource.text ++ "; retry after re-reading its current state.")
      none none none
  | n + 1 => do
    let record ← perform (.load resource.text)
    let beforeState := record.elim workflowStateOpen DatasetStateRecord.currentState
    if request.expectedState ≠ none ∧ request.expectedState ≠ some beforeState then
      failedOutcome request .conflict
        ("Expected state " ++ request.expectedState.elim "None" quoted ++ " for " ++ resource.text ++
          ", found " ++ quoted beforeState ++ ".")
        (some beforeState) none none
    else do
      let committed ← perform (.committedAction resource.text request.actionId)
      match committed with
      | some committed => replayOutcome request committed beforeState
      | none => checkAndWrite resource request record beforeState (attempt resource request n)

/-- `DatasetService.transition` -/
def transition (request : TransitionRequest) : ServiceProgram :=
  match validatedResourceId request.resourceId with
  | .error message => return .error message
  | .ok resource =>
    let validActions := if resource.isCandidate then workflowActions else publicationActions
    if validActions.contains request.action then attempt resource request maxCasAttempts
    else failedOutcome request .conflict
      ("Action " ++ quoted request.action ++ " is not valid for " ++ resource.text ++ ".")
      none none none

end Phlo.Dataset
