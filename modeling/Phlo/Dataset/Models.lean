import Phlo.RunEvidence.Json
import Phlo.RunEvidence.TextRedaction

/-!
# Datasets: identity, records and state machines

A candidate has the id `candidate:<table_id>` and goes through the workflow states, a promoted Dataset
has its table key as id and goes through the publication states.  Ids are texts in the source and are
checked on the way in; `DatasetId` is an id that has passed, and `text` gives the text back.

A record determines its id: what the constructors check of `dataset_id` holds by construction.
-/

namespace Phlo.Dataset

open Phlo.RunEvidence (Dict strip)

/-! ### States -/

/-- `WORKFLOW_STATE_OPEN`: no record exists. -/
def workflowStateOpen : String := "open"

inductive WorkflowState where
  | claimed | review | promoted | rejected
  deriving DecidableEq, Repr

def WorkflowState.value : WorkflowState → String
  | claimed => "claimed"
  | review => "review"
  | promoted => "promoted"
  | rejected => "rejected"

inductive PublicationState where
  | draft | published | retired
  deriving DecidableEq, Repr

def PublicationState.value : PublicationState → String
  | draft => "draft"
  | published => "published"
  | retired => "retired"

def workflowActions : List String := ["claim", "review", "promote", "reject"]

def publicationActions : List String := ["publish", "retire"]

def workflowTransitions : String → Option (List String × WorkflowState)
  | "claim" => some ([workflowStateOpen], .claimed)
  | "review" => some (["claimed"], .review)
  | "promote" => some (["review"], .promoted)
  | "reject" => some (["review"], .rejected)
  | _ => none

def publicationTransitions : String → Option (List String × PublicationState)
  | "publish" => some (["draft"], .published)
  | "retire" => some (["published"], .retired)
  | _ => none

/-! ### Identity -/

/-- `_validated_component`: not empty, not padded, without a colon. -/
def validTableKey (value : String) : Bool :=
  !value.toList.isEmpty && value.toList == strip value.toList && !value.toList.contains ':'

/-- A table key that has been validated. -/
structure TableKey where
  name : String
  valid : validTableKey name = true
  deriving DecidableEq

theorem TableKey.ext {s t : TableKey} (h : s.name = t.name) : s = t := by
  cases s
  cases t
  cases h
  rfl

def candidateIdPrefix : List Char := "candidate:".toList

def isCandidateDatasetId (datasetId : String) : Bool :=
  candidateIdPrefix.isPrefixOf datasetId.toList &&
    decide (candidateIdPrefix.length < datasetId.toList.length)

/-- A canonical Dataset id. -/
inductive DatasetId where
  | candidate (table : TableKey)
  | promoted (table : TableKey)
  deriving DecidableEq

namespace DatasetId

/-- `candidate_dataset_id`, and the table key itself for a promoted Dataset -/
def text : DatasetId → String
  | candidate table => String.ofList (candidateIdPrefix ++ table.name.toList)
  | promoted table => table.name

/-- `dataset_table_id` -/
def table : DatasetId → TableKey
  | candidate table => table
  | promoted table => table

def isCandidate : DatasetId → Bool
  | candidate _ => true
  | promoted _ => false

end DatasetId

def validatedResourceId (datasetId : String) : Except String DatasetId :=
  if datasetId = "" then .error "dataset_id is required"
  else if isCandidateDatasetId datasetId then
    let name := String.ofList (datasetId.toList.drop candidateIdPrefix.length)
    if h : validTableKey name = true then .ok (.candidate ⟨name, h⟩)
    else .error "dataset_id must be a non-empty table key without ':' separators"
  else if h : validTableKey datasetId = true then .ok (.promoted ⟨datasetId, h⟩)
  else .error "dataset_id must be a non-empty table key without ':' separators"

section

variable {datasetId : String} {resource : DatasetId}

theorem text_of_validated (h : validatedResourceId datasetId = .ok resource) : resource.text = datasetId := by
  unfold validatedResourceId at h
  split at h
  · cases h
  · split at h
    next hcandidate =>
      have hprefix := List.isPrefixOf_iff_prefix.1 (Bool.and_eq_true_iff.1 hcandidate).1
      obtain ⟨rest, hrest⟩ := hprefix
      dsimp only at h
      split at h
      · cases h
        rw [DatasetId.text, String.toList_ofList, ← hrest, List.drop_left, hrest, String.ofList_toList]
      · cases h
    · split at h
      · cases h
        rfl
      · cases h

theorem TableKey.noColon (t : TableKey) : ':' ∉ t.name.toList := by
  have hvalid := t.valid
  rw [validTableKey, Bool.and_eq_true_iff, Bool.not_eq_true'] at hvalid
  intro hmem
  rw [List.contains_iff_mem.2 hmem] at hvalid
  exact Bool.noConfusion hvalid.2

theorem TableKey.name_ne_empty (t : TableKey) : t.name.toList ≠ [] := by
  have hvalid := t.valid
  rw [validTableKey, Bool.and_eq_true_iff, Bool.and_eq_true_iff, Bool.not_eq_true',
    List.isEmpty_eq_false_iff] at hvalid
  exact hvalid.1.1

theorem promoted_not_candidate (t : TableKey) : isCandidateDatasetId t.name = false := by
  rw [isCandidateDatasetId, Bool.and_eq_false_iff]
  refine Or.inl (Bool.eq_false_iff.2 fun hprefix => t.noColon ?_)
  exact (List.isPrefixOf_iff_prefix.1 hprefix).subset (by decide)

theorem isCandidate_text (resource : DatasetId) : isCandidateDatasetId resource.text = resource.isCandidate := by
  cases resource with
  | promoted t => exact promoted_not_candidate t
  | candidate t =>
    have hlength := List.length_pos_of_ne_nil t.name_ne_empty
    rw [DatasetId.text, isCandidateDatasetId, String.toList_ofList, List.length_append,
      List.isPrefixOf_iff_prefix.2 (List.prefix_append _ _)]
    simp only [DatasetId.isCandidate, Bool.true_and, decide_eq_true_eq]
    omega

theorem text_injective : Function.Injective DatasetId.text := by
  intro a b h
  have hkind : a.isCandidate = b.isCandidate := by rw [← isCandidate_text, h, isCandidate_text]
  cases a with
  | candidate s =>
    cases b with
    | candidate t =>
      have hname := List.append_cancel_left (String.ofList_injective h)
      rw [TableKey.ext (String.toList_injective hname)]
    | promoted t => cases hkind
  | promoted s =>
    cases b with
    | candidate t => cases hkind
    | promoted t => rw [TableKey.ext (show s.name = t.name from h)]

end

/-! ### Records -/

def datasetStateSchemaVersion : ℤ := 2

/-- The durable workflow record of a candidate. -/
structure CandidateRecord where
  tableId : TableKey
  state : WorkflowState
  owner : Option String := none
  approvalState : Option String := none
  promotedDatasetId : Option String := none
  publicationState : Option String := none
  policyVersion : Option String := none
  schemaVersion : ℤ := datasetStateSchemaVersion
  lastActionId : Option String := none
  migrationNote : Option String := none
  legacyFields : Option Dict := none
  promoted_only : promotedDatasetId.isSome = true → state = .promoted := by
    intro h
    first | rfl | exact absurd h (by decide)

/-- The durable publication record of a promoted Dataset. -/
structure DatasetRecord where
  tableId : TableKey
  publicationState : PublicationState
  owner : Option String := none
  approvalState : Option String := none
  policyVersion : Option String := none
  schemaVersion : ℤ := datasetStateSchemaVersion
  lastActionId : Option String := none
  migrationNote : Option String := none
  legacyFields : Option Dict := none

inductive DatasetStateRecord where
  | candidate (record : CandidateRecord)
  | dataset (record : DatasetRecord)

namespace DatasetStateRecord

def datasetId : DatasetStateRecord → DatasetId
  | candidate r => .candidate r.tableId
  | dataset r => .promoted r.tableId

/-- `current_state`: what compare-and-set compares. -/
def currentState : DatasetStateRecord → String
  | candidate r => r.state.value
  | dataset r => r.publicationState.value

def owner : DatasetStateRecord → Option String
  | candidate r => r.owner
  | dataset r => r.owner

def schemaVersion : DatasetStateRecord → ℤ
  | candidate r => r.schemaVersion
  | dataset r => r.schemaVersion

end DatasetStateRecord

/-! ### Requests and outcomes -/

structure TransitionRequest where
  resourceId : String
  action : String
  actionId : String
  actor : Option String := none
  scope : Option String := none
  expectedState : Option String := none
  owner : Option String := none
  actionId_ne : actionId ≠ "" := by decide

/-- What the canonical JSON text of a request for replay detection spells out. -/
structure Fingerprint where
  action : String
  actionId : String
  expectedState : Option String
  resourceId : String
  deriving DecidableEq

def TransitionRequest.fingerprint (request : TransitionRequest) : Fingerprint :=
  ⟨request.action, request.actionId, request.expectedState, request.resourceId⟩

structure TransitionAuditEvent where
  actor : Option String
  scope : Option String
  actionId : String
  resourceId : String
  action : String
  beforeState : Option String
  afterState : Option String
  outcome : String
  detail : String := ""

inductive TransitionStatus where
  | committed | replayed | idempotent | blocked | conflict
  deriving DecidableEq, Repr

def TransitionStatus.value : TransitionStatus → String
  | committed => "committed"
  | replayed => "replayed"
  | idempotent => "idempotent"
  | blocked => "blocked"
  | conflict => "conflict"

/-- What the service reads of a policy verdict. -/
structure PolicyVerdict where
  policyVersion : String
  ready : Bool

structure TransitionOutcome where
  request : TransitionRequest
  status : TransitionStatus
  beforeState : Option String
  afterState : Option String
  record : Option DatasetStateRecord := none
  verdict : Option PolicyVerdict := none
  message : String := ""
  audit : TransitionAuditEvent

/-- `repr` of a text without quotes. -/
def quoted (s : String) : String := "'" ++ s ++ "'"

end Phlo.Dataset
