import Phlo.RunEvidence.Models
import Phlo.RunEvidence.Redaction

/-!
# Stored evidence rows, parsed

The evaluator reads durable rows only in this validated form: identifiers are not empty, attempts
are positive, timestamps timezone-aware, statuses from the vocabulary.  `EventPayload.parse` and
`parseMetadata` read the fields reconciliation looks at out of an opaque JSON column and refuse a
column that spells one of them wrongly.
-/

namespace Phlo.RunEvidence

/-- `StoredRow`: what every stored row satisfies. -/
def storedRow (projectId runId : String) (attempt : ℕ) : Bool :=
  projectId != "" && runId != "" && 0 < attempt

/-- `EventPayload`: the lifecycle fields of an event payload. -/
structure EventPayload where
  status : Option RunStatus := none
  runStatus : Option RunStatus := none
  noData : Bool := false
  stageId : Option String := none
  deriving DecidableEq, Repr

structure StoredEvent where
  projectId : String
  runId : String
  attempt : ℕ := 1
  eventId : String
  producer : String
  eventType : String
  schemaVersion : String := "1.0"
  stageId : Option String := none
  observedAt : Timestamp := ⟨0, some 0⟩
  sequence : Option ℤ := none
  payload : EventPayload := {}
  payloadChecksum : Sha256 := default
  row_valid : storedRow projectId runId attempt = true := by exact Eq.refl true
  ids_valid : (eventId != "" && producer != "" && eventType != "") = true := by exact Eq.refl true
  observedAt_aware : observedAt.aware = true := by exact Eq.refl true
  deriving DecidableEq

structure StoredStage where
  projectId : String
  runId : String
  attempt : ℕ := 1
  stageId : String
  stageType : String := "unknown"
  provider : Option String := none
  tool : Option String := none
  asset : Option String := none
  status : RunStatus := .unknown
  startedAt : Option Timestamp := none
  finishedAt : Option Timestamp := none
  metrics : Json := .obj []
  error : Option String := none
  recordChecksum : Sha256 := default
  row_valid : storedRow projectId runId attempt = true := by exact Eq.refl true
  ids_valid : (stageId != "") = true := by exact Eq.refl true
  timestamps_aware : (startedAt.all Timestamp.aware && finishedAt.all Timestamp.aware) = true := by
    decide
  deriving DecidableEq

inductive MergeOutcome where
  | merged | failed | conflict | skipped | cancelled
  deriving DecidableEq, Repr

def MergeOutcome.value : MergeOutcome → String
  | merged => "merged"
  | failed => "failed"
  | conflict => "conflict"
  | skipped => "skipped"
  | cancelled => "cancelled"

def MergeOutcome.ofValue (s : String) : Option MergeOutcome :=
  [merged, failed, conflict, skipped, cancelled].find? fun m => m.value == s

/-- The columns in which the evidence families differ. -/
inductive RecordFamily where
  | resource
  | catalogChange (mergeOutcome : Option MergeOutcome)
  | qualityResult (passed : Bool)
  | artifact (status : EvidenceCompleteness) (expiresAt : Option Timestamp) (legalHold : Bool)
  deriving DecidableEq, Repr

/-- `StoredRecord` with the fields of its family. -/
structure StoredRecord where
  projectId : String
  runId : String
  attempt : ℕ := 1
  recordId : String
  recordChecksum : Sha256 := default
  /-- `metadata.evidence_completeness` -/
  evidenceCompleteness : Option EvidenceCompleteness := none
  family : RecordFamily
  row_valid : storedRow projectId runId attempt = true := by exact Eq.refl true
  ids_valid : (recordId != "") = true := by exact Eq.refl true
  deriving DecidableEq

/-- `evidence_status`: the status vocabulary of the family. -/
def StoredRecord.evidenceStatus (r : StoredRecord) : Option String :=
  match r.family with
  | .resource => none
  | .catalogChange outcome => outcome.map MergeOutcome.value
  | .qualityResult passed => some (if passed then "passed" else "failed")
  | .artifact status _ _ => some status.value

/-! ### Reading the JSON columns -/

def parseField {α : Type} (fields : Dict) (key : String) (default : α) (parse : Json → Option α) : Option α :=
  match fields.lookup key with
  | none => some default
  | some v => parse v

/-- `StoredStatus | None` -/
def parseStatus : Json → Option (Option RunStatus)
  | .null => some none
  | .str s => (RunStatus.parse s).map some
  | _ => none

/-- A strict `bool`. -/
def parseBool : Json → Option Bool
  | .bool b => some b
  | _ => none

/-- `str | None` -/
def parseText : Json → Option (Option String)
  | .null => some none
  | .str s => some (some s)
  | _ => none

/-- `EvidenceCompleteness | None` -/
def parseCompleteness : Json → Option (Option EvidenceCompleteness)
  | .null => some none
  | .str s => (EvidenceCompleteness.ofValue s).map some
  | _ => none

def EventPayload.parse : Json → Option EventPayload
  | .obj fields => do
    let status ← parseField fields "status" none parseStatus
    let runStatus ← parseField fields "run_status" none parseStatus
    let noData ← parseField fields "no_data" false parseBool
    let stageId ← parseField fields "stage_id" none parseText
    return ⟨status, runStatus, noData, stageId⟩
  | _ => none

/-- `EvidenceMetadata`: the completeness a metadata column declares. -/
def parseMetadata : Json → Option (Option EvidenceCompleteness)
  | .obj fields => parseField fields "evidence_completeness" none parseCompleteness
  | _ => none

end Phlo.RunEvidence
