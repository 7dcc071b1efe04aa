import Phlo.Helpers.IsoDates
import Phlo.Library.JsonText
import Phlo.Library.OrderedDict
import Phlo.Library.RaisingPrograms
import Phlo.RunEvidence.TextRedaction

/-!
# Reports of write-audit-publish runs

A run that writes to a staging ref of its own has a durable report: a JSON file under `.phlo/wap-reports`,
named by the logical run id.  The launcher and the sensors update it; the sensors also talk to Dagster, the
catalog and the evidence store.

* `WapOp` — the calls of the sensors: reads and replacements of report files, and calls to everything else;
* `wapSemantics` — what they do; what everything else answers is left open (`Surroundings`);
* `writeWapReport` — the update of a report.
-/

namespace Phlo.Wap

open Phlo.Library Phlo.RunEvidence

/-! ### Tags and runs -/

def WAP_BRANCH_TAG : String := "phlo/wap_branch"

def WAP_REF_TAG : String := "phlo/ref"

def WAP_RUN_ID_TAG : String := "phlo/run_id"

def WAP_PROJECT_ID_TAG : String := "phlo/project_id"

def WAP_ATTEMPT_TAG : String := "phlo/attempt"

def WAP_CATALOG_SYSTEM_TAG : String := "phlo/catalog_system"

def WAP_BINDING_TAG : String := "phlo/wap_binding"

def OWNED_WAP_BRANCH_PREFIX : String := "pipeline-run-"

abbrev Tags := OrderedDict String String

inductive DagsterRunStatus where
  | queued
  | notStarted
  | managed
  | starting
  | started
  | success
  | failure
  | canceling
  | canceled
  deriving DecidableEq

/-- `_normalized_dagster_status` -/
def DagsterRunStatus.normalized : DagsterRunStatus → Option String
  | success => some "success"
  | failure => some "failed"
  | canceled => some "cancelled"
  | _ => none

/-- A Dagster run. -/
structure Run where
  runId : String
  tags : Tags
  status : DagsterRunStatus
  /-- `update_timestamp`, in microseconds -/
  updated : ℤ := 0

def nonEmpty (value : Option String) : Option String := value.filter fun text => text ≠ ""

/-- `_logical_run_id` -/
def logicalRunId (run : Run) : String :=
  if run.runId = "" then "" else (nonEmpty (run.tags.get WAP_RUN_ID_TAG)).getD run.runId

/-- `_is_owned_wap_branch` -/
def isOwnedWapBranch (name : String) : Bool := OWNED_WAP_BRANCH_PREFIX.toList.isPrefixOf name.toList

/-- `re.fullmatch(r"[A-Za-z0-9_-]{1,128}", logical_run_id)`: the report has a path. -/
def hasReportPath (id : String) : Bool :=
  let chars := id.toList
  chars.all (fun c => (c.isAlphanum || c == '_') || c == '-') && 1 ≤ chars.length && chars.length ≤ 128

/-- `int(text)`, up to underscores between the digits. -/
def intFromText (text : String) : Option ℤ :=
  let chars := strip text.toList
  let digits := match chars with
    | '+' :: digits => digits
    | '-' :: digits => digits
    | digits => digits
  if digits ≠ [] ∧ digits.all Char.isDigit then
    let n : ℤ := digits.foldl (fun n c => 10 * n + (c.toNat - 48)) 0
    some (if chars.head? = some '-' then -n else n)
  else none

/-- `normalize_attempt` of a tag. -/
def normalizeAttempt (tag : String) : Option ℕ :=
  match intFromText tag with
  | some n => if 0 < n then some n.toNat else none
  | none => none

/-- `attempt_from_tags`; a missing tag means the first attempt. -/
def attemptFromTags (tags : Tags) : Option ℕ :=
  match tags.get WAP_ATTEMPT_TAG with
  | none => some 1
  | some tag => normalizeAttempt tag

structure ProjectIdentity where
  projectId : Option String
  error : Option String
  deriving DecidableEq

def resolveProjectIdentity (tags : Tags) (configuredProject : Option String) : ProjectIdentity :=
  let stripped (text : String) := String.ofList (strip text.toList)
  let tagged := nonEmpty ((tags.get WAP_PROJECT_ID_TAG).map stripped)
  let configured := (nonEmpty configuredProject).map stripped
  match tagged, nonEmpty configured with
  | some t, some c => if t ≠ c then ⟨none, some "project_conflict"⟩ else ⟨some t, none⟩
  | some t, none => ⟨some t, none⟩
  | none, _ =>
    match nonEmpty configured with
    | some c => ⟨some c, none⟩
    | none => ⟨configured, some "project_missing"⟩

/-! ### Reports -/

/-- The payload of a report, or of another JSON file with an object. -/
abbrev Report := OrderedDict String JsonValue

def Report.text? (report : Report) (key : String) : Option String :=
  match report.get key with
  | some (.str text) => some text
  | _ => none

/-- `bool(report.get(key))` of a flag. -/
def Report.flag (report : Report) (key : String) : Bool :=
  match report.get key with
  | some (.bool b) => b
  | _ => false

def textOrNull : Option String → JsonValue
  | some text => .str text
  | none => .null

mutual

/-- `left == right` of two values: the members of objects come in any order. -/
def sameJson : JsonValue → JsonValue → Bool
  | .null, .null => true
  | .bool left, .bool right => left = right
  | .int left, .int right => left = right
  | .float left, .float right => left = right
  | .str left, .str right => left = right
  | .arr items, .arr others => sameItems items others
  | .obj fields, .obj others => fields.length = others.length && sameFields fields others
  | _, _ => false

def sameItems : List JsonValue → List JsonValue → Bool
  | [], [] => true
  | item :: items, other :: others => sameJson item other && sameItems items others
  | _, _ => false

/-- Each member is a member of the other object. -/
def sameFields : List (String × JsonValue) → List (String × JsonValue) → Bool
  | [], _ => true
  | (key, value) :: fields, others => (others.lookup key).any (sameJson value) && sameFields fields others

end

/-- `datetime.isoformat()` in UTC. -/
def isoformat (now : ℤ) : String := Timestamp.isoformat ⟨now, some 0⟩

/-- `datetime.fromisoformat`, of the texts `isoformat` gives. -/
def fromIsoformat (text : String) : Option ℤ :=
  let chars := text.toList
  if "+00:00".toList.isSuffixOf chars then Helpers.instantFromText (chars.take (chars.length - 6)) else none

/-- What a report says of its run. -/
inductive WapStatus where
  | incomplete
  | promotionBlocked
  | promotionFailed
  | promotionPending
  | promoted
  | failed
  | cancelled
  | cleanupComplete
  | cleanupIncomplete
  deriving DecidableEq

def WapStatus.text : WapStatus → String
  | incomplete => "incomplete"
  | promotionBlocked => "promotion_blocked"
  | promotionFailed => "promotion_failed"
  | promotionPending => "promotion_pending"
  | promoted => "promoted"
  | failed => "failed"
  | cancelled => "cancelled"
  | cleanupComplete => "cleanup_complete"
  | cleanupIncomplete => "cleanup_incomplete"

/-- `_PROMOTED_OUTCOME_FIELDS` -/
def PROMOTED_OUTCOME_FIELDS : List String := ["failure_reason", "review_required", "review_message"]

abbrev Fields := List (String × JsonValue)

/-- `payload.update(updates)`, the status among the updates; a promotion drops what only failures leave. -/
def applyUpdates (payload : Report) (status : Option WapStatus) (fields : Fields) : Report :=
  let promoted := status = some .promoted
  let kept := if promoted then PROMOTED_OUTCOME_FIELDS.foldl OrderedDict.erase payload else payload
  let applied := if promoted then fields.filter fun field => field.1 ∉ PROMOTED_OUTCOME_FIELDS else fields
  match status with
  | some status => (kept.setAll applied).set "status" (.str status.text)
  | none => kept.setAll applied

/-- What `write_wap_report` writes over what it has read. -/
def updatedReport (prior : Option Report) (id : String) (status : Option WapStatus) (fields : Fields) (now : ℤ) :
    Report :=
  let payload := applyUpdates (prior.getD .empty) status fields
  payload.setAll [("created_at", (payload.get "created_at").getD (.str (isoformat now))),
    ("schema_version", .str "phlo.wap_report.v2"), ("run_id", .str id), ("updated_at", .str (isoformat now))]

theorem get_status_updatedReport (prior : Option Report) (id : String) (status : Option WapStatus) (fields : Fields)
    (now : ℤ) : (updatedReport prior id status fields now).get "status" =
      (applyUpdates (prior.getD .empty) status fields).get "status" := by
  rw [updatedReport, OrderedDict.get_setAll]
  simp [OrderedDict.lastOf]

theorem get_status_applyUpdates_some (payload : Report) (status : WapStatus) (fields : Fields) :
    (applyUpdates payload (some status) fields).get "status" = some (.str status.text) := by
  rw [applyUpdates, OrderedDict.get_set, if_pos rfl]

theorem get_status_applyUpdates_none (payload : Report) {fields : Fields} (h : ∀ field ∈ fields, field.1 ≠ "status") :
    (applyUpdates payload none fields).get "status" = payload.get "status" := by
  have hnone : OrderedDict.lastOf "status" fields = none :=
    OrderedDict.lastOf_eq_none_iff.2 fun value hvalue => h _ hvalue rfl
  show (payload.setAll fields).get "status" = _
  rw [OrderedDict.get_setAll, hnone, Option.none_or]

/-! ### Calls -/

/-- An asset check of a run, as the event log of Dagster has it. -/
structure CheckRecord where
  eventId : Option String
  passed : Bool
  severity : String
  candidate : Option Fields

/-- An aggregate decision in the evidence store. -/
structure QualityResult where
  qualityResultId : String
  checkId : String
  passed : Bool
  checks : List CheckRecord

structure Branch where
  name : String
  createdAt : Option ℤ
  hash : Option String

structure CandidateSnapshot where
  tableName : String
  snapshotId : String

/-- What `get_operational_settings` says of promotions. -/
structure Governance where
  secondGoldReviewer : Bool
  requireMergeReason : Bool
  settingsRevision : ℤ

/-- The answer of a catalog that was asked to publish. -/
inductive PublishAnswer where
  | published (ok : Bool)
  /-- `IndependentReviewRequired` -/
  | reviewRequired (message : String)

/-- What a sensor tells the evidence store of a run. -/
structure Observation where
  run : Run
  status : String
  runStatus : Option String
  operation : String
  catalogRef : String
  sourceHash : Option String := none
  targetHash : Option String := none
  mergeOutcome : Option String := none
  qualityDecisionId : Option String := none

/-- An exception that is none of those named in an answer. -/
inductive Raised where
  | raised

/-- Calls to what is not a report file; all of them may raise. -/
inductive OutsideOp : Type → Type
  | now : OutsideOp (Except Raised ℤ)
  /-- the launch manifest with this digest -/
  | launchManifest (id checksum : String) : OutsideOp (Except Raised (Option Report))
  | runs : OutsideOp (Except Raised (List Run))
  | addRunTag (runId key value : String) : OutsideOp (Except Raised Unit)
  | checkRecords (runId : String) : OutsideOp (Except Raised (List CheckRecord))
  | qualityResults (projectId runId : String) (attempt : ℕ) (passed : Bool) (checks : List CheckRecord) :
    OutsideOp (Except Raised (List QualityResult))
  /-- nothing while the storage of the settings is unavailable -/
  | operationalSettings : OutsideOp (Except Raised (Option Governance))
  /-- the text of the `ValueError`, if there is one -/
  | validateContext (run : Run) (binding : Report) : OutsideOp (Except Raised (Option String))
  | reconcile (run : Run) : OutsideOp (Except Raised Unit)
  | emitObservation (observation : Observation) : OutsideOp (Except Raised Unit)
  | listBranches : OutsideOp (Except Raised (List Branch))
  | branchHash (name : String) : OutsideOp (Except Raised (Option String))
  | mergeBranch (source target : String) (message expectedTargetHash expectedSourceHash : Option String) :
    OutsideOp (Except Raised PublishAnswer)
  | deleteBranch (name : String) (expectedHash : Option String) : OutsideOp (Except Raised Bool)
  | dropRefQueryCatalog (name : String) : OutsideOp (Except Raised Unit)
  | releaseRevision : OutsideOp (Except Raised ℤ)
  | listCandidates (branch : String) : OutsideOp (Except Raised (List CandidateSnapshot))
  /-- the id of the release of a table -/
  | resolveRelease (tableName : String) : OutsideOp (Except Raised (Option String))
  | promoteCandidates (branch releaseId : String) (expectedRevision : ℤ) : OutsideOp (Except Raised PublishAnswer)
  | abortCandidates (branch : String) : OutsideOp (Except Raised Bool)

/-- Calls about report files. -/
inductive ReportOp : Type → Type
  /-- the report file, if there is one and it can be read -/
  | read (id : String) : ReportOp (Option Report)
  /-- `os.replace` of the report file and the snapshot of it -/
  | replace (id : String) (report : Report) : ReportOp Bool
  /-- the report files that can be read, by name -/
  | files : ReportOp (List Report)
  /-- A sensor turns to a run: nothing happens, but the trace says so. -/
  | turn (id : String) : ReportOp Unit

/-- The calls of the sensors. -/
abbrev WapOp (β : Type) : Type := ReportOp β ⊕ OutsideOp β

/-- What becomes of a replacement: the file stays, or is replaced and reported so, or is replaced and the
snapshot fails. -/
inductive WriteFate where
  | refused
  | written
  | unconfirmed
  deriving DecidableEq

/-- What everything outside of the report files answers, and which of the files can be used. -/
structure Surroundings (E : Type) where
  answer : {β : Type} → OutsideOp β → E → E × β
  readable : String → E → Bool
  fate : String → E → WriteFate
  /-- time goes by at a read or a write -/
  tick : E → E

structure WapWorld (E : Type) where
  reports : OrderedDict String Report
  env : E

def execReport {E : Type} (surroundings : Surroundings E) {β : Type} (op : ReportOp β) (w : WapWorld E) :
    WapWorld E × β :=
  match op with
  | .read id => (⟨w.reports, surroundings.tick w.env⟩,
      if surroundings.readable id w.env then w.reports.get id else none)
  | .replace id report =>
    match surroundings.fate id w.env with
    | .refused => (⟨w.reports, surroundings.tick w.env⟩, false)
    | .written => (⟨w.reports.set id report, surroundings.tick w.env⟩, true)
    | .unconfirmed => (⟨w.reports.set id report, surroundings.tick w.env⟩, false)
  | .files => (⟨w.reports, surroundings.tick w.env⟩,
      ((sortBy Prod.fst w.reports.items).filter fun file => surroundings.readable file.1 w.env).map Prod.snd)
  | .turn _ => (w, ())

def wapSemantics {E : Type} (surroundings : Surroundings E) : Semantics WapOp (WapWorld E) where
  exec
    | .inl op, w => execReport surroundings op w
    | .inr op, w => (⟨w.reports, (surroundings.answer op w.env).1⟩, (surroundings.answer op w.env).2)

abbrev Sensor := Raising WapOp Raised

def outside {β : Type} (op : OutsideOp (Except Raised β)) : Sensor β := Raising.callOrRaise (.inr op)

/-- A call in a `try` block. -/
def attempted {β : Type} (op : OutsideOp (Except Raised β)) : Sensor (Option β) := Raising.attempt (outside op)

def onReports {β : Type} (op : ReportOp β) : Sensor β := Raising.call (.inl op)

/-- A step that is taken under a condition. -/
def onlyIf {α : Type} (c : Prop) [Decidable c] (p : Sensor α) (otherwise : α) : Sensor α :=
  if c then p else pure otherwise

/-- `_read_wap_report` -/
def readWapReport (id : String) : Sensor (Option Report) :=
  if hasReportPath id then onReports (.read id) else pure none

/-- `write_wap_report` -/
def writeWapReport (id : String) (status : Option WapStatus) (fields : Fields) : Sensor Bool :=
  if hasReportPath id then do
    let prior ← onReports (.read id)
    let now ← outside .now
    onReports (.replace id (updatedReport prior id status fields now))
  else pure false

end Phlo.Wap
