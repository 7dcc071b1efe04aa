import Phlo.RunEvidence.Store.System

/-!
# The hook sink, for quality results

`CoreRunEvidenceHookProvider._handle_event` turns a lifecycle event into an event bundle of the store.
For a `QualityResultEvent` the bundle holds a run, the stage of the check and the quality result; what
the other event classes have (`status`, `tool`, `metrics`, `error`, edges, resources, artifacts) is
absent, and the helpers below are `_stage_for_event` and the rest with those defaults filled in.

The identifiers are prefixes of SHA-256 digests, taken as digests without collisions.
-/

namespace Phlo.RunEvidence

open Phlo.Library

/-- `hashlib.sha256(text).hexdigest()[:32]`: different texts have different digests, none of them
blank. -/
structure StableDigest where
  hexdigest : String → String
  injective : Function.Injective hexdigest
  notBlank : ∀ t, isBlank (hexdigest t) = false

/-- `_stable_id` -/
def stableId (d : StableDigest) (parts : List String) : String :=
  d.hexdigest (String.intercalate "\x00" parts)

def plainDigest : StableDigest where
  hexdigest t := "#" ++ t
  injective a b h := by simpa using h
  notBlank t := by simp [isBlank, isSpace]

/-- What an event that is not recorded fails with. -/
inductive SinkError where
  | valueError (message : String)
  | overflowError
  | store (e : StoreError)
  deriving DecidableEq

/-! ### `int(value)` -/

/-- Digits in groups separated by single underscores. -/
def natOfDigits (cs : List Char) : Option ℕ :=
  let groups := cs.splitOn '_'
  let digits := groups.flatten
  if groups.all (fun g => !g.isEmpty && g.all Char.isDigit) && digits.length ≤ 4300 then
    some (digits.foldl (fun n c => 10 * n + (c.toNat - '0'.toNat)) 0)
  else none

/-- `int(text)`; none for the `ValueError`. -/
def intOfText (s : String) : Option ℤ :=
  match strip s.toList with
  | '-' :: cs => (natOfDigits cs).map fun n => -(n : ℤ)
  | '+' :: cs => (natOfDigits cs).map Int.ofNat
  | cs => (natOfDigits cs).map Int.ofNat

/-- The double a whole number rounds to, halves to even. -/
def roundToDouble (n : ℕ) : ℕ :=
  let unit := 2 ^ (n.log2 + 1 - 53)
  let q := n / unit
  let r := n % unit
  if 2 * r > unit ∨ (2 * r = unit ∧ q % 2 = 1) then (q + 1) * unit else q * unit

/-- `int(x)` of the finite float with this decimal text: the decimal point is moved by the exponent and
the fraction dropped; from `2 ^ 53` on the text is rounded to the double it stands for. -/
def intOfFloat (text : String) : ℤ :=
  let negative := text.toList.head? = some '-'
  let cs := if negative then text.toList.drop 1 else text.toList
  let mantissa := cs.takeWhile (· != 'e')
  let exponent := (intOfText (String.ofList ((cs.dropWhile (· != 'e')).drop 1))).getD 0
  let fraction := (mantissa.dropWhile (· != '.')).drop 1
  let digits := (natOfDigits (mantissa.filter (· != '.'))).getD 0
  let scale := exponent - fraction.length
  let n := roundToDouble
    (if 0 ≤ scale then digits * 10 ^ scale.toNat else digits / 10 ^ (-scale).toNat)
  if negative then -(n : ℤ) else n

example : intOfFloat "-12.75" = -12 ∧ intOfFloat "1e+23" = 99999999999999991611392 ∧
    intOfText " +1_000 " = some 1000 := by decide +kernel

/-- `_as_int`: what has no integer value counts as none, but infinity is an error. -/
def asInt : Json → Except SinkError (Option ℤ)
  | .bool b => .ok (some (if b then 1 else 0))
  | .int n => .ok (some n)
  | .float text =>
    if text = "inf" ∨ text = "-inf" then .error .overflowError
    else if text = "nan" then .ok none
    else .ok (some (intOfFloat text))
  | .str s => .ok (intOfText s)
  | .null | .instant _ | .digest _ | .arr _ | .obj _ => .ok none

/-! ### Events -/

/-- `HookCorrelation`; the request and span identifiers are not recorded. -/
structure HookCorrelation where
  traceId : Option String := none
  projectId : Option String := none
  runId : Option String := none
  attempt : ℕ := 1
  assetKey : Option String := none
  jobName : Option String := none
  partitionKey : Option String := none
  checkName : Option String := none
  attempt_pos : 0 < attempt := by first | exact Nat.one_pos | exact Nat.succ_pos _

structure QualityResultEvent where
  eventType : String := "quality.result"
  version : String := "1.0"
  eventId : String
  producer : String := "phlo"
  timestamp : Timestamp := ⟨0, some 0⟩
  tags : List (String × String) := []
  correlation : HookCorrelation := {}
  assetKey : String
  checkName : String
  passed : Bool
  severity : Option String := none
  checkType : Option String := none
  partitionKey : Option String := none
  metadata : Dict := []

namespace QualityResultEvent

variable (e : QualityResultEvent)

/-- `_event_correlation`: an empty run id is none, and a quality result has no run id of its own. -/
def eventCorrelation : Option String × Option String :=
  (e.correlation.projectId, e.correlation.runId.filter (· ≠ ""))

/-- `_event_payload`: the fields of the event without its identity and time. -/
def eventPayload : Dict :=
  let c := e.correlation
  [("event_type", .str e.eventType), ("version", .str e.version), ("producer", .str e.producer),
    ("tags", .obj (e.tags.map fun tag => (tag.1, .str tag.2))),
    ("correlation", .obj
      [("project_id", .ofText c.projectId), ("run_id", .ofText c.runId), ("attempt", .int c.attempt),
        ("asset_key", .ofText c.assetKey), ("job_name", .ofText c.jobName),
        ("partition_key", .ofText c.partitionKey), ("check_name", .ofText c.checkName)]),
    ("asset_key", .str e.assetKey), ("check_name", .str e.checkName), ("passed", .bool e.passed),
    ("severity", .ofText e.severity), ("check_type", .ofText e.checkType),
    ("partition_key", .ofText e.partitionKey), ("metadata", .obj e.metadata)]

/-- A resource reference of the project, which `_validate_resource_ref` has accepted. -/
def resourceRef (projectId resourceType resourceId : String) :
    Except SinkError { r : ResourceRef // r.validFor projectId = true } :=
  let r : ResourceRef := { resourceType, resourceId, tenant := some projectId }
  if h : r.validFor projectId = true then .ok ⟨r, h⟩
  else .error (.valueError "resource_ref requires non-empty resource_type and resource_id")

/-- `check_name or asset or job_name or stage_type` -/
def stageKey : String :=
  if e.checkName ≠ "" then e.checkName
  else if e.assetKey ≠ "" then e.assetKey
  else match e.correlation.jobName with
    | some jobName => if jobName ≠ "" then jobName else "check"
    | none => "check"

def stageId (d : StableDigest) (projectId runId : String) : String :=
  stableId d [projectId, runId, toString e.correlation.attempt, "check", e.stageKey]

/-- `_stage_for_event` -/
def stageForEvent (d : StableDigest) (projectId runId : String) : Except SinkError RunStage := do
  let stageId := e.stageId d projectId runId
  let ref ← resourceRef projectId (if e.assetKey = "" then "stage" else "asset")
    (if e.assetKey = "" then stageId else e.assetKey)
  return {
    projectId, runId, stageId
    stageType := "check"
    provider := some "hook"
    asset := some e.assetKey
    status := .observed
    attempt := e.correlation.attempt
    startedAt := if e.eventType.endsWith ".start" then some e.timestamp else none
    resourceRef := some ref.val
    attempt_pos := e.correlation.attempt_pos
    resourceRef_valid := ref.property }

def qualityResultId (d : StableDigest) (projectId runId : String) : String :=
  stableId d [projectId, runId, toString e.correlation.attempt, "quality", e.checkName]

/-- `metadata.get(name, metadata.get(other))` -/
def count (name other : String) : Json :=
  (e.metadata.lookup name).getD ((e.metadata.lookup other).getD .null)

/-- `is_blocking_severity` -/
def blocking : Bool :=
  e.severity.any fun severity => ["error", "critical"].contains (stripLower severity)

/-- `_quality_for_event` -/
def qualityForEvent (d : StableDigest) (projectId runId : String) : Except SinkError RunQualityResult := do
  let evaluatedCount ← asInt (e.count "evaluated_count" "total_rows")
  let failedCount ← asInt (e.count "failed_count" "failed_rows")
  let ref ← resourceRef projectId "quality_check" e.checkName
  return {
    projectId, runId
    qualityResultId := e.qualityResultId d projectId runId
    checkId := e.checkName
    attempt := e.correlation.attempt
    asset := some e.assetKey
    stageId := some (e.stageId d projectId runId)
    severity := e.severity
    blocking := e.blocking
    passed := e.passed
    evaluatedCount, failedCount
    metadata := e.metadata
    resourceRef := some ref.val
    attempt_pos := e.correlation.attempt_pos
    resourceRef_valid := ref.property }

/-- The run of the event; `_run_status` is running for every quality result. -/
def run (projectId runId : String) : PipelineRun where
  projectId := projectId
  runId := runId
  pipelineName := e.correlation.jobName
  providerRunId := some runId
  partitionKey := e.correlation.partitionKey
  traceId := e.correlation.traceId
  status := .running
  attempt := e.correlation.attempt
  startedAt := if e.eventType = "run.start" then some e.timestamp else none
  attempt_pos := e.correlation.attempt_pos

/-- The arguments of `store.append_event`. -/
def bundle (d : StableDigest) (projectId runId : String) : Except SinkError EventBundle := do
  let stage ← e.stageForEvent d projectId runId
  let quality ← e.qualityForEvent d projectId runId
  if h : stage.resourceRef.all (ResourceRef.validFor projectId) = true then
    return {
      event :=
        { projectId, runId
          eventId := e.eventId
          eventType := e.eventType
          producer := e.producer
          schemaVersion := e.version
          observedAt := e.timestamp
          payload := e.eventPayload
          attempt := e.correlation.attempt
          stageId := some stage.stageId
          resourceRef := stage.resourceRef
          attempt_pos := e.correlation.attempt_pos
          resourceRef_valid := h }
      run := some (e.run projectId runId)
      stage := some stage
      qualityResult := some quality }
  else .error (.valueError "resource_ref tenant must match the evidence project_id")

/-- `_handle_event`: an event without a project or a run is skipped. -/
def handleEvent (d : StableDigest) (s : Store) (clock : Clock) : Except SinkError Store :=
  match e.eventCorrelation with
  | (some projectId, some runId) => do
    let b ← e.bundle d projectId runId
    ((appendEvent s clock b).map Prod.fst).mapError SinkError.store
  | _ => .ok s

end QualityResultEvent

/-- The event at the time of its delivery. -/
structure Delivery where
  clock : Clock
  event : QualityResultEvent

/-- The bus logs what a handler raises and goes on. -/
def deliver (d : StableDigest) (s : Store) (x : Delivery) : Store :=
  match x.event.handleEvent d s x.clock with
  | .ok s' => s'
  | .error _ => s

end Phlo.RunEvidence
