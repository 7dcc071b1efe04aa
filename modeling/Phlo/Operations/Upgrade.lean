import Phlo.Operations.Continuity

/-!
# Applying an upgrade plan

`upgradeApply` is `upgrade_apply` as a program: it calls the operation journal, the providers, and whatever else
can answer differently from one call to the next (the clock, the verified manifest of the backup set).
`UpgradeSurroundings` holds those answers; they may change at any time.

What a provider reports is either written to the journal as it is, or `json.dumps` raises on it (`Evidence`).
The digest of a canonical JSON text is left open (`sha256`).

* `UpgradeStepResult.fromDict_toDict`, `upgradeResultFromDict_toDict` — what is written is read back.
-/

namespace Phlo.Operations

open Phlo.Library Phlo.Library.Program
open Phlo.Dataset (pyStr quoted)
open Phlo.RunEvidence (Dict Json)

/-- An `UpgradeError` -/
def upgradeError (code : String) (identifiers : List String) : Raised :=
  .other "UpgradeError" (code ++ ": " ++ ", ".intercalate identifiers)

/-! ### The pipeline -/

structure UpgradeStepDef where
  owner : String
  name : String
  phase : String
  rollbackSafe : Bool
  retrySafeOnPreflight : Bool
  deriving DecidableEq

def upgradePipeline : List UpgradeStepDef :=
  [⟨"postgres", "postgres.schema", "migration", true, true⟩,
    ⟨"nessie", "nessie.catalog", "migration", false, false⟩,
    ⟨"iceberg", "iceberg.metadata", "migration", false, false⟩,
    ⟨"minio", "minio.policy", "policy", false, false⟩]

/-- `validate_upgrade_pair` -/
def validateUpgradePair (fromVersion toVersion : String) : Raising Unit :=
  require (fromVersion = "0.14.0" ∧ toVersion = "0.15.0") (upgradeError "unsupported_pair" [fromVersion, toVersion])

/-- `migration_digest` -/
def migrationDigest (sha256 : Json → String) : String :=
  sha256 (.arr (upgradePipeline.map fun step => .obj [("name", .str step.name), ("owner", .str step.owner)]))

/-- `_max_rollback_safe_index`, one more than it: 0 when there is no such step -/
def rollbackSafeSteps : ℕ :=
  match upgradePipeline.findIdx? fun step => step.name = "postgres.schema" with
  | some index => index + 1
  | none => 0

/-! ### Steps -/

inductive UpgradeStepState where
  | succeeded | failed | notApplicable
  deriving DecidableEq, Repr

def UpgradeStepState.value : UpgradeStepState → String
  | succeeded => "succeeded"
  | failed => "failed"
  | notApplicable => "not_applicable"

/-- `UpgradeStepState(text)` -/
def UpgradeStepState.ofText (text : String) : Converted UpgradeStepState :=
  if text = "succeeded" then .ok .succeeded
  else if text = "failed" then .ok .failed
  else if text = "not_applicable" then .ok .notApplicable
  else .error (.invalid (quoted text ++ " is not a valid UpgradeStepState"))

inductive UpgradeStepPhase where
  | preflight | submission
  deriving DecidableEq, Repr

def UpgradeStepPhase.value : UpgradeStepPhase → String
  | preflight => "preflight"
  | submission => "submission"

/-- `UpgradeStepPhase(text)` -/
def UpgradeStepPhase.ofText (text : String) : Converted UpgradeStepPhase :=
  if text = "preflight" then .ok .preflight
  else if text = "submission" then .ok .submission
  else .error (.invalid (quoted text ++ " is not a valid UpgradeStepPhase"))

/-- What a provider reports: its JSON, or what `json.dumps` raises on it. -/
inductive Evidence (α : Type) where
  | json (value : α)
  | unwritable (e : Raised)

def Evidence.written {α : Type} : Evidence α → Raising α
  | json value => .ok value
  | unwritable e => .error e

structure UpgradeStepResult where
  owner : String
  name : String
  state : UpgradeStepState
  phase : UpgradeStepPhase
  before : Evidence Dict := .json []
  after : Evidence Dict := .json []
  retrySafe : Bool := false
  /-- `null` for `None` -/
  failure : Evidence Json := .json .null

namespace UpgradeStepResult

/-- `to_dict`, as it is written -/
def toDict (step : UpgradeStepResult) : Raising Dict := do
  let after ← step.after.written
  let before ← step.before.written
  let failure ← step.failure.written
  return [("owner", .str step.owner), ("name", .str step.name), ("state", .str step.state.value),
    ("phase", .str step.phase.value), ("before", .obj before), ("after", .obj after),
    ("retry_safe", .bool step.retrySafe), ("failure", failure)]

def convert (data : Json) : Converted UpgradeStepResult := do
  let owner ← subscript data "owner"
  let name ← subscript data "name"
  let state ← UpgradeStepState.ofText (pyStr (← subscript data "state"))
  let phase ← UpgradeStepPhase.ofText (pyStr (← subscript data "phase"))
  let before ← dictOf (getKey data "before")
  let after ← dictOf (getKey data "after")
  return { owner := pyStr owner, name := pyStr name, state, phase, before := .json before, after := .json after
           retrySafe := truthy (getKey data "retry_safe"), failure := .json (getKey data "failure") }

/-- `from_dict`; what it raises is not caught. -/
def fromDict (data : Json) : Raising UpgradeStepResult := (convert data).mapError uncaught

/-- `UpgradeStepResult.not_applicable` -/
def notApplicable (defn : UpgradeStepDef) : UpgradeStepResult where
  owner := defn.owner
  name := defn.name
  state := .notApplicable
  phase := .preflight
  retrySafe := true

theorem fromDict_toDict {step : UpgradeStepResult} {fields : Dict} (h : step.toDict = .ok fields) :
    fromDict (.obj fields) = .ok step := by
  obtain ⟨owner, name, state, phase, before, after, retrySafe, failure⟩ := step
  cases before with
  | unwritable e => cases after <;> cases h
  | json before =>
    cases after with
    | unwritable e => cases h
    | json after =>
      cases failure with
      | unwritable e => cases h
      | json failure =>
        cases h
        cases state <;> cases phase <;> rfl

end UpgradeStepResult

/-! ### Plans and results -/

structure UpgradePlan where
  schemaVersion : String
  planToken : String
  fromVersion : String
  toVersion : String
  backupSetDir : String
  backupSetId : String
  backupDigest : String
  migrationDigest : String
  target : RestoreTarget
  createdAt : String
  expiresAt : String
  deriving DecidableEq

def UpgradePlan.toDict (plan : UpgradePlan) : Dict :=
  [("schema_version", .str plan.schemaVersion), ("plan_token", .str plan.planToken),
    ("from_version", .str plan.fromVersion), ("to_version", .str plan.toVersion),
    ("backup_set_dir", .str plan.backupSetDir), ("backup_set_id", .str plan.backupSetId),
    ("backup_digest", .str plan.backupDigest), ("migration_digest", .str plan.migrationDigest),
    ("target", .obj plan.target.toDict), ("created_at", .str plan.createdAt), ("expires_at", .str plan.expiresAt)]

/-- A result; what may be `None` is a JSON value, `null` for `None`. -/
structure UpgradeResult where
  state : String
  accepted : Bool
  planToken : String
  fromVersion : String
  toVersion : String
  steps : List UpgradeStepResult := []
  rollbackAction : Json := .null
  forwardRepair : Json := .null
  reconciliation : Json := .null
  failure : Json := .null

/-- `to_dict`, as it is written -/
def UpgradeResult.toDict (result : UpgradeResult) : Raising Dict := do
  let steps ← result.steps.mapM UpgradeStepResult.toDict
  return [("state", .str result.state), ("accepted", .bool result.accepted), ("plan_token", .str result.planToken),
    ("from_version", .str result.fromVersion), ("to_version", .str result.toVersion),
    ("steps", .arr (steps.map .obj)), ("rollback_action", result.rollbackAction),
    ("forward_repair", result.forwardRepair), ("reconciliation", result.reconciliation),
    ("failure", result.failure)]

/-- `_operation_id` -/
def upgradeOperationId (sha256 : Json → String) (plan : UpgradePlan) : String :=
  "upgrade.apply:" ++ plan.target.targetId ++ ":" ++ String.ofList ((sha256 (.obj plan.toDict)).toList.take 12)

/-- `_result_from_dict` -/
def upgradeResultFromDict (stored : Dict) : Raising UpgradeResult := do
  let text (key default : String) := ((stored.lookup key).map pyStr).getD default
  let value (key : String) := (stored.lookup key).getD .null
  let steps ← (← (itemsOf (value "steps")).mapError uncaught).mapM UpgradeStepResult.fromDict
  return { state := text "state" "unknown"
           accepted := truthy (value "accepted")
           planToken := text "plan_token" ""
           fromVersion := text "from_version" ""
           toVersion := text "to_version" ""
           steps
           rollbackAction := value "rollback_action"
           forwardRepair := value "forward_repair"
           reconciliation := value "reconciliation"
           failure := value "failure" }

theorem mapM_fromDict {steps : List UpgradeStepResult} {written : List Dict}
    (h : steps.mapM UpgradeStepResult.toDict = .ok written) :
    (written.map Json.obj).mapM UpgradeStepResult.fromDict = .ok steps := by
  induction steps generalizing written with
  | nil =>
    cases h
    rfl
  | cons step steps ih =>
    rw [List.mapM_cons] at h
    obtain ⟨fields, hfields, h⟩ := bind_eq_ok.1 h
    obtain ⟨rest, hrest, h⟩ := bind_eq_ok.1 h
    cases h
    rw [List.map_cons, List.mapM_cons, UpgradeStepResult.fromDict_toDict hfields, ih hrest]
    rfl

theorem upgradeResultFromDict_toDict {result : UpgradeResult} {dict : Dict} (h : result.toDict = .ok dict) :
    upgradeResultFromDict dict = .ok result := by
  obtain ⟨written, hsteps, hdict⟩ := bind_eq_ok.1 h
  cases hdict
  show (do
    let items ← (itemsOf (.arr (written.map .obj))).mapError uncaught
    let steps ← items.mapM UpgradeStepResult.fromDict
    return { result with steps } : Raising UpgradeResult) = _
  rw [itemsOf_arr]
  show (do
    let steps ← (written.map Json.obj).mapM UpgradeStepResult.fromDict
    return { result with steps } : Raising UpgradeResult) = _
  rw [mapM_fromDict hsteps]
  rfl

/-! ### What an upgrade calls -/

/-- What a provider's step returns: a step result, or some other object. -/
inductive StepAnswer where
  | step (result : UpgradeStepResult)
  | misfit (typeName : String)

/-- The questions whose answers come from outside, and the calls of the providers. -/
inductive UpgradeOutsideOp : Type → Type
  /-- `plan.is_expired()` -/
  | isExpired (plan : UpgradePlan) : UpgradeOutsideOp Bool
  /-- `_verified_manifest` -/
  | verifiedManifest (backupSetDir : String) : UpgradeOutsideOp (Raising BackupSetManifest)
  /-- `contributor.upgrade_step`, of the contributor for the owner of the step -/
  | upgradeStep (defn : UpgradeStepDef) (plan : UpgradePlan) : UpgradeOutsideOp (Raising StepAnswer)
  /-- `contributor.upgrade_reconcile` -/
  | upgradeReconcile (owner : String) (plan : UpgradePlan) : UpgradeOutsideOp (Raising Json)

inductive UpgradeOp (β : Type) : Type
  | journal (op : JournalOp β)
  | outside (op : UpgradeOutsideOp β)

/-- The answers at one moment. -/
structure UpgradeSurroundings where
  isExpired : UpgradePlan → Bool
  verifiedManifest : String → Raising BackupSetManifest
  upgradeStep : UpgradeStepDef → UpgradePlan → Raising StepAnswer
  upgradeReconcile : String → UpgradePlan → Raising Json

structure UpgradeWorld where
  journal : JournalStore
  surroundings : UpgradeSurroundings

def UpgradeOutsideOp.answer : {β : Type} → UpgradeOutsideOp β → UpgradeSurroundings → β
  | _, .isExpired plan, s => s.isExpired plan
  | _, .verifiedManifest dir, s => s.verifiedManifest dir
  | _, .upgradeStep defn plan, s => s.upgradeStep defn plan
  | _, .upgradeReconcile owner plan, s => s.upgradeReconcile owner plan

def UpgradeOp.exec (naming : FileNaming) {β : Type} (op : UpgradeOp β) (w : UpgradeWorld) : UpgradeWorld × β :=
  match op with
  | .journal op => ({ w with journal := (op.exec naming w.journal).1 }, (op.exec naming w.journal).2)
  | .outside op => (w, op.answer w.surroundings)

def upgradeSemantics (naming : FileNaming) : Semantics UpgradeOp UpgradeWorld := ⟨UpgradeOp.exec naming⟩

/-! ### The steps of an upgrade -/

/-- What `contributors` has for an owner: a provider, or `None`. -/
inductive Contributor where
  | provider | nothing
  deriving DecidableEq

structure UpgradeCall where
  plan : UpgradePlan
  confirmationToken : String
  contributors : OrderedDict String Contributor
  subject : String := "operator"

/-- `contributors.get(owner) is not None` -/
def UpgradeCall.provides (call : UpgradeCall) (owner : String) : Prop :=
  call.contributors.get owner = some .provider

instance (call : UpgradeCall) (owner : String) : Decidable (call.provides owner) :=
  inferInstanceAs (Decidable (_ = _))

/-- How the loop over the pipeline ends. -/
inductive UpgradeStepsEnd where
  | completed (steps : List UpgradeStepResult)
  /-- the step at an index reports a failure -/
  | failed (steps : List UpgradeStepResult) (index : ℕ) (defn : UpgradeStepDef)
  | raised (steps : List UpgradeStepResult) (e : Raised)
  /-- what a step returned has no `state`, nor can it be recorded -/
  | unrecordable (e : Raised)

/-- `AttributeError` -/
def noAttribute (typeName name : String) : Raised :=
  .other "AttributeError" (quoted typeName ++ " object has no attribute " ++ quoted name)

/-- The loop of `_run_upgrade_steps` -/
def upgradeSteps (call : UpgradeCall) :
    List UpgradeStepDef → ℕ → List UpgradeStepResult → Program UpgradeOp UpgradeStepsEnd
  | [], _, steps => return .completed steps
  | defn :: rest, index, steps =>
    if call.provides defn.owner then do
      match ← perform (.outside (.upgradeStep defn call.plan)) with
      | .error e => return .raised steps e
      | .ok (.misfit typeName) => return .unrecordable (noAttribute typeName "to_dict")
      | .ok (.step result) =>
        if result.state = .failed then return .failed (steps ++ [result]) index defn
        else upgradeSteps call rest (index + 1) (steps ++ [result])
    else upgradeSteps call rest (index + 1) (steps ++ [.notApplicable defn])

def recordUpgrade (operationId : String) (result : UpgradeResult) : Program UpgradeOp (Raising UpgradeResult) :=
  match result.toDict with
  -- nothing is replaced on disk when the record cannot be written
  | .error e => return .error e
  | .ok dict => onJournal .journal (completeOperation operationId dict) fun _ => return .ok result

/-- The result of `_finish_failed` -/
def failedUpgrade (plan : UpgradePlan) (steps : List UpgradeStepResult) (rollbackAction forwardRepair failure : Json) :
    UpgradeResult where
  state := "failed"
  accepted := false
  planToken := plan.planToken
  fromVersion := plan.fromVersion
  toVersion := plan.toVersion
  steps := steps
  rollbackAction := rollbackAction
  forwardRepair := forwardRepair
  failure := failure

/-- `_forward_repair` -/
def forwardRepair (failedIndex : ℕ) (plan : UpgradePlan) : Json :=
  .obj [("instruction", .str "complete the declared migrations then reconcile"),
    ("remaining_steps", .arr ((upgradePipeline.drop (failedIndex + 1)).map fun step => .str step.name)),
    ("backup_set_id", .str plan.backupSetId), ("must_not_rollback", .bool true)]

def failedStepResult (plan : UpgradePlan) (steps : List UpgradeStepResult) (index : ℕ) (defn : UpgradeStepDef) :
    UpgradeResult :=
  if index < rollbackSafeSteps ∧ defn.rollbackSafe then
    failedUpgrade plan steps (.str "restore") .null
      (.obj [("reason", .str "upgrade failed before rollback boundary"), ("failed_step", .str defn.name)])
  else
    failedUpgrade plan steps .null (forwardRepair index plan)
      (.obj [("reason", .str "upgrade failed after rollback boundary"), ("failed_step", .str defn.name)])

/-- The `except` clause around the steps -/
def recordRaisedStep (operationId : String) (plan : UpgradePlan) (steps : List UpgradeStepResult) (e : Raised) :
    Program UpgradeOp (Raising UpgradeResult) :=
  recordUpgrade operationId
    (failedUpgrade plan steps .null .null (.obj [("reason", .str (redactMessage e.str))]))

/-! ### Reconciliation -/

/-- The checks so far and the reasons against the result. -/
structure Checked where
  checks : OrderedDict String Bool := .empty
  reasons : List String := []

/-- `{"ok": ..., "checks": ..., "reasons": ...}` -/
def Checked.fields (checked : Checked) (ok : Bool) : Dict :=
  [("ok", .bool ok), ("checks", .obj (checked.checks.items.map fun check => (check.1, .bool check.2))),
    ("reasons", .arr (checked.reasons.map .str))]

def Checked.add (checked : Checked) (name : String) (ok : Bool) (reason : String) : Checked :=
  ⟨checked.checks.set name ok, if ok then checked.reasons else checked.reasons ++ [name ++ ":" ++ reason]⟩

/-- `str(evidence.get("reason")) or "reconcile_failed"` -/
def evidenceReason (evidence : Dict) : String :=
  let reason := pyStr ((evidence.lookup "reason").getD .null)
  if reason = "" then "reconcile_failed" else reason

/-- The reconciliation of the pipeline: the checks, with the exception that ends them. -/
def reconcileUpgrade (call : UpgradeCall) :
    List UpgradeStepDef → Checked → Program UpgradeOp (Checked × Option Raised)
  | [], checked => return (checked, none)
  | defn :: rest, checked =>
    if call.provides defn.owner then do
      match ← perform (.outside (.upgradeReconcile defn.owner call.plan)) with
      | .error e => return (checked, some e)
      | .ok (.obj evidence) =>
        let ok := truthy ((evidence.lookup "ok").getD .null)
        reconcileUpgrade call rest (checked.add defn.name ok (evidenceReason evidence))
      | .ok other => return (checked, some (noAttribute (typeName other) "get"))
    else reconcileUpgrade call rest (checked.add defn.name false "missing_contributor")

def unknownUpgrade (plan : UpgradePlan) (steps : List UpgradeStepResult) (checked : Checked) (e : Raised) :
    UpgradeResult where
  state := "unknown"
  accepted := false
  planToken := plan.planToken
  fromVersion := plan.fromVersion
  toVersion := plan.toVersion
  steps := steps
  reconciliation := .obj (checked.fields false ++ [("unknown", .bool true)])
  failure := .obj [("reason", .str (redactMessage e.str)), ("requires_manual_reconciliation", .bool true)]

/-- The result when all steps have been run and reconciled -/
def finalUpgrade (plan : UpgradePlan) (steps : List UpgradeStepResult) (checked : Checked) : UpgradeResult where
  state := "succeeded"
  accepted := checked.reasons.isEmpty
  planToken := plan.planToken
  fromVersion := plan.fromVersion
  toVersion := plan.toVersion
  steps := steps
  reconciliation := .obj (checked.fields checked.reasons.isEmpty)

/-! ### Applying a plan -/

/-- From the first step on -/
def runUpgrade (operationId : String) (call : UpgradeCall) : Program UpgradeOp (Raising UpgradeResult) := do
  match ← upgradeSteps call upgradePipeline 0 [] with
  | .unrecordable e => return .error e
  | .raised steps e => recordRaisedStep operationId call.plan steps e
  | .failed steps index defn =>
    -- recording the failure is still inside the `try`
    match ← recordUpgrade operationId (failedStepResult call.plan steps index defn) with
    | .ok result => return .ok result
    | .error e => recordRaisedStep operationId call.plan steps e
  | .completed steps =>
    match ← reconcileUpgrade call upgradePipeline {} with
    | (checked, some e) =>
      onJournal .journal (markUnknown operationId) fun _ => return .ok (unknownUpgrade call.plan steps checked e)
    | (checked, none) => recordUpgrade operationId (finalUpgrade call.plan steps checked)

/-- An `OperationJournalError` of the claim is raised as an `UpgradeError`. -/
def claimUpgrade (operationId : String) (call : UpgradeCall) : Program UpgradeOp (Raising Unit) := do
  let claimed ← onJournal .journal
    (claimOperation operationId call.subject "upgrade.apply" call.plan.target.targetId call.plan.planToken)
    fun _ => onJournal .journal (markSubmitted operationId) fun _ => return .ok ()
  return claimed.mapError fun e =>
    match e with
    | .journal e => upgradeError e.code e.identifiers
    | e => e

def requireSourceVersion (manifest : BackupSetManifest) (fromVersion : String) : Raising Unit :=
  require (manifest.versions.get "phlo" = some fromVersion)
    (upgradeError "backup_version_mismatch" [fromVersion, (manifest.versions.get "phlo").getD ""])

def requireCompleteContributors (call : UpgradeCall) : Raising Unit :=
  let missing := (upgradePipeline.map fun defn => defn.owner).filter fun owner =>
    (call.contributors.get owner).isNone
  require (missing = []) (upgradeError "missing_required_contributor" missing)

def requireUnchanged (sha256 : Json → String) (call : UpgradeCall) (manifest : BackupSetManifest) : Raising Unit := do
  require (manifest.manifestDigest sha256 = call.plan.backupDigest)
    (upgradeError "backup_digest_mismatch" [call.plan.backupSetId])
  require (call.plan.migrationDigest = migrationDigest sha256) (upgradeError "migration_digest_mismatch" [])
  requireSourceVersion manifest call.plan.fromVersion
  requireCompleteContributors call

def verifyAndUpgrade (sha256 : Json → String) (operationId : String) (call : UpgradeCall) :
    Program UpgradeOp (Raising UpgradeResult) := do
  match ← perform (.outside (.verifiedManifest call.plan.backupSetDir)) with
  | .error e => return .error e
  | .ok manifest =>
    match requireUnchanged sha256 call manifest with
    | .error e => return .error e
    | .ok _ =>
      match ← claimUpgrade operationId call with
      | .error e => return .error e
      | .ok _ => runUpgrade operationId call

/-- `upgrade_apply` -/
def upgradeApply (sha256 : Json → String) (call : UpgradeCall) : Program UpgradeOp (Raising UpgradeResult) := do
  let plan := call.plan
  match validateUpgradePair plan.fromVersion plan.toVersion with
  | .error e => return .error e
  | .ok _ =>
    if plan.planToken ≠ call.confirmationToken then return .error (upgradeError "token_mismatch" [plan.planToken])
    else
      let expired ← perform (.outside (.isExpired plan))
      if expired then return .error (upgradeError "plan_expired" [plan.planToken])
      else
        let operationId := upgradeOperationId sha256 plan
        onJournal .journal (readOrReplay operationId) fun stored =>
          match stored with
          -- a stored terminal result: the plan has already run
          | some stored => return upgradeResultFromDict stored
          | none => verifyAndUpgrade sha256 operationId call

end Phlo.Operations
