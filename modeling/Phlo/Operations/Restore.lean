import Phlo.Library.Sessions
import Phlo.Operations.Continuity

/-!
# Applying a restore plan

`restoreApply` is `restore_apply` as a program: it calls the operation journal, the providers, and
whatever else can answer differently from one call to the next (the clock, the verification of the set,
its manifest on disk, the target).  `Surroundings` holds those answers; they may change at any time.

The digest of a canonical JSON text is left open (`sha256`).
-/

namespace Phlo.Operations

open Phlo.Library Phlo.Library.Program
open Phlo.Dataset (pyStr quoted)
open Phlo.RunEvidence (Dict Json)

/-! ### What a restore calls -/

/-- What `restore_apply` reads of a verification. -/
structure Verification where
  accepted : Bool
  hasManifest : Bool

/-- The questions whose answers come from outside, and the calls of the providers. -/
inductive OutsideOp : Type → Type
  /-- `plan.is_expired()` -/
  | isExpired (plan : RestorePlan) : OutsideOp Bool
  /-- `(verify_fn or verify_backup_set)(backup_set_dir)` -/
  | verify (backupSetDir : String) : OutsideOp (Raising Verification)
  /-- `_manifest_from_dir` -/
  | manifestFromDir (backupSetDir : String) : OutsideOp (Raising BackupSetManifest)
  /-- `_validate_target_planning` -/
  | validateTargetPlanning (target : RestoreTarget) (backupSetDir : String) : OutsideOp (Raising Unit)
  /-- `contributor.restore` for a plan: its target, token and set directory -/
  | restore (provider : String) (plan : RestorePlan) (artifacts : List BackupArtifact) :
      OutsideOp (Raising RestoreStepResult)
  /-- `contributor.reconcile` -/
  | reconcile (provider : String) (plan : RestorePlan) (artifacts : List BackupArtifact) :
      OutsideOp (Raising Dict)

inductive RestoreOp (β : Type) : Type
  | journal (op : JournalOp β)
  | outside (op : OutsideOp β)

/-- The answers at one moment. -/
structure Surroundings where
  isExpired : RestorePlan → Bool
  verify : String → Raising Verification
  manifestFromDir : String → Raising BackupSetManifest
  validateTargetPlanning : RestoreTarget → String → Raising Unit
  restore : String → RestorePlan → List BackupArtifact → Raising RestoreStepResult
  reconcile : String → RestorePlan → List BackupArtifact → Raising Dict

structure RestoreWorld where
  journal : JournalStore
  surroundings : Surroundings

def OutsideOp.answer : {β : Type} → OutsideOp β → Surroundings → β
  | _, .isExpired plan, s => s.isExpired plan
  | _, .verify dir, s => s.verify dir
  | _, .manifestFromDir dir, s => s.manifestFromDir dir
  | _, .validateTargetPlanning target dir, s => s.validateTargetPlanning target dir
  | _, .restore provider plan artifacts, s => s.restore provider plan artifacts
  | _, .reconcile provider plan artifacts, s => s.reconcile provider plan artifacts

def RestoreOp.exec (naming : FileNaming) {β : Type} (op : RestoreOp β) (w : RestoreWorld) : RestoreWorld × β :=
  match op with
  | .journal op => ({ w with journal := (op.exec naming w.journal).1 }, (op.exec naming w.journal).2)
  | .outside op => (w, op.answer w.surroundings)

def restoreSemantics (naming : FileNaming) : Semantics RestoreOp RestoreWorld := ⟨RestoreOp.exec naming⟩

/-- A function of the journal, and what to do next unless it raises. -/
def journaled {α β : Type} (p : Program JournalOp (Journaled α))
    (next : α → Program RestoreOp (Raising β)) : Program RestoreOp (Raising β) := do
  match ← p.translate .journal with
  | .ok a => next a
  | .error e => return .error (.journal e)

/-! ### Results -/

/-- `_operation_id` -/
def restoreOperationId (sha256 : Json → String) (plan : RestorePlan) : String :=
  "restore.apply:" ++ plan.target.targetId ++ ":" ++
    String.ofList ((sha256 (.obj plan.toDict)).toList.take 12)

/-- `_safe_reason` of an exception -/
def safeReason : Raised → String
  | .restore e => e.code
  | e => redactMessage e.text

def reconciliationFromDict (data : Dict) : Converted RestoreReconciliationResult := do
  let checks ← dictOf ((data.lookup "checks").getD .null)
  let reasons ← itemsOf ((data.lookup "reasons").getD .null)
  return { ok := truthy ((data.lookup "ok").getD .null)
           checks := .ofList (checks.map fun check => (check.1, truthy check.2))
           reasons := reasons.map pyStr }

/-- `_reconciliation_from_dict(data) if data else None` -/
def reconciliationOf (data : Json) : Raising (Option RestoreReconciliationResult) :=
  if truthy data then
    match data with
    | .obj fields => ((reconciliationFromDict fields).mapError uncaught).map some
    | _ => .error (.other "AttributeError" (quoted (typeName data) ++ " object has no attribute 'get'"))
  else .ok none

/-- `_result_from_dict`; what a conversion raises on the way is not caught. -/
def resultFromDict (stored : Dict) : Raising RestoreResult := do
  let text (key default : String) := ((stored.lookup key).map pyStr).getD default
  let steps ← (← (itemsOf ((stored.lookup "steps").getD .null)).mapError uncaught).mapM
    RestoreStepResult.fromDict
  let reconciliation ← reconciliationOf ((stored.lookup "reconciliation").getD .null)
  return { state := text "state" "unknown"
           accepted := truthy ((stored.lookup "accepted").getD .null)
           targetId := text "target_id" ""
           planToken := text "plan_token" ""
           steps, reconciliation
           failure := (stored.lookup "failure").getD .null }

theorem checks_map_truthy (checks : OrderedDict String Bool) :
    (checks.items.map fun check => (check.1, Json.bool check.2)).map
      (fun check => (check.1, truthy check.2)) = checks.items := by
  rw [List.map_map]
  exact List.map_id _

theorem reasons_map_pyStr (reasons : List String) : (reasons.map Json.str).map pyStr = reasons := by
  rw [List.map_map]
  exact List.map_id _

theorem reconciliationFromDict_toDict (r : RestoreReconciliationResult) :
    reconciliationFromDict r.toDict = .ok r := by
  obtain ⟨ok, checks, reasons⟩ := r
  have hchecks : OrderedDict.ofList ((checks.items.map fun check => (check.1, Json.bool check.2)).map
      fun check => (check.1, truthy check.2)) = checks := by
    rw [checks_map_truthy, OrderedDict.ofList_items]
  show (do
    let reasons' ← itemsOf (.arr (reasons.map .str))
    return { ok := ok
             checks := .ofList ((checks.items.map fun check => (check.1, Json.bool check.2)).map
               fun check => (check.1, truthy check.2))
             reasons := reasons'.map pyStr } : Converted RestoreReconciliationResult) = _
  rw [itemsOf_arr, hchecks]
  show Except.ok (⟨ok, checks, (reasons.map Json.str).map pyStr⟩ : RestoreReconciliationResult) = _
  rw [reasons_map_pyStr]

theorem reconciliationOf_json (reconciliation : Option RestoreReconciliationResult) :
    reconciliationOf (reconciliationJson reconciliation) = .ok reconciliation := by
  cases reconciliation with
  | none => rfl
  | some r =>
    show ((reconciliationFromDict r.toDict).mapError uncaught).map some = _
    rw [reconciliationFromDict_toDict]
    rfl

theorem resultFromDict_toDict {result : RestoreResult}
    (h : ∀ step ∈ result.steps, step.provider ≠ "") : resultFromDict result.toDict = .ok result := by
  obtain ⟨state, accepted, targetId, planToken, steps, reconciliation, failure⟩ := result
  have hsteps : (steps.map fun step => Json.obj step.toDict).mapM RestoreStepResult.fromDict =
      .ok steps := mapM_map_eq_ok fun step hstep => RestoreStepResult.fromDict_toDict (h step hstep)
  show (do
    let items ← (itemsOf (.arr (steps.map fun step => .obj step.toDict))).mapError uncaught
    let steps' ← items.mapM RestoreStepResult.fromDict
    let reconciliation' ← reconciliationOf (reconciliationJson reconciliation)
    return { state, accepted, targetId, planToken, steps := steps', reconciliation := reconciliation'
             failure } : Raising RestoreResult) = _
  rw [itemsOf_arr, reconciliationOf_json]
  show (do
    let steps' ← (steps.map fun step => Json.obj step.toDict).mapM RestoreStepResult.fromDict
    return { state, accepted, targetId, planToken, steps := steps', reconciliation
             failure } : Raising RestoreResult) = _
  rw [hsteps]
  rfl

/-! ### Applying a plan -/

structure RestoreCall where
  plan : RestorePlan
  confirmationToken : String
  /-- the providers `contributors` has an entry for -/
  contributors : List String
  subject : String := "operator"

/-- `_artifacts_for` -/
def artifactsFor (manifest : BackupSetManifest) (provider : String) : List BackupArtifact :=
  manifest.artifacts.filter fun artifact => artifact.provider = provider

/-- How the loop over the providers ends: all have been restored, one reports a failure, or it raises. -/
inductive StepsEnd where
  | completed (steps : List RestoreStepResult)
  | failed (steps : List RestoreStepResult) (failure : Json)
  | raised (steps : List RestoreStepResult) (e : Raised)

/-- The loop over `plan.provider_order` -/
def restoreSteps (call : RestoreCall) (manifest : BackupSetManifest) :
    List String → List RestoreStepResult → Program RestoreOp StepsEnd
  | [], steps => return .completed steps
  | provider :: rest, steps =>
    if provider ∈ call.contributors then do
      match ← perform (.outside (.restore provider call.plan (artifactsFor manifest provider))) with
      | .error e => return .raised steps e
      | .ok step =>
        if step.state = .failed then return .failed (steps ++ [step]) step.failure
        else restoreSteps call manifest rest (steps ++ [step])
    else return .raised steps (.restore ⟨"missing_restore_provider", [provider]⟩)

/-- The reason for a check that failed; `str` of a value that is not an exception. -/
def reconcileReason (provider : String) (evidence : Dict) : String :=
  let reason := pyStr ((evidence.lookup "reason").getD .null)
  provider ++ ":" ++ if reason = "" then "reconcile_failed" else reason

/-- The loop of `_reconcile` -/
def reconcileFrom (call : RestoreCall) (manifest : BackupSetManifest) :
    List String → OrderedDict String Bool → List String →
      Program RestoreOp (Raising RestoreReconciliationResult)
  | [], checks, reasons => return .ok { ok := checks.values.all id, checks, reasons }
  | provider :: rest, checks, reasons =>
    if provider ∈ call.contributors then
      let artifacts := artifactsFor manifest provider
      if artifacts.isEmpty then reconcileFrom call manifest rest (checks.set provider true) reasons
      else do
        match ← perform (.outside (.reconcile provider call.plan artifacts)) with
        | .error e => return .error e
        | .ok evidence =>
          let ok := truthy ((evidence.lookup "ok").getD .null)
          reconcileFrom call manifest rest (checks.set provider ok)
            (if ok then reasons else reasons ++ [reconcileReason provider evidence])
    else
      reconcileFrom call manifest rest (checks.set provider false)
        (reasons ++ [provider ++ ":missing_contributor"])

/-- `_reconcile` -/
def reconcile (call : RestoreCall) (manifest : BackupSetManifest) :
    Program RestoreOp (Raising RestoreReconciliationResult) :=
  reconcileFrom call manifest backupProviderOrder .empty []

def recordResult (operationId : String) (result : RestoreResult) : Program RestoreOp (Raising RestoreResult) :=
  journaled (completeOperation operationId result.toDict) fun _ => return .ok result

/-- The result of `_failed_result` -/
def failedResult (plan : RestorePlan) (steps : List RestoreStepResult) (failure : Json)
    (reconciliation : Option RestoreReconciliationResult) : RestoreResult where
  state := "failed"
  accepted := false
  targetId := plan.target.targetId
  planToken := plan.planToken
  steps := steps
  reconciliation := reconciliation
  failure := failure

/-- The `except` clause around the providers -/
def recordRaised (operationId : String) (plan : RestorePlan) (steps : List RestoreStepResult)
    (e : Raised) : Program RestoreOp (Raising RestoreResult) :=
  recordResult operationId (failedResult plan steps (.obj [("reason", .str (safeReason e))]) none)

def restoreProviders (operationId : String) (call : RestoreCall) (manifest : BackupSetManifest) :
    Program RestoreOp (Raising RestoreResult) := do
  match ← restoreSteps call manifest call.plan.providerOrder [] with
  | .raised steps e => recordRaised operationId call.plan steps e
  | .failed steps failure =>
    -- recording the failure is still inside the `try`
    match ← recordResult operationId (failedResult call.plan steps failure none) with
    | .ok result => return .ok result
    | .error e => recordRaised operationId call.plan steps e
  | .completed steps =>
    match ← reconcile call manifest with
    | .error e => recordRaised operationId call.plan steps e
    | .ok reconciliation =>
      if reconciliation.ok then
        recordResult operationId
          { state := "succeeded"
            accepted := true
            targetId := call.plan.target.targetId
            planToken := call.plan.planToken
            steps := steps
            reconciliation := some reconciliation }
      else
        recordResult operationId (failedResult call.plan steps
          (.obj [("reason", .str "reconciliation_failed"),
            ("reasons", .arr (reconciliation.reasons.map .str))]) (some reconciliation))

/-- An `OperationJournalError` of the claim is raised as a `RestoreError`. -/
def claimPlan (operationId : String) (call : RestoreCall) : Program RestoreOp (Raising Unit) := do
  let claimed ← journaled
    (claimOperation operationId call.subject "restore.apply" call.plan.target.targetId
      call.plan.planToken)
    fun _ => journaled (markSubmitted operationId) fun _ => return .ok ()
  return claimed.mapError fun e =>
    match e with
    | .journal e => .restore ⟨e.code, e.identifiers⟩
    | e => e

def verifyAndRestore (sha256 : Json → String) (operationId : String) (call : RestoreCall) :
    Program RestoreOp (Raising RestoreResult) := do
  let plan := call.plan
  let verified ← perform (.outside (.verify plan.backupSetDir))
  match verified with
  | .error e => return .error e
  | .ok verification =>
    if verification.accepted && verification.hasManifest then
      match ← perform (.outside (.manifestFromDir plan.backupSetDir)) with
      | .error e => return .error e
      | .ok manifest =>
        if manifest.manifestDigest sha256 ≠ plan.setDigest then
          return .error (.restore ⟨"set_digest_mismatch", [plan.backupSetId, plan.setDigest]⟩)
        else
          match ← perform (.outside (.validateTargetPlanning plan.target plan.backupSetDir)) with
          | .error e => return .error e
          | .ok _ =>
            match ← claimPlan operationId call with
            | .error e => return .error e
            | .ok _ => restoreProviders operationId call manifest
    else return .error (.restore ⟨"unverified_backup_set", [plan.backupSetId]⟩)

/-- `restore_apply` -/
def restoreApply (sha256 : Json → String) (call : RestoreCall) : Program RestoreOp (Raising RestoreResult) := do
  let plan := call.plan
  if plan.planToken ≠ call.confirmationToken then
    return .error (.restore ⟨"token_mismatch", [plan.planToken]⟩)
  else
    let expired ← perform (.outside (.isExpired plan))
    if expired then return .error (.restore ⟨"plan_expired", [plan.planToken]⟩)
    else
      let operationId := restoreOperationId sha256 plan
      journaled (readOrReplay operationId) fun stored =>
        match stored with
        -- a stored terminal result: the plan has already run
        | some stored => return resultFromDict stored
        | none => verifyAndRestore sha256 operationId call

end Phlo.Operations
