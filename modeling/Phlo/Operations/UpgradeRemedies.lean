import Phlo.Library.PossibleResults
import Phlo.Operations.Upgrade

/-!
# What a failed upgrade tells the operator to do

The steps of an upgrade for any pipeline: `runUpgradeSteps` is `_run_upgrade_steps` with the pipeline and the
name of its last rollback-safe step as arguments, over the loop, the records and the results of
`upgradeApply`.  Contributors and the journal may answer anything.

* `unfinished_of_failed` — a step that reports a failure is the first unfinished one.
-/

namespace Phlo.Operations

open Phlo.Library Phlo.Library.Program
open Phlo.RunEvidence (Dict Json)

/-! ### The steps of any pipeline -/

/-- `_max_rollback_safe_index` of a pipeline, one more than it: 0 when there is no such step -/
def rollbackSafeStepsOf (pipeline : List UpgradeStepDef) (last : String) : ℕ :=
  match pipeline.findIdx? fun step => step.name = last with
  | some index => index + 1
  | none => 0

def forwardRepairOf (remaining : List UpgradeStepDef) (plan : UpgradePlan) : Json :=
  .obj [("instruction", .str "complete the declared migrations then reconcile"),
    ("remaining_steps", .arr (remaining.map fun step => .str step.name)),
    ("backup_set_id", .str plan.backupSetId), ("must_not_rollback", .bool true)]

def failedStepResultOf (pipeline : List UpgradeStepDef) (last : String) (plan : UpgradePlan)
    (steps : List UpgradeStepResult) (index : ℕ) (defn : UpgradeStepDef) : UpgradeResult :=
  if index < rollbackSafeStepsOf pipeline last ∧ defn.rollbackSafe then
    failedUpgrade plan steps (.str "restore") .null
      (.obj [("reason", .str "upgrade failed before rollback boundary"), ("failed_step", .str defn.name)])
  else
    failedUpgrade plan steps .null (forwardRepairOf (pipeline.drop (index + 1)) plan)
      (.obj [("reason", .str "upgrade failed after rollback boundary"), ("failed_step", .str defn.name)])

/-- The steps and the failed result, if there is one; an exception that is not caught. -/
abbrev StepsOutcome := Raising (List UpgradeStepResult × Option UpgradeResult)

def withSteps (steps : List UpgradeStepResult) (recorded : Raising UpgradeResult) : StepsOutcome :=
  recorded.map fun result => (steps, some result)

/-- `_run_upgrade_steps` -/
def runUpgradeSteps (pipeline : List UpgradeStepDef) (last : String) (operationId : String) (call : UpgradeCall) :
    Program UpgradeOp StepsOutcome := do
  match ← upgradeSteps call pipeline 0 [] with
  | .unrecordable e => return .error e
  | .raised steps e => return withSteps steps (← recordRaisedStep operationId call.plan steps e)
  | .failed steps index defn =>
    -- recording the failure is still inside the `try`
    match ← recordUpgrade operationId (failedStepResultOf pipeline last call.plan steps index defn) with
    | .ok result => return .ok (steps, some result)
    | .error e => return withSteps steps (← recordRaisedStep operationId call.plan steps e)
  | .completed steps => return .ok (steps, none)

def afterSteps (operationId : String) (call : UpgradeCall) : StepsOutcome → Program UpgradeOp (Raising UpgradeResult)
  | .error e => return .error e
  | .ok (_, some result) => return .ok result
  | .ok (steps, none) => do
    match ← reconcileUpgrade call upgradePipeline {} with
    | (checked, some e) =>
      onJournal .journal (markUnknown operationId) fun _ => return .ok (unknownUpgrade call.plan steps checked e)
    | (checked, none) => recordUpgrade operationId (finalUpgrade call.plan steps checked)

theorem afterSteps_withSteps (operationId : String) (call : UpgradeCall) (steps : List UpgradeStepResult)
    (p : Program UpgradeOp (Raising UpgradeResult)) :
    (p >>= fun recorded => pure (withSteps steps recorded)) >>= afterSteps operationId call = p := by
  rw [bind_assoc]
  induction p with
  | done recorded => cases recorded <;> rfl
  | call op rest ih =>
    show Program.call op _ = Program.call op rest
    congr 1
    funext answer
    exact ih answer

/-- With the pipeline of the supported pair these are the steps of `upgradeApply`. -/
theorem runUpgrade_eq (operationId : String) (call : UpgradeCall) : runUpgrade operationId call =
      runUpgradeSteps upgradePipeline "postgres.schema" operationId call >>= afterSteps operationId call := by
  rw [runUpgradeSteps, bind_assoc, runUpgrade]
  congr 1
  funext ended
  cases ended with
  | unrecordable e => rfl
  | raised steps e => exact (afterSteps_withSteps operationId call steps _).symm
  | completed steps => rfl
  | failed steps index defn =>
    show (recordUpgrade operationId (failedStepResult call.plan steps index defn) >>= _) =
      (recordUpgrade operationId (failedStepResult call.plan steps index defn) >>= _) >>= _
    rw [bind_assoc]
    congr 1
    funext recorded
    cases recorded with
    | ok result => rfl
    | error e => exact (afterSteps_withSteps operationId call steps _).symm

/-! ### The step that failed -/

def unfinishedSteps : List UpgradeStepDef → List UpgradeStepResult → List UpgradeStepDef
  | defn :: pipeline, result :: steps =>
    if result.state = .failed then defn :: unfinishedSteps pipeline steps else unfinishedSteps pipeline steps
  | pipeline, [] => pipeline
  | [], _ => []

/-- `result.failure["failed_step"]`, which only a failure that a step reported has -/
def UpgradeResult.failedStep (result : UpgradeResult) : Option Json :=
  match result.failure with
  | .obj fields => fields.lookup "failed_step"
  | _ => none

/-- The results of a pipeline whose step after these has failed: those before it have not. -/
structure FailedAfter (done : List UpgradeStepDef) (steps : List UpgradeStepResult) : Prop where
  reported : ∃ before failed, steps = before ++ [failed] ∧ before.length = done.length ∧
    (∀ result ∈ before, result.state ≠ .failed) ∧ failed.state = .failed

variable {done : List UpgradeStepDef} {steps : List UpgradeStepResult} {operationId : String} {result : UpgradeResult}

theorem FailedAfter.length (h : FailedAfter done steps) : steps.length = done.length + 1 := by
  obtain ⟨before, failed, rfl, hlength, -, -⟩ := h.reported
  rw [List.length_append, hlength]
  rfl

theorem FailedAfter.cons {defn : UpgradeStepDef} {result : UpgradeStepResult} (hresult : result.state ≠ .failed)
    (h : FailedAfter done steps) : FailedAfter (defn :: done) (result :: steps) := by
  obtain ⟨before, failed, rfl, hlength, hbefore, hfailed⟩ := h.reported
  refine ⟨result :: before, failed, rfl, ?_, ?_, hfailed⟩
  · rw [List.length_cons, hlength, List.length_cons]
  · exact List.forall_mem_cons.2 ⟨hresult, hbefore⟩

theorem unfinished_of_failed (h : FailedAfter done steps) (failed : UpgradeStepDef) (remaining : List UpgradeStepDef) :
    unfinishedSteps (done ++ failed :: remaining) steps = failed :: remaining := by
  obtain ⟨before, result, rfl, hlength, hbefore, hfailed⟩ := h.reported
  clear h
  induction done generalizing before with
  | nil =>
    obtain rfl := List.length_eq_zero_iff.1 hlength
    show (if result.state = .failed then failed :: unfinishedSteps remaining [] else _) = _
    rw [if_pos hfailed]
    cases remaining <;> rfl
  | cons defn done ih =>
    cases before with
    | nil => cases hlength
    | cons first before =>
      obtain ⟨hfirst, hrest⟩ := List.forall_mem_cons.1 hbefore
      show (if first.state = .failed then _ else unfinishedSteps (done ++ failed :: remaining) (before ++ [result])) = _
      rw [if_neg hfirst]
      exact ih before (Nat.succ.inj hlength) hrest

theorem upgradeSteps_failed {call : UpgradeCall} {pipeline : List UpgradeStepDef} {index : ℕ}
    {steps' : List UpgradeStepResult} {stop : ℕ} {failed : UpgradeStepDef}
    (h : (upgradeSteps call pipeline index steps).Returns (.failed steps' stop failed)) :
    ∃ done remaining results, pipeline = done ++ failed :: remaining ∧ stop = index + done.length ∧
      steps' = steps ++ results ∧ FailedAfter done results := by
  induction pipeline generalizing index steps with
  | nil =>
    rw [upgradeSteps, returns_pure] at h
    cases h
  | cons defn rest ih =>
    -- one step further, when this one has not failed
    have hnext : ∀ result : UpgradeStepResult, result.state ≠ .failed →
        (upgradeSteps call rest (index + 1) (steps ++ [result])).Returns (.failed steps' stop failed) →
        ∃ done remaining results, defn :: rest = done ++ failed :: remaining ∧ stop = index + done.length ∧
          steps' = steps ++ results ∧ FailedAfter done results := by
      intro result hresult h
      obtain ⟨done, remaining, results, hrest, hstop, hsteps, hfailed⟩ := ih h
      refine ⟨defn :: done, remaining, result :: results, ?_, ?_, ?_, hfailed.cons hresult⟩
      · rw [hrest, List.cons_append]
      · rw [hstop, List.length_cons]
        omega
      · rw [hsteps, List.append_assoc, List.singleton_append]
    rw [upgradeSteps] at h
    split at h
    next hprovides =>
      obtain ⟨answer, h⟩ := returns_perform_bind.1 h
      cases answer with
      | error e =>
        rw [returns_pure] at h
        cases h
      | ok answer =>
        cases answer with
        | misfit typeName =>
          rw [returns_pure] at h
          cases h
        | step result =>
          by_cases hresult : result.state = .failed
          · simp only [if_pos hresult, returns_pure] at h
            cases h
            exact ⟨[], rest, [result], rfl, rfl, rfl, [], result, rfl, rfl, fun _ hr => (by cases hr), hresult⟩
          · simp only [if_neg hresult] at h
            exact hnext result hresult h
    next hprovides => exact hnext _ (fun hstate => (by cases hstate)) h

/-! ### The remedy -/

theorem eq_of_recordUpgrade {result' : UpgradeResult} (h : (recordUpgrade operationId result).Returns (.ok result')) :
    result' = result := by
  rw [recordUpgrade] at h
  cases hdict : result.toDict with
  | error e =>
    rw [hdict, returns_pure] at h
    cases h
  | ok dict =>
    rw [hdict] at h
    simp only [completeOperation, onJournal_transitionOrRaise] at h
    obtain ⟨known, h⟩ := returns_perform_bind.1 h
    cases known with
    | true => exact Except.ok.inj (returns_pure.1 h)
    | false => cases returns_pure.1 h

/-- The rollback-safe steps are the ones up to the last of this name. -/
structure SafePrefix (last : String) (safe : List UpgradeStepDef) : Prop where
  ends : ∃ before step, safe = before ++ [step] ∧ step.name = last ∧ ∀ earlier ∈ before, earlier.name ≠ last
  rollbackSafe : ∀ step ∈ safe, step.rollbackSafe = true

theorem SafePrefix.rollbackSafeStepsOf {last : String} {safe : List UpgradeStepDef} (h : SafePrefix last safe)
    (rest : List UpgradeStepDef) : rollbackSafeStepsOf (safe ++ rest) last = safe.length := by
  obtain ⟨before, step, rfl, hname, hearlier⟩ := h.ends
  have hindex : ((before ++ [step]) ++ rest).findIdx? (fun step => decide (step.name = last)) = some before.length := by
    rw [List.append_assoc, List.findIdx?_append, List.findIdx?_eq_none_iff.2 fun s hs => decide_eq_false (hearlier s hs)]
    simp [List.findIdx?_cons, hname]
  rw [Operations.rollbackSafeStepsOf, hindex, List.length_append]
  rfl

theorem failedStep_of_recordRaisedStep {plan : UpgradePlan} {steps' : List UpgradeStepResult} {e : Raised}
    (h : (recordRaisedStep operationId plan steps e >>= fun recorded => (pure (withSteps steps recorded) : Program UpgradeOp StepsOutcome)).Returns (.ok (steps', some result))) :
    result.failedStep = none := by
  obtain ⟨recorded, hrecorded, h⟩ := returns_bind.1 h
  cases recorded with
  | error e' => cases returns_pure.1 h
  | ok result' =>
    obtain rfl : result = result' := by
      cases returns_pure.1 h
      rfl
    rw [eq_of_recordUpgrade hrecorded]
    rfl

theorem runUpgradeSteps_failed {pipeline : List UpgradeStepDef} {last : String} {call : UpgradeCall}
    (hrun : (runUpgradeSteps pipeline last operationId call).Returns (.ok (steps, some result)))
    (hreported : result.failedStep.isSome) :
    ∃ done failed remaining, pipeline = done ++ failed :: remaining ∧ FailedAfter done steps ∧
      result = failedStepResultOf pipeline last call.plan steps done.length failed := by
  obtain ⟨ended, hended, hrun⟩ := returns_bind.1 hrun
  cases ended with
  | unrecordable e => cases returns_pure.1 hrun
  | completed steps' => cases returns_pure.1 hrun
  | raised steps' e =>
    rw [failedStep_of_recordRaisedStep hrun] at hreported
    cases hreported
  | failed steps' index failed =>
    obtain ⟨recorded, hrecorded, hrun⟩ := returns_bind.1 hrun
    cases recorded with
    | error e =>
      rw [failedStep_of_recordRaisedStep hrun] at hreported
      cases hreported
    | ok result' =>
      cases returns_pure.1 hrun
      obtain ⟨done, remaining, results, hpipeline, rfl, rfl, hfailed⟩ := upgradeSteps_failed hended
      refine ⟨done, failed, remaining, hpipeline, hfailed, ?_⟩
      rw [eq_of_recordUpgrade hrecorded, Nat.zero_add]

/-- A failed result that names the step that failed asks for a restore if no step after the rollback-safe ones
was started, and otherwise for the steps that come after the failed one; the started steps are those of
`result.steps`. -/
theorem remedy_of_failed_step {last : String} {safe rest : List UpgradeStepDef} (h : SafePrefix last safe)
    {operationId : String} {call : UpgradeCall} {steps : List UpgradeStepResult} {result : UpgradeResult}
    (hrun : (runUpgradeSteps (safe ++ rest) last operationId call).Returns (.ok (steps, some result)))
    (hreported : result.failedStep.isSome) :
    ∃ failed remaining, unfinishedSteps (safe ++ rest) result.steps = failed :: remaining ∧
      result.failedStep = some (.str failed.name) ∧
      ((result.rollbackAction = .str "restore" ∧ result.forwardRepair = .null ∧ result.steps.length ≤ safe.length) ∨
        (result.rollbackAction = .null ∧ result.forwardRepair = forwardRepairOf remaining call.plan ∧
          safe.length < result.steps.length)) := by
  obtain ⟨done, failed, remaining, hpipeline, hfailed, hresult⟩ := runUpgradeSteps_failed hrun hreported
  have hunfinished : unfinishedSteps (safe ++ rest) steps = failed :: remaining := by
    rw [hpipeline]
    exact unfinished_of_failed hfailed failed remaining
  have hdrop : (safe ++ rest).drop (done.length + 1) = remaining := by
    rw [hpipeline, ← List.drop_drop, List.drop_left]
    rfl
  have hlength := hfailed.length
  rw [failedStepResultOf, h.rollbackSafeStepsOf rest] at hresult
  by_cases hbefore : done.length < safe.length
  · have hsafe : failed.rollbackSafe = true := by
      apply h.rollbackSafe
      have hget : (safe ++ rest)[done.length]? = some failed := by
        rw [hpipeline, List.getElem?_append_right (Nat.le_refl _), Nat.sub_self]
        rfl
      rw [List.getElem?_append_left hbefore] at hget
      exact List.mem_of_getElem? hget
    rw [if_pos ⟨hbefore, hsafe⟩] at hresult
    refine ⟨failed, remaining, ?_, ?_, .inl ⟨?_, ?_, ?_⟩⟩ <;> rw [hresult]
    · exact hunfinished
    · rfl
    · rfl
    · rfl
    · exact hlength ▸ hbefore
  · rw [if_neg fun hboth => hbefore hboth.1, hdrop] at hresult
    refine ⟨failed, remaining, ?_, ?_, .inr ⟨?_, ?_, ?_⟩⟩ <;> rw [hresult]
    · exact hunfinished
    · rfl
    · rfl
    · rfl
    · show safe.length < steps.length
      omega

theorem returns_recordUpgrade {dict : Dict} (h : result.toDict = .ok dict) :
    (recordUpgrade operationId result).Returns (.ok result) := by
  rw [recordUpgrade, h]
  simp only [completeOperation, onJournal_transitionOrRaise]
  exact returns_perform_bind.2 ⟨true, returns_pure.2 rfl⟩

def demoPlan : UpgradePlan where
  schemaVersion := "1"
  planToken := "plan-1"
  fromVersion := "0.14.0"
  toVersion := "0.15.0"
  backupSetDir := "/backups/set-1"
  backupSetId := "set-1"
  backupDigest := "digest"
  migrationDigest := "digest"
  target := ⟨"demo", "/srv/demo"⟩
  createdAt := "2026-03-01T00:00:00+00:00"
  expiresAt := "2026-03-01T04:00:00+00:00"

def demoProviders : OrderedDict String Contributor where
  items := [("postgres", .provider), ("nessie", .provider), ("iceberg", .provider), ("minio", .provider)]
  nodup := by decide

def demoCall : UpgradeCall := { plan := demoPlan, confirmationToken := "plan-1", contributors := demoProviders }

def schemaStep : UpgradeStepDef := ⟨"postgres", "postgres.schema", "migration", true, true⟩

def catalogStep : UpgradeStepDef := ⟨"nessie", "nessie.catalog", "migration", false, false⟩

def schemaMigrated : UpgradeStepResult :=
  { owner := "postgres", name := "postgres.schema", state := .succeeded, phase := .submission, retrySafe := true }

def catalogRefused : UpgradeStepResult :=
  { owner := "nessie", name := "nessie.catalog", state := .failed, phase := .submission
    failure := .json (.obj [("reason", .str "catalog migration refused")]) }

def catalogResult : UpgradeResult :=
  failedStepResultOf upgradePipeline "postgres.schema" demoPlan [schemaMigrated, catalogRefused] 1 catalogStep

theorem returns_catalogResult :
    (runUpgradeSteps upgradePipeline "postgres.schema" "upgrade.apply:demo:1" demoCall).Returns
      (.ok ([schemaMigrated, catalogRefused], some catalogResult)) := by
  have hpostgres : demoCall.provides "postgres" := by decide
  have hnessie : demoCall.provides "nessie" := by decide
  have hloop : (upgradeSteps demoCall upgradePipeline 0 []).Returns
      (.failed [schemaMigrated, catalogRefused] 1 catalogStep) := by
    rw [upgradePipeline, upgradeSteps, if_pos hpostgres, returns_perform_bind]
    refine ⟨.ok (.step schemaMigrated), ?_⟩
    show (upgradeSteps demoCall _ 1 [schemaMigrated]).Returns _
    rw [upgradeSteps, if_pos hnessie, returns_perform_bind]
    exact ⟨.ok (.step catalogRefused), .done _⟩
  have hdict : ∃ dict, catalogResult.toDict = .ok dict := ⟨_, rfl⟩
  obtain ⟨dict, hdict⟩ := hdict
  exact returns_bind.2 ⟨_, hloop, returns_bind.2 ⟨.ok catalogResult, returns_recordUpgrade hdict, returns_pure.2 rfl⟩⟩

theorem safePrefix_schema : SafePrefix "postgres.schema" [schemaStep] where
  ends := ⟨[], schemaStep, rfl, rfl, fun _ h => (by cases h)⟩
  rollbackSafe := by decide

theorem remedy_of_refused_catalog :
    ∃ failed remaining, unfinishedSteps upgradePipeline [schemaMigrated, catalogRefused] = failed :: remaining ∧
      catalogResult.forwardRepair = forwardRepairOf remaining demoPlan := by
  obtain ⟨failed, remaining, hunfinished, -, ⟨-, -, hlength⟩ | ⟨-, hrepair, -⟩⟩ :=
    remedy_of_failed_step safePrefix_schema returns_catalogResult rfl
  · exact absurd hlength (by decide)
  · exact ⟨failed, remaining, hunfinished, hrepair⟩

/-- The step that failed has not succeeded, but it is not one of the remaining steps. -/
theorem failed_step_not_remaining :
    (runUpgradeSteps upgradePipeline "postgres.schema" "upgrade.apply:demo:1" demoCall).Returns
        (.ok ([schemaMigrated, catalogRefused], some catalogResult)) ∧
      catalogResult.state = "failed" ∧ catalogResult.rollbackAction = .null ∧ catalogResult.forwardRepair ≠
        forwardRepairOf (unfinishedSteps upgradePipeline [schemaMigrated, catalogRefused]) demoPlan :=
  ⟨returns_catalogResult, rfl, rfl, by decide⟩

end Phlo.Operations
