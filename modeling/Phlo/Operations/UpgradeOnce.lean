import Phlo.Library.Sessions
import Phlo.Operations.ActiveOperations
import Phlo.Operations.Upgrade

/-!
# Upgrades happen once

Any number of processes apply one plan over one journal; their calls come in any order, they may stop anywhere
and be started again, and whatever they ask may be answered differently each time.  The files of other operations
come and go.

* `UpgradeOnce` — the providers are called by one invocation, step after step and none after a failure; an
  accepted result has every step and every reconciliation behind it; any other invocation calls no provider, and
  returns the recorded result or none;
* `upgrade_once` — every run is like that.
-/

namespace Phlo.Operations

open Phlo.Library Phlo.Library.Program
open Phlo.RunEvidence (Dict Json)

/-! ### What the operations of an upgrade do -/

abbrev UpgradeMoment := Moment UpgradeOp UpgradeWorld

def claimsPlan (naming : FileNaming) (m : UpgradeMoment) : Bool :=
  match m with
  | ⟨.journal (.claim entry), w⟩ => (w.journal.claim naming entry).2
  | _ => false

/-- The result that an operation records. -/
def recordedUpgrade (naming : FileNaming) (m : UpgradeMoment) : Option Dict :=
  match m with
  | ⟨.journal (.transition operationId _ (some result)), w⟩ =>
    if (w.journal.entry naming operationId).isSome then some result else none
  | _ => none

/-- The result that an operation finds recorded. -/
def foundUpgrade (naming : FileNaming) (m : UpgradeMoment) : Option Dict :=
  match m with
  | ⟨.journal (.read operationId), w⟩ =>
    (w.journal.entry naming operationId).bind fun record =>
      if record.state = .unknown then none else record.result
  | _ => none

/-- The step that an operation has a provider run. -/
def stepCall (m : UpgradeMoment) : Option UpgradeStepDef :=
  match m with
  | ⟨.outside (.upgradeStep defn _), _⟩ => some defn
  | _ => none

def stepAnswer (m : UpgradeMoment) : Option (Raising StepAnswer) :=
  match m with
  | ⟨.outside (.upgradeStep defn plan), w⟩ => some (w.surroundings.upgradeStep defn plan)
  | _ => none

def reconcileAnswer (m : UpgradeMoment) : Option (String × Raising Json) :=
  match m with
  | ⟨.outside (.upgradeReconcile owner plan), w⟩ => some (owner, w.surroundings.upgradeReconcile owner plan)
  | _ => none

def callsProvider (m : UpgradeMoment) : Bool := (stepCall m).isSome || (reconcileAnswer m).isSome

/-! ### What stands behind a result -/

/-- The provider has reported a step that did not fail. -/
def Advances (answer : Raising StepAnswer) : Prop :=
  ∃ result, answer = .ok (.step result) ∧ result.state ≠ .failed

/-- The step has been run and did not fail. -/
def Advanced (past : List UpgradeMoment) (defn : UpgradeStepDef) : Prop :=
  ∃ m ∈ past, stepCall m = some defn ∧ ∃ answer, stepAnswer m = some answer ∧ Advances answer

/-- The provider of the step has reported `ok`. -/
def Reconciled (past : List UpgradeMoment) (defn : UpgradeStepDef) : Prop :=
  ∃ m ∈ past, ∃ evidence, reconcileAnswer m = some (defn.owner, .ok (.obj evidence)) ∧
    truthy ((evidence.lookup "ok").getD .null) = true

/-- Every step has been run and reconciled. -/
def Verified (past : List UpgradeMoment) : Prop :=
  ∀ defn ∈ upgradePipeline, Advanced past defn ∧ Reconciled past defn

/-! ### What an invocation does -/

section

variable (naming : FileNaming) (sha256 : Json → String) (plan : UpgradePlan)

/-- The entry an invocation of a plan claims. -/
def upgradeEntry (subject : String) : OperationJournalEntry :=
  { operationId := upgradeOperationId sha256 plan, subject, action := "upgrade.apply"
    target := plan.target.targetId, planToken := plan.planToken, state := .claimed }

/-- The invocation has claimed the plan and recorded nothing yet. -/
structure HoldingPlan (past : List UpgradeMoment) : Prop where
  claimed : ∃ m ∈ past, claimsPlan naming m = true
  unrecorded : ∀ m ∈ past, recordedUpgrade naming m = none
  unfound : ∀ m ∈ past, foundUpgrade naming m = none

/-- The invocation has only looked around. -/
structure LookingAround (past : List UpgradeMoment) : Prop where
  uncalled : ∀ m ∈ past, callsProvider m = false
  unclaimed : ∀ m ∈ past, claimsPlan naming m = false
  unrecorded : ∀ m ∈ past, recordedUpgrade naming m = none
  unfound : ∀ m ∈ past, foundUpgrade naming m = none

def Recordable (past : List UpgradeMoment) (result : UpgradeResult) : Prop :=
  result.state = "succeeded" → result.accepted = true → Verified past

/-- What an invocation guarantees of each operation, given its own operations before. -/
def UpgradeGuarantee (past : List UpgradeMoment) (m : UpgradeMoment) : Prop :=
  (∀ m' ∈ past, foundUpgrade naming m' = none) ∧
  match m with
  | ⟨.journal (.read operationId), _⟩ => operationId = upgradeOperationId sha256 plan ∧
    ∀ m' ∈ past, callsProvider m' = false
  | ⟨.journal (.claim entry), _⟩ => ∃ subject, entry = upgradeEntry sha256 plan subject
  | ⟨.journal (.transition operationId state result), _⟩ =>
    operationId = upgradeOperationId sha256 plan ∧ HoldingPlan naming past ∧
      (result = none ∧ state.active = true ∨ ∃ r dict, UpgradeResult.toDict r = .ok dict ∧ result = some dict ∧
        state = stateOfResult dict ∧ Recordable past r)
  | ⟨.outside (.upgradeStep defn _), _⟩ => HoldingPlan naming past ∧
    List.Sublist ((past.filterMap stepCall).reverse ++ [defn]) upgradePipeline ∧
    ∀ m' ∈ past, ∀ answer, stepAnswer m' = some answer → Advances answer
  | ⟨.outside (.upgradeReconcile _ _), _⟩ => HoldingPlan naming past
  | _ => True

/-- What an invocation returns: what it has found, what it has recorded, or that nothing is known. -/
def UpgradeReturns (past : List UpgradeMoment) (outcome : Raising UpgradeResult) (_ : UpgradeWorld) : Prop :=
  (∀ m ∈ past, ∀ stored, foundUpgrade naming m = some stored → outcome = upgradeResultFromDict stored) ∧
  ∀ result, outcome = .ok result →
    (∃ m ∈ past, ∃ stored, foundUpgrade naming m = some stored) ∨
    (∃ m ∈ past, ∃ dict, recordedUpgrade naming m = some dict ∧ result.toDict = .ok dict) ∨
    ((∃ m ∈ past, claimsPlan naming m = true) ∧ result.accepted = false)

end

section

variable {naming : FileNaming} {sha256 : Json → String} {plan : UpgradePlan} {past : List UpgradeMoment}
  {m : UpgradeMoment}

theorem LookingAround.nil : LookingAround naming [] where
  uncalled _ hm := absurd hm List.not_mem_nil
  unclaimed _ hm := absurd hm List.not_mem_nil
  unrecorded _ hm := absurd hm List.not_mem_nil
  unfound _ hm := absurd hm List.not_mem_nil

theorem LookingAround.cons (h : LookingAround naming past) (hcall : callsProvider m = false)
    (hclaim : claimsPlan naming m = false) (hrecord : recordedUpgrade naming m = none)
    (hfound : foundUpgrade naming m = none) : LookingAround naming (m :: past) where
  uncalled := List.forall_mem_cons.2 ⟨hcall, h.uncalled⟩
  unclaimed := List.forall_mem_cons.2 ⟨hclaim, h.unclaimed⟩
  unrecorded := List.forall_mem_cons.2 ⟨hrecord, h.unrecorded⟩
  unfound := List.forall_mem_cons.2 ⟨hfound, h.unfound⟩

theorem HoldingPlan.cons (h : HoldingPlan naming past) (hrecord : recordedUpgrade naming m = none)
    (hfound : foundUpgrade naming m = none) : HoldingPlan naming (m :: past) where
  claimed :=
    let ⟨m', hm', hclaim⟩ := h.claimed
    ⟨m', List.mem_cons_of_mem m hm', hclaim⟩
  unrecorded := List.forall_mem_cons.2 ⟨hrecord, h.unrecorded⟩
  unfound := List.forall_mem_cons.2 ⟨hfound, h.unfound⟩

theorem upgradeReturns_error (h : ∀ m ∈ past, foundUpgrade naming m = none) (e : Raised) (w : UpgradeWorld) :
    UpgradeReturns naming past (.error e) w := by
  refine ⟨fun m hm stored hfound => ?_, fun result hresult => (by cases hresult)⟩
  rw [h m hm] at hfound
  cases hfound

theorem Reconciled.cons {defn : UpgradeStepDef} (h : Reconciled past defn) (m : UpgradeMoment) :
    Reconciled (m :: past) defn :=
  let ⟨m', hm', hstep⟩ := h
  ⟨m', List.mem_cons_of_mem m hm', hstep⟩

end

/-! ### Every invocation keeps to its part -/

section

variable {naming : FileNaming} {sha256 : Json → String} {plan : UpgradePlan} {call : UpgradeCall}
  {past : List UpgradeMoment} {w : UpgradeWorld}

/-- Nothing is relied on. -/
def AnyUpgradeWorld (_ _ : UpgradeWorld) : Prop := True

/-- An invocation's part, with what it returns. -/
abbrev UpgradeKeeps {α : Type} (naming : FileNaming) (sha256 : Json → String) (plan : UpgradePlan)
    (Q : List UpgradeMoment → α → UpgradeWorld → Prop) (p : Program UpgradeOp α) (past : List UpgradeMoment)
    (w : UpgradeWorld) : Prop :=
  Keeps (upgradeSemantics naming) AnyUpgradeWorld (UpgradeGuarantee naming sha256 plan) Q p past w

/-- The steps so far have been run by those that provide them, in order, and none has failed. -/
structure Stepping (call : UpgradeCall) (steps : List UpgradeStepDef) (past : List UpgradeMoment) : Prop where
  calls : (past.filterMap stepCall).reverse = steps.filter fun defn => call.provides defn.owner
  advance : ∀ m ∈ past, ∀ answer, stepAnswer m = some answer → Advances answer

theorem Stepping.advanced {steps : List UpgradeStepDef} (h : Stepping call steps past) {defn : UpgradeStepDef}
    (hdefn : defn ∈ steps) (hprovides : call.provides defn.owner) : Advanced past defn := by
  have hmem : defn ∈ (past.filterMap stepCall).reverse := by
    rw [h.calls]
    exact List.mem_filter.2 ⟨hdefn, decide_eq_true hprovides⟩
  obtain ⟨m, hm, hcall⟩ := List.mem_filterMap.1 (List.mem_reverse.1 hmem)
  obtain ⟨answer, hanswer⟩ : ∃ answer, stepAnswer m = some answer := by
    unfold stepCall at hcall
    split at hcall
    · exact ⟨_, rfl⟩
    · cases hcall
  exact ⟨m, hm, hcall, answer, hanswer, h.advance m hm answer hanswer⟩

theorem Stepping.other {steps : List UpgradeStepDef} (h : Stepping call steps past) {m : UpgradeMoment}
    (hcall : stepCall m = none) (hanswer : stepAnswer m = none) : Stepping call steps (m :: past) where
  calls := by
    rw [List.filterMap_cons_none hcall]
    exact h.calls
  advance := by
    refine List.forall_mem_cons.2 ⟨fun answer h' => ?_, h.advance⟩
    rw [hanswer] at h'
    cases h'

/-- After the loop over the pipeline. -/
def StepsRun (naming : FileNaming) (call : UpgradeCall) (past : List UpgradeMoment) (ended : UpgradeStepsEnd)
    (_ : UpgradeWorld) : Prop :=
  HoldingPlan naming past ∧ ∀ steps, ended = .completed steps → Stepping call upgradePipeline past

theorem keeps_upgradeSteps (before : List UpgradeStepDef) {rest : List UpgradeStepDef} (hpipeline : upgradePipeline = before ++ rest)
    (index : ℕ) (steps : List UpgradeStepResult) (h : HoldingPlan naming past)
    (hstepping : Stepping call before past) :
    UpgradeKeeps naming sha256 plan (StepsRun naming call) (upgradeSteps call rest index steps) past w := by
  induction rest generalizing before index steps past w with
  | nil =>
    rw [List.append_nil] at hpipeline
    exact fun _ _ => ⟨h, fun _ _ => hpipeline ▸ hstepping⟩
  | cons defn rest ih =>
    have hnext : upgradePipeline = (before ++ [defn]) ++ rest := by
      rw [hpipeline, List.append_assoc, List.singleton_append]
    have hfilter : ∀ b, decide (call.provides defn.owner) = b →
        ((before ++ [defn]).filter fun defn => call.provides defn.owner) =
          (before.filter fun defn => call.provides defn.owner) ++ bif b then [defn] else [] := by
      intro b hb
      rw [List.filter_append, List.filter_singleton, hb]
    rw [upgradeSteps]
    split
    next hprovides =>
      rw [UpgradeKeeps, keeps_perform_bind]
      intro w' _
      have hsublist : List.Sublist ((past.filterMap stepCall).reverse ++ [defn]) upgradePipeline := by
        rw [hstepping.calls, hnext, ← List.append_nil (_ ++ [defn])]
        have hbefore := (List.filter_sublist (p := fun defn => decide (call.provides defn.owner)) (l := before))
        exact (hbefore.append (List.Sublist.refl [defn])).append (List.nil_sublist rest)
      refine ⟨⟨h.unfound, h, hsublist, hstepping.advance⟩, ?_⟩
      have hcons := h.cons (m := ⟨.outside (.upgradeStep defn call.plan), w'⟩) rfl rfl
      split
      · exact fun _ _ => ⟨hcons, fun _ hend => (by cases hend)⟩
      · exact fun _ _ => ⟨hcons, fun _ hend => (by cases hend)⟩
      next result hanswer =>
        split
        · exact fun _ _ => ⟨hcons, fun _ hend => (by cases hend)⟩
        next hstate =>
          refine ih _ hnext _ _ hcons ⟨?_, ?_⟩
          · rw [List.filterMap_cons_some (show stepCall _ = some defn from rfl), List.reverse_cons, hstepping.calls,
              hfilter true (decide_eq_true hprovides)]
            rfl
          · refine List.forall_mem_cons.2 ⟨fun answer h' => ?_, hstepping.advance⟩
            obtain rfl := Option.some.inj h'
            exact ⟨result, hanswer, hstate⟩
    next hprovides =>
      refine ih _ hnext _ _ h ⟨?_, hstepping.advance⟩
      rw [hstepping.calls, hfilter false (decide_eq_false hprovides)]
      exact (List.append_nil _).symm

def ReconcileRun (naming : FileNaming) (past : List UpgradeMoment) (ended : Checked × Option Raised)
    (_ : UpgradeWorld) : Prop :=
  HoldingPlan naming past ∧ (ended.2 = none → ended.1.reasons = [] → Verified past)

/-- What has been reconciled unless there is a reason against it. -/
def Reconciling (call : UpgradeCall) (steps : List UpgradeStepDef) (past : List UpgradeMoment) (checked : Checked) :
    Prop :=
  checked.reasons = [] → ∀ defn ∈ steps, call.provides defn.owner ∧ Reconciled past defn

theorem keeps_reconcileUpgrade (before : List UpgradeStepDef) {rest : List UpgradeStepDef} (hpipeline : upgradePipeline = before ++ rest)
    (checked : Checked) (h : HoldingPlan naming past)
    (hstepping : Stepping call upgradePipeline past) (hreconciling : Reconciling call before past checked) :
    UpgradeKeeps naming sha256 plan (ReconcileRun naming) (reconcileUpgrade call rest checked) past w := by
  induction rest generalizing before checked past w with
  | nil =>
    rw [List.append_nil] at hpipeline
    refine fun _ _ => ⟨h, fun _ hreasons defn hdefn => ?_⟩
    obtain ⟨hprovides, hreconciled⟩ := hreconciling hreasons defn (hpipeline ▸ hdefn)
    exact ⟨hstepping.advanced hdefn hprovides, hreconciled⟩
  | cons defn rest ih =>
    have hnext : upgradePipeline = (before ++ [defn]) ++ rest := by
      rw [hpipeline, List.append_assoc, List.singleton_append]
    -- a check without an `ok` leaves a reason
    have hreason : ∀ past reason, Reconciling call (before ++ [defn]) past (checked.add defn.name false reason) :=
      fun _ _ hreasons => absurd hreasons (List.append_ne_nil_of_right_ne_nil _ (List.cons_ne_nil _ _))
    rw [reconcileUpgrade]
    split
    next hprovides =>
      rw [UpgradeKeeps, keeps_perform_bind]
      intro w' _
      refine ⟨⟨h.unfound, h⟩, ?_⟩
      have hcons := h.cons (m := ⟨.outside (.upgradeReconcile defn.owner call.plan), w'⟩) rfl rfl
      have hcalls := hstepping.other (m := ⟨.outside (.upgradeReconcile defn.owner call.plan), w'⟩) rfl rfl
      split
      · exact fun _ _ => ⟨hcons, fun hnone => (by cases hnone)⟩
      next evidence hanswer =>
        dsimp only
        refine ih _ hnext _ hcons hcalls ?_
        cases hok : truthy ((evidence.lookup "ok").getD .null) with
        | false => exact hreason _ _
        | true =>
          intro hreasons defn' hdefn'
          rcases List.mem_append.1 hdefn' with hbefore | hlast
          · obtain ⟨hprovides', hreconciled⟩ := hreconciling hreasons defn' hbefore
            exact ⟨hprovides', hreconciled.cons _⟩
          · obtain rfl := List.mem_singleton.1 hlast
            refine ⟨hprovides, _, List.mem_cons_self, evidence, ?_, hok⟩
            show some (defn'.owner, w'.surroundings.upgradeReconcile defn'.owner call.plan) = _
            rw [show w'.surroundings.upgradeReconcile defn'.owner call.plan = _ from hanswer]
      · exact fun _ _ => ⟨hcons, fun hnone => (by cases hnone)⟩
    · exact ih _ hnext _ h hstepping (hreason _ _)

variable {operationId : String}

theorem transition_known {s : JournalStore} {state : OperationJournalState} {result : Option Dict} :
    (s.transition naming operationId state result).2 = (s.entry naming operationId).isSome := by
  unfold JournalStore.transition
  cases s.entry naming operationId <;> rfl

def RecordedOrRaised (naming : FileNaming) (past : List UpgradeMoment) (outcome : Raising UpgradeResult)
    (_ : UpgradeWorld) : Prop :=
  (∀ m ∈ past, foundUpgrade naming m = none) ∧ (∀ e, outcome = .error e → HoldingPlan naming past) ∧
    ∀ result, outcome = .ok result →
      ∃ m ∈ past, ∃ dict, recordedUpgrade naming m = some dict ∧ result.toDict = .ok dict

theorem keeps_recordUpgrade {result : UpgradeResult} (hid : operationId = upgradeOperationId sha256 plan)
    (h : HoldingPlan naming past) (hresult : Recordable past result) :
    UpgradeKeeps naming sha256 plan (RecordedOrRaised naming) (recordUpgrade operationId result) past w := by
  unfold recordUpgrade
  cases hdict : result.toDict with
  | error e => exact fun _ _ => ⟨h.unfound, fun _ _ => h, fun _ hok => (by cases hok)⟩
  | ok dict =>
    dsimp only
    rw [completeOperation, onJournal_transitionOrRaise, UpgradeKeeps, keeps_perform_bind]
    intro w' _
    refine ⟨⟨h.unfound, hid, h, .inr ⟨result, dict, hdict, rfl, rfl, hresult⟩⟩, ?_⟩
    have hunfound : ∀ m ∈ (⟨.journal (.transition operationId (stateOfResult dict) (some dict)), w'⟩ :: past :
        List UpgradeMoment), foundUpgrade naming m = none := List.forall_mem_cons.2 ⟨rfl, h.unfound⟩
    have hknown : ((upgradeSemantics naming).exec
        (UpgradeOp.journal (.transition operationId (stateOfResult dict) (some dict))) w').2 =
        (w'.journal.entry naming operationId).isSome := transition_known
    rw [hknown]
    cases hentry : (w'.journal.entry naming operationId).isSome with
    | true =>
      refine fun _ _ => ⟨hunfound, fun e he => (by cases he), fun result' hok => ?_⟩
      obtain rfl : result = result' := Except.ok.inj hok
      refine ⟨_, List.mem_cons_self, dict, ?_, hdict⟩
      show (if (w'.journal.entry naming operationId).isSome then _ else none) = some dict
      rw [hentry]
      rfl
    | false =>
      -- the transition was refused, so nothing has been recorded
      refine fun _ _ => ⟨hunfound, fun _ _ => h.cons ?_ rfl, fun _ hok => (by cases hok)⟩
      show (if (w'.journal.entry naming operationId).isSome then _ else none) = none
      rw [hentry]
      rfl

theorem upgradeReturns_of_recorded {outcome : Raising UpgradeResult} (h : RecordedOrRaised naming past outcome w)
    (w' : UpgradeWorld) : UpgradeReturns naming past outcome w' := by
  refine ⟨fun m hm stored hfound => ?_, fun result hresult => .inr (.inl (h.2.2 result hresult))⟩
  rw [h.1 m hm] at hfound
  cases hfound

theorem keeps_recordUpgrade_last {result : UpgradeResult} (hid : operationId = upgradeOperationId sha256 plan)
    (h : HoldingPlan naming past) (hresult : Recordable past result) :
    UpgradeKeeps naming sha256 plan (UpgradeReturns naming) (recordUpgrade operationId result) past w :=
  (keeps_recordUpgrade hid h hresult).mono fun _ _ w hrecorded => upgradeReturns_of_recorded hrecorded w

theorem recordable_failed (past : List UpgradeMoment) (steps : List UpgradeStepResult)
    (rollbackAction forwardRepair failure : Json) :
    Recordable past (failedUpgrade plan steps rollbackAction forwardRepair failure) :=
  fun _ haccepted => by cases haccepted

theorem keeps_runUpgrade (hid : operationId = upgradeOperationId sha256 plan) (h : HoldingPlan naming past)
    (hnone : past.filterMap stepCall = []) (hanswers : ∀ m ∈ past, stepAnswer m = none) :
    UpgradeKeeps naming sha256 plan (UpgradeReturns naming) (runUpgrade operationId call) past w := by
  have hstart : Stepping call [] past := by
    refine ⟨by rw [hnone]; rfl, fun m hm answer hanswer => ?_⟩
    rw [hanswers m hm] at hanswer
    cases hanswer
  rw [runUpgrade]
  refine Keeps.bind (fun _ => trivial)
    (keeps_upgradeSteps [] rfl 0 [] h hstart) fun past' ended w' hrun => ?_
  obtain ⟨h', hcompleted⟩ := hrun
  cases ended with
  | unrecordable e => exact fun w'' _ => upgradeReturns_error h'.unfound e w''
  | raised steps e => exact keeps_recordUpgrade_last hid h' (recordable_failed _ _ _ _ _)
  | failed steps index defn =>
    have hrecordable : Recordable past' (failedStepResult call.plan steps index defn) := by
      unfold failedStepResult
      split
      · exact recordable_failed _ _ _ _ _
      · exact recordable_failed _ _ _ _ _
    refine Keeps.bind (fun _ => trivial) (keeps_recordUpgrade hid h' hrecordable) fun past'' outcome w'' h'' => ?_
    cases outcome with
    | ok result => exact fun w'' _ => upgradeReturns_of_recorded h'' w''
    | error e => exact keeps_recordUpgrade_last hid (h''.2.1 e rfl) (recordable_failed _ _ _ _ _)
  | completed steps =>
    refine Keeps.bind (fun _ => trivial) (keeps_reconcileUpgrade [] rfl {} h'
      (hcompleted steps rfl) fun _ _ hdefn => absurd hdefn List.not_mem_nil) fun past'' outcome w'' h'' => ?_
    obtain ⟨hholding, hverified⟩ := h''
    obtain ⟨checked, raised⟩ := outcome
    cases raised with
    | none =>
      refine keeps_recordUpgrade_last hid hholding fun _ haccepted => ?_
      exact hverified rfl (List.isEmpty_iff.1 haccepted)
    | some e =>
      dsimp only
      rw [markUnknown, onJournal_transitionOrRaise, keeps_perform_bind]
      intro w₁ _
      refine ⟨⟨hholding.unfound, hid, hholding, .inl ⟨rfl, rfl⟩⟩, ?_⟩
      have hcons := hholding.cons (m := ⟨.journal (.transition operationId .unknown none), w₁⟩) rfl rfl
      split
      · refine fun _ _ => ⟨fun m hm stored hfound => ?_, fun result hresult => .inr (.inr ⟨hcons.claimed, ?_⟩)⟩
        · rw [hcons.unfound m hm] at hfound
          cases hfound
        · obtain rfl := Except.ok.inj hresult
          rfl
      · exact fun w₂ _ => upgradeReturns_error hcons.unfound _ w₂

/-- An invocation that has called no provider. -/
def Uncalled (past : List UpgradeMoment) : Prop :=
  past.filterMap stepCall = [] ∧ ∀ m ∈ past, stepAnswer m = none

theorem Uncalled.cons {m : UpgradeMoment} (h : Uncalled past) (hcall : stepCall m = none)
    (hanswer : stepAnswer m = none) : Uncalled (m :: past) :=
  ⟨by rw [List.filterMap_cons_none hcall]; exact h.1, List.forall_mem_cons.2 ⟨hanswer, h.2⟩⟩

/-- After `claimUpgrade` the invocation holds the plan, or it has raised before any result was recorded. -/
def ClaimedPlan (naming : FileNaming) (past : List UpgradeMoment) (outcome : Raising Unit) (_ : UpgradeWorld) : Prop :=
  (∀ m ∈ past, foundUpgrade naming m = none) ∧ ∀ u, outcome = .ok u → HoldingPlan naming past ∧ Uncalled past

theorem keeps_claimUpgrade (hid : operationId = upgradeOperationId sha256 plan) (hplan : call.plan = plan)
    (h : LookingAround naming past) (huncalled : Uncalled past) :
    UpgradeKeeps naming sha256 plan (ClaimedPlan naming) (claimUpgrade operationId call) past w := by
  subst hid hplan
  rw [claimUpgrade]
  refine Keeps.bind (fun _ => trivial)
    (?_ : UpgradeKeeps naming sha256 call.plan (ClaimedPlan naming) _ past w) ?_
  · rw [onJournal_claimOperation, UpgradeKeeps, keeps_perform_bind]
    intro w' _
    refine ⟨⟨h.unfound, call.subject, rfl⟩, ?_⟩
    have hunfound : ∀ m ∈ (⟨.journal (.claim (upgradeEntry sha256 call.plan call.subject)), w'⟩ :: past :
        List UpgradeMoment), foundUpgrade naming m = none := List.forall_mem_cons.2 ⟨rfl, h.unfound⟩
    split
    next hclaimed =>
      have hholding : HoldingPlan naming
          (⟨.journal (.claim (upgradeEntry sha256 call.plan call.subject)), w'⟩ :: past) :=
        ⟨⟨_, List.mem_cons_self, hclaimed⟩, List.forall_mem_cons.2 ⟨rfl, h.unrecorded⟩, hunfound⟩
      rw [markSubmitted, onJournal_transitionOrRaise, keeps_perform_bind]
      intro w'' _
      refine ⟨⟨hunfound, rfl, hholding, .inl ⟨rfl, rfl⟩⟩, ?_⟩
      have hcons := hholding.cons (m := ⟨.journal (.transition (upgradeOperationId sha256 call.plan) .submitted none),
        w''⟩) rfl rfl
      have hnone := (huncalled.cons (m := ⟨.journal (.claim (upgradeEntry sha256 call.plan call.subject)), w'⟩) rfl
        rfl).cons (m := ⟨.journal (.transition (upgradeOperationId sha256 call.plan) .submitted none), w''⟩) rfl rfl
      split
      · exact fun _ _ => ⟨hcons.unfound, fun _ _ => ⟨hcons, hnone⟩⟩
      · exact fun _ _ => ⟨hcons.unfound, fun _ _ => ⟨hcons, hnone⟩⟩
    · exact fun _ _ => ⟨hunfound, fun u hu => (by cases hu)⟩
  · intro past' outcome w' hpast w'' _
    refine ⟨hpast.1, fun u hu => ?_⟩
    cases outcome with
    | ok u => exact hpast.2 u rfl
    | error e => cases hu

theorem keeps_verifyAndUpgrade (hid : operationId = upgradeOperationId sha256 plan) (hplan : call.plan = plan)
    (h : LookingAround naming past) (huncalled : Uncalled past) :
    UpgradeKeeps naming sha256 plan (UpgradeReturns naming) (verifyAndUpgrade sha256 operationId call) past w := by
  rw [verifyAndUpgrade, UpgradeKeeps, keeps_perform_bind]
  intro w₁ _
  refine ⟨⟨h.unfound, trivial⟩, ?_⟩
  have h₁ := h.cons (m := ⟨.outside (.verifiedManifest call.plan.backupSetDir), w₁⟩) rfl rfl rfl rfl
  have hnone := huncalled.cons (m := ⟨.outside (.verifiedManifest call.plan.backupSetDir), w₁⟩) rfl rfl
  split
  · exact fun w' _ => upgradeReturns_error h₁.unfound _ w'
  split
  · exact fun w' _ => upgradeReturns_error h₁.unfound _ w'
  refine Keeps.bind (fun _ => trivial) (keeps_claimUpgrade hid hplan h₁ hnone) fun past' outcome w' hpast => ?_
  cases outcome with
  | error e => exact fun w'' _ => upgradeReturns_error hpast.1 _ w''
  | ok u =>
    obtain ⟨hholding, hcalls, hanswers⟩ := hpast.2 u rfl
    exact keeps_runUpgrade hid hholding hcalls hanswers

theorem keeps_upgradeApply (call : UpgradeCall) (hplan : call.plan = plan) (w : UpgradeWorld) :
    UpgradeKeeps naming sha256 plan (UpgradeReturns naming) (upgradeApply sha256 call) [] w := by
  subst hplan
  rw [upgradeApply]
  dsimp only
  have h₀ : LookingAround naming [] := LookingAround.nil
  split
  · exact fun w' _ => upgradeReturns_error h₀.unfound _ w'
  split
  · exact fun w' _ => upgradeReturns_error h₀.unfound _ w'
  rw [UpgradeKeeps, keeps_perform_bind]
  intro w₁ _
  refine ⟨⟨h₀.unfound, trivial⟩, ?_⟩
  have h₁ := h₀.cons (m := ⟨.outside (.isExpired call.plan), w₁⟩) rfl rfl rfl rfl
  split
  · exact fun w' _ => upgradeReturns_error h₁.unfound _ w'
  rw [onJournal_readOrReplay, keeps_perform_bind]
  intro w₂ _
  refine ⟨⟨h₁.unfound, rfl, h₁.uncalled⟩, ?_⟩
  have hfound : foundUpgrade naming ⟨.journal (.read (upgradeOperationId sha256 call.plan)), w₂⟩ =
      (w₂.journal.entry naming (upgradeOperationId sha256 call.plan)).bind fun record =>
        if record.state = .unknown then none else record.result := rfl
  have hgone : foundUpgrade naming ⟨.journal (.read (upgradeOperationId sha256 call.plan)), w₂⟩ = none →
      UpgradeKeeps naming sha256 call.plan (UpgradeReturns naming)
        (verifyAndUpgrade sha256 (upgradeOperationId sha256 call.plan) call)
        (⟨.journal (.read (upgradeOperationId sha256 call.plan)), w₂⟩ ::
          [⟨.outside (.isExpired call.plan), w₁⟩]) w₂ := fun hnone =>
    keeps_verifyAndUpgrade rfl rfl (h₁.cons rfl rfl rfl hnone) ⟨rfl, by simp [stepAnswer]⟩
  have hreturned : ∀ stored, foundUpgrade naming
      ⟨.journal (.read (upgradeOperationId sha256 call.plan)), w₂⟩ = some stored →
      UpgradeKeeps naming sha256 call.plan (UpgradeReturns naming) (pure (upgradeResultFromDict stored))
        (⟨.journal (.read (upgradeOperationId sha256 call.plan)), w₂⟩ ::
          [⟨.outside (.isExpired call.plan), w₁⟩]) w₂ := by
    intro stored hsome w' _
    refine ⟨fun m hm stored' hstored => ?_, fun _ _ => .inl ⟨_, List.mem_cons_self, stored, hsome⟩⟩
    obtain rfl | hm := List.mem_cons.1 hm
    · rw [hsome] at hstored
      rw [Option.some.inj hstored]
    · rw [h₁.unfound m hm] at hstored
      cases hstored
  split
  next hentry =>
    refine hgone ?_
    rw [hfound, show w₂.journal.entry naming _ = none from hentry]
    rfl
  next record hentry =>
    split
    next hstate =>
      refine fun w' _ => upgradeReturns_error (List.forall_mem_cons.2 ⟨?_, h₁.unfound⟩) _ w'
      rw [hfound, show w₂.journal.entry naming _ = some record from hentry]
      exact if_pos hstate
    next hstate =>
      have hstored : foundUpgrade naming
          ⟨.journal (.read (upgradeOperationId sha256 call.plan)), w₂⟩ = record.result := by
        rw [hfound, show w₂.journal.entry naming _ = some record from hentry]
        exact if_neg hstate
      cases hresult : record.result with
      | none => exact hgone (hstored.trans hresult)
      | some stored => exact hreturned stored (hstored.trans hresult)

end

/-! ### The record of the plan in a run -/

section

variable {ι : Type}

abbrev UpgradeTraced (ι : Type) := Entry ι UpgradeOp UpgradeWorld

/-- What the record of the plan and the trace of a run say of each other. -/
structure UpgradeInv (naming : FileNaming) (sha256 : Json → String) (plan : UpgradePlan) (w : UpgradeWorld)
    (l : List (UpgradeTraced ι)) : Prop where
  guarantee : ∀ e ∈ l, UpgradeGuarantee naming sha256 plan e.past e.moment
  /-- the plan is claimed once -/
  once : Unique (fun e : UpgradeTraced ι => claimsPlan naming e.moment = true) l
  /-- and its record stays -/
  claimed : ∀ e ∈ l, claimsPlan naming e.moment = true →
    (w.journal.entry naming (upgradeOperationId sha256 plan)).isSome
  recordedOnce : Unique (fun e : UpgradeTraced ι => (recordedUpgrade naming e.moment).isSome = true) l
  /-- the record keeps the result -/
  result : ∀ e ∈ l, ∀ dict, recordedUpgrade naming e.moment = some dict → ∃ record,
    w.journal.entry naming (upgradeOperationId sha256 plan) = some record ∧ record.state.active = false ∧
      record.result = some dict
  /-- and has no other -/
  source : ∀ record dict, w.journal.entry naming (upgradeOperationId sha256 plan) = some record →
    record.result = some dict → ∃ e ∈ l, recordedUpgrade naming e.moment = some dict

variable {naming : FileNaming} {sha256 : Json → String} {plan : UpgradePlan} {w : UpgradeWorld}
  {l : List (UpgradeTraced ι)} {e : UpgradeTraced ι}

theorem UpgradeInv.skip (h : UpgradeInv naming sha256 plan w l)
    (hguarantee : UpgradeGuarantee naming sha256 plan e.past e.moment)
    (hclaim : claimsPlan naming e.moment = false) (hrecord : recordedUpgrade naming e.moment = none) :
    UpgradeInv naming sha256 plan w (e :: l) := by
  refine ⟨List.forall_mem_cons.2 ⟨hguarantee, h.guarantee⟩, ?_, ?_, ?_, ?_, ?_⟩
  · exact List.pairwise_cons.2 ⟨fun b _ hboth => Bool.false_ne_true (hclaim.symm.trans hboth.1), h.once⟩
  · refine List.forall_mem_cons.2 ⟨fun hclaimed => ?_, h.claimed⟩
    rw [hclaim] at hclaimed
    cases hclaimed
  · have hnone : (recordedUpgrade naming e.moment).isSome = false := congrArg Option.isSome hrecord
    exact List.pairwise_cons.2 ⟨fun b _ hboth => Bool.false_ne_true (hnone.symm.trans hboth.1), h.recordedOnce⟩
  · refine List.forall_mem_cons.2 ⟨fun dict hdict => ?_, h.result⟩
    rw [hrecord] at hdict
    cases hdict
  · intro record dict hentry hresult
    obtain ⟨f, hf, hdict⟩ := h.source record dict hentry hresult
    exact ⟨f, List.mem_cons_of_mem e hf, hdict⟩

variable {l₁ : List (UpgradeTraced ι)}

theorem precedes_of_holdingPlan {l₂ : List (UpgradeTraced ι)} {e f : UpgradeTraced ι}
    (hlinear : Linear (l₁ ++ e :: l₂))
    (hunique : Unique (fun e : UpgradeTraced ι => claimsPlan naming e.moment = true) l₂) (hf : f ∈ l₂)
    (he : HoldingPlan naming e.past) (hf' : HoldingPlan naming f.past) : f.Precedes e := by
  have hsuffix : ∀ {past : List UpgradeMoment}, HoldingPlan naming past →
      ∃ m P, (m :: P) <:+ past ∧ claimsPlan naming m = true := by
    intro past hholding
    obtain ⟨m, hm, hclaim⟩ := hholding.claimed
    obtain ⟨s, P, rfl⟩ := List.append_of_mem hm
    exact ⟨m, P, List.suffix_append s (m :: P), hclaim⟩
  obtain ⟨m, P, hm, hclaim⟩ := hsuffix he
  obtain ⟨m', P', hm', hclaim'⟩ := hsuffix hf'
  exact hlinear.precedes hunique hf hm hm' hclaim hclaim'

theorem recordable_of_recorded {past : List UpgradeMoment} {m : UpgradeMoment} {dict : Dict}
    (hguarantee : UpgradeGuarantee naming sha256 plan past m) (h : recordedUpgrade naming m = some dict) :
    HoldingPlan naming past ∧ ∃ result : UpgradeResult, result.toDict = .ok dict ∧ Recordable past result := by
  unfold recordedUpgrade at h
  split at h
  next operationId state stored w =>
    split at h
    next =>
      obtain rfl := Option.some.inj h
      obtain ⟨-, -, hholding, ⟨hnone, -⟩ | ⟨result, dict, hdict, hsome, -, hrecordable⟩⟩ := hguarantee
      · cases hnone
      · obtain rfl := Option.some.inj hsome
        exact ⟨hholding, result, hdict, hrecordable⟩
    · cases h
  · cases h

theorem holding_of_callsProvider {past : List UpgradeMoment} {m : UpgradeMoment}
    (hguarantee : UpgradeGuarantee naming sha256 plan past m) (h : callsProvider m = true) :
    HoldingPlan naming past := by
  obtain ⟨op, w⟩ := m
  cases op with
  | journal op => cases h
  | outside op =>
    cases op with
    | isExpired plan => cases h
    | verifiedManifest dir => cases h
    | upgradeStep defn plan => exact hguarantee.2.1
    | upgradeReconcile owner plan => exact hguarantee.2

theorem UpgradeInv.unrecorded (h : UpgradeInv naming sha256 plan w l) (hlinear : Linear (l₁ ++ e :: l))
    (he : HoldingPlan naming e.past) : ∀ f ∈ l, recordedUpgrade naming f.moment = none := by
  intro f hf
  cases hrecorded : recordedUpgrade naming f.moment with
  | none => rfl
  | some dict =>
    obtain ⟨hf', -⟩ := recordable_of_recorded (h.guarantee f hf) hrecorded
    have hprecedes := precedes_of_holdingPlan hlinear h.once hf he hf'
    rw [he.unrecorded f.moment (hprecedes.2.subset List.mem_cons_self)] at hrecorded
    cases hrecorded

theorem UpgradeInv.file (h : UpgradeInv naming sha256 plan w l) (hlinear : Linear (l₁ ++ e :: l))
    (he : HoldingPlan naming e.past) :
    ∃ record, w.journal.entry naming (upgradeOperationId sha256 plan) = some record := by
  obtain ⟨m, hm, hclaim⟩ := he.claimed
  obtain ⟨s, P, hpast⟩ := List.append_of_mem hm
  have hmem := hlinear.session.mem m P (hpast ▸ List.suffix_append s (m :: P))
  exact Option.isSome_iff_exists.1 (h.claimed _ hmem hclaim)

theorem UpgradeInv.claim (h : UpgradeInv naming sha256 plan w l) {client : ι} {past : List UpgradeMoment}
    {subject : String}
    (hguarantee : UpgradeGuarantee naming sha256 plan past ⟨.journal (.claim (upgradeEntry sha256 plan subject)), w⟩)
    (hnew : w.journal.entry naming (upgradeOperationId sha256 plan) = none) :
    UpgradeInv naming sha256 plan { w with journal := w.journal.write naming (upgradeEntry sha256 plan subject) }
      (⟨client, past, ⟨.journal (.claim (upgradeEntry sha256 plan subject)), w⟩⟩ :: l) := by
  have hentry : (w.journal.write naming (upgradeEntry sha256 plan subject)).entry naming
      (upgradeOperationId sha256 plan) = some (upgradeEntry sha256 plan subject) := by
    show (w.journal.files.set (naming.safeName (upgradeOperationId sha256 plan)) _).get _ = _
    rw [OrderedDict.get_set, if_pos rfl]
  -- there has been no claim, so nothing has been recorded either
  have hunclaimed : ∀ f ∈ l, claimsPlan naming f.moment = false := by
    intro f hf
    refine Bool.eq_false_iff.2 fun hclaim => ?_
    have hsome := h.claimed f hf hclaim
    rw [hnew] at hsome
    cases hsome
  have hunrecorded : ∀ f ∈ l, recordedUpgrade naming f.moment = none := by
    intro f hf
    cases hdict : recordedUpgrade naming f.moment with
    | none => rfl
    | some dict =>
      obtain ⟨record, hrecord, -⟩ := h.result f hf dict hdict
      rw [hnew] at hrecord
      cases hrecord
  refine ⟨List.forall_mem_cons.2 ⟨hguarantee, h.guarantee⟩, ?_, ?_, ?_, ?_, ?_⟩
  · refine List.pairwise_cons.2 ⟨fun b hb hboth => ?_, h.once⟩
    exact Bool.false_ne_true ((hunclaimed b hb).symm.trans hboth.2)
  · exact fun _ _ _ => Option.isSome_of_eq_some hentry
  · exact List.pairwise_cons.2 ⟨fun b _ hboth => Bool.false_ne_true hboth.1, h.recordedOnce⟩
  · refine List.forall_mem_cons.2 ⟨fun dict hdict => (by cases hdict), fun f hf dict hdict => ?_⟩
    rw [hunrecorded f hf] at hdict
    cases hdict
  · intro record dict hrecord hresult
    obtain rfl := Option.some.inj (hentry.symm.trans hrecord)
    cases hresult

theorem UpgradeInv.transition (h : UpgradeInv naming sha256 plan w l) {client : ι} {past : List UpgradeMoment}
    {state : OperationJournalState} {result : Option Dict} {record : OperationJournalEntry}
    (hguarantee : UpgradeGuarantee naming sha256 plan past
      ⟨.journal (.transition (upgradeOperationId sha256 plan) state result), w⟩)
    (hrecord : w.journal.entry naming (upgradeOperationId sha256 plan) = some record)
    (hunrecorded : ∀ f ∈ l, recordedUpgrade naming f.moment = none)
    (hstate : result.isSome → state.active = false) :
    UpgradeInv naming sha256 plan
      { w with journal := ⟨w.journal.files.set (naming.safeName (upgradeOperationId sha256 plan))
        { record with state := state, result := result }⟩ }
      (⟨client, past, ⟨.journal (.transition (upgradeOperationId sha256 plan) state result), w⟩⟩ :: l) := by
  have hentry : (⟨w.journal.files.set (naming.safeName (upgradeOperationId sha256 plan))
      { record with state := state, result := result }⟩ : JournalStore).entry naming (upgradeOperationId sha256 plan) =
      some { record with state := state, result := result } := by
    show (w.journal.files.set (naming.safeName (upgradeOperationId sha256 plan)) _).get _ = _
    rw [OrderedDict.get_set, if_pos rfl]
  have hrecords : recordedUpgrade naming
      ⟨.journal (.transition (upgradeOperationId sha256 plan) state result), w⟩ = result := by
    cases result with
    | none => rfl
    | some dict =>
      show (if (w.journal.entry naming (upgradeOperationId sha256 plan)).isSome then _ else none) = _
      rw [hrecord]
      rfl
  refine ⟨List.forall_mem_cons.2 ⟨hguarantee, h.guarantee⟩, ?_, ?_, ?_, ?_, ?_⟩
  · exact List.pairwise_cons.2 ⟨fun b _ hboth => Bool.false_ne_true hboth.1, h.once⟩
  · exact fun _ _ _ => Option.isSome_of_eq_some hentry
  · refine List.pairwise_cons.2 ⟨fun b hb hboth => ?_, h.recordedOnce⟩
    have hnone : (recordedUpgrade naming b.moment).isSome = false := congrArg Option.isSome (hunrecorded b hb)
    exact Bool.false_ne_true (hnone.symm.trans hboth.2)
  · refine List.forall_mem_cons.2 ⟨fun dict hdict => ?_, fun f hf dict hdict => ?_⟩
    · rw [hrecords] at hdict
      subst hdict
      exact ⟨_, hentry, hstate rfl, rfl⟩
    · rw [hunrecorded f hf] at hdict
      cases hdict
  · intro record' dict hrecord' hresult
    obtain rfl := Option.some.inj (hentry.symm.trans hrecord')
    exact ⟨_, List.mem_cons_self, hrecords.trans hresult⟩

/-- Every operation of an invocation keeps the record and the trace in step. -/
theorem UpgradeInv.step (h : UpgradeInv naming sha256 plan e.moment.before l) (hlinear : Linear (e :: l))
    (hguarantee : UpgradeGuarantee naming sha256 plan e.past e.moment) :
    UpgradeInv naming sha256 plan (e.moment.after (upgradeSemantics naming)) (e :: l) := by
  obtain ⟨client, past, op, w⟩ := e
  cases op with
  | outside op => exact h.skip hguarantee rfl rfl
  | journal op =>
    cases op with
    | read operationId => exact h.skip hguarantee rfl rfl
    | claim entry =>
      show UpgradeInv naming sha256 plan { w with journal := (w.journal.claim naming entry).1 } _
      obtain ⟨hunfound, subject, rfl⟩ := hguarantee
      obtain ⟨hnew, -, hclaim⟩ | hclaim := claim_cases naming w.journal (upgradeEntry sha256 plan subject)
      · rw [hclaim]
        exact h.claim ⟨hunfound, subject, rfl⟩ hnew
      · rw [hclaim]
        refine h.skip ⟨hunfound, subject, rfl⟩ ?_ rfl
        show (w.journal.claim naming (upgradeEntry sha256 plan subject)).2 = false
        rw [hclaim]
    | transition operationId state result =>
      show UpgradeInv naming sha256 plan
        { w with journal := (w.journal.transition naming operationId state result).1 } _
      obtain ⟨hunfound, rfl, hholding, hresult⟩ := hguarantee
      have hlinear' : Linear ([] ++ (⟨client, past, ⟨UpgradeOp.journal
        (.transition (upgradeOperationId sha256 plan) state result), w⟩⟩ : UpgradeTraced ι) :: l) := hlinear
      obtain ⟨record, hrecord⟩ := h.file hlinear' hholding
      obtain ⟨record', hrecord', htransition⟩ | ⟨hnone, -⟩ := transition_cases naming w.journal
        (upgradeOperationId sha256 plan) state result
      · rw [htransition]
        refine h.transition ⟨hunfound, rfl, hholding, hresult⟩ hrecord' (h.unrecorded hlinear' hholding) ?_
        rintro hsome
        rcases hresult with ⟨rfl, -⟩ | ⟨r, dict, -, rfl, rfl, -⟩
        · cases hsome
        · exact stateOfResult_not_active dict
      · rw [show w.journal.entry naming _ = none from hnone] at hrecord
        cases hrecord

theorem UpgradeInv.found (h : UpgradeInv naming sha256 plan w l) {dict : Dict}
    (hfound : foundUpgrade naming ⟨.journal (.read (upgradeOperationId sha256 plan)), w⟩ = some dict) :
    ∃ f ∈ l, recordedUpgrade naming f.moment = some dict := by
  obtain ⟨record, hentry, hresult⟩ := Option.bind_eq_some_iff.1 hfound
  split at hresult
  · cases hresult
  · exact h.source record dict hentry hresult

theorem UpgradeInv.find (h : UpgradeInv naming sha256 plan w l) {f : UpgradeTraced ι} (hf : f ∈ l) {dict : Dict}
    (hrecorded : recordedUpgrade naming f.moment = some dict) :
    foundUpgrade naming ⟨.journal (.read (upgradeOperationId sha256 plan)), w⟩ = some dict := by
  obtain ⟨record, hentry, hstate, hresult⟩ := h.result f hf dict hrecorded
  show (w.journal.entry naming _).bind _ = _
  rw [hentry, Option.bind_some, if_neg, hresult]
  intro hunknown
  rw [hunknown] at hstate
  cases hstate

end

/-! ### Every run -/

section

variable {ι : Type}

abbrev UpgradeNetwork (ι : Type) := Network ι UpgradeOp UpgradeWorld (Raising UpgradeResult)

/-- The journal is empty at first. -/
def UpgradeWorld.initial (surroundings : UpgradeSurroundings) : UpgradeWorld := ⟨.empty, surroundings⟩

/-- The answers change, and so do the records of other operations. -/
def UpgradeDrift (naming : FileNaming) (sha256 : Json → String) (plan : UpgradePlan) (w w' : UpgradeWorld) : Prop :=
  w'.journal.entry naming (upgradeOperationId sha256 plan) = w.journal.entry naming (upgradeOperationId sha256 plan)

abbrev UpgradeReached [DecidableEq ι] (naming : FileNaming) (sha256 : Json → String) (plan : UpgradePlan)
    (surroundings : UpgradeSurroundings) (n : UpgradeNetwork ι) : Prop :=
  Network.Reachable (upgradeSemantics naming)
    (fun p => ∃ call : UpgradeCall, call.plan = plan ∧ p = upgradeApply sha256 call)
    (UpgradeDrift naming sha256 plan) (.initial surroundings) n

theorem UpgradeInv.drift {naming : FileNaming} {sha256 : Json → String} {plan : UpgradePlan} {w w' : UpgradeWorld}
    {l : List (UpgradeTraced ι)} (hdrift : UpgradeDrift naming sha256 plan w w')
    (h : UpgradeInv naming sha256 plan w l) : UpgradeInv naming sha256 plan w' l := by
  refine ⟨h.guarantee, h.once, ?_, h.recordedOnce, ?_, ?_⟩
  · intro e he hclaim
    rw [hdrift]
    exact h.claimed e he hclaim
  · intro e he dict hdict
    rw [hdrift]
    exact h.result e he dict hdict
  · intro record dict hentry hresult
    rw [hdrift] at hentry
    exact h.source record dict hentry hresult

/-- At most once, and truthfully. -/
structure UpgradeOnce (naming : FileNaming) (sha256 : Json → String) (plan : UpgradePlan) (n : UpgradeNetwork ι) :
    Prop where
  /-- of two calls of providers the earlier one is by the invocation of the later one -/
  once : ∀ l₁ e l₂ f, n.trace = l₁ ++ e :: l₂ → f ∈ l₂ → callsProvider e.moment = true →
    callsProvider f.moment = true → f.Precedes e
  /-- the steps of an invocation come in the order of the pipeline, each after steps that have not failed -/
  ordered : ∀ e ∈ n.trace, ∀ defn, stepCall e.moment = some defn →
    List.Sublist ((e.past.filterMap stepCall).reverse ++ [defn]) upgradePipeline ∧
    ∀ m ∈ e.past, ∀ answer, stepAnswer m = some answer → Advances answer
  /-- a returned success has been recorded, after every step and every reconciliation -/
  truthful : ∀ i t result, n.threads i = some t → t.program = .done (.ok result) → result.state = "succeeded" →
    result.accepted = true → ∃ f ∈ n.trace, ∃ dict, recordedUpgrade naming f.moment = some dict ∧
      result.toDict = .ok dict ∧ Verified f.past
  /-- one result is recorded -/
  recordedOnce : ∀ e ∈ n.trace, ∀ f ∈ n.trace, (recordedUpgrade naming e.moment).isSome = true →
    (recordedUpgrade naming f.moment).isSome = true → e = f
  /-- an invocation other than the one that has claimed the plan calls no provider, and returns the recorded
  result or none -/
  others : ∀ i t, n.threads i = some t → (∀ m ∈ t.past, claimsPlan naming m = false) →
    (∀ m ∈ t.past, callsProvider m = false) ∧ ∀ result, t.program = .done (.ok result) →
      ∃ f ∈ n.trace, ∃ dict, recordedUpgrade naming f.moment = some dict ∧ result.toDict = .ok dict
  /-- an invocation that looks at the journal after the result has been recorded has returned it -/
  replayed : ∀ i t l₁ r l₂ f w dict, n.threads i = some t → n.trace = l₁ ++ r :: l₂ → r.client = i →
    (r.moment :: r.past) <:+ t.past → r.moment = ⟨.journal (.read (upgradeOperationId sha256 plan)), w⟩ → f ∈ l₂ →
    recordedUpgrade naming f.moment = some dict →
    ∃ result, result.toDict = .ok dict ∧ t.program = .done (.ok result) ∧ ∀ m ∈ t.past, callsProvider m = false

end

section

variable {ι : Type} [DecidableEq ι] {naming : FileNaming} {sha256 : Json → String} {plan : UpgradePlan}
  {surroundings : UpgradeSurroundings} {n : UpgradeNetwork ι}

theorem guarded_of_upgradeReached (h : UpgradeReached naming sha256 plan surroundings n) :
    Guarded (upgradeSemantics naming) AnyUpgradeWorld (UpgradeGuarantee naming sha256 plan)
      (UpgradeReturns naming) (.initial surroundings) n := by
  refine guarded_of_reachable (fun _ => trivial) (fun _ _ _ _ _ => trivial) (fun _ _ _ => trivial)
    (fun _ _ _ => trivial) ?_ h
  intro p hp w _
  obtain ⟨call, hplan, rfl⟩ := hp
  exact keeps_upgradeApply call hplan w

/-- The invariant holds at the end of a run and before each of its operations. -/
theorem upgradeInv_of_reached (h : UpgradeReached naming sha256 plan surroundings n) :
    UpgradeInv naming sha256 plan n.shared n.trace ∧
      ∀ l₁ e l₂, n.trace = l₁ ++ e :: l₂ → UpgradeInv naming sha256 plan e.moment.before l₂ := by
  refine trace_inv_of_linear (fun n hn => guarded_of_upgradeReached hn) (fun _ => trivial) ?_
    (fun w w' l hdrift hinv => hinv.drift hdrift)
    (fun l e hlinear hguarantee hinv => hinv.step hlinear hguarantee) h
  refine ⟨fun e he => absurd he List.not_mem_nil, List.Pairwise.nil, fun e he => absurd he List.not_mem_nil,
    List.Pairwise.nil, fun e he => absurd he List.not_mem_nil, fun record dict hentry => ?_⟩
  cases hentry

variable {t : Thread UpgradeOp UpgradeWorld (Raising UpgradeResult)}

/-- A result that an invocation returns and that is no `unknown` one has been recorded. -/
theorem recorded_of_returned (h : UpgradeReached naming sha256 plan surroundings n) {i : ι} {result : UpgradeResult}
    (ht : n.threads i = some t) (hdone : t.program = .done (.ok result))
    (hknown : (∀ m ∈ t.past, claimsPlan naming m = false) ∨ result.accepted = true) :
    ∃ f ∈ n.trace, ∃ dict, recordedUpgrade naming f.moment = some dict ∧ result.toDict = .ok dict := by
  have hsession := (sessions_of_reachable h).1 i t ht
  have hthread : n.threads i = some ⟨.done (.ok result), t.past⟩ := by rw [ht, ← hdone]
  obtain ⟨hfounds, hreturns⟩ := (guarded_of_upgradeReached h).result (fun _ => trivial) hthread
  have hentry : ∀ m ∈ t.past, ∃ P, (⟨i, P, m⟩ : UpgradeTraced ι) ∈ n.trace := by
    intro m hm
    obtain ⟨s, P, hpast⟩ := List.append_of_mem hm
    exact ⟨P, hsession.mem m P (hpast ▸ List.suffix_append s (m :: P))⟩
  rcases hreturns result rfl with ⟨m, hm, stored, hfound⟩ | ⟨m, hm, dict, hdict, hwritten⟩ | ⟨⟨m, hm, hclaim⟩, hrefused⟩
  · -- what was found had been recorded, and is read back as it was
    obtain ⟨P, hmem⟩ := hentry m hm
    obtain ⟨l₁, l₂, htrace⟩ := List.append_of_mem hmem
    have hinv := (upgradeInv_of_reached h).2 l₁ _ l₂ htrace
    have hguarantee := (guarded_of_upgradeReached h).trace _ hmem
    obtain ⟨op, w⟩ := m
    cases op with
    | outside op => cases hfound
    | journal op =>
      cases op with
      | claim entry => cases hfound
      | transition operationId state stored => cases hfound
      | read operationId =>
        obtain ⟨-, rfl, -⟩ := hguarantee
        obtain ⟨f, hf, hrecorded⟩ := hinv.found hfound
        have hf' : f ∈ n.trace := htrace ▸ List.mem_append_right l₁ (List.mem_cons_of_mem _ hf)
        obtain ⟨-, recorded, hwritten, -⟩ :=
          recordable_of_recorded ((guarded_of_upgradeReached h).trace f hf') hrecorded
        have hsame := hfounds _ hm stored hfound
        rw [upgradeResultFromDict_toDict hwritten] at hsame
        obtain rfl := Except.ok.inj hsame
        exact ⟨f, hf', stored, hrecorded, hwritten⟩
  · obtain ⟨P, hmem⟩ := hentry m hm
    exact ⟨_, hmem, dict, hdict, hwritten⟩
  · rcases hknown with hunclaimed | haccepted
    · rw [hunclaimed m hm] at hclaim
      cases hclaim
    · rw [hrefused] at haccepted
      cases haccepted

theorem uncalled_of_unclaimed (h : UpgradeReached naming sha256 plan surroundings n) {i : ι}
    (ht : n.threads i = some t) (hunclaimed : ∀ m ∈ t.past, claimsPlan naming m = false) :
    ∀ m ∈ t.past, callsProvider m = false := by
  intro m hm
  refine Bool.eq_false_iff.2 fun hcall => ?_
  have hsession := (sessions_of_reachable h).1 i t ht
  obtain ⟨s, P, hpast⟩ := List.append_of_mem hm
  have hmem := hsession.mem m P (hpast ▸ List.suffix_append s (m :: P))
  obtain ⟨m', hm', hclaim⟩ := (holding_of_callsProvider ((guarded_of_upgradeReached h).trace _ hmem) hcall).claimed
  rw [hunclaimed m' (hpast ▸ List.mem_append_right s (List.mem_cons_of_mem m hm'))] at hclaim
  cases hclaim

theorem ended_of_found (h : UpgradeReached naming sha256 plan surroundings n) {i : ι} (ht : n.threads i = some t)
    {r : UpgradeTraced ι} (hpast : (r.moment :: r.past) <:+ t.past) {stored : Dict}
    (hfound : foundUpgrade naming r.moment = some stored) :
    t.program = .done (upgradeResultFromDict stored) ∧ t.past = r.moment :: r.past := by
  have hguard : ∀ past m, UpgradeGuarantee naming sha256 plan past m → ∀ m' ∈ past, ¬(foundUpgrade naming m').isSome := by
    intro past m hguarantee m' hm'
    rw [hguarantee.1 m' hm']
    exact Bool.false_ne_true
  obtain ⟨⟨outcome, hprogram, hreturns⟩, hwhole⟩ := (guarded_of_upgradeReached h).last_of_seen _ (fun _ => trivial) hguard ht
    ((sessions_of_reachable h).1 i t ht) hpast (Option.isSome_of_eq_some hfound)
  refine ⟨?_, hwhole⟩
  rw [hprogram, hreturns.1 r.moment (hpast.subset List.mem_cons_self) stored hfound]

/-- **Upgrades happen once.**  However many processes apply the plan, in whatever order their calls come and
wherever they stop. -/
theorem upgrade_once (naming : FileNaming) (sha256 : Json → String) (plan : UpgradePlan)
    (surroundings : UpgradeSurroundings) (n : UpgradeNetwork ι)
    (h : UpgradeReached naming sha256 plan surroundings n) : UpgradeOnce naming sha256 plan n where
  once l₁ e l₂ f htrace hf he hf' := by
    have hinv := (upgradeInv_of_reached h).2 l₁ e l₂ htrace
    have hmem : e ∈ n.trace := htrace ▸ List.mem_append_right l₁ List.mem_cons_self
    have hholding := holding_of_callsProvider ((guarded_of_upgradeReached h).trace e hmem) he
    exact precedes_of_holdingPlan (htrace ▸ linear_of_reachable h) hinv.once hf hholding
      (holding_of_callsProvider (hinv.guarantee f hf) hf')
  ordered e he defn hcall := by
    have hguarantee := (guarded_of_upgradeReached h).trace e he
    obtain ⟨client, past, op, w⟩ := e
    cases op with
    | journal op => cases hcall
    | outside op =>
      cases op with
      | isExpired plan => cases hcall
      | verifiedManifest dir => cases hcall
      | upgradeReconcile owner plan => cases hcall
      | upgradeStep defn' plan' =>
        obtain rfl := Option.some.inj hcall
        exact ⟨hguarantee.2.2.1, hguarantee.2.2.2⟩
  truthful i t result ht hdone hstate haccepted := by
    obtain ⟨f, hf, dict, hrecorded, hwritten⟩ := recorded_of_returned h ht hdone (.inr haccepted)
    obtain ⟨-, recorded, hwritten', hrecordable⟩ :=
      recordable_of_recorded ((guarded_of_upgradeReached h).trace f hf) hrecorded
    -- what has been written is the returned result
    have hsame := (upgradeResultFromDict_toDict hwritten').symm.trans (upgradeResultFromDict_toDict hwritten)
    obtain rfl := Except.ok.inj hsame
    exact ⟨f, hf, dict, hrecorded, hwritten, hrecordable hstate haccepted⟩
  recordedOnce e he f hf hrecorded hrecorded' := (upgradeInv_of_reached h).1.recordedOnce.eq he hf hrecorded hrecorded'
  others i t ht hunclaimed :=
    ⟨uncalled_of_unclaimed h ht hunclaimed, fun _ hdone => recorded_of_returned h ht hdone (.inl hunclaimed)⟩
  replayed i t l₁ r l₂ f w dict ht htrace _ hpast hmoment hf hrecorded := by
    have hinv := (upgradeInv_of_reached h).2 l₁ r l₂ htrace
    have hmem : r ∈ n.trace := htrace ▸ List.mem_append_right l₁ List.mem_cons_self
    have hguarantee := (guarded_of_upgradeReached h).trace r hmem
    rw [hmoment] at hinv hguarantee
    have hfound : foundUpgrade naming r.moment = some dict := by
      rw [hmoment]
      exact hinv.find hf hrecorded
    obtain ⟨hprogram, hwhole⟩ := ended_of_found h ht hpast hfound
    obtain ⟨-, result, hwritten, -⟩ := recordable_of_recorded (hinv.guarantee f hf) hrecorded
    rw [upgradeResultFromDict_toDict hwritten] at hprogram
    refine ⟨result, hwritten, hprogram, ?_⟩
    rw [hwhole, hmoment]
    exact List.forall_mem_cons.2 ⟨rfl, hguarantee.2.2⟩

end

/-! ### A run -/

/-- Everything is fine: every step succeeds and is reconciled. -/
def fineSurroundings : UpgradeSurroundings where
  isExpired _ := false
  verifiedManifest _ := .ok
    { schemaVersion := "1", setId := "set", sourceDeploymentId := "prod", createdAt := "now"
      versions := .ofList [("phlo", "0.14.0")], quiesce := [], contributors := [], artifacts := [], complete := true }
  upgradeStep defn _ := .ok (.step { owner := defn.owner, name := defn.name, state := .succeeded, phase := .submission })
  upgradeReconcile _ _ := .ok (.obj [("ok", .bool true)])

def lakeUpgrade : UpgradePlan where
  schemaVersion := "1"
  planToken := "t"
  fromVersion := "0.14.0"
  toVersion := "0.15.0"
  backupSetDir := "/backups/set"
  backupSetId := "set"
  backupDigest := "digest"
  migrationDigest := "digest"
  target := ⟨"lake", "/lake"⟩
  createdAt := "now"
  expiresAt := "later"

def lakeUpgradeCall : UpgradeCall where
  plan := lakeUpgrade
  confirmationToken := "t"
  contributors := .ofList (upgradePipeline.map fun defn => (defn.owner, .provider))

/-- Two processes apply the plan, the second one when the first one is done. -/
theorem upgrade_once_lake : UpgradeOnce plainNaming (fun _ => "digest") lakeUpgrade
    ((List.replicate 2 true).foldl (Network.tick (upgradeSemantics plainNaming))
      (((List.replicate 14 false).foldl (Network.tick (upgradeSemantics plainNaming))
        ((Network.idle (.initial fineSurroundings)).call false
          (upgradeApply (fun _ => "digest") lakeUpgradeCall))).call true
        (upgradeApply (fun _ => "digest") lakeUpgradeCall)) : UpgradeNetwork Bool) :=
  upgrade_once _ _ _ fineSurroundings _
    ((((Network.Reachable.init.call false ⟨lakeUpgradeCall, rfl, rfl⟩).schedule (List.replicate 14 false)).call true
      ⟨lakeUpgradeCall, rfl, rfl⟩).schedule (List.replicate 2 true))

end Phlo.Operations
