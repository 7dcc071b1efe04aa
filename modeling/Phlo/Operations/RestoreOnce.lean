import Phlo.Operations.ActiveOperations
import Phlo.Operations.Restore

/-!
# Restores happen once

Any number of processes apply any plans over one journal; their calls come in any order, they may stop
anywhere and be started again, and whatever they ask may be answered differently each time.

* `RestoreOnce` — the providers called for one plan are called by one invocation; while an invocation
  holds a target, no other one calls a provider for it; an invocation that finds a recorded result
  returns it without a provider call;
* `restore_once` — every run is like that;
* `expired_not_replayed` — but the expiry of a plan comes first: a recorded result is not returned for an
  expired plan.
-/

namespace Phlo.Operations

open Phlo.Library Phlo.Library.Program
open Phlo.RunEvidence (Dict Json)

/-! ### What the operations of a restore do -/

abbrev RestoreMoment := Moment RestoreOp RestoreWorld

def claimedEntry (naming : FileNaming) (m : RestoreMoment) : Option OperationJournalEntry :=
  match m with
  | ⟨.journal (.claim entry), w⟩ => if (w.journal.claim naming entry).2 then some entry else none
  | _ => none

def recordedResult (naming : FileNaming) (m : RestoreMoment) : Option (String × Dict) :=
  match m with
  | ⟨.journal (.transition operationId _ (some result)), w⟩ =>
    if (w.journal.entry naming operationId).isSome then some (operationId, result) else none
  | _ => none

/-- The result that an operation finds recorded. -/
def foundResult (naming : FileNaming) (m : RestoreMoment) : Option Dict :=
  match m with
  | ⟨.journal (.read operationId), w⟩ =>
    (w.journal.entry naming operationId).bind fun record =>
      if record.state = .unknown then none else record.result
  | _ => none

def providerCall (m : RestoreMoment) : Option RestorePlan :=
  match m with
  | ⟨.outside (.restore _ plan _), _⟩ => some plan
  | ⟨.outside (.reconcile _ plan _), _⟩ => some plan
  | _ => none

def restoreEntry (sha256 : Json → String) (plan : RestorePlan) (subject : String) : OperationJournalEntry :=
  { operationId := restoreOperationId sha256 plan, subject, action := "restore.apply"
    target := plan.target.targetId, planToken := plan.planToken, state := .claimed }

/-! ### What an invocation does -/

section

variable (naming : FileNaming) (sha256 : Json → String)

/-- The invocation has claimed its plan and recorded nothing yet. -/
structure Holding (plan : RestorePlan) (past : List RestoreMoment) : Prop where
  claimed : ∃ m ∈ past, ∃ subject, claimedEntry naming m = some (restoreEntry sha256 plan subject)
  unrecorded : ∀ m ∈ past, recordedResult naming m = none
  unfound : ∀ m ∈ past, foundResult naming m = none

/-- The invocation has only looked around. -/
structure Looking (past : List RestoreMoment) : Prop where
  uncalled : ∀ m ∈ past, providerCall m = none
  unrecorded : ∀ m ∈ past, recordedResult naming m = none
  unfound : ∀ m ∈ past, foundResult naming m = none

/-- What an invocation guarantees of each operation, given its own operations before. -/
def RestoreGuarantee (past : List RestoreMoment) (m : RestoreMoment) : Prop :=
  (∀ m' ∈ past, foundResult naming m' = none) ∧
  match m with
  | ⟨.journal (.read _), _⟩ => ∀ m' ∈ past, providerCall m' = none
  | ⟨.journal (.claim entry), _⟩ => ∃ plan subject, entry = restoreEntry sha256 plan subject
  | ⟨.journal (.transition operationId state result), _⟩ =>
    ∃ plan, operationId = restoreOperationId sha256 plan ∧ Holding naming sha256 plan past ∧
      (result = none ∧ state = .submitted ∨
        ∃ r : RestoreResult, result = some r.toDict ∧ state = stateOfResult r.toDict)
  | ⟨.outside (.restore _ plan _), _⟩ => Holding naming sha256 plan past
  | ⟨.outside (.reconcile _ plan _), _⟩ => Holding naming sha256 plan past
  | _ => True

def RestoreReturns (past : List RestoreMoment) (outcome : Raising RestoreResult) (_ : RestoreWorld) : Prop :=
  ∀ m ∈ past, ∀ stored, foundResult naming m = some stored → outcome = resultFromDict stored

end

section

variable {naming : FileNaming} {sha256 : Json → String} {plan : RestorePlan}
  {past : List RestoreMoment} {m : RestoreMoment}

theorem Looking.nil : Looking naming [] where
  uncalled _ hm := absurd hm List.not_mem_nil
  unrecorded _ hm := absurd hm List.not_mem_nil
  unfound _ hm := absurd hm List.not_mem_nil

theorem Looking.cons (h : Looking naming past) (hcall : providerCall m = none)
    (hrecord : recordedResult naming m = none) (hfound : foundResult naming m = none) :
    Looking naming (m :: past) where
  uncalled := List.forall_mem_cons.2 ⟨hcall, h.uncalled⟩
  unrecorded := List.forall_mem_cons.2 ⟨hrecord, h.unrecorded⟩
  unfound := List.forall_mem_cons.2 ⟨hfound, h.unfound⟩

theorem Holding.cons (h : Holding naming sha256 plan past) (hrecord : recordedResult naming m = none)
    (hfound : foundResult naming m = none) : Holding naming sha256 plan (m :: past) where
  claimed :=
    let ⟨m', hm', hclaim⟩ := h.claimed
    ⟨m', List.mem_cons_of_mem m hm', hclaim⟩
  unrecorded := List.forall_mem_cons.2 ⟨hrecord, h.unrecorded⟩
  unfound := List.forall_mem_cons.2 ⟨hfound, h.unfound⟩

theorem restoreReturns_of_unfound (h : ∀ m ∈ past, foundResult naming m = none)
    (outcome : Raising RestoreResult) (w : RestoreWorld) : RestoreReturns naming past outcome w := by
  intro m hm stored hfound
  rw [h m hm] at hfound
  cases hfound

/-- The functions of the journal are called as those of an upgrade are. -/
theorem journaled_eq {α β : Type} (p : Program JournalOp (Journaled α)) (next : α → Program RestoreOp (Raising β)) :
    journaled p next = onJournal .journal p next := rfl

end

/-! ### Every invocation keeps to its part -/

section

variable {naming : FileNaming} {sha256 : Json → String} {call : RestoreCall}
  {past : List RestoreMoment} {w : RestoreWorld}

/-- Nothing is relied on. -/
def AnyWorld (_ _ : RestoreWorld) : Prop := True

/-- An invocation's part, with what it returns. -/
abbrev RestoreKeeps {α : Type} (naming : FileNaming) (sha256 : Json → String)
    (Q : List RestoreMoment → α → RestoreWorld → Prop) (p : Program RestoreOp α)
    (past : List RestoreMoment) (w : RestoreWorld) : Prop :=
  Keeps (restoreSemantics naming) AnyWorld (RestoreGuarantee naming sha256) Q p past w

def StillHolding {α : Type} (naming : FileNaming) (sha256 : Json → String) (plan : RestorePlan)
    (past : List RestoreMoment) (_ : α) (_ : RestoreWorld) : Prop :=
  Holding naming sha256 plan past

/-- Recording a result fails only if nothing is recorded. -/
def RecordedOrHolding (naming : FileNaming) (sha256 : Json → String) (plan : RestorePlan)
    (past : List RestoreMoment) (outcome : Raising RestoreResult) (_ : RestoreWorld) : Prop :=
  (∀ m ∈ past, foundResult naming m = none) ∧
    ∀ e, outcome = .error e → Holding naming sha256 plan past

theorem keeps_restoreSteps (manifest : BackupSetManifest) (providers : List String)
    (steps : List RestoreStepResult) (h : Holding naming sha256 call.plan past) :
    RestoreKeeps naming sha256 (StillHolding naming sha256 call.plan)
      (restoreSteps call manifest providers steps) past w := by
  induction providers generalizing steps past w with
  | nil => exact fun _ _ => h
  | cons provider providers ih =>
    rw [restoreSteps]
    split
    · rw [RestoreKeeps, keeps_perform_bind]
      intro w' _
      refine ⟨⟨h.unfound, h⟩, ?_⟩
      have hcons := h.cons (m := ⟨.outside (.restore provider call.plan
        (artifactsFor manifest provider)), w'⟩) rfl rfl
      split
      · exact fun _ _ => hcons
      · split
        · exact fun _ _ => hcons
        · exact ih _ hcons
    · exact fun _ _ => h

theorem keeps_reconcileFrom (manifest : BackupSetManifest) (providers : List String)
    (checks : OrderedDict String Bool) (reasons : List String) (h : Holding naming sha256 call.plan past) :
    RestoreKeeps naming sha256 (StillHolding naming sha256 call.plan)
      (reconcileFrom call manifest providers checks reasons) past w := by
  induction providers generalizing checks reasons past w with
  | nil => exact fun _ _ => h
  | cons provider providers ih =>
    rw [reconcileFrom]
    split
    · dsimp only
      split
      · exact ih _ _ h
      · rw [RestoreKeeps, keeps_perform_bind]
        intro w' _
        refine ⟨⟨h.unfound, h⟩, ?_⟩
        have hcons := h.cons (m := ⟨.outside (.reconcile provider call.plan
          (artifactsFor manifest provider)), w'⟩) rfl rfl
        split
        · exact fun _ _ => hcons
        · exact ih _ _ hcons
    · exact ih _ _ h

variable {operationId : String}

theorem keeps_recordResult {plan : RestorePlan} (result : RestoreResult)
    (hid : operationId = restoreOperationId sha256 plan) (h : Holding naming sha256 plan past) :
    RestoreKeeps naming sha256 (RecordedOrHolding naming sha256 plan) (recordResult operationId result) past w := by
  rw [recordResult, completeOperation, journaled_eq, onJournal_transitionOrRaise, RestoreKeeps, keeps_perform_bind]
  intro w' _
  refine ⟨⟨h.unfound, plan, hid, h, Or.inr ⟨result, rfl, rfl⟩⟩, ?_⟩
  have hunfound : ∀ m ∈ (⟨.journal (.transition operationId (stateOfResult result.toDict)
      (some result.toDict)), w'⟩ :: past : List RestoreMoment), foundResult naming m = none :=
    List.forall_mem_cons.2 ⟨rfl, h.unfound⟩
  split
  · exact fun _ _ => ⟨hunfound, fun e he => by cases he⟩
  next hunknown =>
    -- the transition was refused, so nothing has been recorded
    refine fun _ _ => ⟨hunfound, fun _ _ => h.cons ?_ rfl⟩
    have hnone : (w'.journal.entry naming operationId).isSome = false := by
      obtain ⟨record, hrecord, htransition⟩ | ⟨hnone, -⟩ := transition_cases naming w'.journal
        operationId (stateOfResult result.toDict) (some result.toDict)
      · refine absurd ?_ hunknown
        show (w'.journal.transition naming operationId _ _).2 = true
        rw [htransition]
      · rw [hnone]
        rfl
    show (if (w'.journal.entry naming operationId).isSome then _ else none) = none
    rw [hnone]
    rfl

theorem keeps_recordResult_last {plan : RestorePlan} (result : RestoreResult)
    (hid : operationId = restoreOperationId sha256 plan) (h : Holding naming sha256 plan past) :
    RestoreKeeps naming sha256 (RestoreReturns naming) (recordResult operationId result) past w := by
  have hbind : recordResult operationId result = recordResult operationId result >>= pure := by
    rw [recordResult, completeOperation, journaled_eq, onJournal_transitionOrRaise]
    show Program.call _ _ = Program.call _ _
    congr 1
    funext known
    cases known <;> rfl
  rw [hbind]
  refine Keeps.bind (fun _ => trivial) (keeps_recordResult result hid h) fun past' outcome w' hpast => ?_
  exact fun w'' _ => restoreReturns_of_unfound hpast.1 outcome w''

theorem keeps_restoreProviders (manifest : BackupSetManifest)
    (hid : operationId = restoreOperationId sha256 call.plan) (h : Holding naming sha256 call.plan past) :
    RestoreKeeps naming sha256 (RestoreReturns naming) (restoreProviders operationId call manifest) past w := by
  rw [restoreProviders]
  refine Keeps.bind (fun _ => trivial) (keeps_restoreSteps manifest _ _ h) fun past' ended w' h' => ?_
  cases ended with
  | raised steps e => exact keeps_recordResult_last _ hid h'
  | failed steps failure =>
    refine Keeps.bind (fun _ => trivial) (keeps_recordResult _ hid h') fun past'' outcome w'' h'' => ?_
    cases outcome with
    | ok result => exact fun w'' _ => restoreReturns_of_unfound h''.1 _ _
    | error e => exact keeps_recordResult_last _ hid (h''.2 e rfl)
  | completed steps =>
    refine Keeps.bind (fun _ => trivial) (keeps_reconcileFrom manifest _ _ _ h')
      fun past'' outcome w'' h'' => ?_
    cases outcome with
    | error e => exact keeps_recordResult_last _ hid h''
    | ok reconciliation =>
      dsimp only
      split
      · exact keeps_recordResult_last _ hid h''
      · exact keeps_recordResult_last _ hid h''

/-- After `claimPlan` the invocation holds the plan, or it has raised before any result was recorded. -/
def ClaimedOrRaised (naming : FileNaming) (sha256 : Json → String) (plan : RestorePlan)
    (past : List RestoreMoment) (outcome : Raising Unit) (_ : RestoreWorld) : Prop :=
  (∀ m ∈ past, foundResult naming m = none) ∧
    ∀ u, outcome = .ok u → Holding naming sha256 plan past

theorem keeps_claimPlan (hid : operationId = restoreOperationId sha256 call.plan) (h : Looking naming past) :
    RestoreKeeps naming sha256 (ClaimedOrRaised naming sha256 call.plan) (claimPlan operationId call) past w := by
  subst hid
  rw [claimPlan]
  refine Keeps.bind (fun _ => trivial)
    (?_ : RestoreKeeps naming sha256 (ClaimedOrRaised naming sha256 call.plan) _ past w) ?_
  · rw [journaled_eq, onJournal_claimOperation, RestoreKeeps, keeps_perform_bind]
    intro w' _
    refine ⟨⟨h.unfound, call.plan, call.subject, rfl⟩, ?_⟩
    have hunfound : ∀ m ∈ (⟨.journal (.claim (restoreEntry sha256 call.plan call.subject)), w'⟩ :: past :
        List RestoreMoment), foundResult naming m = none := List.forall_mem_cons.2 ⟨rfl, h.unfound⟩
    split
    next hclaimed =>
      have hholding : Holding naming sha256 call.plan
          (⟨.journal (.claim (restoreEntry sha256 call.plan call.subject)), w'⟩ :: past) :=
        ⟨⟨_, List.mem_cons_self, call.subject, if_pos hclaimed⟩,
          List.forall_mem_cons.2 ⟨rfl, h.unrecorded⟩, hunfound⟩
      rw [markSubmitted, journaled_eq, onJournal_transitionOrRaise, keeps_perform_bind]
      intro w'' _
      refine ⟨⟨hunfound, call.plan, rfl, hholding, Or.inl ⟨rfl, rfl⟩⟩, ?_⟩
      have hcons := hholding.cons (m := ⟨.journal (.transition (restoreOperationId sha256 call.plan)
        .submitted none), w''⟩) rfl rfl
      split
      · exact fun _ _ => ⟨hcons.unfound, fun _ _ => hcons⟩
      · exact fun _ _ => ⟨hcons.unfound, fun _ _ => hcons⟩
    · exact fun _ _ => ⟨hunfound, fun u hu => by cases hu⟩
  · intro past' outcome w' hpast w'' _
    refine ⟨hpast.1, fun u hu => ?_⟩
    cases outcome with
    | ok u => exact hpast.2 u rfl
    | error e => cases hu

theorem keeps_verifyAndRestore (hid : operationId = restoreOperationId sha256 call.plan) (h : Looking naming past) :
    RestoreKeeps naming sha256 (RestoreReturns naming) (verifyAndRestore sha256 operationId call) past w := by
  rw [verifyAndRestore, RestoreKeeps, keeps_perform_bind]
  intro w₁ _
  refine ⟨⟨h.unfound, trivial⟩, ?_⟩
  have h₁ := h.cons (m := ⟨.outside (.verify call.plan.backupSetDir), w₁⟩) rfl rfl rfl
  split
  · exact fun w' _ => restoreReturns_of_unfound h₁.unfound _ w'
  split
  swap
  · exact fun w' _ => restoreReturns_of_unfound h₁.unfound _ w'
  rw [keeps_perform_bind]
  intro w₂ _
  refine ⟨⟨h₁.unfound, trivial⟩, ?_⟩
  have h₂ := h₁.cons (m := ⟨.outside (.manifestFromDir call.plan.backupSetDir), w₂⟩) rfl rfl rfl
  split
  · exact fun w' _ => restoreReturns_of_unfound h₂.unfound _ w'
  split
  · exact fun w' _ => restoreReturns_of_unfound h₂.unfound _ w'
  rw [keeps_perform_bind]
  intro w₃ _
  refine ⟨⟨h₂.unfound, trivial⟩, ?_⟩
  have h₃ := h₂.cons (m := ⟨.outside (.validateTargetPlanning call.plan.target
    call.plan.backupSetDir), w₃⟩) rfl rfl rfl
  split
  · exact fun w' _ => restoreReturns_of_unfound h₃.unfound _ w'
  refine Keeps.bind (fun _ => trivial) (keeps_claimPlan hid h₃) fun past' outcome w' hpast => ?_
  cases outcome with
  | error e => exact fun w'' _ => restoreReturns_of_unfound hpast.1 _ w''
  | ok u => exact keeps_restoreProviders _ hid (hpast.2 u rfl)

theorem keeps_restoreApply (call : RestoreCall) (w : RestoreWorld) :
    RestoreKeeps naming sha256 (RestoreReturns naming) (restoreApply sha256 call) [] w := by
  rw [restoreApply]
  dsimp only
  have h₀ : Looking naming [] := Looking.nil
  split
  · exact fun w' _ => restoreReturns_of_unfound h₀.unfound _ w'
  rw [RestoreKeeps, keeps_perform_bind]
  intro w₁ _
  refine ⟨⟨h₀.unfound, trivial⟩, ?_⟩
  have h₁ := h₀.cons (m := ⟨.outside (.isExpired call.plan), w₁⟩) rfl rfl rfl
  split
  · exact fun w' _ => restoreReturns_of_unfound h₁.unfound _ w'
  rw [journaled_eq, onJournal_readOrReplay, keeps_perform_bind]
  intro w₂ _
  refine ⟨⟨h₁.unfound, h₁.uncalled⟩, ?_⟩
  have hfound : foundResult naming
      ⟨.journal (.read (restoreOperationId sha256 call.plan)), w₂⟩ =
      (w₂.journal.entry naming (restoreOperationId sha256 call.plan)).bind fun record =>
        if record.state = .unknown then none else record.result := rfl
  have hgone : foundResult naming ⟨.journal (.read (restoreOperationId sha256 call.plan)), w₂⟩ = none →
      RestoreKeeps naming sha256 (RestoreReturns naming)
        (verifyAndRestore sha256 (restoreOperationId sha256 call.plan) call)
        (⟨.journal (.read (restoreOperationId sha256 call.plan)), w₂⟩ ::
          [⟨.outside (.isExpired call.plan), w₁⟩]) w₂ := fun hnone =>
    keeps_verifyAndRestore rfl (h₁.cons rfl rfl hnone)
  have hreturned : ∀ stored, foundResult naming
      ⟨.journal (.read (restoreOperationId sha256 call.plan)), w₂⟩ = some stored →
      RestoreKeeps naming sha256 (RestoreReturns naming) (pure (resultFromDict stored))
        (⟨.journal (.read (restoreOperationId sha256 call.plan)), w₂⟩ ::
          [⟨.outside (.isExpired call.plan), w₁⟩]) w₂ := by
    intro stored hsome w' _ m hm stored' hstored
    obtain rfl | hm := List.mem_cons.1 hm
    · rw [hsome] at hstored
      rw [Option.some.inj hstored]
    · rw [h₁.unfound m hm] at hstored
      cases hstored
  split
  next hentry =>
    refine hgone ?_
    rw [hfound, show w₂.journal.entry naming _ = none from hentry]
    rfl
  next record hentry =>
    split
    next hstate =>
      refine fun w' _ => restoreReturns_of_unfound (List.forall_mem_cons.2 ⟨?_, h₁.unfound⟩) _ w'
      rw [hfound, show w₂.journal.entry naming _ = some record from hentry]
      exact if_pos hstate
    next hstate =>
      have hstored : foundResult naming
          ⟨.journal (.read (restoreOperationId sha256 call.plan)), w₂⟩ = record.result := by
        rw [hfound, show w₂.journal.entry naming _ = some record from hentry]
        exact if_neg hstate
      cases hresult : record.result with
      | none => exact hgone (hstored.trans hresult)
      | some stored => exact hreturned stored (hstored.trans hresult)

end

/-! ### The journal of a run -/

section

variable {ι : Type}

abbrev RestoreEntry (ι : Type) := Entry ι RestoreOp RestoreWorld

def ClaimsFile (naming : FileNaming) (name : String) (e : RestoreEntry ι) : Prop :=
  ∃ entry, claimedEntry naming e.moment = some entry ∧ naming.safeName entry.operationId = name

def RecordsIn (naming : FileNaming) (name : String) (result : Dict) (e : RestoreEntry ι) : Prop :=
  ∃ operationId, recordedResult naming e.moment = some (operationId, result) ∧
    naming.safeName operationId = name

/-- What the journal and the trace of a run say of each other. -/
structure RestoreInv (naming : FileNaming) (sha256 : Json → String) (w : RestoreWorld)
    (l : List (RestoreEntry ι)) : Prop where
  guarantee : ∀ e ∈ l, RestoreGuarantee naming sha256 e.past e.moment
  /-- a file is claimed once -/
  once : ∀ name, Unique (ClaimsFile naming name) l
  /-- a claimed file stays -/
  claimed : ∀ e ∈ l, ∀ name, ClaimsFile naming name e → (w.journal.files.get name).isSome
  recorded : ∀ e ∈ l, ∀ name result, RecordsIn naming name result e →
    (w.journal.files.get name).isSome
  /-- the entry in a file is for the target of its claim -/
  entry : ∀ name record, w.journal.files.get name = some record → ∃ e ∈ l, ∃ entry,
    claimedEntry naming e.moment = some entry ∧ naming.safeName entry.operationId = name ∧
      record.action = entry.action ∧ record.target = entry.target
  /-- it is active until a result is recorded -/
  active : ∀ name record, w.journal.files.get name = some record →
    (∀ e ∈ l, ∀ result, ¬ RecordsIn naming name result e) → record.state.active = true
  /-- and keeps that result -/
  result : ∀ name record, w.journal.files.get name = some record →
    ∀ e ∈ l, ∀ result, RecordsIn naming name result e →
      record.state.active = false ∧ record.result = some result
  targets : UniqueActive w.journal

variable {naming : FileNaming} {sha256 : Json → String} {w : RestoreWorld}
  {l : List (RestoreEntry ι)} {e : RestoreEntry ι}

theorem RestoreInv.skip (h : RestoreInv naming sha256 w l)
    (hguarantee : RestoreGuarantee naming sha256 e.past e.moment)
    (hclaim : claimedEntry naming e.moment = none) (hrecord : recordedResult naming e.moment = none) :
    RestoreInv naming sha256 w (e :: l) := by
  have hnoclaim : ∀ name, ¬ ClaimsFile naming name e := by
    intro name hname
    obtain ⟨entry, hentry, -⟩ := hname
    rw [hclaim] at hentry
    cases hentry
  have hnorecord : ∀ name result, ¬ RecordsIn naming name result e := by
    intro name result hname
    obtain ⟨operationId, hresult, -⟩ := hname
    rw [hrecord] at hresult
    cases hresult
  refine ⟨List.forall_mem_cons.2 ⟨hguarantee, h.guarantee⟩, fun name => ?_, ?_, ?_, ?_, ?_, ?_,
    h.targets⟩
  · exact List.pairwise_cons.2 ⟨fun b _ hboth => hnoclaim name hboth.1, h.once name⟩
  · exact List.forall_mem_cons.2 ⟨fun name hname => absurd hname (hnoclaim name), h.claimed⟩
  · exact List.forall_mem_cons.2
      ⟨fun name result hname => absurd hname (hnorecord name result), h.recorded⟩
  · intro name record hget
    obtain ⟨c, hc, hentry⟩ := h.entry name record hget
    exact ⟨c, List.mem_cons_of_mem e hc, hentry⟩
  · exact fun name record hget hnone =>
      h.active name record hget fun e' he' => hnone e' (List.mem_cons_of_mem e he')
  · exact fun name record hget => List.forall_mem_cons.2
      ⟨fun result hname => absurd hname (hnorecord name result), h.result name record hget⟩

variable {entry : OperationJournalEntry} {l₁ : List (RestoreEntry ι)}

theorem claimedEntry_eq_some {m : RestoreMoment} (h : claimedEntry naming m = some entry) : ∃ w : RestoreWorld,
      m = ⟨.journal (.claim entry), w⟩ ∧ (w.journal.claim naming entry).2 = true := by
  unfold claimedEntry at h
  split at h
  next entry' w =>
    split at h
    next hclaimed =>
      cases h
      exact ⟨w, rfl, hclaimed⟩
    · cases h
  · cases h

variable {result : Dict}

theorem recordedResult_eq_some {m : RestoreMoment} {operationId : String}
    (h : recordedResult naming m = some (operationId, result)) : ∃ state, ∃ w : RestoreWorld,
      m = ⟨.journal (.transition operationId state (some result)), w⟩ := by
  unfold recordedResult at h
  split at h
  next id state result' w =>
    split at h
    · cases h
      exact ⟨state, w, rfl⟩
    · cases h
  · cases h

theorem holding_of_recorded {past : List RestoreMoment} {m : RestoreMoment} {operationId : String}
    (hguarantee : RestoreGuarantee naming sha256 past m) (h : recordedResult naming m = some (operationId, result)) :
    ∃ plan, operationId = restoreOperationId sha256 plan ∧ Holding naming sha256 plan past := by
  obtain ⟨state, w, rfl⟩ := recordedResult_eq_some h
  obtain ⟨-, plan, hid, hholding, -⟩ := hguarantee
  exact ⟨plan, hid, hholding⟩

theorem holding_of_providerCall {past : List RestoreMoment} {m : RestoreMoment} {plan : RestorePlan}
    (hguarantee : RestoreGuarantee naming sha256 past m) (h : providerCall m = some plan) :
    Holding naming sha256 plan past := by
  unfold providerCall at h
  split at h
  · cases h
    exact hguarantee.2
  · cases h
    exact hguarantee.2
  · cases h

theorem Holding.claim {plan : RestorePlan} {past : List RestoreMoment}
    (h : Holding naming sha256 plan past) : ∃ m P subject, (m :: P) <:+ past ∧
      claimedEntry naming m = some (restoreEntry sha256 plan subject) := by
  obtain ⟨m, hm, subject, hclaim⟩ := h.claimed
  obtain ⟨s, P, rfl⟩ := List.append_of_mem hm
  exact ⟨m, P, subject, List.suffix_append s (m :: P), hclaim⟩

theorem precedes_of_holding {l₂ : List (RestoreEntry ι)} {e f : RestoreEntry ι} {plan plan' : RestorePlan}
    (hlinear : Linear (l₁ ++ e :: l₂)) (hunique : ∀ name, Unique (ClaimsFile naming name) l₂) (hf : f ∈ l₂)
    (he : Holding naming sha256 plan e.past) (hf' : Holding naming sha256 plan' f.past)
    (hname : naming.safeName (restoreOperationId sha256 plan) = naming.safeName (restoreOperationId sha256 plan')) :
    f.Precedes e := by
  obtain ⟨m, P, subject, hm, hclaim⟩ := he.claim
  obtain ⟨m', P', subject', hm', hclaim'⟩ := hf'.claim
  exact hlinear.precedes (hunique (naming.safeName (restoreOperationId sha256 plan))) hf hm hm'
    ⟨_, hclaim, rfl⟩ ⟨_, hclaim', hname.symm⟩

theorem RestoreInv.unrecorded (h : RestoreInv naming sha256 w l) (hlinear : Linear (l₁ ++ e :: l))
    {plan : RestorePlan} (he : Holding naming sha256 plan e.past) : ∀ f ∈ l, ∀ result,
      ¬ RecordsIn naming (naming.safeName (restoreOperationId sha256 plan)) result f := by
  intro f hf result hrecords
  obtain ⟨operationId, hrecorded, hname⟩ := hrecords
  obtain ⟨plan', rfl, hf'⟩ := holding_of_recorded (h.guarantee f hf) hrecorded
  have hprecedes := precedes_of_holding hlinear h.once hf he hf' hname.symm
  have hmem : f.moment ∈ e.past := hprecedes.2.subset List.mem_cons_self
  rw [he.unrecorded f.moment hmem] at hrecorded
  cases hrecorded

theorem RestoreInv.file (h : RestoreInv naming sha256 w l) (hlinear : Linear (l₁ ++ e :: l)) {plan : RestorePlan}
    (he : Holding naming sha256 plan e.past) :
    ∃ record, w.journal.entry naming (restoreOperationId sha256 plan) = some record := by
  obtain ⟨m, P, subject, hm, hclaim⟩ := he.claim
  exact Option.isSome_iff_exists.1
    (h.claimed _ (hlinear.session.mem m P hm) _ ⟨_, hclaim, rfl⟩)

theorem RestoreInv.claim (h : RestoreInv naming sha256 w l) {client : ι} {past : List RestoreMoment}
    (hguarantee : RestoreGuarantee naming sha256 past ⟨.journal (.claim entry), w⟩)
    (hclaim : w.journal.claim naming entry = (w.journal.write naming entry, true))
    (hnew : w.journal.entry naming entry.operationId = none)
    (hheld : w.journal.held entry.action entry.target = false) :
    RestoreInv naming sha256 { w with journal := w.journal.write naming entry }
      (⟨client, past, ⟨.journal (.claim entry), w⟩⟩ :: l) := by
  have hentry : claimedEntry naming ⟨.journal (.claim entry), w⟩ = some entry := by
    show (if (w.journal.claim naming entry).2 then some entry else none) = some entry
    rw [hclaim]
    rfl
  have hstate : entry.state = .claimed := by
    obtain ⟨-, plan, subject, rfl⟩ := hguarantee
    rfl
  -- what has been claimed or recorded before is in another file
  have hother : ∀ name, (w.journal.files.get name).isSome → name ≠ naming.safeName entry.operationId := by
    intro name hname heq
    rw [heq, show w.journal.files.get _ = none from hnew] at hname
    cases hname
  have hget : ∀ name, name ≠ naming.safeName entry.operationId →
      (w.journal.write naming entry).files.get name = w.journal.files.get name :=
    fun name hname => by rw [JournalStore.write, OrderedDict.get_set, if_neg hname]
  have hself : (w.journal.write naming entry).files.get (naming.safeName entry.operationId) =
      some entry := by rw [JournalStore.write, OrderedDict.get_set, if_pos rfl]
  refine ⟨List.forall_mem_cons.2 ⟨hguarantee, h.guarantee⟩, fun name => ?_, ?_, ?_, ?_, ?_, ?_,
    h.targets.write hheld⟩
  · refine List.pairwise_cons.2 ⟨fun b hb hboth => ?_, h.once name⟩
    obtain ⟨⟨entry', hentry', hname⟩, hclaimed⟩ := hboth
    obtain rfl := Option.some.inj (hentry.symm.trans hentry')
    exact hother name (h.claimed b hb name hclaimed) hname.symm
  · refine List.forall_mem_cons.2 ⟨fun name hname => ?_, fun e he name hname => ?_⟩
    · obtain ⟨entry', hentry', rfl⟩ := hname
      obtain rfl := Option.some.inj (hentry.symm.trans hentry')
      rw [hself]
      rfl
    · have hfile := h.claimed e he name hname
      rw [hget name (hother name hfile)]
      exact hfile
  · refine List.forall_mem_cons.2 ⟨fun name result hname => ?_, fun e he name result hname => ?_⟩
    · obtain ⟨operationId, hrecorded, -⟩ := hname
      cases hrecorded
    · have hfile := h.recorded e he name result hname
      rw [hget name (hother name hfile)]
      exact hfile
  · intro name record hrecord
    by_cases hname : name = naming.safeName entry.operationId
    · subst hname
      rw [hself] at hrecord
      cases hrecord
      exact ⟨_, List.mem_cons_self, entry, hentry, rfl, rfl, rfl⟩
    · rw [hget name hname] at hrecord
      obtain ⟨c, hc, hentry'⟩ := h.entry name record hrecord
      exact ⟨c, List.mem_cons_of_mem _ hc, hentry'⟩
  · intro name record hrecord hnone
    by_cases hname : name = naming.safeName entry.operationId
    · subst hname
      rw [hself] at hrecord
      cases hrecord
      rw [hstate]
      rfl
    · rw [hget name hname] at hrecord
      exact h.active name record hrecord fun e he => hnone e (List.mem_cons_of_mem _ he)
  · intro name record hrecord
    refine List.forall_mem_cons.2 ⟨fun result hname => ?_, fun e he result hname => ?_⟩
    · obtain ⟨operationId, hrecorded, -⟩ := hname
      cases hrecorded
    · rw [hget name (hother name (h.recorded e he name result hname))] at hrecord
      exact h.result name record hrecord e he result hname

theorem RestoreInv.transition (h : RestoreInv naming sha256 w l) {client : ι}
    {past : List RestoreMoment} {plan : RestorePlan} {state : OperationJournalState}
    {result : Option Dict} {record : OperationJournalEntry}
    (hguarantee : RestoreGuarantee naming sha256 past
      ⟨.journal (.transition (restoreOperationId sha256 plan) state result), w⟩)
    (hrecord : w.journal.entry naming (restoreOperationId sha256 plan) = some record)
    (hunrecorded : ∀ f ∈ l, ∀ result,
      ¬ RecordsIn naming (naming.safeName (restoreOperationId sha256 plan)) result f)
    (hstate : result = none ∧ state.active = true ∨ result.isSome ∧ state.active = false) :
    RestoreInv naming sha256
      { w with journal := ⟨w.journal.files.set (naming.safeName (restoreOperationId sha256 plan))
        { record with state := state, result := result }⟩ }
      (⟨client, past, ⟨.journal (.transition (restoreOperationId sha256 plan) state result), w⟩⟩ ::
        l) := by
  obtain ⟨name₀, hname₀⟩ : ∃ name, naming.safeName (restoreOperationId sha256 plan) = name := ⟨_, rfl⟩
  rw [JournalStore.entry, hname₀] at hrecord
  rw [hname₀] at hunrecorded ⊢
  have hactive := h.active name₀ record hrecord hunrecorded
  have hget : ∀ name, (w.journal.files.set name₀ { record with state := state, result := result }).get
      name = if name = name₀ then some { record with state := state, result := result }
        else w.journal.files.get name := fun name => OrderedDict.get_set _ _ _ _
  have hstays : ∀ name, (w.journal.files.get name).isSome →
      ((w.journal.files.set name₀ { record with state := state, result := result }).get name).isSome := by
    intro name hname
    rw [hget]
    split
    · rfl
    · exact hname
  have hrecords : ∀ name result', RecordsIn naming name result'
      (⟨client, past, ⟨.journal (.transition (restoreOperationId sha256 plan) state result), w⟩⟩ :
        RestoreEntry ι) → name = name₀ ∧ result = some result' := by
    intro name result' hname
    obtain ⟨operationId, hrecorded, hname⟩ := hname
    obtain ⟨state', w', hmoment⟩ := recordedResult_eq_some hrecorded
    cases hmoment
    exact ⟨hname.symm.trans hname₀, rfl⟩
  refine ⟨List.forall_mem_cons.2 ⟨hguarantee, h.guarantee⟩, fun name => ?_, ?_, ?_, ?_, ?_, ?_,
    h.targets.update hrecord result fun _ => hactive⟩
  · refine List.pairwise_cons.2 ⟨fun b _ hboth => ?_, h.once name⟩
    obtain ⟨⟨entry, hentry, -⟩, -⟩ := hboth
    cases hentry
  · refine List.forall_mem_cons.2 ⟨fun name hname => ?_, fun e he name hname => ?_⟩
    · obtain ⟨entry, hentry, -⟩ := hname
      cases hentry
    · exact hstays name (h.claimed e he name hname)
  · refine List.forall_mem_cons.2 ⟨fun name result' hname => ?_, fun e he name result' hname => ?_⟩
    · obtain ⟨rfl, -⟩ := hrecords name result' hname
      exact hstays _ (Option.isSome_of_eq_some hrecord)
    · exact hstays name (h.recorded e he name result' hname)
  · intro name record' hrecord'
    rw [hget] at hrecord'
    split at hrecord'
    next hname =>
      cases hrecord'
      obtain ⟨c, hc, hentry⟩ := h.entry name record (by rw [hname]; exact hrecord)
      exact ⟨c, List.mem_cons_of_mem _ hc, hentry⟩
    · obtain ⟨c, hc, hentry⟩ := h.entry name record' hrecord'
      exact ⟨c, List.mem_cons_of_mem _ hc, hentry⟩
  · intro name record' hrecord' hnone
    rw [hget] at hrecord'
    split at hrecord'
    next hname =>
      subst hname
      cases hrecord'
      obtain ⟨-, hstate⟩ | ⟨hresult, -⟩ := hstate
      · exact hstate
      -- the operation itself records a result
      · obtain ⟨result', rfl⟩ := Option.isSome_iff_exists.1 hresult
        refine absurd ⟨restoreOperationId sha256 plan, ?_, hname₀⟩ (hnone _ List.mem_cons_self result')
        show (if (w.journal.entry naming (restoreOperationId sha256 plan)).isSome then _ else none) = _
        rw [JournalStore.entry, hname₀, hrecord]
        rfl
    · exact h.active name record' hrecord' fun e he => hnone e (List.mem_cons_of_mem _ he)
  · intro name record' hrecord'
    refine List.forall_mem_cons.2 ⟨fun result' hname => ?_, fun e he result' hname => ?_⟩
    · obtain ⟨rfl, rfl⟩ := hrecords name result' hname
      rw [hget, if_pos rfl] at hrecord'
      cases hrecord'
      obtain ⟨hnone, -⟩ | ⟨-, hstate⟩ := hstate
      · cases hnone
      · exact ⟨hstate, rfl⟩
    · rw [hget] at hrecord'
      split at hrecord'
      next hname' =>
        rw [hname'] at hname
        exact absurd hname (hunrecorded e he result')
      · exact h.result name record' hrecord' e he result' hname

/-- Every operation of an invocation keeps the journal and the trace in step. -/
theorem RestoreInv.step (h : RestoreInv naming sha256 e.moment.before l) (hlinear : Linear (e :: l))
    (hguarantee : RestoreGuarantee naming sha256 e.past e.moment) :
    RestoreInv naming sha256 (e.moment.after (restoreSemantics naming)) (e :: l) := by
  obtain ⟨client, past, op, w⟩ := e
  cases op with
  | outside op => exact h.skip hguarantee rfl rfl
  | journal op =>
    cases op with
    | read operationId => exact h.skip hguarantee rfl rfl
    | claim entry =>
      show RestoreInv naming sha256 { w with journal := (w.journal.claim naming entry).1 } _
      obtain ⟨hnew, hheld, hclaim⟩ | hclaim := claim_cases naming w.journal entry
      · rw [hclaim]
        exact h.claim hguarantee hclaim hnew hheld
      · rw [hclaim]
        refine h.skip hguarantee ?_ rfl
        show (if (w.journal.claim naming entry).2 then some entry else none) = none
        rw [hclaim]
        rfl
    | transition operationId state result =>
      show RestoreInv naming sha256
        { w with journal := (w.journal.transition naming operationId state result).1 } _
      obtain ⟨hunfound, plan, rfl, hholding, hresult⟩ := hguarantee
      have hlinear' : Linear ([] ++ (⟨client, past, ⟨RestoreOp.journal
        (.transition (restoreOperationId sha256 plan) state result), w⟩⟩ : RestoreEntry ι) :: l) :=
        hlinear
      obtain ⟨record, hrecord, htransition⟩ | ⟨hnone, -⟩ := transition_cases naming w.journal
        (restoreOperationId sha256 plan) state result
      · rw [htransition]
        refine h.transition ⟨hunfound, plan, rfl, hholding, hresult⟩ hrecord
          (h.unrecorded hlinear' hholding) ?_
        obtain ⟨rfl, rfl⟩ | ⟨r, rfl, rfl⟩ := hresult
        · exact Or.inl ⟨rfl, rfl⟩
        · exact Or.inr ⟨rfl, stateOfResult_not_active _⟩
      · obtain ⟨record, hrecord⟩ := h.file hlinear' hholding
        rw [show w.journal.entry naming _ = none from hnone] at hrecord
        cases hrecord

theorem RestoreInv.entry_of_claim (h : RestoreInv naming sha256 w l) {c : RestoreEntry ι} (hc : c ∈ l)
    {record : OperationJournalEntry} (hclaim : claimedEntry naming c.moment = some entry)
    (hrecord : w.journal.files.get (naming.safeName entry.operationId) = some record) :
    record.action = entry.action ∧ record.target = entry.target := by
  obtain ⟨c', hc', entry', hclaim', hname, haction, htarget⟩ := h.entry _ record hrecord
  obtain rfl := (h.once _).eq hc' hc ⟨entry', hclaim', hname⟩ ⟨entry, hclaim, rfl⟩
  obtain rfl := Option.some.inj (hclaim'.symm.trans hclaim)
  exact ⟨haction, htarget⟩

theorem unrecorded_of_claimed {w : RestoreWorld} {l₂ l₃ : List (RestoreEntry ι)} {c : RestoreEntry ι}
    (hinv : RestoreInv naming sha256 w (l₂ ++ c :: l₃)) (hlinear : Linear (l₂ ++ c :: l₃))
    (hinv' : RestoreInv naming sha256 c.moment.before l₃) (hclaim : claimedEntry naming c.moment = some entry)
    (hunrecorded : ∀ f ∈ l₂, ∀ result, recordedResult naming f.moment ≠ some (entry.operationId, result)) :
    ∀ f ∈ l₂ ++ c :: l₃, ∀ result, ¬ RecordsIn naming (naming.safeName entry.operationId) result f := by
  intro f hf result hrecords
  obtain ⟨w', hmoment, hclaimed⟩ := claimedEntry_eq_some hclaim
  obtain ⟨operationId, hrecorded, hname⟩ := hrecords
  obtain hf₂ | hf₃ := List.mem_append.1 hf
  · -- whoever records in the file has claimed it, so it is the operation claimed here
    obtain ⟨plan, rfl, hholding⟩ := holding_of_recorded (hinv.guarantee f hf) hrecorded
    obtain ⟨m, P, subject, hm, hclaim'⟩ := hholding.claim
    obtain ⟨a, b, rfl⟩ := List.append_of_mem hf₂
    have hmem : (⟨f.client, P, m⟩ : RestoreEntry ι) ∈ a ++ f :: b ++ c :: l₃ := by
      have hlinear' : Linear (a ++ f :: (b ++ c :: l₃)) := by
        rw [List.append_assoc, List.cons_append] at hlinear
        exact hlinear
      have hmem' := hlinear'.session.mem m P hm
      rw [List.append_assoc, List.cons_append]
      exact List.mem_append_right a (List.mem_cons_of_mem f hmem')
    have heq := (hinv.once _).eq hmem (List.mem_append_right _ List.mem_cons_self)
      ⟨_, hclaim', rfl⟩ ⟨entry, hclaim, hname.symm⟩
    rw [← heq] at hclaim
    obtain rfl := Option.some.inj (hclaim'.symm.trans hclaim)
    exact hunrecorded f hf₂ result hrecorded
  · obtain rfl | hf₃ := List.mem_cons.1 hf₃
    · rw [hmoment] at hrecorded
      cases hrecorded
    -- before the claim there was no such file
    · have hfile := hinv'.recorded f hf₃ _ result ⟨operationId, hrecorded, hname⟩
      rw [hmoment] at hfile
      obtain ⟨hnew, -, -⟩ | hrefused := claim_cases naming w'.journal entry
      · rw [show w'.journal.files.get _ = none from hnew] at hfile
        cases hfile
      · rw [hrefused] at hclaimed
        cases hclaimed

theorem foundResult_of_recorded (hinv : RestoreInv naming sha256 w l) {f : RestoreEntry ι} (hf : f ∈ l)
    {operationId : String} (hrecorded : recordedResult naming f.moment = some (operationId, result)) :
    foundResult naming ⟨.journal (.read operationId), w⟩ = some result := by
  have hrecords : RecordsIn naming (naming.safeName operationId) result f := ⟨_, hrecorded, rfl⟩
  obtain ⟨record, hrecord⟩ := Option.isSome_iff_exists.1 (hinv.recorded f hf _ result hrecords)
  obtain ⟨hended, hresult⟩ := hinv.result _ record hrecord f hf result hrecords
  show (w.journal.entry naming operationId).bind _ = some result
  rw [show w.journal.entry naming operationId = some record from hrecord]
  show (if record.state = .unknown then none else record.result) = some result
  rw [if_neg, hresult]
  intro hunknown
  rw [hunknown] at hended
  cases hended

end

/-! ### Every run -/

section

variable {ι : Type}

abbrev RestoreNetwork (ι : Type) := Network ι RestoreOp RestoreWorld (Raising RestoreResult)

/-- The journal is empty at first. -/
def RestoreWorld.initial (surroundings : Surroundings) : RestoreWorld := ⟨.empty, surroundings⟩

/-- The answers change, the journal does not. -/
def RestoreDrift (w w' : RestoreWorld) : Prop := w'.journal = w.journal

/-- The networks reached when processes apply any plans. -/
abbrev RestoreReached [DecidableEq ι] (naming : FileNaming) (sha256 : Json → String)
    (surroundings : Surroundings) (n : RestoreNetwork ι) : Prop :=
  Network.Reachable (restoreSemantics naming) (fun p => ∃ call, p = restoreApply sha256 call)
    RestoreDrift (.initial surroundings) n

/-- Exactly once, and exclusively. -/
structure RestoreOnce (naming : FileNaming) (sha256 : Json → String) (n : RestoreNetwork ι) : Prop where
  /-- of two provider calls for one plan, the earlier one is by the invocation of the later one -/
  once : ∀ l₁ e l₂ f plan, n.trace = l₁ ++ e :: l₂ → f ∈ l₂ → providerCall e.moment = some plan →
    providerCall f.moment = some plan → f.Precedes e
  /-- between a claim of a target and its recorded result, whoever calls a provider for the target has
  made that claim -/
  exclusive : ∀ l₁ e l₂ c l₃ entry plan, n.trace = l₁ ++ e :: (l₂ ++ c :: l₃) →
    claimedEntry naming c.moment = some entry →
    (∀ f ∈ l₂, ∀ result, recordedResult naming f.moment ≠ some (entry.operationId, result)) →
    providerCall e.moment = some plan → plan.target.targetId = entry.target → c.Precedes e
  /-- an invocation that looks at the journal after its plan's result has been recorded has returned
  that result, and has called no provider -/
  replayed : ∀ i t l₁ r l₂ f w plan (result : RestoreResult), n.threads i = some t →
    n.trace = l₁ ++ r :: l₂ → r.client = i → (r.moment :: r.past) <:+ t.past →
    r.moment = ⟨.journal (.read (restoreOperationId sha256 plan)), w⟩ → f ∈ l₂ →
    recordedResult naming f.moment = some (restoreOperationId sha256 plan, result.toDict) →
    (∀ step ∈ result.steps, step.provider ≠ "") →
    t.program = .done (.ok result) ∧ ∀ m ∈ t.past, providerCall m = none

theorem RestoreInv.drift {naming : FileNaming} {sha256 : Json → String} {w w' : RestoreWorld}
    {l : List (RestoreEntry ι)} (hdrift : RestoreDrift w w') (h : RestoreInv naming sha256 w l) : RestoreInv naming sha256 w' l := by
  obtain ⟨journal, surroundings⟩ := w
  obtain ⟨journal', surroundings'⟩ := w'
  obtain rfl : journal' = journal := hdrift
  exact ⟨h.guarantee, h.once, h.claimed, h.recorded, h.entry, h.active, h.result, h.targets⟩

end

section

variable {ι : Type} [DecidableEq ι] {naming : FileNaming} {sha256 : Json → String}
  {surroundings : Surroundings} {n : RestoreNetwork ι}

theorem guarded_of_reached (h : RestoreReached naming sha256 surroundings n) :
    Guarded (restoreSemantics naming) AnyWorld (RestoreGuarantee naming sha256)
      (RestoreReturns naming) (.initial surroundings) n := by
  refine guarded_of_reachable (fun _ => trivial) (fun _ _ _ _ _ => trivial) (fun _ _ _ => trivial)
    (fun _ _ _ => trivial) ?_ h
  intro p hp w _
  obtain ⟨call, rfl⟩ := hp
  exact keeps_restoreApply call w

/-- The invariant holds at the end of a run and before each of its operations. -/
theorem restoreInv_of_reached (h : RestoreReached naming sha256 surroundings n) :
    RestoreInv naming sha256 n.shared n.trace ∧
      ∀ l₁ e l₂, n.trace = l₁ ++ e :: l₂ → RestoreInv naming sha256 e.moment.before l₂ := by
  refine trace_inv_of_linear (fun n hn => guarded_of_reached hn) (fun _ => trivial) ?_
    (fun w w' l hdrift hinv => hinv.drift hdrift)
    (fun l e hlinear hguarantee hinv => hinv.step hlinear hguarantee) h
  refine ⟨fun e he => absurd he List.not_mem_nil, fun name => List.Pairwise.nil,
    fun e he => absurd he List.not_mem_nil, fun e he => absurd he List.not_mem_nil,
    fun name record hget => ?_, fun name record hget => ?_, fun name record hget => ?_,
    fun a b r q hr => ?_⟩
  · cases hget
  · cases hget
  · cases hget
  · cases hr

theorem once_of_reached (h : RestoreReached naming sha256 surroundings n)
    {l₁ l₂ : List (RestoreEntry ι)} {e f : RestoreEntry ι} {plan : RestorePlan}
    (htrace : n.trace = l₁ ++ e :: l₂) (hf : f ∈ l₂) (he : providerCall e.moment = some plan)
    (hf' : providerCall f.moment = some plan) : f.Precedes e := by
  obtain ⟨hnow, hbefore⟩ := restoreInv_of_reached h
  have hlinear : Linear (l₁ ++ e :: l₂) := htrace ▸ linear_of_reachable h
  have hinv := hbefore l₁ e l₂ htrace
  have hmem : e ∈ n.trace := htrace ▸ List.mem_append_right l₁ List.mem_cons_self
  exact precedes_of_holding hlinear hinv.once hf (holding_of_providerCall (hnow.guarantee e hmem) he)
    (holding_of_providerCall (hinv.guarantee f hf) hf') rfl

theorem exclusive_of_reached (h : RestoreReached naming sha256 surroundings n)
    {l₁ l₂ l₃ : List (RestoreEntry ι)} {e c : RestoreEntry ι} {entry : OperationJournalEntry}
    {plan : RestorePlan} (htrace : n.trace = l₁ ++ e :: (l₂ ++ c :: l₃))
    (hclaim : claimedEntry naming c.moment = some entry) (hunrecorded : ∀ f ∈ l₂, ∀ result,
      recordedResult naming f.moment ≠ some (entry.operationId, result))
    (he : providerCall e.moment = some plan) (htarget : plan.target.targetId = entry.target) : c.Precedes e := by
  obtain ⟨hnow, hbefore⟩ := restoreInv_of_reached h
  have hinv := hbefore l₁ e _ htrace
  have hinv' := hbefore (l₁ ++ e :: l₂) c l₃ (by rw [htrace, List.append_assoc, List.cons_append])
  have hlinear : Linear (l₁ ++ e :: (l₂ ++ c :: l₃)) := htrace ▸ linear_of_reachable h
  have hlinear' : Linear (l₂ ++ c :: l₃) := (hlinear.suffix (List.suffix_append _ _)).2
  have hmem : e ∈ n.trace := htrace ▸ List.mem_append_right l₁ List.mem_cons_self
  have hholding := holding_of_providerCall (hnow.guarantee e hmem) he
  have hc : c ∈ l₂ ++ c :: l₃ := List.mem_append_right l₂ List.mem_cons_self
  -- the entry claimed by `c` is active
  obtain ⟨record, hrecord⟩ := Option.isSome_iff_exists.1 (hinv.claimed c hc _ ⟨entry, hclaim, rfl⟩)
  have hactive := hinv.active _ record hrecord
    (unrecorded_of_claimed hinv hlinear' hinv' hclaim hunrecorded)
  obtain ⟨haction, hrtarget⟩ := hinv.entry_of_claim hc hclaim hrecord
  -- and so is the one that the invocation of `e` holds
  obtain ⟨m, P, subject, hm, hclaim'⟩ := hholding.claim
  have hc' : (⟨e.client, P, m⟩ : RestoreEntry ι) ∈ l₂ ++ c :: l₃ := hlinear.session.mem m P hm
  obtain ⟨record', hrecord'⟩ := hinv.file hlinear hholding
  have hactive' := hinv.active _ record' hrecord' (hinv.unrecorded hlinear hholding)
  obtain ⟨haction', hrtarget'⟩ := hinv.entry_of_claim hc' hclaim' hrecord'
  have hentry : entry.action = "restore.apply" := by
    obtain ⟨w', hmoment, -⟩ := claimedEntry_eq_some hclaim
    have hguarantee := hinv.guarantee c hc
    rw [hmoment] at hguarantee
    obtain ⟨-, plan', subject', rfl⟩ := hguarantee
    rfl
  have hname := hinv.targets _ _ record record' hrecord hrecord' hactive hactive'
    (by rw [haction, haction', hentry]; rfl) (by rw [hrtarget, hrtarget', ← htarget]; rfl)
  -- so they are the same entry
  obtain rfl := (hinv.once _).eq hc hc' ⟨entry, hclaim, hname⟩ ⟨_, hclaim', rfl⟩
  exact ⟨rfl, hm⟩

theorem found_of_reached (h : RestoreReached naming sha256 surroundings n) {i : ι}
    {t : Thread RestoreOp RestoreWorld (Raising RestoreResult)} (ht : n.threads i = some t)
    {r : RestoreEntry ι} (hpast : (r.moment :: r.past) <:+ t.past) {stored : Dict}
    (hfound : foundResult naming r.moment = some stored) :
    t.program = .done (resultFromDict stored) ∧ t.past = r.moment :: r.past := by
  have hguard : ∀ past m, RestoreGuarantee naming sha256 past m → ∀ m' ∈ past, ¬(foundResult naming m').isSome := by
    intro past m hguarantee m' hm'
    rw [hguarantee.1 m' hm']
    exact Bool.false_ne_true
  obtain ⟨⟨outcome, hprogram, hreturns⟩, hwhole⟩ := (guarded_of_reached h).last_of_seen _ (fun _ => trivial) hguard ht
    ((sessions_of_reachable h).1 i t ht) hpast (Option.isSome_of_eq_some hfound)
  refine ⟨?_, hwhole⟩
  rw [hprogram, hreturns r.moment (hpast.subset List.mem_cons_self) stored hfound]

/-- **Restores happen once.**  Whatever plans any number of processes apply, in whatever order their
calls come and wherever they stop. -/
theorem restore_once (naming : FileNaming) (sha256 : Json → String) (surroundings : Surroundings)
    (n : RestoreNetwork ι) (h : RestoreReached naming sha256 surroundings n) : RestoreOnce naming sha256 n where
  once l₁ e l₂ f plan htrace hf he hf' := once_of_reached h htrace hf he hf'
  exclusive l₁ e l₂ c l₃ entry plan htrace hclaim hunrecorded he htarget :=
    exclusive_of_reached h htrace hclaim hunrecorded he htarget
  replayed i t l₁ r l₂ f w plan result ht htrace _ hpast hmoment hf hrecorded hsteps := by
    have hinv := (restoreInv_of_reached h).2 l₁ r l₂ htrace
    have hmem : r ∈ n.trace := htrace ▸ List.mem_append_right l₁ List.mem_cons_self
    have hguarantee := (guarded_of_reached h).trace r hmem
    rw [hmoment] at hinv hguarantee
    have hfound : foundResult naming r.moment = some result.toDict := by
      rw [hmoment]
      exact foundResult_of_recorded hinv hf hrecorded
    obtain ⟨hprogram, hwhole⟩ := found_of_reached h ht hpast hfound
    rw [resultFromDict_toDict hsteps] at hprogram
    refine ⟨hprogram, ?_⟩
    rw [hwhole, hmoment]
    exact List.forall_mem_cons.2 ⟨rfl, hguarantee.2⟩

end

/-! ### Two runs -/

/-- Everything is fine, except that plans may have expired and no provider answers. -/
def calmSurroundings (expired : Bool) : Surroundings where
  isExpired _ := expired
  verify _ := .ok ⟨true, true⟩
  manifestFromDir _ := .ok
    { schemaVersion := "1", setId := "set", sourceDeploymentId := "prod", createdAt := "now"
      versions := .empty, quiesce := [], contributors := [], artifacts := [], complete := true }
  validateTargetPlanning _ _ := .ok ()
  restore _ _ _ := .error (.other "OSError" "unavailable")
  reconcile _ _ _ := .error (.other "OSError" "unavailable")

def lakePlan : RestorePlan where
  schemaVersion := "1"
  planToken := "t"
  backupSetDir := "/backups/set"
  backupSetId := "set"
  setDigest := "digest"
  target := ⟨"lake", "/lake"⟩
  providerOrder := ["iceberg", "minio", "nessie", "postgres"]
  createdAt := "now"
  expiresAt := "later"

def lakeCall : RestoreCall := ⟨lakePlan, "t", ["iceberg"], "operator"⟩

/-- What the first invocation records. -/
def lakeResult : RestoreResult :=
  failedResult lakePlan [] (.obj [("reason", .str "unavailable")]) none

def lakeSemantics : Semantics RestoreOp RestoreWorld := restoreSemantics plainNaming

/-- A process applies the plan. -/
def lakeRestored : RestoreNetwork Bool :=
  (List.replicate 9 false).foldl (Network.tick lakeSemantics)
    ((Network.idle (.initial (calmSurroundings false))).call false
      (restoreApply (fun _ => "digest") lakeCall))

theorem reached_lakeRestored : RestoreReached plainNaming (fun _ => "digest") (calmSurroundings false) lakeRestored :=
  (Network.Reachable.init.call false ⟨lakeCall, rfl⟩).schedule (List.replicate 9 false)

/-- Another process applies the plan again and gets the recorded result. -/
theorem restore_once_lake : RestoreOnce plainNaming (fun _ => "digest")
    (([true, true].foldl (Network.tick lakeSemantics)
      (lakeRestored.call true (restoreApply (fun _ => "digest") lakeCall))) : RestoreNetwork Bool) :=
  restore_once _ _ (calmSurroundings false) _
    ((reached_lakeRestored.call true ⟨lakeCall, rfl⟩).schedule [true, true])

/-- The plan expires, and another process applies it. -/
def lakeExpired : RestoreNetwork Bool :=
  Network.tick lakeSemantics
    (Network.call { lakeRestored with shared := ⟨lakeRestored.shared.journal, calmSurroundings true⟩ }
      true (restoreApply (fun _ => "digest") lakeCall)) true

theorem reached_lakeExpired :
    RestoreReached plainNaming (fun _ => "digest") (calmSurroundings false) lakeExpired := by
  have hdrift := Relation.ReflTransGen.tail reached_lakeRestored (Network.Step.drift _
    (⟨lakeRestored.shared.journal, calmSurroundings true⟩ : RestoreWorld) rfl)
  exact (Network.Reachable.call hdrift true ⟨lakeCall, rfl⟩).tick true

/-- It does not get the recorded result. -/
theorem expired_not_replayed : ¬ ∀ (n : RestoreNetwork Bool) (i : Bool) (outcome : Raising RestoreResult)
      (past : List RestoreMoment) (l₁ l₂ : List (RestoreEntry Bool)) (f : RestoreEntry Bool)
      (w : RestoreWorld) (plan : RestorePlan) (result : RestoreResult),
      RestoreReached plainNaming (fun _ => "digest") (calmSurroundings false) n →
      n.threads i = some ⟨.done outcome, past⟩ → n.trace = l₁ ++ ⟨i, [], ⟨.outside (.isExpired plan), w⟩⟩ :: l₂ →
      [⟨.outside (.isExpired plan), w⟩] <:+ past → f ∈ l₂ → recordedResult plainNaming f.moment =
        some (restoreOperationId (fun _ => "digest") plan, result.toDict) → outcome = .ok result := by
  intro hall
  have hrecorded : lakeRestored.trace.filterMap (fun e => recordedResult plainNaming e.moment) =
      [(restoreOperationId (fun _ => "digest") lakePlan, lakeResult.toDict)] := by decide +kernel
  obtain ⟨f, hf, hresult⟩ := List.mem_filterMap.1
    (show (restoreOperationId (fun _ => "digest") lakePlan, lakeResult.toDict) ∈
      lakeRestored.trace.filterMap (fun e => recordedResult plainNaming e.moment) by
      rw [hrecorded]
      exact List.mem_cons_self)
  have houtcome := hall lakeExpired true (.error (.restore ⟨"plan_expired", ["t"]⟩)) _ [] _ f _
    lakePlan lakeResult reached_lakeExpired rfl rfl (List.suffix_refl _) hf hresult
  cases houtcome

end Phlo.Operations
