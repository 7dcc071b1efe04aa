import Phlo.Controls.Store
import Phlo.Library.Interleaving

/-!
# Replay or execute

`replay_or_execute` as a program over the controls store and the provider.  The async variant performs
the same operations in the same order.  Every statement on the store is one operation, and so is the run
of the provider; a process that dies runs nothing any more.
-/

namespace Phlo.Controls

open Phlo.Library
open Phlo.Library.Program (perform)

/-! ### Operations -/

/-- How a run of the provider ends. -/
inductive ProviderOutcome where
  | response (value : JsonValue)
  /-- `MutationRejected` -/
  | rejected
  /-- any other exception -/
  | raised

inductive ControlsOp : Type → Type
  | claim (r : ClaimRequest) : ControlsOp ClaimAnswer
  | execute (i : Identity) : ControlsOp ProviderOutcome
  | audit (i : Identity) (response : JsonValue) : ControlsOp Bool
  | complete (i : Identity) (response : JsonValue) : ControlsOp Bool
  | fail (i : Identity) (state : ClaimState) : ControlsOp Bool
  | resolve (r : ResolveRequest) : ControlsOp (Except String Unit)

structure ControlsWorld where
  store : ControlsStore
  now : ℕ
  /-- how the next runs of the provider will end -/
  provider : List ProviderOutcome
  /-- whether the next audit records will be written -/
  audits : List Bool

def controlsSemantics : Semantics ControlsOp ControlsWorld where
  exec op w :=
    match op with
    | .claim r =>
      ({ w with store := (claimIdempotencyKey w.now r w.store).1 }, (claimIdempotencyKey w.now r w.store).2)
    | .execute _ => ({ w with provider := w.provider.tail }, w.provider.head?.getD .raised)
    | .audit _ _ => ({ w with audits := w.audits.tail }, w.audits.head?.getD true)
    | .complete i response =>
      ({ w with store := (completeIdempotencyClaim w.now i response w.store).1 },
        (completeIdempotencyClaim w.now i response w.store).2)
    | .fail i state =>
      ({ w with store := (failIdempotencyClaim i state w.store).1 },
        (failIdempotencyClaim i state w.store).2)
    | .resolve r =>
      ({ w with store := (resolveIdempotencyClaim w.now r w.store).1 },
        (resolveIdempotencyClaim w.now r w.store).2)

/-! ### The program -/

inductive MutationOutcome where
  | response (value : JsonValue)
  | conflict (error : String) (retryAfter : Option ℕ)
  | rejected
  | raised
  | auditFailed
  | storageUnavailable
  /-- a stored response that is not JSON -/
  | undecodable
  | resolved (result : Except String Unit)
  /-- the process has died -/
  | crashed

def IDEMPOTENCY_RETRY_AFTER_SECONDS : ℕ := 2

def ClaimState.text : ClaimState → String
  | .pending => "pending"
  | .completed => "completed"
  | .unknown => "unknown"
  | .failed => "failed"
  | .safeToRetry => "safe_to_retry"

/-- What a caller gets whose claim was not granted. -/
def ClaimAnswer.refusal : ClaimAnswer → MutationOutcome
  | .existing .completed (some response) => .response response
  | .existing .completed none => .undecodable
  | .existing .pending _ => .conflict "idempotency_in_progress" (some IDEMPOTENCY_RETRY_AFTER_SECONDS)
  | .existing .unknown _ => .conflict "idempotency_outcome_unknown" none
  | .targetMismatch => .conflict "target_mismatch" none
  | .operationActive state => .conflict ("operation_" ++ state.text) none
  | _ => .conflict "idempotency_outcome_failed" none

def ClaimAnswer.granted : ClaimAnswer → Bool
  | .claimed => true
  | _ => false

/-- The arguments of a call; the key is hashed already. -/
structure ReplayCall where
  request : ClaimRequest
  /-- an audit function is given -/
  audited : Bool := false

def reported (done : Bool) (outcome : MutationOutcome) : MutationOutcome :=
  if done then outcome else .storageUnavailable

/-- `_fail_idempotency_claim`, then raise. -/
def failWith (i : Identity) (state : ClaimState) (outcome : MutationOutcome) :
    Program ControlsOp MutationOutcome := do
  let done ← perform (.fail i state)
  pure (reported done outcome)

/-- `_complete_idempotency_claim`, then return. -/
def completeWith (i : Identity) (response : JsonValue) : Program ControlsOp MutationOutcome := do
  let done ← perform (.complete i response)
  pure (reported done (.response response))

/-- The part after the provider has answered. -/
def concludeMutation (i : Identity) (audited : Bool) : ProviderOutcome → Program ControlsOp MutationOutcome
  | .rejected => failWith i .failed .rejected
  | .raised => failWith i .unknown .raised
  | .response response =>
    if audited then do
      let written ← perform (.audit i response)
      if written then completeWith i response else failWith i .unknown .auditFailed
    else completeWith i response

/-- `replay_or_execute` -/
def replayOrExecute (call : ReplayCall) : Program ControlsOp MutationOutcome := do
  let answer ← perform (.claim call.request)
  if answer.granted then do
    let outcome ← perform (.execute call.request.identity)
    concludeMutation call.request.identity call.audited outcome
  else pure answer.refusal

def resolveClaim (r : ResolveRequest) : Program ControlsOp MutationOutcome := do
  let result ← perform (.resolve r)
  pure (.resolved result)

/-- What a process may turn to. -/
inductive IsControlsCall : Program ControlsOp MutationOutcome → Prop
  | call (call : ReplayCall) : IsControlsCall (replayOrExecute call)
  | resolve (r : ResolveRequest) : IsControlsCall (resolveClaim r)
  | crash : IsControlsCall (pure .crashed)

def TimePasses (w w' : ControlsWorld) : Prop := ∃ t, w' = { w with now := w.now + t }

abbrev ControlsMoment := Moment ControlsOp ControlsWorld

abbrev ControlsEntry (ι : Type) := Entry ι ControlsOp ControlsWorld

abbrev ControlsNetwork (ι : Type) := Network ι ControlsOp ControlsWorld MutationOutcome

abbrev ControlsStep {ι : Type} [DecidableEq ι] : ControlsNetwork ι → ControlsNetwork ι → Prop :=
  Network.Step controlsSemantics IsControlsCall TimePasses

/-! ### The claim a process holds -/

def grants : ControlsMoment → Option (Identity × ℕ)
  | ⟨.claim r, w⟩ =>
    if (claimIdempotencyKey w.now r w.store).2.granted then some (r.identity, w.store.claims) else none
  | _ => none

def reports : {β : Type} → ControlsOp β → Option Identity
  | _, .complete i _ => some i
  | _, .fail i _ => some i
  | _, _ => none

def resolves : {β : Type} → ControlsOp β → Option Identity
  | _, .resolve r => some r.identity
  | _, _ => none

/-- The mutation an operation runs the provider for. -/
def executes : {β : Type} → ControlsOp β → Option Identity
  | _, .execute i => some i
  | _, _ => none

def holdsAfter (m : ControlsMoment) (before : Option (Identity × ℕ)) : Option (Identity × ℕ) :=
  if (reports m.op).isSome then none else (grants m).or before

/-- The claim a process holds: granted and not reported on yet. -/
def holding (past : List ControlsMoment) : Option (Identity × ℕ) := past.foldr holdsAfter none

/-- The process has run the provider. -/
def started (past : List ControlsMoment) : Bool := past.any fun m => (executes m.op).isSome

/-- What an operation of a call satisfies: a claim comes first, the provider is run once for the claim
that is held, and reports are on the claim that is held. -/
def ControlsGuarantee (past : List ControlsMoment) (m : ControlsMoment) : Prop :=
  match m with
  | ⟨.claim _, _⟩ => past = []
  | ⟨.execute i, _⟩ => (∃ c, holding past = some (i, c)) ∧ started past = false
  | ⟨.complete i _, _⟩ => ∃ c, holding past = some (i, c)
  | ⟨.fail i state, _⟩ => (∃ c, holding past = some (i, c)) ∧ (state = .failed ∨ state = .unknown)
  | _ => True

abbrev KeepsControls {α : Type} (p : Program ControlsOp α) (past : List ControlsMoment) (w : ControlsWorld) : Prop :=
  Keeps controlsSemantics (fun _ _ => True) ControlsGuarantee (fun _ _ _ => True) p past w

section

variable {i : Identity} {c : ℕ} {past : List ControlsMoment} {w : ControlsWorld}

theorem keeps_failWith {state : ClaimState} {outcome : MutationOutcome}
    (h : holding past = some (i, c)) (hstate : state = .failed ∨ state = .unknown) :
    KeepsControls (failWith i state outcome) past w :=
  fun _ _ => ⟨⟨⟨c, h⟩, hstate⟩, fun _ _ => trivial⟩

theorem keeps_completeWith {response : JsonValue} (h : holding past = some (i, c)) :
    KeepsControls (completeWith i response) past w :=
  fun _ _ => ⟨⟨c, h⟩, fun _ _ => trivial⟩

theorem keeps_concludeMutation {audited : Bool} {outcome : ProviderOutcome}
    (h : holding past = some (i, c)) : KeepsControls (concludeMutation i audited outcome) past w := by
  cases outcome with
  | rejected => exact keeps_failWith h (.inl rfl)
  | raised => exact keeps_failWith h (.inr rfl)
  | response response =>
    rw [concludeMutation]
    split
    · refine keeps_perform_bind.2 fun w' _ => ⟨trivial, ?_⟩
      have haudit : holding (⟨.audit i response, w'⟩ :: past) = some (i, c) := h
      split
      · exact keeps_completeWith haudit
      · exact keeps_failWith haudit (.inr rfl)
    · exact keeps_completeWith h

theorem keeps_replayOrExecute (call : ReplayCall) : KeepsControls (replayOrExecute call) [] w := by
  refine keeps_perform_bind.2 fun w' _ => ⟨rfl, ?_⟩
  split
  next hgranted =>
    have hclaim : holding [⟨.claim call.request, w'⟩] = some (call.request.identity, w'.store.claims) := by
      have hgranted' : (claimIdempotencyKey w'.now call.request w'.store).2.granted = true := hgranted
      show (if (claimIdempotencyKey w'.now call.request w'.store).2.granted then _ else _ : Option _).or
        none = _
      rw [if_pos hgranted']
      rfl
    refine keeps_perform_bind.2 fun w'' _ => ⟨⟨⟨_, hclaim⟩, rfl⟩, ?_⟩
    exact keeps_concludeMutation hclaim
  next => exact fun _ _ => trivial

theorem keeps_controlsCall {p : Program ControlsOp MutationOutcome} (hp : IsControlsCall p) :
    KeepsControls p [] w := by
  cases hp with
  | call call => exact keeps_replayOrExecute call
  | resolve r => exact fun _ _ => ⟨trivial, fun _ _ => trivial⟩
  | crash => exact fun _ _ => trivial

end

/-- Everybody keeps to the guarantee, in any interleaving. -/
theorem controlsGuarded {ι : Type} [DecidableEq ι] {w₀ : ControlsWorld} {n : ControlsNetwork ι}
    (h : Network.Reachable controlsSemantics IsControlsCall TimePasses w₀ n) :
    Guarded controlsSemantics (fun _ _ => True) ControlsGuarantee (fun _ _ _ => True) w₀ n :=
  guarded_of_reachable (fun _ => trivial) (fun _ _ _ _ _ => trivial) (fun _ _ _ => trivial)
    (fun _ _ _ => trivial) (fun _ hp _ _ => keeps_controlsCall hp) h

end Phlo.Controls
