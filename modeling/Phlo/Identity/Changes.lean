import Phlo.Library.Histories
import Phlo.Identity.Authority

/-!
# Runs of the identity authority

Any number of clients call the authority; the store serves their calls one by one, so a run is the list of
the calls in the order of serving, and `authorityHistory` says what each of them found, left and answered.

* `Change`, `change_of_perform` — everything a call that succeeds can do to the document;
* `step_change` — a call that is served changes the document so or leaves it;
* `perform_of_mem`, `change_of_mem` — what a call of a history did.
-/

namespace Phlo.Identity

open Phlo.Library

/-! ### Changes of the document -/

/-- What a call does to the document when it succeeds, and what the document and the request were. -/
inductive Change (host : Host) (call : Call) (state : AuthorityState) : AuthorityState → Answer → Prop
  | assigned (r : AssignRoles) (item : Member) (answer : Answer) (hrequest : call.request = .assignRoles r)
      (hexpected : state.memberVersion r.subject = r.expectedVersion)
      (hversion : item.version = r.expectedVersion + 1) (hroles : validateRoles r.roles = .ok item.roles)
      (hactive : item.active = r.active) (hkind : r.principalType ∈ ["user", "service", "platform"])
      (htype : item.principalType =
        ((state.members.get r.subject).map Member.principalType).getD r.principalType) :
      Change host call state { state with members := state.members.set r.subject item } answer
  | invited (r : CreateInvitation) (drawn : Drawn) (item : Invitation) (answer : Answer)
      (hrequest : call.request = .createInvitation r drawn) (hemail : item.email = host.normalizeEmail r.email)
      (hroles : validateRoles r.roles = .ok item.roles) (hstatus : item.status = .pending)
      (hexpires : item.expiresAt = call.clock 0 + r.ttl) (hhash : item.tokenHash = host.sha256 drawn.token)
      (hnew : ∀ id invite, state.invitations.get id = some invite → invite.status = .pending →
        invite.email ≠ item.email) :
      Change host call state { state with invitations := state.invitations.set drawn.id item } answer
  | accepted (r : AcceptInvitation) (id : String) (invite : Invitation) (item : Member) (answer : Answer)
      (hrequest : call.request = .acceptInvitation r) (hget : state.invitations.get id = some invite)
      (hhash : invite.tokenHash = host.sha256 r.token)
      (honly : ∀ id' invite', state.invitations.get id' = some invite' →
        invite'.tokenHash = host.sha256 r.token → invite' = invite)
      (hstatus : invite.status = .pending) (hemail : invite.email = host.normalizeEmail r.email)
      (hexpires : call.clock 0 < invite.expiresAt) (hfree : state.members.get r.subject = none)
      (hroles : item.roles = invite.roles) (hactive : item.active = true) (hversion : item.version = 1)
      (htype : item.principalType = "user") :
      Change host call state
      { state with
        members := state.members.set r.subject item
        invitations := state.invitations.set id { invite with status := .accepted } } answer
  | created (r : CreateServiceAccount) (drawn : Drawn) (item : ServiceAccount)
      (operations : OrderedDict String Operation) (answer : Answer)
      (hrequest : call.request = .createServiceAccount r drawn)
      (hroles : validateRoles r.roles = .ok item.roles) (hactive : item.active = true)
      (hversion : item.version = 1) (hhash : item.tokenHash = host.sha256 drawn.token)
      (hunkeyed : r.idempotencyKey = none → operations = state.operations)
      (hkeyed : ∀ key ∈ r.idempotencyKey,
        state.operations.get (host.accountOperation r.actorSubject key) = none ∧
        ∃ operation, operations =
          state.operations.set (host.accountOperation r.actorSubject key) operation) :
      Change host call state
      { state with
        serviceAccounts := state.serviceAccounts.set (serviceSubject drawn) item
        operations := operations } answer
  | revoked (subject : String) (expectedVersion : ℤ) (item updated : ServiceAccount) (answer : Answer)
      (hrequest : call.request = .revokeServiceAccount subject expectedVersion)
      (hget : state.serviceAccounts.get subject = some item) (hexpected : item.version = expectedVersion)
      (hwas : item.active = true) (hactive : updated.active = false) (hhash : updated.tokenHash = "")
      (hversion : updated.version = expectedVersion + 1) (hroles : updated.roles = item.roles) :
      Change host call state { state with serviceAccounts := state.serviceAccounts.set subject updated } answer
  | replayed (r : SaveSignature) (key signatureId : String) (operation : Operation) (stored : StoredSignature)
      (hrequest : call.request = .saveSignature r) (hkey : r.idempotencyKey = some key)
      (hoperation : state.operations.get (host.signatureOperation r.record.signerSubject key) = some operation)
      (htarget : operation.target = .signatureId signatureId)
      (hget : state.signatures.get signatureId = some stored) :
      Change host call state state (.signature stored.record)
  | saved (r : SaveSignature) (operations : OrderedDict String Operation)
      (hrequest : call.request = .saveSignature r)
      (hnew : state.signatures.get r.record.signatureId = none)
      (hunkeyed : r.idempotencyKey = none → operations = state.operations)
      (hkeyed : ∀ key ∈ r.idempotencyKey,
        state.operations.get (host.signatureOperation r.record.signerSubject key) = none ∧
        ∃ digest at_, operations = state.operations.set (host.signatureOperation r.record.signerSubject key)
          ⟨digest, .signatureId r.record.signatureId, at_⟩) :
      Change host call state
      { state with
        signatures := state.signatures.set r.record.signatureId ⟨r.record, none⟩
        operations := operations } (.signature r.record)
  | refused (r : ConsumeSignature) (hrequest : call.request = .consumeSignature r) :
      Change host call state state (.consumed false)
  | consumed (r : ConsumeSignature) (hrequest : call.request = .consumeSignature r)
      (hreview : ∀ review ∈ r.review,
        state.admitsReview r.signatureId r.expected review.1 review.2 = true)
      (happroved : ∀ intent ∈ r.intents, ∃ item, state.signatures.get intent.1 = some item ∧
        host.approves item intent.2 = true) :
      Change host call state
        { state with signatures := consumeAll call.clock 0 r.intents state.signatures } (.consumed true)

section

variable {host : Host} {call : Call} {state state' : AuthorityState} {answer : Answer}
  {stored : Option AuthorityState}

theorem change_of_consumeSignature {r : ConsumeSignature} (hrequest : call.request = .consumeSignature r) :
    Change host call state (consumeSignature host call.clock r state).1
      (.consumed (consumeSignature host call.clock r state).2) := by
  unfold consumeSignature
  split
  next hall =>
    rw [Bool.and_eq_true] at hall
    refine .consumed r hrequest (fun review hreview => ?_) (fun intent hintent => ?_)
    · have hadmits := hall.1
      rw [hreview] at hadmits
      exact hadmits
    · exact Option.any_eq_true .. |>.1 (List.all_eq_true.1 hall.2 intent hintent)
  · exact .refused r hrequest

theorem change_of_perform (h : perform host call state = .ok (state', answer)) :
    Change host call state state' answer := by
  unfold perform at h
  cases hrequest : call.request with
  | assignRoles r =>
    rw [hrequest] at h
    obtain ⟨⟨state'', member⟩, hperform, heq⟩ := map_eq_ok.1 h
    cases heq
    obtain ⟨item, rfl, hexpected, hversion, hroles, hactive, hkind, htype⟩ := assignRoles_eq_ok hperform
    exact .assigned r item _ hrequest hexpected hversion hroles hactive hkind htype
  | createInvitation r drawn =>
    rw [hrequest] at h
    obtain ⟨⟨state'', answer'⟩, hperform, heq⟩ := map_eq_ok.1 h
    cases heq
    obtain ⟨item, rfl, hemail, hroles, hstatus, hexpires, hhash, hnew⟩ := createInvitation_eq_ok hperform
    exact .invited r drawn item _ hrequest hemail hroles hstatus hexpires hhash hnew
  | acceptInvitation r =>
    rw [hrequest] at h
    obtain ⟨⟨state'', member⟩, hperform, heq⟩ := map_eq_ok.1 h
    cases heq
    obtain ⟨id, invite, item, rfl, hget, hhash, honly, hstatus, hemail, hexpires, hfree, hroles, hactive,
      hversion, htype⟩ := acceptInvitation_eq_ok hperform
    exact .accepted r id invite item _ hrequest hget hhash honly hstatus hemail hexpires hfree hroles hactive
      hversion htype
  | createServiceAccount r drawn =>
    rw [hrequest] at h
    obtain ⟨⟨state'', answer'⟩, hperform, heq⟩ := map_eq_ok.1 h
    cases heq
    obtain ⟨item, operations, rfl, hroles, hactive, hversion, hhash, hunkeyed, hkeyed⟩ :=
      createServiceAccount_eq_ok hperform
    exact .created r drawn item operations _ hrequest hroles hactive hversion hhash hunkeyed hkeyed
  | revokeServiceAccount subject expectedVersion =>
    rw [hrequest] at h
    obtain ⟨⟨state'', account⟩, hperform, heq⟩ := map_eq_ok.1 h
    cases heq
    obtain ⟨item, updated, rfl, hget, hexpected, hwas, hactive, hhash, hversion, hroles⟩ :=
      revokeServiceAccount_eq_ok hperform
    exact .revoked subject expectedVersion item updated _ hrequest hget hexpected hwas hactive hhash hversion
      hroles
  | saveSignature r =>
    rw [hrequest] at h
    obtain ⟨⟨state'', record⟩, hperform, heq⟩ := map_eq_ok.1 h
    cases heq
    rcases saveSignatureIdempotent_eq_ok hperform with
      ⟨rfl, key, operation, signatureId, item, hkey, hoperation, htarget, hget, rfl⟩ |
      ⟨rfl, hnew, operations, rfl, hunkeyed, hkeyed⟩
    · exact .replayed r key signatureId operation item hrequest hkey hoperation htarget hget
    · exact .saved r operations hrequest hnew hunkeyed hkeyed
  | consumeSignature r =>
    rw [hrequest] at h
    cases h
    exact change_of_consumeSignature hrequest

/-- A used key stays used when another one is. -/
theorem get_of_keyed {key : Option String} (operationId : String → String)
    {operations operations' : OrderedDict String Operation} (hunkeyed : key = none → operations' = operations)
    (hkeyed : ∀ k ∈ key, operations.get (operationId k) = none ∧
      ∃ operation, operations' = operations.set (operationId k) operation)
    {id : String} {operation : Operation} (hget : operations.get id = some operation) :
    operations'.get id = some operation := by
  cases key with
  | none =>
    rw [hunkeyed rfl]
    exact hget
  | some k =>
    obtain ⟨hfree, operation', rfl⟩ := hkeyed k rfl
    rw [OrderedDict.get_set]
    split
    next hid =>
      rw [hid, hfree] at hget
      cases hget
    · exact hget

/-- A used key stays used, and for what it was used. -/
theorem Change.operations (h : Change host call state state' answer) {id : String} {operation : Operation}
    (hget : state.operations.get id = some operation) : state'.operations.get id = some operation := by
  cases h with
  | created r drawn item operations answer hrequest hroles hactive hversion hhash hunkeyed hkeyed =>
    exact get_of_keyed (host.accountOperation r.actorSubject) hunkeyed hkeyed hget
  | saved r operations hrequest hnew hunkeyed hkeyed =>
    refine get_of_keyed (host.signatureOperation r.record.signerSubject) hunkeyed (fun key hkey => ?_) hget
    obtain ⟨hfree, digest, at_, hset⟩ := hkeyed key hkey
    exact ⟨hfree, _, hset⟩
  | _ => exact hget

/-! ### Histories -/

def Request.drawn : Request → Option Drawn
  | .createInvitation _ drawn => some drawn
  | .createServiceAccount _ drawn => some drawn
  | _ => none

/-- Two calls draw different identifiers and different tokens. -/
def DrawsApart (c c' : Call) : Prop :=
  ∀ d ∈ c.request.drawn, ∀ d' ∈ c'.request.drawn, d.id ≠ d'.id ∧ d.token ≠ d'.token

instance (c c' : Call) : Decidable (DrawsApart c c') :=
  inferInstanceAs (Decidable (∀ d ∈ c.request.drawn, ∀ d' ∈ c'.request.drawn, d.id ≠ d'.id ∧ d.token ≠ d'.token))

abbrev AuthorityEvent := Served (Option AuthorityState) Call (Except IdentityError Answer)

/-- The calls in the order in which the store serves them, which holds no record at first. -/
def authorityHistory (host : Host) (calls : List Call) : List AuthorityEvent := history (step host) none calls

/-- The call was answered without an error. -/
def Succeeded (e : AuthorityEvent) : Prop := ∃ answer, e.answer = .ok answer

theorem step_change (host : Host) (stored : Option AuthorityState) (call : Call) :
    (∃ answer, (step host stored call).2 = .ok answer ∧
      Change host call (readState stored) (readState (step host stored call).1) answer) ∨
    ((step host stored call).1 = stored ∧ ∀ answer, (step host stored call).2 ≠ .ok answer) := by
  cases h : perform host call (readState stored) with
  | error e =>
    rw [step_error h]
    exact .inr ⟨rfl, fun _ hok => by cases hok⟩
  | ok x =>
    rw [step_ok h]
    exact .inl ⟨x.2, rfl, change_of_perform h⟩

variable {calls : List Call} {e : AuthorityEvent}

theorem answer_of_mem (he : e ∈ authorityHistory host calls) : e.answer = (step host e.before e.call).2 :=
  congrArg Served.answer (eq_serve_of_mem he)

theorem after_of_mem (he : e ∈ authorityHistory host calls) : e.after = (step host e.before e.call).1 :=
  congrArg Served.after (eq_serve_of_mem he)

theorem perform_of_mem (he : e ∈ authorityHistory host calls) (hok : e.answer = .ok answer) :
    perform host e.call (readState e.before) = .ok (readState e.after, answer) := by
  rw [after_of_mem he]
  exact perform_of_step_ok ((answer_of_mem he).symm.trans hok)

theorem change_of_mem (he : e ∈ authorityHistory host calls) :
    (∃ answer, e.answer = .ok answer ∧ Change host e.call (readState e.before) (readState e.after) answer) ∨
    (e.after = e.before ∧ ¬ Succeeded e) := by
  rw [Succeeded, answer_of_mem he, after_of_mem he]
  rcases step_change host e.before e.call with hchange | ⟨hsame, hnot⟩
  · exact .inl hchange
  · exact .inr ⟨hsame, fun ⟨answer, hok⟩ => hnot answer hok⟩

end

end Phlo.Identity
