import Mathlib.Data.List.Pairwise
import Phlo.Identity.Changes

/-!
# Membership changes are not lost and not replayed

* `Sound` — where the accounts and invitations of the document come from, and that an e-mail has one
  pending invitation;
* `Later` — what no call takes back: versions, revocations, accepted invitations, used keys;
* `membership_kept` — the guards of the operations hold in every run, whatever the order of the calls.
-/

namespace Phlo.Identity

open Phlo.Library

/-! ### The invariant -/

/-- What the roles of a member and its flag are. -/
def AuthorityState.standing (state : AuthorityState) (subject : String) : Option (List String × Bool) :=
  (state.members.get subject).map fun item => (item.roles, item.active)

/-- The document against the calls served so far. -/
structure Sound (host : Host) (past : List AuthorityEvent) (state : AuthorityState) : Prop where
  accounts : ∀ subject account, state.serviceAccounts.get subject = some account →
    ∃ e ∈ past, ∃ r drawn, e.call.request = .createServiceAccount r drawn ∧ subject = serviceSubject drawn ∧
      (account.active = true → account.tokenHash = host.sha256 drawn.token)
  invitations : ∀ id invite, state.invitations.get id = some invite →
    ∃ e ∈ past, ∃ r drawn, e.call.request = .createInvitation r drawn ∧ Succeeded e ∧ id = drawn.id ∧
      invite.tokenHash = host.sha256 drawn.token ∧ invite.email = host.normalizeEmail r.email ∧
      validateRoles r.roles = .ok invite.roles ∧ invite.expiresAt = e.call.clock 0 + r.ttl
  pending : ∀ id id' invite invite', state.invitations.get id = some invite →
    state.invitations.get id' = some invite' → invite.status = .pending → invite'.status = .pending →
    invite.email = invite'.email → id = id'

section

variable {host : Host} {past : List AuthorityEvent} {state state' : AuthorityState} {call : Call}
  {answer : Answer}

theorem sound_none (host : Host) : Sound host [] (readState none) :=
  ⟨(fun _ _ h => by cases h), (fun _ _ h => by cases h), (fun _ _ _ _ h => by cases h)⟩

/-- What an account or invitation comes from is found among more calls. -/
theorem Sound.more (h : Sound host past state) (e : AuthorityEvent) : Sound host (past ++ [e]) state := by
  refine ⟨fun subject account hget => ?_, fun id invite hget => ?_, h.pending⟩
  · obtain ⟨e', he', hrest⟩ := h.accounts subject account hget
    exact ⟨e', List.mem_append_left _ he', hrest⟩
  · obtain ⟨e', he', hrest⟩ := h.invitations id invite hget
    exact ⟨e', List.mem_append_left _ he', hrest⟩

/-- The parts of the document `Sound` is about. -/
theorem Sound.congr (h : Sound host past state) (haccounts : state'.serviceAccounts = state.serviceAccounts)
    (hinvitations : state'.invitations = state.invitations) : Sound host past state' := by
  refine ⟨?_, ?_, ?_⟩
  · rw [haccounts]
    exact h.accounts
  · rw [hinvitations]
    exact h.invitations
  · rw [hinvitations]
    exact h.pending

theorem serviceSubject_injective {d d' : Drawn} (h : serviceSubject d = serviceSubject d') : d.id = d'.id := by
  unfold serviceSubject at h
  exact String.append_right_inj _ |>.1 h

theorem Sound.change (h : Sound host past state) (hchange : Change host call state state' answer)
    {stored stored' : Option AuthorityState} : Sound host (past ++ [⟨stored, call, stored', .ok answer⟩]) state' := by
  have hmore := h.more ⟨stored, call, stored', .ok answer⟩
  have hself : (⟨stored, call, stored', .ok answer⟩ : AuthorityEvent) ∈
      past ++ [⟨stored, call, stored', .ok answer⟩] := List.mem_append_right _ (List.mem_singleton_self _)
  cases hchange with
  | assigned r item answer hrequest hexpected hversion hroles hactive hkind htype => exact hmore.congr rfl rfl
  | invited r drawn item answer hrequest hemail hroles hstatus hexpires hhash hnew =>
    refine ⟨hmore.accounts, fun id invite hget => ?_, fun id id' invite invite' hget hget' => ?_⟩
    · rw [OrderedDict.get_set] at hget
      split at hget
      next hid =>
        cases hget
        exact ⟨_, hself, r, drawn, hrequest, ⟨answer, rfl⟩, hid, hhash, hemail, hroles, hexpires⟩
      · exact hmore.invitations id invite hget
    · intro hpending hpending' hsame
      rw [OrderedDict.get_set] at hget hget'
      by_cases hid : id = drawn.id
      · by_cases hid' : id' = drawn.id
        · exact hid.trans hid'.symm
        · rw [if_pos hid] at hget
          rw [if_neg hid'] at hget'
          cases hget
          exact absurd hsame.symm (hnew id' invite' hget' hpending')
      · by_cases hid' : id' = drawn.id
        · rw [if_neg hid] at hget
          rw [if_pos hid'] at hget'
          cases hget'
          exact absurd hsame (hnew id invite hget hpending)
        · rw [if_neg hid] at hget
          rw [if_neg hid'] at hget'
          exact h.pending id id' invite invite' hget hget' hpending hpending' hsame
  | accepted r id invite item answer hrequest hget hhash honly hstatus hemail hexpires hfree hroles hactive
      hversion htype =>
    refine ⟨hmore.accounts, fun id' invite' hget' => ?_, fun id₁ id₂ invite₁ invite₂ hget₁ hget₂ => ?_⟩
    · rw [OrderedDict.get_set] at hget'
      split at hget'
      next hid =>
        cases hget'
        rw [hid]
        exact hmore.invitations id invite hget
      · exact hmore.invitations id' invite' hget'
    · intro hpending₁ hpending₂ hsame
      rw [OrderedDict.get_set] at hget₁ hget₂
      -- the accepted invitation is not pending any more
      by_cases hid₁ : id₁ = id
      · rw [if_pos hid₁] at hget₁
        cases hget₁
        cases hpending₁
      · by_cases hid₂ : id₂ = id
        · rw [if_pos hid₂] at hget₂
          cases hget₂
          cases hpending₂
        · rw [if_neg hid₁] at hget₁
          rw [if_neg hid₂] at hget₂
          exact h.pending id₁ id₂ invite₁ invite₂ hget₁ hget₂ hpending₁ hpending₂ hsame
  | created r drawn item operations answer hrequest hroles hactive hversion hhash hunkeyed hkeyed =>
    refine ⟨fun subject account hget => ?_, hmore.invitations, hmore.pending⟩
    rw [OrderedDict.get_set] at hget
    split at hget
    next hsubject =>
      cases hget
      exact ⟨_, hself, r, drawn, hrequest, hsubject, fun _ => hhash⟩
    · exact hmore.accounts subject account hget
  | revoked subject expectedVersion item updated answer hrequest hget hexpected hwas hactive hhash hversion
      hroles =>
    refine ⟨fun subject' account hget' => ?_, hmore.invitations, hmore.pending⟩
    rw [OrderedDict.get_set] at hget'
    split at hget'
    next hsubject =>
      cases hget'
      obtain ⟨e, he, r, drawn, hcreate, hdrawn, -⟩ := hmore.accounts subject item hget
      exact ⟨e, he, r, drawn, hcreate, hsubject.trans hdrawn, fun htrue => by rw [hactive] at htrue; cases htrue⟩
    · exact hmore.accounts subject' account hget'
  | replayed r key signatureId operation stored hrequest hkey hoperation htarget hget => exact hmore
  | saved r operations hrequest hnew hunkeyed hkeyed => exact hmore.congr rfl rfl
  | refused r hrequest => exact hmore
  | consumed r hrequest hreview happroved => exact hmore.congr rfl rfl

theorem sound_step (past : List AuthorityEvent) (stored : Option AuthorityState) (call : Call)
    (h : Sound host past (readState stored)) :
    Sound host (past ++ [serve (step host) stored call]) (readState (step host stored call).1) := by
  rcases step_change host stored call with ⟨answer, hanswer, hchange⟩ | ⟨hsame, -⟩
  · have hserve : serve (step host) stored call = ⟨stored, call, (step host stored call).1, .ok answer⟩ := by
      unfold serve
      rw [hanswer]
    rw [hserve]
    exact h.change hchange
  · rw [hsame]
    exact h.more _

end

/-! ### Tokens of service accounts -/

/-- The token was given out with a new service account. -/
def Issued (earlier : List AuthorityEvent) (token subject : String) : Prop :=
  ∃ e ∈ earlier, ∃ r drawn, e.call.request = .createServiceAccount r drawn ∧ drawn.token = token ∧
    serviceSubject drawn = subject

variable {subject : String}

theorem authenticate_eq_some {host : Host} {state : AuthorityState} {token name : String}
    (h : authenticateServiceToken host token state = some (subject, name)) :
    ∃ account, state.serviceAccounts.get subject = some account ∧ account.active = true ∧
      account.tokenHash = host.sha256 token := by
  unfold authenticateServiceToken at h
  obtain ⟨item, hfind, heq⟩ := Option.map_eq_some_iff.1 h
  obtain ⟨rfl, -⟩ := Prod.mk.inj heq
  have hfound := List.find?_some hfind
  rw [Bool.and_eq_true, decide_eq_true_eq] at hfound
  exact ⟨item.2, OrderedDict.get_eq_some_iff.2 (List.mem_of_find?_eq_some hfind), hfound⟩

theorem Sound.issued {host : Host} {past : List AuthorityEvent} {state : AuthorityState} {token name : String}
    (h : Sound host past state) (hauthenticates : authenticateServiceToken host token state = some (subject, name)) :
    Issued past token subject := by
  obtain ⟨account, hget, hactive, hhash⟩ := authenticate_eq_some hauthenticates
  obtain ⟨e, he, r, drawn, hrequest, hsubject, hdrawn⟩ := h.accounts subject account hget
  exact ⟨e, he, r, drawn, hrequest, host.sha256_injective ((hdrawn hactive).symm.trans hhash), hsubject.symm⟩

/-! ### What no call takes back -/

/-- The second document may come after the first one. -/
structure Later (state state' : AuthorityState) : Prop where
  members : ∀ subject, state.memberVersion subject ≤ state'.memberVersion subject
  accounts : ∀ subject, state.accountVersion subject ≤ state'.accountVersion subject
  revoked : ∀ subject account, state.serviceAccounts.get subject = some account → account.active = false →
    ∃ account', state'.serviceAccounts.get subject = some account' ∧ account'.active = false
  accepted : ∀ id invite, state.invitations.get id = some invite → invite.status = .accepted →
    ∃ invite', state'.invitations.get id = some invite' ∧ invite'.status = .accepted ∧
      invite'.tokenHash = invite.tokenHash
  operations : ∀ id operation, state.operations.get id = some operation →
    state'.operations.get id = some operation

theorem Later.refl (state : AuthorityState) : Later state state :=
  ⟨fun _ => le_rfl, fun _ => le_rfl, fun _ account hget hrevoked => ⟨account, hget, hrevoked⟩,
    fun _ invite hget haccepted => ⟨invite, hget, haccepted, rfl⟩, fun _ _ hget => hget⟩

theorem Later.trans {a b c : AuthorityState} (h : Later a b) (h' : Later b c) : Later a c := by
  refine ⟨fun subject => (h.members subject).trans (h'.members subject),
    fun subject => (h.accounts subject).trans (h'.accounts subject), ?_, ?_,
    fun id operation hget => h'.operations id operation (h.operations id operation hget)⟩
  · intro subject account hget hrevoked
    obtain ⟨account', hget', hrevoked'⟩ := h.revoked subject account hget hrevoked
    exact h'.revoked subject account' hget' hrevoked'
  · intro id invite hget haccepted
    obtain ⟨invite', hget', haccepted', hhash'⟩ := h.accepted id invite hget haccepted
    obtain ⟨invite'', hget'', haccepted'', hhash''⟩ := h'.accepted id invite' hget' haccepted'
    exact ⟨invite'', hget'', haccepted'', hhash''.trans hhash'⟩

section

variable {host : Host} {past : List AuthorityEvent} {state state' : AuthorityState} {call : Call}
  {answer : Answer}

theorem memberVersion_of_set {item : Member} (h : state'.members = state.members.set subject item)
    (subject' : String) :
    state'.memberVersion subject' = if subject' = subject then item.version else state.memberVersion subject' := by
  unfold AuthorityState.memberVersion
  rw [h, OrderedDict.get_set]
  split <;> rfl

theorem accountVersion_of_set {item : ServiceAccount}
    (h : state'.serviceAccounts = state.serviceAccounts.set subject item) (subject' : String) :
    state'.accountVersion subject' = if subject' = subject then item.version else state.accountVersion subject' := by
  unfold AuthorityState.accountVersion
  rw [h, OrderedDict.get_set]
  split <;> rfl

theorem Sound.account_free (h : Sound host past state) (hfresh : ∀ e ∈ past, DrawsApart e.call call)
    {drawn : Drawn} (hdrawn : call.request.drawn = some drawn) :
    state.serviceAccounts.get (serviceSubject drawn) = none := by
  cases hget : state.serviceAccounts.get (serviceSubject drawn) with
  | none => rfl
  | some account =>
    obtain ⟨e, he, r, drawn', hrequest, hsubject, -⟩ := h.accounts _ account hget
    have hdrawn' : e.call.request.drawn = some drawn' := by
      rw [hrequest]
      rfl
    exact absurd (serviceSubject_injective hsubject).symm (hfresh e he drawn' hdrawn' drawn hdrawn).1

/-- A new identifier has no invitation yet. -/
theorem Sound.invitation_free (h : Sound host past state) (hfresh : ∀ e ∈ past, DrawsApart e.call call)
    {drawn : Drawn} (hdrawn : call.request.drawn = some drawn) : state.invitations.get drawn.id = none := by
  cases hget : state.invitations.get drawn.id with
  | none => rfl
  | some invite =>
    obtain ⟨e, he, r, drawn', hrequest, -, hid, -⟩ := h.invitations _ invite hget
    have hdrawn' : e.call.request.drawn = some drawn' := by
      rw [hrequest]
      rfl
    exact absurd hid.symm (hfresh e he drawn' hdrawn' drawn hdrawn).1

theorem Change.member (h : Change host call state state' answer) (subject : String) :
    state'.members.get subject = state.members.get subject ∨
      state'.memberVersion subject = state.memberVersion subject + 1 := by
  cases h with
  | assigned r item answer hrequest hexpected hversion hroles hactive hkind htype =>
    rw [memberVersion_of_set rfl, OrderedDict.get_set]
    split
    next hsubject =>
      right
      rw [hversion, hsubject, hexpected]
    · exact .inl rfl
  | accepted r id invite item answer hrequest hget hhash honly hstatus hemail hexpires hfree hroles hactive
      hversion htype =>
    rw [memberVersion_of_set rfl, OrderedDict.get_set]
    split
    next hsubject =>
      right
      rw [hversion, hsubject, AuthorityState.memberVersion, hfree]
      rfl
    · exact .inl rfl
  | _ => exact .inl rfl

theorem Change.account (h : Change host call state state' answer) (hsound : Sound host past state)
    (hfresh : ∀ e ∈ past, DrawsApart e.call call) (subject : String) :
    state'.serviceAccounts.get subject = state.serviceAccounts.get subject ∨
      state'.accountVersion subject = state.accountVersion subject + 1 := by
  cases h with
  | created r drawn item operations answer hrequest hroles hactive hversion hhash hunkeyed hkeyed =>
    rw [accountVersion_of_set rfl, OrderedDict.get_set]
    split
    next hsubject =>
      have hdrawn : call.request.drawn = some drawn := by
        rw [hrequest]
        rfl
      right
      rw [hversion, hsubject, AuthorityState.accountVersion, hsound.account_free hfresh hdrawn]
      rfl
    · exact .inl rfl
  | revoked subject' expectedVersion item updated answer hrequest hget hexpected hwas hactive hhash hversion
      hroles =>
    rw [accountVersion_of_set rfl, OrderedDict.get_set]
    split
    next hsubject =>
      right
      rw [hversion, hsubject, AuthorityState.accountVersion, hget, ← hexpected]
      rfl
    · exact .inl rfl
  | _ => exact .inl rfl

theorem Change.standing (h : Change host call state state' answer)
    (hne : state'.standing subject ≠ state.standing subject) :
    (∃ r roles, call.request = .assignRoles r ∧ r.subject = subject ∧ validateRoles r.roles = .ok roles ∧
      state'.standing subject = some (roles, r.active)) ∨
    ∃ r, call.request = .acceptInvitation r ∧ r.subject = subject ∧ state.standing subject = none := by
  unfold AuthorityState.standing at hne ⊢
  cases h with
  | assigned r item answer hrequest hexpected hversion hroles hactive hkind htype =>
    rw [OrderedDict.get_set] at hne ⊢
    by_cases hsubject : subject = r.subject
    · left
      refine ⟨r, item.roles, hrequest, hsubject.symm, hroles, ?_⟩
      rw [if_pos hsubject, ← hactive]
      rfl
    · rw [if_neg hsubject] at hne
      exact absurd rfl hne
  | accepted r id invite item answer hrequest hget hhash honly hstatus hemail hexpires hfree hroles hactive
      hversion htype =>
    rw [OrderedDict.get_set] at hne
    by_cases hsubject : subject = r.subject
    · right
      refine ⟨r, hrequest, hsubject.symm, ?_⟩
      rw [hsubject, hfree]
      rfl
    · rw [if_neg hsubject] at hne
      exact absurd rfl hne
  | _ => exact absurd rfl hne

/-- A record that did not change has the version it had. -/
theorem le_of_same_or_next {v v' : ℤ} {same : Prop} (hsame : same → v' = v) (h : same ∨ v' = v + 1) : v ≤ v' := by
  rcases h with h | h
  · exact (hsame h).ge
  · omega

/-- No call takes back what the document grants. -/
theorem Change.later (h : Change host call state state' answer) (hsound : Sound host past state)
    (hfresh : ∀ e ∈ past, DrawsApart e.call call) : Later state state' := by
  refine ⟨fun subject => le_of_same_or_next (fun hsame => ?_) (h.member subject),
    fun subject => le_of_same_or_next (fun hsame => ?_) (h.account hsound hfresh subject), ?_, ?_, ?_⟩
  · exact congrArg (fun item => (item.map Member.version).getD 0) hsame
  · exact congrArg (fun item => (item.map ServiceAccount.version).getD 0) hsame
  · intro subject account hget hrevoked
    cases h with
    | created r drawn item operations answer hrequest hroles hactive hversion hhash hunkeyed hkeyed =>
      have hdrawn : call.request.drawn = some drawn := by
        rw [hrequest]
        rfl
      refine ⟨account, ?_, hrevoked⟩
      rw [OrderedDict.get_set]
      split
      next hsubject =>
        rw [hsubject, hsound.account_free hfresh hdrawn] at hget
        cases hget
      · exact hget
    | revoked subject' expectedVersion item updated answer hrequest hget' hexpected hwas hactive hhash hversion
        hroles =>
      rw [OrderedDict.get_set]
      split
      · exact ⟨updated, rfl, hactive⟩
      · exact ⟨account, hget, hrevoked⟩
    | _ => exact ⟨account, hget, hrevoked⟩
  · intro id invite hget haccepted
    cases h with
    | invited r drawn item answer hrequest hemail hroles hstatus hexpires hhash hnew =>
      have hdrawn : call.request.drawn = some drawn := by
        rw [hrequest]
        rfl
      refine ⟨invite, ?_, haccepted, rfl⟩
      rw [OrderedDict.get_set]
      split
      next hid =>
        rw [hid, hsound.invitation_free hfresh hdrawn] at hget
        cases hget
      · exact hget
    | accepted r id' invite' item answer hrequest hget' hhash honly hstatus hemail hexpires hfree hroles hactive
        hversion htype =>
      rw [OrderedDict.get_set]
      split
      next hid =>
        rw [hid, hget'] at hget
        cases hget
        exact ⟨_, rfl, rfl, rfl⟩
      · exact ⟨invite, hget, haccepted, rfl⟩
    | _ => exact ⟨invite, hget, haccepted, rfl⟩
  · intro id operation hget
    exact h.operations hget

end

/-! ### Whole runs -/

/-- What the authority promises of the calls it has served. -/
structure MembershipKept (host : Host) (events : List AuthorityEvent) : Prop where
  /-- A member changes by one version at a time. -/
  member_version : ∀ e ∈ events, ∀ subject,
    (readState e.after).members.get subject = (readState e.before).members.get subject ∨
      (readState e.after).memberVersion subject = (readState e.before).memberVersion subject + 1
  /-- A service account changes by one version at a time. -/
  account_version : ∀ e ∈ events, ∀ subject,
    (readState e.after).serviceAccounts.get subject = (readState e.before).serviceAccounts.get subject ∨
      (readState e.after).accountVersion subject = (readState e.before).accountVersion subject + 1
  /-- A call that succeeds changes the record it names, from the version it expects. -/
  assigned : ∀ e ∈ events, ∀ r, e.call.request = .assignRoles r → Succeeded e →
    (readState e.before).memberVersion r.subject = r.expectedVersion ∧
      (readState e.after).memberVersion r.subject = r.expectedVersion + 1
  revoked : ∀ e ∈ events, ∀ subject v, e.call.request = .revokeServiceAccount subject v → Succeeded e →
    (readState e.before).accountVersion subject = v ∧ (readState e.after).accountVersion subject = v + 1
  /-- Two calls that expect one version of a record never both succeed. -/
  assigned_once : events.Pairwise fun e e' => ∀ r r', e.call.request = .assignRoles r → Succeeded e →
    e'.call.request = .assignRoles r' → Succeeded e' → r.subject = r'.subject →
    r.expectedVersion ≠ r'.expectedVersion
  revoked_once : events.Pairwise fun e e' => ∀ subject v v', e.call.request = .revokeServiceAccount subject v →
    Succeeded e → e'.call.request = .revokeServiceAccount subject v' → Succeeded e' → v ≠ v'
  /-- Roles and flags change by an assignment, or a member is new and has accepted an invitation. -/
  standing : ∀ e ∈ events, ∀ subject,
    (readState e.after).standing subject ≠ (readState e.before).standing subject →
      (∃ r roles, e.call.request = .assignRoles r ∧ Succeeded e ∧ r.subject = subject ∧
        validateRoles r.roles = .ok roles ∧ (readState e.after).standing subject = some (roles, r.active)) ∨
      ∃ r, e.call.request = .acceptInvitation r ∧ Succeeded e ∧ r.subject = subject ∧
        (readState e.before).standing subject = none
  /-- An invitation is accepted with its token and e-mail, before it expires, and grants its roles. -/
  accepted : ∀ earlier e later, events = earlier ++ e :: later → ∀ r, e.call.request = .acceptInvitation r →
    Succeeded e → ∃ e₀ ∈ earlier, ∃ r₀ drawn roles, e₀.call.request = .createInvitation r₀ drawn ∧
      Succeeded e₀ ∧ r.token = drawn.token ∧ host.normalizeEmail r.email = host.normalizeEmail r₀.email ∧
      e.call.clock 0 < e₀.call.clock 0 + r₀.ttl ∧ validateRoles r₀.roles = .ok roles ∧
      (readState e.before).standing r.subject = none ∧
      (readState e.after).standing r.subject = some (roles, true)
  /-- A token is accepted once. -/
  accepted_once : events.Pairwise fun e e' => ∀ r r', e.call.request = .acceptInvitation r → Succeeded e →
    e'.call.request = .acceptInvitation r' → Succeeded e' → r.token ≠ r'.token
  /-- An e-mail has one pending invitation. -/
  pending : ∀ e ∈ events, ∀ id id' invite invite',
    (readState e.after).invitations.get id = some invite →
    (readState e.after).invitations.get id' = some invite' → invite.status = .pending →
    invite'.status = .pending → invite.email = invite'.email → id = id'
  /-- A key of an actor creates one service account. -/
  created_once : events.Pairwise fun e e' => ∀ r r' drawn drawn', e.call.request = .createServiceAccount r drawn →
    Succeeded e → e'.call.request = .createServiceAccount r' drawn' → Succeeded e' →
    r.actorSubject = r'.actorSubject → ∀ key, r.idempotencyKey = some key → r'.idempotencyKey ≠ some key
  /-- Who authenticates as a service account has the token given out with it. -/
  token_issued : ∀ earlier e later, events = earlier ++ e :: later → ∀ token subject name,
    authenticateServiceToken host token (readState e.before) = some (subject, name) →
    Issued earlier token subject
  /-- The token of a revoked account authenticates nobody, then and later. -/
  token_revoked : ∀ earlier e later, events = earlier ++ e :: later → ∀ subject v,
    e.call.request = .revokeServiceAccount subject v → Succeeded e → ∀ token, Issued earlier token subject →
    ∀ e' ∈ e :: later, authenticateServiceToken host token (readState e'.after) = none

section

variable {host : Host} {calls : List Call} {e : AuthorityEvent}

theorem keeps_sound : KeepsInv (step host) DrawsApart fun past stored => Sound host past (readState stored) :=
  fun past stored call h _ => sound_step past stored call h

theorem follows_later : Follows (step host) DrawsApart (fun past stored => Sound host past (readState stored))
    fun stored stored' => Later (readState stored) (readState stored') := by
  intro past stored call h hfresh
  rcases step_change host stored call with ⟨answer, -, hchange⟩ | ⟨hsame, -⟩
  · exact hchange.later h hfresh
  · rw [hsame]
    exact .refl _

theorem sound_of_split (hapart : calls.Pairwise DrawsApart) {earlier later : List AuthorityEvent}
    (h : authorityHistory host calls = earlier ++ e :: later) :
    Sound host earlier (readState e.before) ∧ Sound host (earlier ++ [e]) (readState e.after) ∧
      ∀ e' ∈ earlier, DrawsApart e'.call e.call :=
  history_split (fun past stored => Sound host past (readState stored)) keeps_sound (sound_none host)
    hapart h

theorem later_pairwise (hapart : calls.Pairwise DrawsApart) :
    (authorityHistory host calls).Pairwise fun e e' => Later (readState e.after) (readState e'.before) :=
  history_pairwise (fun past stored => Sound host past (readState stored)) _ keeps_sound (fun _ => .refl _)
    (fun h h' => h.trans h') follows_later (sound_none host) hapart

theorem sound_of_mem (hapart : calls.Pairwise DrawsApart) (he : e ∈ authorityHistory host calls) :
    ∃ past, Sound host past (readState e.before) ∧ Sound host (past ++ [e]) (readState e.after) ∧
      ∀ e' ∈ past, DrawsApart e'.call e.call := by
  obtain ⟨earlier, later, h⟩ := List.append_of_mem he
  exact ⟨earlier, sound_of_split hapart h⟩

/-! ### What the answered calls say -/

theorem assigned_of_mem (he : e ∈ authorityHistory host calls) {r : AssignRoles}
    (hrequest : e.call.request = .assignRoles r) (hok : Succeeded e) :
    (readState e.before).memberVersion r.subject = r.expectedVersion ∧
      (readState e.after).memberVersion r.subject = r.expectedVersion + 1 ∧
      ∃ roles, validateRoles r.roles = .ok roles ∧
        (readState e.after).standing r.subject = some (roles, r.active) := by
  obtain ⟨answer, hanswer⟩ := hok
  have hperform := perform_of_mem he hanswer
  rw [perform, hrequest] at hperform
  obtain ⟨⟨state', member⟩, hassign, heq⟩ := map_eq_ok.1 hperform
  obtain ⟨item, hstate, hexpected, hversion, hroles, hactive, -⟩ := assignRoles_eq_ok hassign
  have hafter : readState e.after = { readState e.before with
      members := (readState e.before).members.set r.subject item } :=
    (congrArg Prod.fst heq).symm.trans hstate
  refine ⟨hexpected, ?_, item.roles, hroles, ?_⟩
  · rw [memberVersion_of_set (congrArg AuthorityState.members hafter), if_pos rfl, hversion]
  · rw [hafter, AuthorityState.standing, OrderedDict.get_set, if_pos rfl, ← hactive]
    rfl

theorem revoked_of_mem (he : e ∈ authorityHistory host calls) {v : ℤ}
    (hrequest : e.call.request = .revokeServiceAccount subject v) (hok : Succeeded e) :
    (readState e.before).accountVersion subject = v ∧ (readState e.after).accountVersion subject = v + 1 ∧
      ∃ account, (readState e.after).serviceAccounts.get subject = some account ∧ account.active = false := by
  obtain ⟨answer, hanswer⟩ := hok
  have hperform := perform_of_mem he hanswer
  rw [perform, hrequest] at hperform
  obtain ⟨⟨state', account⟩, hrevoke, heq⟩ := map_eq_ok.1 hperform
  obtain ⟨item, updated, hstate, hget, hexpected, -, hactive, -, hversion, -⟩ := revokeServiceAccount_eq_ok hrevoke
  have hafter : readState e.after = { readState e.before with
      serviceAccounts := (readState e.before).serviceAccounts.set subject updated } :=
    (congrArg Prod.fst heq).symm.trans hstate
  refine ⟨?_, ?_, updated, ?_, hactive⟩
  · rw [AuthorityState.accountVersion, hget, ← hexpected]
    rfl
  · rw [accountVersion_of_set (congrArg AuthorityState.serviceAccounts hafter), if_pos rfl, hversion]
  · rw [hafter, OrderedDict.get_set, if_pos rfl]

theorem accepted_of_mem (he : e ∈ authorityHistory host calls) {r : AcceptInvitation}
    (hrequest : e.call.request = .acceptInvitation r) (hok : Succeeded e) :
    ∃ id invite, (readState e.before).invitations.get id = some invite ∧
      (readState e.after).invitations.get id = some { invite with status := .accepted } ∧
      invite.tokenHash = host.sha256 r.token ∧
      (∀ id' invite', (readState e.before).invitations.get id' = some invite' →
        invite'.tokenHash = host.sha256 r.token → invite' = invite) ∧
      invite.status = .pending ∧ invite.email = host.normalizeEmail r.email ∧
      e.call.clock 0 < invite.expiresAt ∧ (readState e.before).standing r.subject = none ∧
      (readState e.after).standing r.subject = some (invite.roles, true) := by
  obtain ⟨answer, hanswer⟩ := hok
  have hperform := perform_of_mem he hanswer
  rw [perform, hrequest] at hperform
  obtain ⟨⟨state', member⟩, haccept, heq⟩ := map_eq_ok.1 hperform
  obtain ⟨id, invite, item, hstate, hget, hhash, honly, hstatus, hemail, hexpires, hfree, hroles, hactive, -⟩ :=
    acceptInvitation_eq_ok haccept
  have hafter := (congrArg Prod.fst heq).symm.trans hstate
  refine ⟨id, invite, hget, ?_, hhash, honly, hstatus, hemail, hexpires, ?_, ?_⟩
  · rw [show readState e.after = _ from hafter, OrderedDict.get_set, if_pos rfl]
  · rw [AuthorityState.standing, hfree]
    rfl
  · rw [show readState e.after = _ from hafter, AuthorityState.standing, OrderedDict.get_set, if_pos rfl,
      ← hroles, ← hactive]
    rfl

theorem created_of_mem (he : e ∈ authorityHistory host calls) {r : CreateServiceAccount} {drawn : Drawn}
    (hrequest : e.call.request = .createServiceAccount r drawn) (hok : Succeeded e) {key : String}
    (hkey : r.idempotencyKey = some key) :
    (readState e.before).operations.get (host.accountOperation r.actorSubject key) = none ∧
      ∃ operation, (readState e.after).operations.get (host.accountOperation r.actorSubject key) =
        some operation := by
  obtain ⟨answer, hanswer⟩ := hok
  have hperform := perform_of_mem he hanswer
  rw [perform, hrequest] at hperform
  obtain ⟨⟨state', account⟩, hcreate, heq⟩ := map_eq_ok.1 hperform
  obtain ⟨item, operations, hstate, -, -, -, -, -, hkeyed⟩ := createServiceAccount_eq_ok hcreate
  obtain ⟨hfree, operation, hset⟩ := hkeyed key hkey
  have hafter : (readState e.after).operations = operations :=
    congrArg AuthorityState.operations ((congrArg Prod.fst heq).symm.trans hstate)
  refine ⟨hfree, operation, ?_⟩
  rw [hafter, hset, OrderedDict.get_set, if_pos rfl]

/-! ### The promises of a run -/

theorem DrawsApart.symm {c c' : Call} (h : DrawsApart c c') : DrawsApart c' c :=
  fun d hd d' hd' => ⟨(h d' hd' d hd).1.symm, (h d' hd' d hd).2.symm⟩

theorem issued_subject (hapart : calls.Pairwise DrawsApart) {events events' : List AuthorityEvent}
    (hsub : ∀ e ∈ events, e ∈ authorityHistory host calls) (hsub' : ∀ e ∈ events', e ∈ authorityHistory host calls)
    {token subject' : String} (h : Issued events token subject) (h' : Issued events' token subject') :
    subject = subject' := by
  obtain ⟨e₁, he₁, r₁, d₁, hrequest₁, rfl, rfl⟩ := h
  obtain ⟨e₂, he₂, r₂, d₂, hrequest₂, htoken, rfl⟩ := h'
  by_cases hsame : e₁ = e₂
  · rw [hsame, hrequest₂] at hrequest₁
    cases hrequest₁
    rfl
  · have hdraws : DrawsApart e₁.call e₂.call :=
      have hsymm : Std.Symm fun e e' : AuthorityEvent => DrawsApart e.call e'.call := ⟨fun _ _ h => h.symm⟩
      (history_apart hapart).forall (hsub e₁ he₁) (hsub' e₂ he₂) hsame
    have hd₁ : e₁.call.request.drawn = some d₁ := by
      rw [hrequest₁]
      rfl
    have hd₂ : e₂.call.request.drawn = some d₂ := by
      rw [hrequest₂]
      rfl
    exact absurd htoken.symm (hdraws d₁ hd₁ d₂ hd₂).2

theorem later_of_mem (hapart : calls.Pairwise DrawsApart) (he : e ∈ authorityHistory host calls) :
    Later (readState e.before) (readState e.after) := by
  obtain ⟨past, hsound, -, hfresh⟩ := sound_of_mem hapart he
  rw [after_of_mem he]
  exact follows_later past e.before e.call hsound hfresh

theorem token_revoked_of_mem (hapart : calls.Pairwise DrawsApart) {earlier later : List AuthorityEvent}
    (h : authorityHistory host calls = earlier ++ e :: later) {v : ℤ}
    (hrequest : e.call.request = .revokeServiceAccount subject v) (hok : Succeeded e) {token : String}
    (hissued : Issued earlier token subject) {e' : AuthorityEvent} (he' : e' ∈ e :: later) :
    authenticateServiceToken host token (readState e'.after) = none := by
  have hmem : ∀ x ∈ e :: later, x ∈ authorityHistory host calls := by
    intro x hx
    rw [h]
    exact List.mem_append_right _ hx
  have hmem' : ∀ x ∈ earlier, x ∈ authorityHistory host calls := by
    intro x hx
    rw [h]
    exact List.mem_append_left _ hx
  have hlater : Later (readState e.after) (readState e'.after) := by
    rcases List.mem_cons.1 he' with rfl | hin
    · exact .refl _
    · have hpairs : (authorityHistory host calls).Pairwise fun e e' =>
          Later (readState e.after) (readState e'.before) := later_pairwise hapart
      rw [h] at hpairs
      have hbefore := List.rel_of_pairwise_cons (List.pairwise_append.1 hpairs).2.1 hin
      exact hbefore.trans (later_of_mem hapart (hmem e' he'))
  obtain ⟨-, -, account, hget, hrevoked⟩ := revoked_of_mem (hmem e List.mem_cons_self) hrequest hok
  obtain ⟨account', hget', hrevoked'⟩ := hlater.revoked subject account hget hrevoked
  obtain ⟨past, later', hsplit⟩ := List.append_of_mem (hmem e' he')
  obtain ⟨-, hsound, -⟩ := sound_of_split hapart hsplit
  have hpast : ∀ x ∈ past ++ [e'], x ∈ authorityHistory host calls := by
    intro x hx
    rw [hsplit]
    simp only [List.mem_append, List.mem_cons] at hx ⊢
    tauto
  cases hauthenticates : authenticateServiceToken host token (readState e'.after) with
  | none => rfl
  | some found =>
    obtain ⟨subject', name⟩ := found
    obtain ⟨account'', hget'', hactive'', -⟩ := authenticate_eq_some hauthenticates
    have hsubject := issued_subject hapart hpast hmem' (hsound.issued hauthenticates) hissued
    rw [hsubject, hget'] at hget''
    cases hget''
    rw [hrevoked'] at hactive''
    cases hactive''

/-- Membership changes are neither lost nor replayed, in whatever order the calls are served. -/
theorem membership_kept (host : Host) (calls : List Call) (hapart : calls.Pairwise DrawsApart) :
    MembershipKept host (authorityHistory host calls) where
  member_version e he subject := by
    rcases change_of_mem he with ⟨answer, -, hchange⟩ | ⟨hsame, -⟩
    · exact hchange.member subject
    · rw [hsame]
      exact .inl rfl
  account_version e he subject := by
    obtain ⟨past, hsound, -, hfresh⟩ := sound_of_mem hapart he
    rcases change_of_mem he with ⟨answer, -, hchange⟩ | ⟨hsame, -⟩
    · exact hchange.account hsound hfresh subject
    · rw [hsame]
      exact .inl rfl
  assigned e he r hrequest hok := by
    obtain ⟨hbefore, hafter, -⟩ := assigned_of_mem he hrequest hok
    exact ⟨hbefore, hafter⟩
  revoked e he subject v hrequest hok := by
    obtain ⟨hbefore, hafter, -⟩ := revoked_of_mem he hrequest hok
    exact ⟨hbefore, hafter⟩
  assigned_once := by
    refine (later_pairwise hapart).imp_of_mem fun {e e'} he he' hlater r r' hr hok hr' hok' hsubject hsame => ?_
    obtain ⟨-, hafter, -⟩ := assigned_of_mem he hr hok
    obtain ⟨hbefore, -⟩ := assigned_of_mem he' hr' hok'
    have hle := hlater.members r.subject
    rw [hafter, hsubject, hbefore] at hle
    omega
  revoked_once := by
    refine (later_pairwise hapart).imp_of_mem fun {e e'} he he' hlater subject v v' hr hok hr' hok' hsame => ?_
    obtain ⟨-, hafter, -⟩ := revoked_of_mem he hr hok
    obtain ⟨hbefore, -⟩ := revoked_of_mem he' hr' hok'
    have hle := hlater.accounts subject
    rw [hafter, hbefore] at hle
    omega
  standing e he subject hne := by
    rcases change_of_mem he with ⟨answer, hanswer, hchange⟩ | ⟨hsame, -⟩
    · rcases hchange.standing hne with ⟨r, roles, hr, hrest⟩ | ⟨r, hr, hrest⟩
      · exact .inl ⟨r, roles, hr, ⟨answer, hanswer⟩, hrest⟩
      · exact .inr ⟨r, hr, ⟨answer, hanswer⟩, hrest⟩
    · rw [hsame] at hne
      exact absurd rfl hne
  accepted earlier e later h r hrequest hok := by
    have he : e ∈ authorityHistory host calls := by
      rw [h]
      exact List.mem_append_right _ List.mem_cons_self
    obtain ⟨hsound, -, -⟩ := sound_of_split hapart h
    obtain ⟨id, invite, hget, -, hhash, -, -, hemail, hexpires, hbefore, hafter⟩ := accepted_of_mem he hrequest hok
    obtain ⟨e₀, he₀, r₀, drawn, hr₀, hok₀, -, hhash₀, hemail₀, hroles₀, hexpires₀⟩ := hsound.invitations id invite hget
    refine ⟨e₀, he₀, r₀, drawn, invite.roles, hr₀, hok₀, ?_, ?_, ?_, hroles₀, hbefore, hafter⟩
    · exact host.sha256_injective (hhash.symm.trans hhash₀)
    · exact hemail.symm.trans hemail₀
    · exact hexpires₀ ▸ hexpires
  accepted_once := by
    refine (later_pairwise hapart).imp_of_mem fun {e e'} he he' hlater r r' hr hok hr' hok' htoken => ?_
    obtain ⟨id, invite, -, hget, hhash, -⟩ := accepted_of_mem he hr hok
    obtain ⟨id', invite', -, -, -, honly, hpending, -⟩ := accepted_of_mem he' hr' hok'
    obtain ⟨invite'', hget'', haccepted, hhash''⟩ := hlater.accepted id _ hget rfl
    -- the invitation the second call has matched is the accepted one
    have hsame := honly id invite'' hget'' (hhash''.trans (hhash.trans (by rw [htoken])))
    rw [hsame, hpending] at haccepted
    cases haccepted
  pending e he id id' invite invite' := by
    obtain ⟨past, -, hsound, -⟩ := sound_of_mem hapart he
    exact hsound.pending id id' invite invite'
  created_once := by
    refine (later_pairwise hapart).imp_of_mem fun {e e'} he he' hlater r r' drawn drawn' hr hok hr' hok' hactor
      key hkey hkey' => ?_
    obtain ⟨-, operation, hused⟩ := created_of_mem he hr hok hkey
    obtain ⟨hfree, -⟩ := created_of_mem he' hr' hok' hkey'
    rw [← hactor, hlater.operations _ operation hused] at hfree
    cases hfree
  token_issued earlier e later h token subject name hauthenticates :=
    (sound_of_split hapart h).1.issued hauthenticates
  token_revoked earlier e later h subject v hrequest hok token hissued e' he' :=
    token_revoked_of_mem hapart h hrequest hok hissued he'

end

/-- Two people use one invitation, two administrators change one member, a key is used twice, and an
account is revoked. -/
def onboarding : List Call :=
  [⟨fun _ => 0, .createInvitation ⟨"Ada@example.org", ["viewer"], "root", 100⟩ ⟨"i1", "t1"⟩⟩,
    ⟨fun _ => 5, .acceptInvitation ⟨"t1", "ada", "ada@Example.org", "user"⟩⟩,
    ⟨fun _ => 6, .acceptInvitation ⟨"t1", "eve", "ada@example.org", "user"⟩⟩,
    ⟨fun _ => 7, .assignRoles ⟨"ada", none, "user", ["operator"], 1, true⟩⟩,
    ⟨fun _ => 7, .assignRoles ⟨"ada", none, "user", ["admin"], 1, true⟩⟩,
    ⟨fun _ => 8, .createServiceAccount ⟨"ci", ["developer"], some "k", some "ada"⟩ ⟨"s1", "t2"⟩⟩,
    ⟨fun _ => 8, .createServiceAccount ⟨"ci", ["developer"], some "k", some "ada"⟩ ⟨"s2", "t3"⟩⟩,
    ⟨fun _ => 9, .revokeServiceAccount "phlo-service:s1" 1⟩]

theorem membership_kept_onboarding : onboarding.Pairwise DrawsApart ∧
    (authorityHistory plainHost onboarding).map (fun e => e.answer.isOk) =
      [true, true, false, true, false, true, false, true] ∧
    MembershipKept plainHost (authorityHistory plainHost onboarding) := by
  have hapart : onboarding.Pairwise DrawsApart := by decide
  have hanswers : (authorityHistory plainHost onboarding).map (fun e => e.answer.isOk) =
      [true, true, false, true, false, true, false, true] := by decide +kernel
  exact ⟨hapart, hanswers, membership_kept plainHost onboarding hapart⟩

end Phlo.Identity
