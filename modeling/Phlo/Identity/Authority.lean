import Phlo.Library.Fallible
import Phlo.Library.KeyedSort
import Phlo.Library.OrderedDict
import Phlo.RunEvidence.TextRedaction

/-!
# The identity authority

Members, invitations, service accounts and signatures are one document of the settings store.  An
operation is a callback of `mutate`, which runs it on the document while it holds the lock: the callback
either returns the new document or raises, and then nothing is stored.

Timestamps are microseconds.  A call reads the clock several times: `clock n` is what its reading number
`n` returns.  The identifiers and tokens that `secrets` draws come with the request (`Drawn`).

* `assignRoles_eq_ok`, …, `saveSignatureIdempotent_eq_ok` — what the document was and becomes when an
  operation succeeds;
* `step_error`, `step_ok` — what a call leaves in the store.
-/

namespace Phlo.Identity

open Phlo.Library
open Phlo.RunEvidence (strip)

/-! ### Signatures -/

inductive SignatureMeaning
  | approved
  | released
  | reviewed
  | acknowledged
  | authored
  deriving DecidableEq

structure SignatureRequest where
  signerSubject : String
  meaning : SignatureMeaning
  recordType : String
  recordId : String
  recordVersion : String
  action : String := ""
  justification : Option String := none
  deriving DecidableEq

/-- The fields `_canonical_payload` covers. -/
structure SignaturePayload where
  signatureId : String
  signerSubject : String
  meaning : SignatureMeaning
  recordType : String
  recordId : String
  recordVersion : String
  action : String
  justification : Option String
  signedAt : String
  authenticationAssurance : String
  deriving DecidableEq

structure SignatureRecord extends SignaturePayload where
  signatureHash : String
  deriving DecidableEq

/-- A signature as the document has it. -/
structure StoredSignature where
  record : SignatureRecord
  consumedAt : Option ℤ
  deriving DecidableEq

/-! ### The document -/

structure Member where
  email : Option String
  principalType : String
  roles : List String
  active : Bool
  version : ℤ
  createdAt : ℤ
  updatedAt : ℤ
  deriving DecidableEq

inductive InvitationStatus
  | pending
  | accepted
  deriving DecidableEq

structure Invitation where
  email : String
  roles : List String
  status : InvitationStatus
  invitedBy : String
  expiresAt : ℤ
  createdAt : ℤ
  tokenHash : String
  deriving DecidableEq

structure ServiceAccount where
  name : String
  roles : List String
  active : Bool
  version : ℤ
  createdAt : ℤ
  tokenHash : String
  deriving DecidableEq

/-- What an idempotency key was used for: `subject` or `signature_id` of the operation. -/
inductive OperationTarget
  | subject (subject : String)
  | signatureId (signatureId : String)
  deriving DecidableEq

structure Operation where
  requestDigest : String
  target : OperationTarget
  completedAt : ℤ
  deriving DecidableEq

structure AuthorityState where
  members : OrderedDict String Member
  invitations : OrderedDict String Invitation
  serviceAccounts : OrderedDict String ServiceAccount
  signatures : OrderedDict String StoredSignature
  operations : OrderedDict String Operation

/-- `_empty_state` -/
def emptyState : AuthorityState := ⟨.empty, .empty, .empty, .empty, .empty⟩

/-! ### What the operations are built from -/

/-- The digests, the keyed hash of the process and the case folding of the language. -/
structure Host where
  sha256 : String → String
  sha256_injective : Function.Injective sha256
  hmac : SignaturePayload → String
  casefold : String → String

/-- A process with digests that are their own text. -/
def plainHost : Host where
  sha256 s := "sha256:" ++ s
  sha256_injective _ _ h := (String.append_right_inj _).1 h
  hmac payload := "hmac:" ++ payload.signatureId
  casefold s := String.ofList (s.toList.map Char.toLower)

inductive IdentityError
  | value (message : String)
  | conflict (message : String)
  | corruption (message : String)
  | key (name : String)
  deriving DecidableEq

/-- `value.strip()` is not empty. -/
def notBlank (value : String) : Bool := !(strip value.toList).isEmpty

/-- `email.strip().casefold()` -/
def Host.normalizeEmail (host : Host) (email : String) : String :=
  host.casefold (String.ofList (strip email.toList))

def supportedRoles : List String := ["admin", "operator", "developer", "analyst", "viewer", "service"]

def validateRoles (roles : List String) : Except IdentityError (List String) := do
  let canonical := sortedSet roles
  require (canonical ≠ [] ∧ ∀ role ∈ canonical, role ∈ supportedRoles)
    (.value "One or more role names are invalid.")
  return canonical

/-- `has_valid_hash` -/
def Host.hasValidHash (host : Host) (record : SignatureRecord) : Bool :=
  record.signatureHash ≠ "" && host.hmac record.toSignaturePayload = record.signatureHash

/-- An identifier and a secret token drawn at random. -/
structure Drawn where
  id : String
  token : String
  deriving DecidableEq

structure IdentityMember extends Member where
  subject : String
  deriving DecidableEq

/-- `_member` -/
def Member.of (item : Member) (subject : String) : IdentityMember := ⟨item, subject⟩

structure IdentityInvitation where
  invitationId : String
  email : String
  roles : List String
  status : InvitationStatus
  invitedBy : String
  expiresAt : ℤ
  createdAt : ℤ
  deriving DecidableEq

/-- `_invitation` -/
def Invitation.of (item : Invitation) (identity : String) : IdentityInvitation :=
  ⟨identity, item.email, item.roles, item.status, item.invitedBy, item.expiresAt, item.createdAt⟩

structure IdentityServiceAccount where
  subject : String
  name : String
  roles : List String
  active : Bool
  version : ℤ
  createdAt : ℤ
  deriving DecidableEq

/-- `_service_account` -/
def ServiceAccount.of (item : ServiceAccount) (subject : String) : IdentityServiceAccount :=
  ⟨subject, item.name, item.roles, item.active, item.version, item.createdAt⟩

/-! ### Members and invitations -/

structure AssignRoles where
  subject : String
  email : Option String
  principalType : String
  roles : List String
  expectedVersion : ℤ
  active : Bool := true
  deriving DecidableEq

def assignRoles (host : Host) (clock : ℕ → ℤ) (r : AssignRoles) (state : AuthorityState) :
    Except IdentityError (AuthorityState × IdentityMember) := do
  require (notBlank r.subject ∧ r.principalType ∈ ["user", "service", "platform"])
    (.value "Identity subject or type is invalid.")
  let canonicalRoles ← validateRoles r.roles
  match state.members.get r.subject with
  | none =>
    require (r.expectedVersion = 0) (.conflict "Member is missing or has changed.")
    let item : Member :=
      { email := (r.email.filter (· ≠ "")).map host.normalizeEmail
        principalType := r.principalType
        roles := canonicalRoles
        active := r.active
        version := 1
        createdAt := clock 0
        updatedAt := clock 0 }
    return ({ state with members := state.members.set r.subject item }, item.of r.subject)
  | some existing =>
    require (existing.version = r.expectedVersion) (.conflict "Member is missing or has changed.")
    let item : Member :=
      { existing with
        -- an address given later is stored as it is
        email := (r.email.filter (· ≠ "")).or existing.email
        roles := canonicalRoles
        active := r.active
        version := r.expectedVersion + 1
        updatedAt := clock 0 }
    return ({ state with members := state.members.set r.subject item }, item.of r.subject)

structure CreateInvitation where
  email : String
  roles : List String
  invitedBy : String
  ttl : ℤ := 604800000000
  deriving DecidableEq

def createInvitation (host : Host) (clock : ℕ → ℤ) (r : CreateInvitation) (drawn : Drawn)
    (state : AuthorityState) : Except IdentityError (AuthorityState × IdentityInvitation × String) := do
  let normalizedEmail := host.normalizeEmail r.email
  require ('@' ∈ normalizedEmail.toList ∧ 0 < r.ttl) (.value "Invitation email or expiry is invalid.")
  let canonicalRoles ← validateRoles r.roles
  let item : Invitation :=
    { email := normalizedEmail
      roles := canonicalRoles
      status := .pending
      invitedBy := r.invitedBy
      expiresAt := clock 0 + r.ttl
      createdAt := clock 0
      tokenHash := host.sha256 drawn.token }
  require (¬ ∃ invite ∈ state.invitations.values, invite.email = normalizedEmail ∧ invite.status = .pending)
    (.conflict "A pending invitation already exists for this email.")
  return ({ state with invitations := state.invitations.set drawn.id item }, item.of drawn.id, drawn.token)

structure AcceptInvitation where
  token : String
  subject : String
  email : String
  principalType : String := "user"
  deriving DecidableEq

def acceptInvitation (host : Host) (clock : ℕ → ℤ) (r : AcceptInvitation) (state : AuthorityState) :
    Except IdentityError (AuthorityState × IdentityMember) := do
  require (r.principalType = "user" ∧ notBlank r.subject)
    (.value "Only an authenticated user can accept an invitation.")
  let normalizedEmail := host.normalizeEmail r.email
  let tokenHash := host.sha256 r.token
  match state.invitations.items.filter fun item => item.2.tokenHash = tokenHash with
  | [(invitationId, invite)] =>
    require (invite.status = .pending ∧ invite.email = normalizedEmail ∧ clock 0 < invite.expiresAt ∧
        (state.members.get r.subject).isNone)
      (.conflict "Invitation is invalid, expired, or already used.")
    let item : Member :=
      { email := some normalizedEmail
        principalType := r.principalType
        roles := invite.roles
        active := true
        version := 1
        createdAt := clock 1
        updatedAt := clock 1 }
    return ({ state with
        members := state.members.set r.subject item
        invitations := state.invitations.set invitationId { invite with status := .accepted } },
      item.of r.subject)
  | _ => throw (.conflict "Invitation is invalid or already used.")

/-! ### Service accounts -/

structure CreateServiceAccount where
  name : String
  roles : List String
  idempotencyKey : Option String := none
  actorSubject : Option String := none
  deriving DecidableEq

def serviceSubject (drawn : Drawn) : String := "phlo-service:" ++ drawn.id

/-- The id under which a use of an idempotency key is stored. -/
def Host.accountOperation (host : Host) (actorSubject : Option String) (key : String) : String :=
  host.sha256 (actorSubject.getD "None" ++ "\x00" ++ key)

def createServiceAccount (host : Host) (clock : ℕ → ℤ) (r : CreateServiceAccount) (drawn : Drawn)
    (state : AuthorityState) : Except IdentityError (AuthorityState × IdentityServiceAccount × String) := do
  require (notBlank r.name) (.value "Service-account name is required.")
  require (∀ key ∈ r.idempotencyKey, notBlank key ∧ r.actorSubject.getD "" ≠ "")
    (.value "An actor is required when using an idempotency key.")
  let canonicalRoles ← validateRoles r.roles
  let subject := serviceSubject drawn
  let normalizedName := String.ofList (strip r.name.toList)
  let requestDigest := host.sha256 (normalizedName ++ "\x00" ++ ",".intercalate canonicalRoles)
  let item : ServiceAccount :=
    { name := normalizedName
      roles := canonicalRoles
      active := true
      version := 1
      createdAt := clock 0
      tokenHash := host.sha256 drawn.token }
  let accounts := state.serviceAccounts.set subject item
  match r.idempotencyKey with
  | none => return ({ state with serviceAccounts := accounts }, item.of subject, drawn.token)
  | some key =>
    let operationId := host.accountOperation r.actorSubject key
    match state.operations.get operationId with
    | some prior =>
      require (prior.requestDigest = requestDigest)
        (.conflict "Idempotency key was already used for a different request.")
      throw (.conflict "Service account already exists; its one-time token is not replayed.")
    | none =>
      let operation : Operation := ⟨requestDigest, .subject subject, clock 1⟩
      return ({ state with
          serviceAccounts := accounts
          operations := state.operations.set operationId operation },
        item.of subject, drawn.token)

def authenticateServiceToken (host : Host) (token : String) (state : AuthorityState) : Option (String × String) :=
  (state.serviceAccounts.items.find? fun item =>
    item.2.active && item.2.tokenHash = host.sha256 token).map fun item => (item.1, item.2.name)

def revokeServiceAccount (subject : String) (expectedVersion : ℤ) (state : AuthorityState) :
    Except IdentityError (AuthorityState × IdentityServiceAccount) := do
  match state.serviceAccounts.get subject with
  | none => throw (.conflict "Service account is missing or has changed.")
  | some item =>
    require (item.version = expectedVersion ∧ item.active)
      (.conflict "Service account is missing or has changed.")
    let updated : ServiceAccount :=
      { item with
        active := false
        tokenHash := ""
        version := expectedVersion + 1 }
    return ({ state with serviceAccounts := state.serviceAccounts.set subject updated }, updated.of subject)

/-! ### Signatures of the document -/

structure SaveSignature where
  record : SignatureRecord
  idempotencyKey : Option String
  requestDigest : Option String
  deriving DecidableEq

/-- The id under which a use of a signer's idempotency key is stored. -/
def Host.signatureOperation (host : Host) (signer key : String) : String :=
  host.sha256 ("signature\x00" ++ signer ++ "\x00" ++ key)

def insertSignature (record : SignatureRecord) (state : AuthorityState) : Except IdentityError AuthorityState := do
  require (state.signatures.get record.signatureId).isNone (.conflict "Signature already exists.")
  return { state with signatures := state.signatures.set record.signatureId ⟨record, none⟩ }

def saveSignatureIdempotent (host : Host) (clock : ℕ → ℤ) (r : SaveSignature) (state : AuthorityState) :
    Except IdentityError (AuthorityState × SignatureRecord) := do
  require (r.record.action ≠ "" ∧ r.record.recordType ≠ "" ∧ r.record.recordId ≠ "" ∧
      r.record.recordVersion ≠ "" ∧ host.hasValidHash r.record)
    (.value "Signature is incomplete or invalid.")
  require (∀ key ∈ r.idempotencyKey, notBlank key ∧ r.requestDigest.getD "" ≠ "")
    (.value "A request digest is required when using an idempotency key.")
  match r.idempotencyKey with
  | none =>
    let saved ← insertSignature r.record state
    return (saved, r.record)
  | some key =>
    let operationId := host.signatureOperation r.record.signerSubject key
    match state.operations.get operationId with
    | some prior =>
      require (some prior.requestDigest = r.requestDigest)
        (.conflict "Idempotency key was already used for a different signature request.")
      match prior.target with
      | .subject _ => throw (.key "signature_id")
      | .signatureId signatureId =>
        match state.signatures.get signatureId with
        | none => throw (.corruption "Identity authority state is unavailable")
        | some stored => return (state, stored.record)
    | none =>
      let saved ← insertSignature r.record state
      let operation : Operation := ⟨r.requestDigest.getD "", .signatureId r.record.signatureId, clock 0⟩
      return ({ saved with operations := saved.operations.set operationId operation }, r.record)

/-- `save_signature` -/
def saveSignature (host : Host) (clock : ℕ → ℤ) (record : SignatureRecord) (state : AuthorityState) :
    Except IdentityError (AuthorityState × SignatureRecord) :=
  saveSignatureIdempotent host clock ⟨record, none, none⟩ state

structure ConsumeSignature where
  signatureId : String
  expected : SignatureRequest
  review : Option (String × SignatureRequest) := none
  deriving DecidableEq

/-- The stored signature is unused and says exactly what is asked for. -/
def Host.approves (host : Host) (item : StoredSignature) (intent : SignatureRequest) : Bool :=
  item.consumedAt = none && host.hasValidHash item.record &&
    item.record.authenticationAssurance = "mfa" && item.record.signerSubject = intent.signerSubject &&
    item.record.meaning = intent.meaning && item.record.action = intent.action &&
    item.record.recordType = intent.recordType && item.record.recordId = intent.recordId &&
    item.record.recordVersion = intent.recordVersion &&
    (intent.justification = none || item.record.justification = intent.justification)

/-- A review that may accompany the approval. -/
def AuthorityState.admitsReview (state : AuthorityState) (signatureId : String) (expected : SignatureRequest)
    (reviewId : String) (reviewer : SignatureRequest) : Bool :=
  reviewId ≠ signatureId && reviewer.signerSubject ≠ expected.signerSubject &&
    reviewer.meaning = .reviewed && expected.meaning = .approved && reviewer.action = expected.action &&
    reviewer.recordType = expected.recordType && reviewer.recordId = expected.recordId &&
    reviewer.recordVersion = expected.recordVersion &&
    (state.members.get reviewer.signerSubject).any fun member =>
      member.active && member.principalType = "user" &&
        (["admin", "operator"].any fun role => member.roles.contains role)

def ConsumeSignature.intents (r : ConsumeSignature) : List (String × SignatureRequest) :=
  (r.signatureId, r.expected) :: r.review.toList

/-- `state["signatures"][identifier]["consumed_at"] = _timestamp()` -/
def consumeAt (signatures : OrderedDict String StoredSignature) (identifier : String) (at_ : ℤ) :
    OrderedDict String StoredSignature :=
  match signatures.get identifier with
  | none => signatures
  | some item => signatures.set identifier { item with consumedAt := some at_ }

/-- The loop over the intents, `n` readings of the clock having been made. -/
def consumeAll (clock : ℕ → ℤ) : ℕ → List (String × SignatureRequest) →
    OrderedDict String StoredSignature → OrderedDict String StoredSignature
  | _, [], signatures => signatures
  | n, intent :: intents, signatures =>
    consumeAll clock (n + 1) intents (consumeAt signatures intent.1 (clock n))

def consumeSignature (host : Host) (clock : ℕ → ℤ) (r : ConsumeSignature) (state : AuthorityState) :
    AuthorityState × Bool :=
  if (r.review.all fun review => state.admitsReview r.signatureId r.expected review.1 review.2) &&
      r.intents.all fun intent => (state.signatures.get intent.1).any fun item => host.approves item intent.2
  then ({ state with signatures := consumeAll clock 0 r.intents state.signatures }, true)
  else (state, false)

/-! ### The shared document -/

inductive Request
  | assignRoles (r : AssignRoles)
  | createInvitation (r : CreateInvitation) (drawn : Drawn)
  | acceptInvitation (r : AcceptInvitation)
  | createServiceAccount (r : CreateServiceAccount) (drawn : Drawn)
  | revokeServiceAccount (subject : String) (expectedVersion : ℤ)
  | saveSignature (r : SaveSignature)
  | consumeSignature (r : ConsumeSignature)
  deriving DecidableEq

/-- A call of some client: what it asks for, and the readings of its clock. -/
structure Call where
  clock : ℕ → ℤ
  request : Request

inductive Answer
  | member (member : IdentityMember)
  | invitation (invitation : IdentityInvitation) (token : String)
  | account (account : IdentityServiceAccount) (token : String)
  | revoked (account : IdentityServiceAccount)
  | signature (record : SignatureRecord)
  | consumed (consumed : Bool)
  deriving DecidableEq

def perform (host : Host) (call : Call) (state : AuthorityState) : Except IdentityError (AuthorityState × Answer) :=
  match call.request with
  | .assignRoles r => (assignRoles host call.clock r state).map fun x => (x.1, .member x.2)
  | .createInvitation r drawn =>
    (createInvitation host call.clock r drawn state).map fun x => (x.1, .invitation x.2.1 x.2.2)
  | .acceptInvitation r => (acceptInvitation host call.clock r state).map fun x => (x.1, .member x.2)
  | .createServiceAccount r drawn =>
    (createServiceAccount host call.clock r drawn state).map fun x => (x.1, .account x.2.1 x.2.2)
  | .revokeServiceAccount subject expectedVersion =>
    (revokeServiceAccount subject expectedVersion state).map fun x => (x.1, .revoked x.2)
  | .saveSignature r => (saveSignatureIdempotent host call.clock r state).map fun x => (x.1, .signature x.2)
  | .consumeSignature r =>
    .ok ((consumeSignature host call.clock r state).1, .consumed (consumeSignature host call.clock r state).2)

/-- `_read`: a record that is absent is the empty document. -/
def readState (stored : Option AuthorityState) : AuthorityState := stored.getD emptyState

/-- `_mutate` -/
def mutate {α : Type} (mutation : AuthorityState → Except IdentityError (AuthorityState × α))
    (stored : Option AuthorityState) : Option AuthorityState × Except IdentityError α :=
  match mutation (readState stored) with
  | .error e => (stored, .error e)
  | .ok (state, a) => (some state, .ok a)

def step (host : Host) (stored : Option AuthorityState) (call : Call) :
    Option AuthorityState × Except IdentityError Answer :=
  mutate (perform host call) stored

/-! ### What the operations do -/

section

variable {host : Host} {clock : ℕ → ℤ} {state state' : AuthorityState}

def AuthorityState.memberVersion (state : AuthorityState) (subject : String) : ℤ :=
  ((state.members.get subject).map Member.version).getD 0

def AuthorityState.accountVersion (state : AuthorityState) (subject : String) : ℤ :=
  ((state.serviceAccounts.get subject).map ServiceAccount.version).getD 0

theorem assignRoles_eq_ok {r : AssignRoles} {member : IdentityMember}
    (h : assignRoles host clock r state = .ok (state', member)) :
    ∃ item : Member, state' = { state with members := state.members.set r.subject item } ∧
      state.memberVersion r.subject = r.expectedVersion ∧ item.version = r.expectedVersion + 1 ∧
      validateRoles r.roles = .ok item.roles ∧ item.active = r.active ∧
      r.principalType ∈ ["user", "service", "platform"] ∧
      item.principalType = ((state.members.get r.subject).map Member.principalType).getD r.principalType := by
  unfold assignRoles at h
  obtain ⟨_, hvalid, h⟩ := bind_eq_ok.1 h
  have htype := (require_eq_ok.1 hvalid).2
  obtain ⟨roles, hroles, h⟩ := bind_eq_ok.1 h
  unfold AuthorityState.memberVersion
  cases hget : state.members.get r.subject with
  | none =>
    rw [hget] at h
    obtain ⟨_, hversion, h⟩ := bind_eq_ok.1 h
    have hzero : r.expectedVersion = 0 := require_eq_ok.1 hversion
    cases h
    exact ⟨_, rfl, hzero.symm, by rw [hzero]; rfl, hroles, rfl, htype, rfl⟩
  | some existing =>
    rw [hget] at h
    obtain ⟨_, hversion, h⟩ := bind_eq_ok.1 h
    cases h
    exact ⟨_, rfl, require_eq_ok.1 hversion, rfl, hroles, rfl, htype, rfl⟩

theorem createInvitation_eq_ok {r : CreateInvitation} {drawn : Drawn}
    {answer : IdentityInvitation × String}
    (h : createInvitation host clock r drawn state = .ok (state', answer)) :
    ∃ item : Invitation, state' = { state with invitations := state.invitations.set drawn.id item } ∧
      item.email = host.normalizeEmail r.email ∧ validateRoles r.roles = .ok item.roles ∧
      item.status = .pending ∧ item.expiresAt = clock 0 + r.ttl ∧
      item.tokenHash = host.sha256 drawn.token ∧
      ∀ id invite, state.invitations.get id = some invite → invite.status = .pending →
        invite.email ≠ item.email := by
  unfold createInvitation at h
  obtain ⟨_, -, h⟩ := bind_eq_ok.1 h
  obtain ⟨roles, hroles, h⟩ := bind_eq_ok.1 h
  obtain ⟨_, hnew, h⟩ := bind_eq_ok.1 h
  have hnone := require_eq_ok.1 hnew
  cases h
  refine ⟨_, rfl, rfl, hroles, rfl, rfl, rfl, fun id invite hget hpending hemail => ?_⟩
  exact hnone ⟨invite, OrderedDict.mem_values.2 ⟨id, hget⟩, hemail, hpending⟩

theorem acceptInvitation_eq_ok {r : AcceptInvitation} {member : IdentityMember}
    (h : acceptInvitation host clock r state = .ok (state', member)) :
    ∃ (id : String) (invite : Invitation) (item : Member),
      state' = { state with
        members := state.members.set r.subject item
        invitations := state.invitations.set id { invite with status := .accepted } } ∧
      state.invitations.get id = some invite ∧ invite.tokenHash = host.sha256 r.token ∧
      (∀ id' invite', state.invitations.get id' = some invite' →
        invite'.tokenHash = host.sha256 r.token → invite' = invite) ∧
      invite.status = .pending ∧ invite.email = host.normalizeEmail r.email ∧ clock 0 < invite.expiresAt ∧
      state.members.get r.subject = none ∧ item.roles = invite.roles ∧ item.active = true ∧
      item.version = 1 ∧ item.principalType = "user" := by
  unfold acceptInvitation at h
  obtain ⟨_, hvalid, h⟩ := bind_eq_ok.1 h
  have huser := (require_eq_ok.1 hvalid).1
  dsimp only at h
  split at h
  next id invite hmatches =>
    obtain ⟨_, hlive, h⟩ := bind_eq_ok.1 h
    obtain ⟨hpending, hemail, hexpiry, hfree⟩ := require_eq_ok.1 hlive
    cases h
    have hmem : ∀ p, p ∈ state.invitations.items ∧ p.2.tokenHash = host.sha256 r.token ↔ p = (id, invite) := by
      intro p
      have hp : p ∈ state.invitations.items.filter (fun item => item.2.tokenHash = host.sha256 r.token) ↔
          p ∈ state.invitations.items ∧ decide (p.2.tokenHash = host.sha256 r.token) = true :=
        List.mem_filter
      rw [hmatches, List.mem_singleton, decide_eq_true_eq] at hp
      exact hp.symm
    obtain ⟨hin, hhash⟩ := (hmem _).2 rfl
    refine ⟨id, invite, _, rfl, OrderedDict.get_eq_some_iff.2 hin, hhash, ?_, hpending, hemail, hexpiry,
      Option.isNone_iff_eq_none.1 hfree, rfl, rfl, rfl, huser⟩
    intro id' invite' hget' hhash'
    exact congrArg Prod.snd ((hmem (id', invite')).1 ⟨OrderedDict.get_eq_some_iff.1 hget', hhash'⟩)
  · cases h

theorem createServiceAccount_eq_ok {r : CreateServiceAccount} {drawn : Drawn}
    {answer : IdentityServiceAccount × String}
    (h : createServiceAccount host clock r drawn state = .ok (state', answer)) :
    ∃ (item : ServiceAccount) (operations : OrderedDict String Operation),
      state' = { state with
        serviceAccounts := state.serviceAccounts.set (serviceSubject drawn) item
        operations := operations } ∧
      validateRoles r.roles = .ok item.roles ∧ item.active = true ∧ item.version = 1 ∧
      item.tokenHash = host.sha256 drawn.token ∧ (r.idempotencyKey = none → operations = state.operations) ∧
      ∀ key ∈ r.idempotencyKey, state.operations.get (host.accountOperation r.actorSubject key) = none ∧
        ∃ operation, operations =
          state.operations.set (host.accountOperation r.actorSubject key) operation := by
  unfold createServiceAccount at h
  obtain ⟨_, -, h⟩ := bind_eq_ok.1 h
  obtain ⟨_, -, h⟩ := bind_eq_ok.1 h
  obtain ⟨roles, hroles, h⟩ := bind_eq_ok.1 h
  dsimp only at h
  cases hkey : r.idempotencyKey with
  | none =>
    rw [hkey] at h
    cases h
    exact ⟨_, state.operations, rfl, hroles, rfl, rfl, rfl, fun _ => rfl, fun _ hmem => by cases hmem⟩
  | some key =>
    rw [hkey] at h
    dsimp only at h
    cases hprior : state.operations.get (host.accountOperation r.actorSubject key) with
    | some prior =>
      rw [hprior] at h
      obtain ⟨_, -, h⟩ := bind_eq_ok.1 h
      cases h
    | none =>
      rw [hprior] at h
      cases h
      refine ⟨_, _, rfl, hroles, rfl, rfl, rfl, (fun hnone => by cases hnone), fun key' hmem => ?_⟩
      cases hmem
      exact ⟨hprior, _, rfl⟩

theorem revokeServiceAccount_eq_ok {subject : String} {expectedVersion : ℤ}
    {account : IdentityServiceAccount}
    (h : revokeServiceAccount subject expectedVersion state = .ok (state', account)) :
    ∃ item updated : ServiceAccount,
      state' = { state with serviceAccounts := state.serviceAccounts.set subject updated } ∧
      state.serviceAccounts.get subject = some item ∧ item.version = expectedVersion ∧ item.active = true ∧
      updated.active = false ∧ updated.tokenHash = "" ∧ updated.version = expectedVersion + 1 ∧
      updated.roles = item.roles := by
  unfold revokeServiceAccount at h
  cases hget : state.serviceAccounts.get subject with
  | none =>
    rw [hget] at h
    cases h
  | some item =>
    rw [hget] at h
    obtain ⟨_, hguard, h⟩ := bind_eq_ok.1 h
    obtain ⟨hversion, hactive⟩ := require_eq_ok.1 hguard
    cases h
    exact ⟨item, _, rfl, rfl, hversion, hactive, rfl, rfl, rfl, rfl⟩

theorem insertSignature_eq_ok {record : SignatureRecord} :
    insertSignature record state = .ok state' ↔ state.signatures.get record.signatureId = none ∧
      state' = { state with signatures := state.signatures.set record.signatureId ⟨record, none⟩ } := by
  unfold insertSignature
  rw [bind_eq_ok]
  constructor
  · intro h
    obtain ⟨_, hnew, h⟩ := h
    cases h
    exact ⟨Option.isNone_iff_eq_none.1 (require_eq_ok.1 hnew), rfl⟩
  · intro h
    obtain ⟨hnew, rfl⟩ := h
    exact ⟨(), require_eq_ok.2 (Option.isNone_iff_eq_none.2 hnew), rfl⟩

theorem saveSignatureIdempotent_eq_ok {r : SaveSignature} {record : SignatureRecord}
    (h : saveSignatureIdempotent host clock r state = .ok (state', record)) :
    (state' = state ∧ ∃ key operation signatureId stored, r.idempotencyKey = some key ∧
      state.operations.get (host.signatureOperation r.record.signerSubject key) = some operation ∧
      operation.target = .signatureId signatureId ∧ state.signatures.get signatureId = some stored ∧
      record = stored.record) ∨
    (record = r.record ∧ state.signatures.get r.record.signatureId = none ∧
      ∃ operations, state' = { state with
          signatures := state.signatures.set r.record.signatureId ⟨r.record, none⟩
          operations := operations } ∧
        (r.idempotencyKey = none → operations = state.operations) ∧
        ∀ key ∈ r.idempotencyKey,
          state.operations.get (host.signatureOperation r.record.signerSubject key) = none ∧
          ∃ digest at_, operations = state.operations.set (host.signatureOperation r.record.signerSubject key)
            ⟨digest, .signatureId r.record.signatureId, at_⟩) := by
  unfold saveSignatureIdempotent at h
  obtain ⟨_, -, h⟩ := bind_eq_ok.1 h
  obtain ⟨_, -, h⟩ := bind_eq_ok.1 h
  cases hkey : r.idempotencyKey with
  | none =>
    rw [hkey] at h
    obtain ⟨saved, hsaved, h⟩ := bind_eq_ok.1 h
    obtain ⟨hnew, rfl⟩ := insertSignature_eq_ok.1 hsaved
    cases h
    exact .inr ⟨rfl, hnew, state.operations, rfl, fun _ => rfl, fun _ hmem => by cases hmem⟩
  | some key =>
    rw [hkey] at h
    dsimp only at h
    cases hprior : state.operations.get (host.signatureOperation r.record.signerSubject key) with
    | some prior =>
      rw [hprior] at h
      obtain ⟨_, -, h⟩ := bind_eq_ok.1 h
      cases htarget : prior.target with
      | subject subject =>
        rw [htarget] at h
        cases h
      | signatureId signatureId =>
        rw [htarget] at h
        dsimp only at h
        cases hstored : state.signatures.get signatureId with
        | none =>
          rw [hstored] at h
          cases h
        | some stored =>
          rw [hstored] at h
          cases h
          exact .inl ⟨rfl, key, prior, signatureId, stored, rfl, hprior, htarget, hstored, rfl⟩
    | none =>
      rw [hprior] at h
      obtain ⟨saved, hsaved, h⟩ := bind_eq_ok.1 h
      obtain ⟨hnew, rfl⟩ := insertSignature_eq_ok.1 hsaved
      cases h
      refine .inr ⟨rfl, hnew, _, rfl, (fun hnone => by cases hnone), fun key' hmem => ?_⟩
      cases hmem
      exact ⟨hprior, _, _, rfl⟩

/-! ### What a call leaves in the store -/

variable {stored : Option AuthorityState} {call : Call}

theorem step_error {e : IdentityError} (h : perform host call (readState stored) = .error e) :
    step host stored call = (stored, .error e) := by
  unfold step mutate
  rw [h]

theorem step_ok {answer : Answer} (h : perform host call (readState stored) = .ok (state', answer)) :
    step host stored call = (some state', .ok answer) := by
  unfold step mutate
  rw [h]

theorem perform_of_step_ok {answer : Answer} (h : (step host stored call).2 = .ok answer) :
    perform host call (readState stored) = .ok (readState (step host stored call).1, answer) := by
  cases hperform : perform host call (readState stored) with
  | error e =>
    rw [step_error hperform] at h
    cases h
  | ok x =>
    rw [step_ok hperform] at h ⊢
    cases h
    rfl

end

end Phlo.Identity
