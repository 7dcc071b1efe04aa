import Phlo.Library.Transition
import Phlo.Identity.Changes

/-!
# From an authenticated caller to a principal

`canonicalize` gives a caller the roles of the identity authority, when the authority manages the subject,
and otherwise those of the groups and of the canonical model.
-/

namespace Phlo.Identity

open Phlo.Library

/-! ### The role hierarchy -/

/-- The part of the canonical model that assigns roles: what each role inherits, and the roles of the
subjects. -/
structure RolesConfig where
  roles : OrderedDict String (List String)
  services : OrderedDict String (List String)
  users : OrderedDict String (List String)

inductive HierarchyError
  /-- `Unknown role: <name>` -/
  | unknown (name : String)
  /-- `Cycle detected in role hierarchy: <path> -> <name>` -/
  | cycle (path : List String) (name : String)
  /-- `Role '<name>' referenced in hierarchy does not exist` -/
  | missing (name : String)
  /-- the walk would not have ended -/
  | unending
  deriving DecidableEq

/-- `_expand`: the roles a role adds to those expanded before, and all that are expanded then. -/
def expand (roles : OrderedDict String (List String)) :
    ℕ → List String → List String → String → Except HierarchyError (List String × List String)
  | 0, _, _, _ => .error .unending
  | fuel + 1, path, expanded, name =>
    if name ∈ path then .error (.cycle path name)
    else if name ∈ expanded then .ok ([], expanded)
    else match roles.get name with
      | none => .error (.missing name)
      | some inherits =>
        inherits.foldlM (fun acc parent =>
          (expand roles fuel (path ++ [name]) acc.2 parent).map fun more => (acc.1 ++ more.1, more.2))
          ([name], name :: expanded)

def RolesConfig.expandRoleHierarchy (config : RolesConfig) (roleName : String) :
    Except HierarchyError (List String) := do
  require (config.roles.get roleName).isSome (.unknown roleName)
  let (result, _) ← expand config.roles (config.roles.items.length + 1) [] [] roleName
  return result

def RolesConfig.effectiveRolesForSubject (config : RolesConfig) (subject principalType : String) :
    Except HierarchyError (List String) :=
  -- platform principals share the assignments of the services
  let assignments := if principalType ∈ ["service", "platform"] then config.services else config.users
  ((assignments.get subject).getD []).foldlM (fun effective roleName =>
    (config.expandRoleHierarchy roleName).map fun more => effective ++ more) []

/-! ### The bridge -/

/-- A caller, as the authentication found it. -/
structure AuthPrincipal where
  subject : String
  principalType : String
  issuer : Option String := none
  groups : List String := []
  attributes : OrderedDict String String := .empty

structure Principal where
  subject : String
  principalType : String
  roles : List String
  attributes : OrderedDict String String

def defaultGroupRoleMapping : OrderedDict String String :=
  .ofList [("admin", "admin"), ("operators", "operator"), ("developers", "developer"),
    ("analysts", "analyst"), ("viewers", "viewer")]

def approvedPrincipalTypes : List String := ["user", "service", "platform"]

structure IdentityBridgeConfig where
  groupRoleMapping : OrderedDict String String := defaultGroupRoleMapping
  enforceApprovedPrincipalTypes : Bool := false
  propagateIdpGroups : Bool := true
  authenticationSourceClaim : String := "authentication_source"
  canonicalRbac : Option RolesConfig := none

inductive BridgeError
  /-- `Principal type '<type>' is not approved for regulated mode.` -/
  | notApproved (principalType : String)
  | hierarchy (e : HierarchyError)

/-- `managed_roles`: the roles assigned, none for disabled users, or `None`. -/
def managedRoles (state : AuthorityState) (subject principalType : String) : Option (List String) :=
  match state.members.get subject with
  | none =>
    match state.serviceAccounts.get subject with
    | none => none
    | some account => if account.active then some account.roles else none
  | some member =>
    if member.principalType ≠ principalType ∨ member.active = false then some [] else some member.roles

/-- `_managed_roles_for` -/
def managedRolesFor (enabled : Bool) (stored : Option AuthorityState) (p : AuthPrincipal) : Option (List String) :=
  if enabled then managedRoles (readState stored) p.subject p.principalType else none

/-- `_map_groups_to_roles` -/
def mapGroupsToRoles (config : IdentityBridgeConfig) (groups : List String) : List String :=
  groups.foldl (fun roles group =>
    match config.groupRoleMapping.get group with
    | none => roles
    | some role => if role ∈ roles then roles else roles ++ [role]) []

def applyPrincipalTypeRoles (principalType : String) (existing : List String) : List String :=
  if principalType = "service" ∧ "service" ∉ existing then existing ++ ["service"] else existing

def unmanagedRoles (config : IdentityBridgeConfig) (p : AuthPrincipal) : Except HierarchyError (List String) :=
  match config.canonicalRbac with
  | none => .ok (mapGroupsToRoles config p.groups)
  | some rbac =>
    (rbac.effectiveRolesForSubject p.subject p.principalType).map fun effective =>
      mapGroupsToRoles config p.groups ++ effective

/-- The roles before the defaults of the principal type: an assignment of the authority replaces those of
the groups and of the canonical model. -/
def callerRoles (config : IdentityBridgeConfig) (enabled : Bool) (stored : Option AuthorityState)
    (p : AuthPrincipal) : Except BridgeError (List String) :=
  match managedRolesFor enabled stored p with
  | none => (unmanagedRoles config p).mapError .hierarchy
  | some roles => .ok roles

def principalAttributes (config : IdentityBridgeConfig) (p : AuthPrincipal) : OrderedDict String String :=
  let attributes := if config.propagateIdpGroups
    then p.attributes.set "idp_groups" (",".intercalate p.groups) else p.attributes
  let source := ((attributes.get config.authenticationSourceClaim).filter (· ≠ "")).or
    (p.issuer.filter (· ≠ ""))
  attributes.set "authentication_source" (source.getD "unknown")

def canonicalize (config : IdentityBridgeConfig) (enabled : Bool) (stored : Option AuthorityState)
    (p : AuthPrincipal) : Except BridgeError Principal := do
  require (config.enforceApprovedPrincipalTypes = true → p.principalType ∈ approvedPrincipalTypes)
    (.notApproved p.principalType)
  let roles ← callerRoles config enabled stored p
  return {
    subject := p.subject
    principalType := p.principalType
    roles := applyPrincipalTypeRoles p.principalType (sortedSet roles)
    attributes := principalAttributes config p }

/-! ### What revocation should mean -/

/-- The authority has disabled the subject: its member of this type, or its service account. -/
def DisabledAs (state : AuthorityState) (subject principalType : String) : Prop :=
  (∃ member, state.members.get subject = some member ∧ member.principalType = principalType ∧
    member.active = false) ∨
  (principalType = "service" ∧ ∃ account, state.serviceAccounts.get subject = some account ∧
    account.active = false)

/-- The roles assigned to an active subject; those of a member go before those of a service account. -/
def AssignedAs (state : AuthorityState) (subject principalType : String) (roles : List String) : Prop :=
  ¬ DisabledAs state subject principalType ∧
  ((∃ member, state.members.get subject = some member ∧ member.principalType = principalType ∧
      roles = member.roles) ∨
    (principalType = "service" ∧
      (∀ member, state.members.get subject = some member → member.principalType ≠ principalType) ∧
      ∃ account, state.serviceAccounts.get subject = some account ∧ roles = account.roles))

/-- A disabled subject has no role, an active one exactly its own and, for a service, `service`. -/
def RevocationEffective (config : IdentityBridgeConfig) (stored : Option AuthorityState) (p : AuthPrincipal) : Prop :=
  (DisabledAs (readState stored) p.subject p.principalType →
    ∀ principal, canonicalize config true stored p = .ok principal → principal.roles = []) ∧
  ∀ roles, AssignedAs (readState stored) p.subject p.principalType roles →
    ∃ principal, canonicalize config true stored p = .ok principal ∧
      ∀ role, role ∈ principal.roles ↔ role ∈ roles ∨ (p.principalType = "service" ∧ role = "service")

/-! ### Documents of the authority -/

def ApprovedTypes (stored : Option AuthorityState) : Prop :=
  ∀ subject member, (readState stored).members.get subject = some member →
    member.principalType ∈ approvedPrincipalTypes

variable {state : AuthorityState}

theorem Change.approvedTypes {host : Host} {call : Call} {state' : AuthorityState} {answer : Answer}
    (h : Change host call state state' answer) (happroved : ApprovedTypes (some state)) :
    ApprovedTypes (some state') := by
  intro subject member hget
  cases h with
  | assigned r item answer hrequest hexpected hversion hroles hactive hkind htype =>
    change (state.members.set r.subject item).get subject = some member at hget
    rw [OrderedDict.get_set] at hget
    split at hget
    next hsubject =>
      cases hget
      rw [htype]
      cases hold : state.members.get r.subject with
      | none => exact hkind
      | some existing => exact happroved r.subject existing hold
    · exact happroved subject member hget
  | accepted r id invite item answer hrequest hget' hhash honly hstatus hemail hexpires hfree hroles hactive
      hversion htype =>
    change (state.members.set r.subject item).get subject = some member at hget
    rw [OrderedDict.get_set] at hget
    split at hget
    · cases hget
      rw [htype]
      exact List.mem_cons_self
    · exact happroved subject member hget
  | _ => exact happroved subject member hget

def storedAfter (host : Host) (calls : List Call) : Option AuthorityState :=
  finish (fun stored call => (step host stored call).1) none calls

theorem approvedTypes_storedAfter (host : Host) (calls : List Call) : ApprovedTypes (storedAfter host calls) := by
  have hreach : Reachable (fun stored call => (step host stored call).1) none (storedAfter host calls) :=
    Reachable.init.finish calls
  refine hreach.invariant (fun _ _ h => by cases h) fun stored call happroved => ?_
  rcases step_change host stored call with ⟨answer, -, hchange⟩ | ⟨hsame, -⟩
  · exact hchange.approvedTypes happroved
  · show ApprovedTypes (step host stored call).1
    rw [hsame]
    exact happroved

/-! ### What the bridge gives -/

section

variable {config : IdentityBridgeConfig} {stored : Option AuthorityState} {p : AuthPrincipal}
  {roles : List String} {principal : Principal}

theorem mem_applyPrincipalTypeRoles {principalType role : String} {existing : List String} :
    role ∈ applyPrincipalTypeRoles principalType existing ↔
      role ∈ existing ∨ (principalType = "service" ∧ role = "service") := by
  unfold applyPrincipalTypeRoles
  split
  next h =>
    rw [List.mem_append, List.mem_singleton]
    simp [h.1]
  next h =>
    constructor
    · exact Or.inl
    · rintro (h' | ⟨hservice, rfl⟩)
      · exact h'
      · by_contra hnot
        exact h ⟨hservice, hnot⟩

theorem canonicalize_of_managed (config : IdentityBridgeConfig) (happroved : p.principalType ∈ approvedPrincipalTypes)
    (hmanaged : managedRoles (readState stored) p.subject p.principalType = some roles) :
    ∃ principal, canonicalize config true stored p = .ok principal ∧
      principal.roles = applyPrincipalTypeRoles p.principalType (sortedSet roles) := by
  have hrequire : (require (config.enforceApprovedPrincipalTypes = true →
      p.principalType ∈ approvedPrincipalTypes) (BridgeError.notApproved p.principalType)) = .ok () :=
    require_eq_ok.2 fun _ => happroved
  unfold canonicalize
  rw [hrequire, callerRoles, managedRolesFor, if_pos rfl, hmanaged]
  exact ⟨_, rfl, rfl⟩

/-- The roles of a principal are those of its caller, and `service` for a service. -/
theorem roles_of_canonicalize (h : canonicalize config true stored p = .ok principal) :
    ∃ roles, principal.roles = applyPrincipalTypeRoles p.principalType (sortedSet roles) ∧
      (managedRoles (readState stored) p.subject p.principalType = some roles ∨
        managedRoles (readState stored) p.subject p.principalType = none ∧ unmanagedRoles config p = .ok roles) := by
  unfold canonicalize at h
  obtain ⟨_, -, h⟩ := bind_eq_ok.1 h
  obtain ⟨roles, hroles, h⟩ := bind_eq_ok.1 h
  cases h
  refine ⟨roles, rfl, ?_⟩
  rw [callerRoles, managedRolesFor, if_pos rfl] at hroles
  cases hmanaged : managedRoles (readState stored) p.subject p.principalType with
  | none =>
    rw [hmanaged] at hroles
    exact .inr ⟨rfl, mapError_eq_ok.1 hroles⟩
  | some managed =>
    rw [hmanaged] at hroles
    cases hroles
    exact .inl rfl

theorem service_mem_of_canonicalize (hservice : p.principalType = "service")
    (h : canonicalize config true stored p = .ok principal) : "service" ∈ principal.roles := by
  obtain ⟨roles, hroles, -⟩ := roles_of_canonicalize h
  rw [hroles]
  exact mem_applyPrincipalTypeRoles.2 (.inr ⟨hservice, rfl⟩)

theorem granted_iff {managed : List String} (happroved : p.principalType ∈ approvedPrincipalTypes)
    (hmanaged : managedRoles (readState stored) p.subject p.principalType = some managed) :
    (∃ principal, canonicalize config true stored p = .ok principal ∧
      ∀ role, role ∈ principal.roles ↔ role ∈ roles ∨ (p.principalType = "service" ∧ role = "service")) ↔
    ∀ role, (role ∈ managed ∨ (p.principalType = "service" ∧ role = "service")) ↔
      role ∈ roles ∨ (p.principalType = "service" ∧ role = "service") := by
  obtain ⟨granted, hok, hroles⟩ := canonicalize_of_managed config happroved hmanaged
  have hmem : ∀ role, role ∈ granted.roles ↔
      role ∈ managed ∨ (p.principalType = "service" ∧ role = "service") := by
    intro role
    rw [hroles, mem_applyPrincipalTypeRoles, mem_sortedSet]
  constructor
  · rintro ⟨principal, hok', hexact⟩ role
    rw [hok] at hok'
    cases hok'
    rw [← hmem, hexact]
  · intro hsame
    exact ⟨granted, hok, fun role => (hmem role).trans (hsame role)⟩

variable {subject : String}

theorem managedRoles_of_member {member : Member} (principalType : String)
    (hget : state.members.get subject = some member) : managedRoles state subject principalType =
      some (if member.principalType ≠ principalType ∨ member.active = false then [] else member.roles) := by
  unfold managedRoles
  rw [hget]
  dsimp only
  split <;> rfl

theorem managedRoles_of_account {account : ServiceAccount} (principalType : String)
    (hnone : state.members.get subject = none) (hget : state.serviceAccounts.get subject = some account) :
    managedRoles state subject principalType = if account.active then some account.roles else none := by
  unfold managedRoles
  rw [hnone, hget]

theorem managedRoles_of_assigned {principalType : String} {member : Member}
    (hdisabled : ¬ DisabledAs state subject principalType) (hget : state.members.get subject = some member)
    (htype : member.principalType = principalType) : managedRoles state subject principalType = some member.roles := by
  have hactive : member.active ≠ false := fun hfalse => hdisabled (.inl ⟨member, hget, htype, hfalse⟩)
  rw [managedRoles_of_member principalType hget, if_neg]
  rintro (hne | hfalse)
  · exact hne htype
  · exact hactive hfalse

theorem revocationEffective_of_ne_service (happroved : ApprovedTypes stored)
    (hservice : p.principalType ≠ "service") : RevocationEffective config stored p := by
  constructor
  · rintro (⟨member, hget, -, hinactive⟩ | ⟨h, -⟩) principal hok
    · have hmanaged := managedRoles_of_member p.principalType hget
      rw [if_pos (Or.inr hinactive)] at hmanaged
      obtain ⟨roles, hroles, hcase⟩ := roles_of_canonicalize hok
      rw [hmanaged] at hcase
      rcases hcase with hsome | ⟨hnone, -⟩
      · cases hsome
        rw [hroles, applyPrincipalTypeRoles, if_neg fun h => hservice h.1, sortedSet_eq_nil]
      · cases hnone
    · exact absurd h hservice
  · rintro roles ⟨hdisabled, ⟨member, hget, htype, rfl⟩ | ⟨h, -⟩⟩
    · exact (granted_iff (htype ▸ happroved p.subject member hget)
        (managedRoles_of_assigned hdisabled hget htype)).2 fun _ => Iff.rfl
    · exact absurd h hservice

/-- A service that is disabled has no role only when it has no principal at all. -/
theorem revocationEffective_iff_of_disabled (hservice : p.principalType = "service")
    (hdisabled : DisabledAs (readState stored) p.subject p.principalType) :
    RevocationEffective config stored p ↔ (readState stored).members.get p.subject = none ∧
      ∃ rbac e, config.canonicalRbac = some rbac ∧
        rbac.effectiveRolesForSubject p.subject p.principalType = .error e := by
  have happroved : p.principalType ∈ approvedPrincipalTypes := by
    rw [hservice]
    decide
  constructor
  · intro heffective
    have hnever : ∀ principal, canonicalize config true stored p ≠ .ok principal := by
      intro principal hok
      have hmem := service_mem_of_canonicalize hservice hok
      rw [heffective.1 hdisabled principal hok] at hmem
      cases hmem
    have hunmanaged : managedRoles (readState stored) p.subject p.principalType = none := by
      cases hmanaged : managedRoles (readState stored) p.subject p.principalType with
      | none => rfl
      | some roles =>
        obtain ⟨principal, hok, -⟩ := canonicalize_of_managed config happroved hmanaged
        exact absurd hok (hnever principal)
    refine ⟨?_, ?_⟩
    · cases hget : (readState stored).members.get p.subject with
      | none => rfl
      | some member =>
        rw [managedRoles_of_member _ hget] at hunmanaged
        cases hunmanaged
    · cases hroles : unmanagedRoles config p with
      | ok roles =>
        refine absurd ?_ (hnever ⟨p.subject, p.principalType,
          applyPrincipalTypeRoles p.principalType (sortedSet roles), principalAttributes config p⟩)
        have hrequire : (require (config.enforceApprovedPrincipalTypes = true →
            p.principalType ∈ approvedPrincipalTypes) (BridgeError.notApproved p.principalType)) = .ok () :=
          require_eq_ok.2 fun _ => happroved
        unfold canonicalize
        rw [hrequire, callerRoles, managedRolesFor, if_pos rfl, hunmanaged]
        dsimp only
        rw [hroles]
        rfl
      | error e =>
        unfold unmanagedRoles at hroles
        cases hrbac : config.canonicalRbac with
        | none =>
          rw [hrbac] at hroles
          cases hroles
        | some rbac =>
          rw [hrbac] at hroles
          dsimp only at hroles
          refine ⟨rbac, e, rfl, ?_⟩
          cases heffective : rbac.effectiveRolesForSubject p.subject p.principalType with
          | ok effective =>
            rw [heffective] at hroles
            cases hroles
          | error e' =>
            rw [heffective] at hroles
            cases hroles
            rfl
  · rintro ⟨hnone, rbac, e, hrbac, herror⟩
    refine ⟨fun _ principal hok => ?_, fun roles hassigned => absurd hdisabled hassigned.1⟩
    obtain ⟨roles, -, hcase⟩ := roles_of_canonicalize hok
    rcases hdisabled with ⟨member, hget, -⟩ | ⟨-, account, hget, hinactive⟩
    · rw [hnone] at hget
      cases hget
    · rw [managedRoles_of_account _ hnone hget, hinactive] at hcase
      rcases hcase with hsome | ⟨-, hunmanaged⟩
      · cases hsome
      · unfold unmanagedRoles at hunmanaged
        rw [hrbac] at hunmanaged
        dsimp only at hunmanaged
        rw [herror] at hunmanaged
        cases hunmanaged

/-- An active service has its own roles unless a member of another type stands before its account. -/
theorem revocationEffective_iff_of_active (hservice : p.principalType = "service")
    (hdisabled : ¬ DisabledAs (readState stored) p.subject p.principalType) :
    RevocationEffective config stored p ↔ ∀ member account,
      (readState stored).members.get p.subject = some member → member.principalType ≠ "service" →
      (readState stored).serviceAccounts.get p.subject = some account → ∀ role ∈ account.roles, role = "service" := by
  have happroved : p.principalType ∈ approvedPrincipalTypes := by
    rw [hservice]
    decide
  have hshadowed : ∀ member, (readState stored).members.get p.subject = some member →
      member.principalType ≠ p.principalType →
      managedRoles (readState stored) p.subject p.principalType = some [] := by
    intro member hget hne
    rw [managedRoles_of_member _ hget, if_pos (Or.inl hne)]
  constructor
  · intro heffective member account hmember hne haccount role hrole
    rw [← hservice] at hne
    have hassigned : AssignedAs (readState stored) p.subject p.principalType account.roles := by
      refine ⟨hdisabled, .inr ⟨hservice, fun member' hget => ?_, account, haccount, rfl⟩⟩
      rw [hmember] at hget
      cases hget
      exact hne
    have hsame := (granted_iff happroved (hshadowed member hmember hne)).1 (heffective.2 _ hassigned)
    rcases (hsame role).2 (.inl hrole) with h | ⟨-, h⟩
    · cases h
    · exact h
  · intro hcondition
    refine ⟨fun h => absurd h hdisabled, ?_⟩
    rintro roles ⟨-, ⟨member, hget, htype, rfl⟩ | ⟨-, hother, account, haccount, rfl⟩⟩
    · exact (granted_iff happroved (managedRoles_of_assigned hdisabled hget htype)).2 fun _ => Iff.rfl
    · cases hmember : (readState stored).members.get p.subject with
      | none =>
        have hactive : account.active = true := by
          by_contra hfalse
          exact hdisabled (.inr ⟨hservice, account, haccount, by simpa using hfalse⟩)
        have hmanaged := managedRoles_of_account p.principalType hmember haccount
        rw [if_pos hactive] at hmanaged
        exact (granted_iff happroved hmanaged).2 fun _ => Iff.rfl
      | some member =>
        have hne := hother member hmember
        refine (granted_iff happroved (hshadowed member hmember hne)).2 fun role => ⟨?_, ?_⟩
        · rintro (h | h)
          · cases h
          · exact .inr h
        · rintro (h | h)
          · rw [hservice] at hne
            exact .inr ⟨hservice, hcondition member account hmember hne haccount role h⟩
          · exact .inr h

/-- **When revocation is effective.**  For callers that are no services it always is.  A disabled service
keeps at least the role `service`, unless the canonical model cannot be read for it; an active one has its
own roles unless its account stands behind a member of another type. -/
theorem revocation_effective_iff (host : Host) (calls : List Call) (config : IdentityBridgeConfig)
    (p : AuthPrincipal) : RevocationEffective config (storedAfter host calls) p ↔ p.principalType ≠ "service" ∨
      (DisabledAs (readState (storedAfter host calls)) p.subject p.principalType ∧
        (readState (storedAfter host calls)).members.get p.subject = none ∧
        ∃ rbac e, config.canonicalRbac = some rbac ∧
          rbac.effectiveRolesForSubject p.subject p.principalType = .error e) ∨
      (¬ DisabledAs (readState (storedAfter host calls)) p.subject p.principalType ∧
        ∀ member account, (readState (storedAfter host calls)).members.get p.subject = some member →
          member.principalType ≠ "service" →
          (readState (storedAfter host calls)).serviceAccounts.get p.subject = some account →
          ∀ role ∈ account.roles, role = "service") := by
  by_cases hservice : p.principalType = "service"
  · by_cases hdisabled : DisabledAs (readState (storedAfter host calls)) p.subject p.principalType
    · rw [revocationEffective_iff_of_disabled hservice hdisabled]
      simp [hservice, hservice ▸ hdisabled]
    · rw [revocationEffective_iff_of_active hservice hdisabled]
      simp [hservice, hservice ▸ hdisabled]
  · exact iff_of_true (revocationEffective_of_ne_service (approvedTypes_storedAfter host calls) hservice)
      (.inl hservice)

end

/-- A service account that is made and revoked. -/
def retiredAccount : List Call :=
  [⟨fun _ => 0, .createServiceAccount ⟨"ci", ["developer"], none, none⟩ ⟨"s1", "t1"⟩⟩,
    ⟨fun _ => 1, .revokeServiceAccount "phlo-service:s1" 1⟩]

/-- A caller with the subject of the revoked account, whom the identity provider counts as an admin. -/
def retiredCaller : AuthPrincipal := { subject := "phlo-service:s1", principalType := "service", groups := ["admin"] }

theorem revoked_account_is_admin :
    DisabledAs (readState (storedAfter plainHost retiredAccount)) "phlo-service:s1" "service" ∧
    (∃ principal, canonicalize {} true (storedAfter plainHost retiredAccount) retiredCaller = .ok principal ∧
      principal.roles = ["admin", "service"]) ∧
    ¬ RevocationEffective {} (storedAfter plainHost retiredAccount) retiredCaller := by
  have hrevoked : ((readState (storedAfter plainHost retiredAccount)).serviceAccounts.get
      "phlo-service:s1").map ServiceAccount.active = some false := by decide +kernel
  have hgranted : (canonicalize {} true (storedAfter plainHost retiredAccount) retiredCaller).toOption.map
      Principal.roles = some ["admin", "service"] := by decide +kernel
  obtain ⟨account, hget, hinactive⟩ := Option.map_eq_some_iff.1 hrevoked
  have hdisabled : DisabledAs (readState (storedAfter plainHost retiredAccount)) "phlo-service:s1" "service" :=
    .inr ⟨rfl, account, hget, hinactive⟩
  obtain ⟨principal, hok, hroles⟩ := Option.map_eq_some_iff.1 hgranted
  have hprincipal : canonicalize {} true (storedAfter plainHost retiredAccount) retiredCaller = .ok principal := by
    cases hresult : canonicalize {} true (storedAfter plainHost retiredAccount) retiredCaller with
    | error e =>
      rw [hresult] at hok
      cases hok
    | ok principal' =>
      rw [hresult] at hok
      cases hok
      rfl
  refine ⟨hdisabled, ⟨principal, hprincipal, hroles⟩, fun heffective => ?_⟩
  rw [heffective.1 hdisabled principal hprincipal] at hroles
  cases hroles

end Phlo.Identity
