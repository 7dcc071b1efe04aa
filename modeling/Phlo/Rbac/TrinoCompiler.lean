import Mathlib.Data.Finset.Basic
import Phlo.Library.TextLines
import Phlo.Rbac.Models
import Phlo.RunEvidence.TextRedaction

/-!
# The Trino compiler

Grants in Trino are a set of rows.  A plan creates and deletes artifacts by name; the name is made of the
role, the type and the resource, without the privilege.

* `mem_trinoCompile` — the artifacts of a compiled model.
-/

namespace Phlo.Rbac

open Phlo.Library
open Phlo.RunEvidence (isWordChar)

/-! ### Grants -/

/-- A row of `SHOW GRANTS`. -/
structure TrinoGrant where
  grantee : String
  schema : String
  table : String
  privilege : String
  deriving DecidableEq

abbrev TrinoState := Finset TrinoGrant

/-- A statement the backend executes; the table by its quoted parts. -/
inductive TrinoStatement where
  | grant (privilege : String) (table : List String) (principal : String)
  | revoke (privilege : String) (table : List String) (principal : String)

/-- What Trino does: a table of another catalog has no row here. -/
def TrinoState.execute (s : TrinoState) : TrinoStatement → TrinoState
  | .grant privilege [schema, table] principal => insert ⟨principal, schema, table, privilege⟩ s
  | .revoke privilege [schema, table] principal => s.erase ⟨principal, schema, table, privilege⟩
  | _ => s

/-! ### The backend -/

def ALLOWED_ACTIONS : List String :=
  ["SELECT", "INSERT", "DELETE", "UPDATE", "ALL PRIVILEGES", "GRANT"]

/-- `_validate_identifier`: `^[\w][\w.]*$` -/
def isTrinoIdentifier (s : String) : Bool :=
  matchesClass isWordChar (fun c => isWordChar c || c == '.') s.toList

/-- `str.upper` -/
def upper (s : String) : String := String.ofList (s.toList.map Char.toUpper)

/-- `identifier.split(".")` -/
def splitDots (s : String) : List String := (s.toList.splitOn '.').map String.ofList

/-- `apply_policy`, with the effect `ALLOW`. -/
def TrinoState.applyPolicy (s : TrinoState) (action tablePattern principal : String) : TrinoState × Option String :=
  if upper action ∉ ALLOWED_ACTIONS then (s, some "Unsupported action")
  else if !isTrinoIdentifier tablePattern then (s, some "Invalid table_pattern")
  else if !isTrinoIdentifier principal then (s, some "Invalid principal")
  else (s.execute (.grant (upper action) (splitDots tablePattern) principal), none)

/-- A text up to the first colon, and what is after it. -/
def splitColon (s : List Char) : Option (List Char × List Char) :=
  match s.dropWhile (· ≠ ':') with
  | [] => none
  | _ :: rest => some (s.takeWhile (· ≠ ':'), rest)

/-- `policy_id.split(":", 2)` has three parts. -/
def splitPolicyId (policyId : String) : Option (String × String × String) := do
  let (action, rest) ← splitColon policyId.toList
  let (table, principal) ← splitColon rest
  pure (String.ofList action, String.ofList table, String.ofList principal)

/-- `revoke_policy` -/
def TrinoState.revokePolicy (s : TrinoState) (policyId : String) : TrinoState × Option String :=
  match splitPolicyId policyId with
  | none => (s, some "policy_id must be 'ACTION:TABLE:PRINCIPAL'")
  | some (action, table, principal) =>
    if upper action ∉ ALLOWED_ACTIONS then (s, some "Unsupported action")
    else if !isTrinoIdentifier table then (s, some "Invalid table")
    else if !isTrinoIdentifier principal then (s, some "Invalid principal")
    else (s.execute (.revoke (upper action) (splitDots table) principal), none)

/-! ### Compiling -/

structure TrinoMetadata where
  role : String
  privilege : String
  resource : String
  policyId : Option String := none
  resourceType : Option String := none

abbrev TrinoArtifact := BackendArtifact String TrinoMetadata

/-- `ACTION_MAPPING` -/
def trinoPrivileges (action : String) : List String :=
  if action = "dataset.read" ∨ action = "dataset.query" then ["SELECT"] else []

/-- `.replace("*", "%")` -/
def sqlPattern (pattern : String) : String :=
  String.ofList (pattern.toList.map fun c => if c = '*' then '%' else c)

def trinoName (role resourceType resource : String) : String :=
  role ++ "_" ++ resourceType ++ "_" ++ resource

def trinoStatement (privilege resourceType resource role : String) : String :=
  let kind :=
    if resourceType = "dataset" then "TABLE"
    else if resourceType = "service" then "SCHEMA"
    else resourceType
  "GRANT " ++ privilege ++ " ON " ++ kind ++ " " ++ resource ++ " TO ROLE " ++ role

def trinoArtifact (policy : PolicyRule) (role privilege : String) : TrinoArtifact where
  backend := "trino"
  artifactType := "grant"
  name := trinoName role policy.resourceType (sqlPattern policy.resourceIdPattern)
  statement := trinoStatement privilege policy.resourceType (sqlPattern policy.resourceIdPattern) role
  metadata :=
    { role := role
      privilege := privilege
      resource := sqlPattern policy.resourceIdPattern
      policyId := some policy.policyId }

def trinoCompileRole (policy : PolicyRule) (role : String) : Except CompileError (List TrinoArtifact) := do
  validateSqlIdentifier role "role_name"
  validateSqlResourcePattern (sqlPattern policy.resourceIdPattern) "resource_id"
  validateSqlIdentifier policy.resourceType "resource_type"
  (trinoPrivileges policy.action).mapM fun privilege => do
    validateSqlPrivilege privilege
    pure (trinoArtifact policy role privilege)

/-- `TrinoCompiler.compile` -/
def trinoCompile (rbac : CanonicalRbac) : Except CompileError (List TrinoArtifact) :=
  compilePolicies "Trino" "trino" TRINO_POLICY_PAIRS SURFACE_ONLY_POLICY_PAIRS
    (fun policy => compileRoles (trinoCompileRole policy) policy.principalRoles) rbac

/-- What compiling has checked of a role and a policy that demand a grant. -/
structure TrinoChecked (role : String) (policy : PolicyRule) : Prop where
  type_eq : policy.resourceType = "dataset"
  role_valid : isSqlIdentifier role = true
  resource_valid : validateSqlResourcePattern (sqlPattern policy.resourceIdPattern) "resource_id" = .ok ()

theorem trinoCompileRole_eq_ok {role : String} {policy : PolicyRule} {l : List TrinoArtifact}
    (hpair : policy.pair ∈ TRINO_POLICY_PAIRS) (h : trinoCompileRole policy role = .ok l) :
    l = [trinoArtifact policy role "SELECT"] ∧ TrinoChecked role policy := by
  have hpairs : ∀ pair ∈ TRINO_POLICY_PAIRS,
      trinoPrivileges pair.1 = ["SELECT"] ∧ pair.2 = "dataset" := by decide
  obtain ⟨hprivileges, htype⟩ := hpairs _ hpair
  have hprivileges' : trinoPrivileges policy.action = ["SELECT"] := hprivileges
  obtain ⟨_, hrole, h⟩ := bind_eq_ok.1 h
  obtain ⟨_, hresource, h⟩ := bind_eq_ok.1 h
  obtain ⟨_, -, h⟩ := bind_eq_ok.1 h
  rw [hprivileges'] at h
  refine ⟨?_, htype, require_eq_ok.1 hrole, hresource⟩
  have hvalid : validateSqlPrivilege "SELECT" = .ok () := require_eq_ok.2 (by decide)
  rw [List.mapM_cons, List.mapM_nil, hvalid] at h
  cases h
  rfl

theorem mem_trinoCompile {rbac : CanonicalRbac} {artifacts : List TrinoArtifact}
    (h : trinoCompile rbac = .ok artifacts) : (∀ role policy, Demands TRINO_POLICY_PAIRS rbac role policy →
        trinoArtifact policy role "SELECT" ∈ artifacts ∧ TrinoChecked role policy) ∧
      ∀ a ∈ artifacts, ∃ role policy, Demands TRINO_POLICY_PAIRS rbac role policy ∧
        a = trinoArtifact policy role "SELECT" := by
  obtain ⟨hto, hfrom⟩ := mem_compilePolicies h
  constructor
  · intro role policy hdemands
    obtain ⟨hpolicy, hpair, hrole⟩ := hdemands
    obtain ⟨l, hl, hmem⟩ := hto policy hpolicy hpair
    obtain ⟨l', hl', hmem'⟩ := (mem_compileRoles hl).1 role hrole
    obtain ⟨rfl, hchecked⟩ := trinoCompileRole_eq_ok hpair hl'
    exact ⟨hmem _ (hmem' _ List.mem_cons_self), hchecked⟩
  · intro a ha
    obtain ⟨policy, hpolicy, hpair, l, hl, hal⟩ := hfrom a ha
    obtain ⟨role, hrole, l', hl', hal'⟩ := (mem_compileRoles hl).2 a hal
    obtain ⟨rfl, -⟩ := trinoCompileRole_eq_ok hpair hl'
    exact ⟨role, policy, ⟨hpolicy, hpair, hrole⟩, List.mem_singleton.1 hal'⟩

/-! ### Reading, planning, applying, verifying -/

/-- What is made of a row. -/
def TrinoGrant.artifact (g : TrinoGrant) : TrinoArtifact :=
  let resource :=
    if g.schema ≠ "" ∧ g.table ≠ "" then g.schema ++ "." ++ g.table
    else if g.schema ≠ "" then g.schema
    else g.table
  let resourceType := if g.table ≠ "" then "dataset" else "service"
  { backend := "trino"
    artifactType := "grant"
    name := trinoName g.grantee resourceType resource
    statement := "GRANT " ++ g.privilege ++ " ON TABLE " ++ resource ++ " TO ROLE " ++ g.grantee
    metadata :=
      { role := g.grantee
        privilege := g.privilege
        resource := resource
        resourceType := some resourceType } }

/-- `TrinoCompiler.read_current_state`, of the rows in the order they are listed. -/
def trinoReadCurrentState (rows : List TrinoGrant) : List TrinoArtifact :=
  (rows.filter fun row => row.grantee ≠ "" && matchesManaged row.grantee).map TrinoGrant.artifact

/-- `TrinoCompiler.plan` -/
def trinoPlan (rbac : CanonicalRbac) (rows : List TrinoGrant) :
    Except CompileError (List (PolicyChange TrinoArtifact)) := do
  let desired ← trinoCompile rbac
  pure (planByName (byName BackendArtifact.name desired)
    (byName BackendArtifact.name (trinoReadCurrentState rows)))

/-- `TrinoCompiler.verify` -/
def trinoVerify (rbac : CanonicalRbac) (rows : List TrinoGrant) :
    Except CompileError (VerifyResult TrinoArtifact) := do
  let desired ← trinoCompile rbac
  let desiredByName := byName BackendArtifact.name desired
  let currentByName := byName BackendArtifact.name (trinoReadCurrentState rows)
  let missing := absent desiredByName currentByName
  let extra := superfluous desiredByName currentByName
  pure
    { inSync := missing.isEmpty && extra.isEmpty
      missing := missing
      extra := extra
      mismatched := [] }

/-- `_apply_artifact`: a statement with the word `REVOKE` in it is left out. -/
def trinoApplyArtifact (a : TrinoArtifact) (s : TrinoState) : TrinoState × Option String :=
  if a.artifactType ≠ "grant" then (s, none)
  else if containsText "REVOKE" a.statement then (s, none)
  else if occurrences " TO ROLE ".toList a.statement.toList + 1 = 2 then
    s.applyPolicy a.metadata.privilege a.metadata.resource a.metadata.role
  else (s, none)

/-- `_revert_artifact` -/
def trinoRevertArtifact (a : TrinoArtifact) (s : TrinoState) : TrinoState × Option String :=
  if a.artifactType = "grant" then
    s.revokePolicy (a.metadata.privilege ++ ":" ++ a.metadata.resource ++ ":" ++ a.metadata.role)
  else (s, none)

def trinoAct : Act TrinoArtifact TrinoState
  | .create a, s => trinoApplyArtifact a s
  | .delete a, s => trinoRevertArtifact a s

def trinoFailed : PolicyChange TrinoArtifact → String
  | .create a => "Failed to apply " ++ a.name
  | .delete a => "Failed to revert " ++ a.name

/-- `TrinoCompiler.apply` -/
def trinoApply (plan : List (PolicyChange TrinoArtifact)) (s : TrinoState) : TrinoState × List String :=
  applyPlan trinoFailed trinoAct plan s

end Phlo.Rbac
