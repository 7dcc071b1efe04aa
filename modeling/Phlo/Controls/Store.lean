import Phlo.Library.JsonText
import Phlo.Library.KeyedTable

/-!
# The controls store

The SQLite tables `operations` and `idempotency_resolutions` and the statements that change them.  A row
of `operations` is a claim on a mutation, named by project, key, operation and target.  Two columns are
not in the database and are read by no statement: `claim`, the number of the claim a row was last
claimed by, and `requested`, the exclusion target this claim asked for.

* `claim_cases` — a claim is granted for a row that is absent or safe to retry, or it changes nothing
  but what has expired.
-/

namespace Phlo.Controls

open Phlo.Library

/-! ### Rows -/

inductive ClaimState where
  | pending
  | completed
  | unknown
  | failed
  | safeToRetry
  deriving DecidableEq

def ClaimState.active (state : ClaimState) : Bool := state = .pending || state = .unknown

/-- The primary key of `operations`. -/
structure Identity where
  project : String
  keyHash : String
  operation : String
  target : String
  deriving DecidableEq

structure OperationRow where
  identity : Identity
  state : ClaimState
  /-- what `response_json` holds; none for the empty text -/
  response : Option JsonValue
  createdAt : ℕ
  expiresAt : ℕ
  exclusionTarget : String
  claim : ℕ
  requested : String

inductive Resolution where
  | succeeded
  | failed
  | safeToRetry
  deriving DecidableEq

/-- `_STATE_COMPLETED if resolution == "succeeded" else resolution` -/
def Resolution.state : Resolution → ClaimState
  | .succeeded => .completed
  | .failed => .failed
  | .safeToRetry => .safeToRetry

structure ResolutionRow where
  identity : Identity
  resolution : Resolution
  resolvedBy : String
  evidenceJson : String
  resolvedAt : ℕ

abbrev Operations := KeyedTable OperationRow.identity

structure ControlsStore where
  operations : Operations
  resolutions : List ResolutionRow
  /-- how many claims were granted -/
  claims : ℕ

namespace ControlsStore

def empty : ControlsStore := ⟨KeyedTable.empty _, [], 0⟩

def find (s : ControlsStore) (i : Identity) : Option OperationRow := s.operations.find i

end ControlsStore

/-- Times are microseconds; 24 hours. -/
def IDEMPOTENCY_RETENTION : ℕ := 24 * 60 * 60 * 1000000

/-- `datetime.max` -/
def DATETIME_MAX : ℕ := 315537897599999999

/-! ### Claims -/

/-- `_delete_expired` -/
def ControlsStore.deleteExpired (now : ℕ) (s : ControlsStore) : ControlsStore :=
  { s with
    operations := s.operations.deleteWhere fun row => row.state = .completed ∧ row.expiresAt < now }

/-- The arguments of a claim. -/
structure ClaimRequest where
  identity : Identity
  exclusionTarget : Option String := none

/-- `exclusion_target or target` -/
def ClaimRequest.excluded (r : ClaimRequest) : String :=
  match r.exclusionTarget with
  | some target => if target = "" then r.identity.target else target
  | none => r.identity.target

inductive ClaimAnswer where
  | claimed
  | existing (state : ClaimState) (response : Option JsonValue)
  | targetMismatch
  | operationActive (state : ClaimState)

def ClaimRequest.row (r : ClaimRequest) (now claim : ℕ) : OperationRow where
  identity := r.identity
  state := .pending
  response := none
  createdAt := now
  expiresAt := now + IDEMPOTENCY_RETENTION
  exclusionTarget := r.excluded
  claim := claim
  requested := r.excluded

def ClaimRequest.reopen (r : ClaimRequest) (now claim : ℕ) (row : OperationRow) : OperationRow :=
  { row with
    state := .pending
    response := none
    createdAt := now
    expiresAt := now + IDEMPOTENCY_RETENTION
    claim := claim
    requested := r.excluded }

namespace ControlsStore

def bound (s : ControlsStore) (r : ClaimRequest) : Option OperationRow :=
  s.operations.rows.find? fun row =>
    row.identity.project = r.identity.project ∧ row.identity.keyHash = r.identity.keyHash ∧
      row.identity.operation = r.identity.operation ∧
      (r.exclusionTarget.isSome ∨ row.identity.target = r.identity.target)

def excluding (s : ControlsStore) (r : ClaimRequest) : Option OperationRow :=
  s.operations.rows.find? fun row =>
    row.identity.project = r.identity.project ∧ row.identity.operation = r.identity.operation ∧
      row.exclusionTarget = r.excluded ∧ row.state.active

def grant (s : ControlsStore) (now : ℕ) (r : ClaimRequest) : ControlsStore :=
  { s with
    operations := s.operations.upsert (r.row now s.claims) (r.reopen now s.claims) fun _ => rfl
    claims := s.claims + 1 }

/-- The part of a claim after the look at the key. -/
def claimUnlessExcluded (s : ControlsStore) (now : ℕ) (r : ClaimRequest) : ControlsStore × ClaimAnswer :=
  match s.excluding r with
  | some row => (s, .operationActive row.state)
  | none => (s.grant now r, .claimed)

end ControlsStore

def claimIdempotencyKey (now : ℕ) (r : ClaimRequest) (s : ControlsStore) : ControlsStore × ClaimAnswer :=
  let s := s.deleteExpired now
  match s.bound r with
  | none => s.claimUnlessExcluded now r
  | some row =>
    if row.identity.target ≠ r.identity.target then (s, .targetMismatch)
    else if row.state ≠ .safeToRetry then (s, .existing row.state row.response)
    else s.claimUnlessExcluded now r

/-! ### Reports -/

def ifPending (f : OperationRow → OperationRow) (row : OperationRow) : OperationRow :=
  if row.state = .pending then f row else row

theorem identity_ifPending {f : OperationRow → OperationRow}
    (hf : ∀ row, (f row).identity = row.identity) (row : OperationRow) :
    (ifPending f row).identity = row.identity := by
  rw [ifPending]
  split
  · exact hf row
  · rfl

/-- `UPDATE ... WHERE ... AND state = 'pending'`, with the row count being one. -/
def ControlsStore.finish (s : ControlsStore) (i : Identity) (f : OperationRow → OperationRow)
    (hf : ∀ row, (f row).identity = row.identity) : ControlsStore × Bool :=
  ({ s with operations := s.operations.update i (ifPending f) (identity_ifPending hf) },
    (s.find i).any fun row => row.state = .pending)

def OperationRow.completed (now : ℕ) (response : JsonValue) (row : OperationRow) : OperationRow :=
  { row with state := .completed, response := some response, expiresAt := now + IDEMPOTENCY_RETENTION }

theorem OperationRow.identity_completed (now : ℕ) (response : JsonValue) (row : OperationRow) :
    (row.completed now response).identity = row.identity := rfl

def OperationRow.inState (state : ClaimState) (row : OperationRow) : OperationRow :=
  { row with state := state }

theorem OperationRow.identity_inState (state : ClaimState) (row : OperationRow) :
    (row.inState state).identity = row.identity := rfl

/-- `_complete_idempotency_claim`; the claim may have changed, then the answer is false. -/
def completeIdempotencyClaim (now : ℕ) (i : Identity) (response : JsonValue) (s : ControlsStore) :
    ControlsStore × Bool :=
  s.finish i (OperationRow.completed now response) (OperationRow.identity_completed now response)

def failIdempotencyClaim (i : Identity) (state : ClaimState) (s : ControlsStore) : ControlsStore × Bool :=
  s.finish i (OperationRow.inState state) (OperationRow.identity_inState state)

/-! ### Resolutions -/

/-- The arguments of a resolution. -/
structure ResolveRequest where
  identity : Identity
  resolution : Resolution
  resolvedBy : String
  evidence : JsonValue
  response : Option JsonValue := none

/-- The resolution was made before, with the same actor and evidence. -/
def ControlsStore.resolvedAlready (s : ControlsStore) (r : ResolveRequest) : Bool :=
  match s.find r.identity, s.resolutions.reverse.find? fun row => row.identity = r.identity with
  | some row, some existing =>
    row.state = r.resolution.state && existing.resolution = r.resolution &&
      existing.resolvedBy = r.resolvedBy && existing.evidenceJson = r.evidence.dumps
  | _, _ => false

def ResolveRequest.row (r : ResolveRequest) (now : ℕ) (row : OperationRow) : OperationRow :=
  { row with
    state := r.resolution.state
    response := r.response
    expiresAt := if r.resolution = .succeeded then now + IDEMPOTENCY_RETENTION else DATETIME_MAX }

theorem ResolveRequest.identity_row (r : ResolveRequest) (now : ℕ) (row : OperationRow) :
    (r.row now row).identity = row.identity := rfl

def ControlsStore.resolve (s : ControlsStore) (now : ℕ) (r : ResolveRequest) : ControlsStore :=
  { s with
    operations := s.operations.update r.identity (r.row now) (r.identity_row now)
    resolutions := s.resolutions ++ [⟨r.identity, r.resolution, r.resolvedBy, r.evidence.dumps, now⟩] }

def resolveIdempotencyClaim (now : ℕ) (r : ResolveRequest) (s : ControlsStore) : ControlsStore × Except String Unit :=
  if r.resolution = .succeeded ∧ r.response.isNone then
    (s, .error "a succeeded resolution requires a response")
  else if (s.find r.identity).any fun row => row.state.active then (s.resolve now r, .ok ())
  else if s.resolvedAlready r then (s, .ok ())
  else (s, .error "only pending or unknown idempotency claims can be resolved")

/-! ### Opening a store -/

/-- `_migrate_operations_schema`; nothing is known of what the claims before have asked for. -/
def migrateOperationsSchema (hasState hasExclusionTarget : Bool) (rows : Operations) : Operations :=
  rows.updateAll
    (fun row =>
      let exclusionTarget := if hasExclusionTarget then row.exclusionTarget else row.identity.target
      { row with
        state := if hasState then row.state else .completed
        exclusionTarget := exclusionTarget
        requested := exclusionTarget })
    fun _ => rfl

/-! ### What the statements do -/

section

variable {s : ControlsStore} {now : ℕ}

variable {r : ClaimRequest}

theorem bound_none (h : s.bound r = none) : s.find r.identity = none := by
  refine (KeyedTable.find_eq_none _ _).2 fun row hrow hkey => ?_
  have hno := List.find?_eq_none.1 h row hrow
  simp [hkey] at hno

theorem bound_some {row : OperationRow} (h : s.bound r = some row)
    (htarget : row.identity.target = r.identity.target) : s.find r.identity = some row := by
  have hmatches := List.find?_some h
  simp only [decide_eq_true_eq] at hmatches
  refine (KeyedTable.find_eq_some _ _ _).2 ⟨List.mem_of_find?_eq_some h, ?_⟩
  obtain ⟨hproject, hkey, hoperation, -⟩ := hmatches
  obtain ⟨⟨project, keyHash, operation, target⟩, _⟩ := row
  obtain ⟨⟨project', keyHash', operation', target'⟩, _⟩ := r
  obtain rfl : project = project' := hproject
  obtain rfl : keyHash = keyHash' := hkey
  obtain rfl : operation = operation' := hoperation
  obtain rfl : target = target' := htarget
  rfl

theorem claim_cases {s' : ControlsStore} {answer : ClaimAnswer} (h : claimIdempotencyKey now r s = (s', answer)) :
    (answer = .claimed ∧ (∀ row, (s.deleteExpired now).find r.identity = some row →
        row.state = .safeToRetry) ∧ (s.deleteExpired now).excluding r = none ∧
        s' = (s.deleteExpired now).grant now r) ∨ (answer ≠ .claimed ∧ s' = s.deleteExpired now) := by
  -- what the look at the key leaves open
  have hrest : (∀ row, (s.deleteExpired now).find r.identity = some row → row.state = .safeToRetry) →
      (s.deleteExpired now).claimUnlessExcluded now r = (s', answer) →
      (answer = .claimed ∧ (∀ row, (s.deleteExpired now).find r.identity = some row →
        row.state = .safeToRetry) ∧ (s.deleteExpired now).excluding r = none ∧
        s' = (s.deleteExpired now).grant now r) ∨ (answer ≠ .claimed ∧ s' = s.deleteExpired now) := by
    intro hretry hclaim
    rw [ControlsStore.claimUnlessExcluded] at hclaim
    split at hclaim
    next row hrow =>
      cases hclaim
      exact .inr ⟨nofun, rfl⟩
    next hnone =>
      cases hclaim
      exact .inl ⟨rfl, hretry, hnone, rfl⟩
  rw [claimIdempotencyKey] at h
  split at h
  next hbound =>
    refine hrest (fun row hrow => ?_) h
    rw [bound_none hbound] at hrow
    cases hrow
  next bound hbound =>
    split at h
    · cases h
      exact .inr ⟨nofun, rfl⟩
    next htarget =>
      split at h
      · cases h
        exact .inr ⟨nofun, rfl⟩
      next hstate =>
        refine hrest (fun row hrow => ?_) h
        rw [bound_some hbound (not_not.1 htarget)] at hrow
        cases hrow
        exact not_not.1 hstate

/-- A report changes the row it names, and only while the row is pending. -/
theorem find_finish {i : Identity} {f : OperationRow → OperationRow}
    {hf : ∀ row, (f row).identity = row.identity} (j : Identity) : (s.finish i f hf).1.find j =
      if j = i then (s.find i).map (ifPending f) else s.find j := by
  show (s.operations.update i (ifPending f) (identity_ifPending hf)).find j = _
  rw [KeyedTable.find_update]
  rfl

theorem find_resolve (r : ResolveRequest) (j : Identity) : (s.resolve now r).find j =
      if j = r.identity then (s.find r.identity).map (r.row now) else s.find j := by
  show (s.operations.update r.identity (r.row now) (r.identity_row now)).find j = _
  rw [KeyedTable.find_update]
  rfl

theorem resolve_cases (r : ResolveRequest) : ((resolveIdempotencyClaim now r s).1 = s.resolve now r ∧
        (∃ row, s.find r.identity = some row ∧ row.state.active = true) ∧
        (r.resolution = .succeeded → r.response.isSome = true)) ∨ ((resolveIdempotencyClaim now r s).1 = s ∧
        (r.resolution = .safeToRetry → (s.find r.identity).any (fun row => row.state.active) = false)) := by
  rw [resolveIdempotencyClaim]
  split
  next hunanswered =>
    refine .inr ⟨rfl, fun hretry => ?_⟩
    rw [hretry] at hunanswered
    cases hunanswered.1
  next hanswered =>
    split
    next hactive =>
      refine .inl ⟨rfl, (Option.any_eq_true _ _).1 hactive, fun hsucceeded => ?_⟩
      cases hresponse : r.response with
      | none => exact absurd ⟨hsucceeded, by rw [hresponse]; rfl⟩ hanswered
      | some response => rfl
    next hinactive =>
      have hno : (s.find r.identity).any (fun row => row.state.active) = false :=
        Bool.eq_false_iff.2 hinactive
      split
      · exact .inr ⟨rfl, fun _ => hno⟩
      · exact .inr ⟨rfl, fun _ => hno⟩

theorem find_deleteExpired (i : Identity) : (s.deleteExpired now).find i =
      (s.find i).filter fun row => !decide (row.state = .completed ∧ row.expiresAt < now) :=
  KeyedTable.find_deleteWhere s.operations _ i

/-- A refused claim that gives back a row gives back the one it names. -/
theorem claim_existing {state : ClaimState} {response : Option JsonValue}
    (h : (claimIdempotencyKey now r s).2 = .existing state response) :
    ∃ row, s.find r.identity = some row ∧ row.state = state ∧ row.response = response := by
  have hnever : ∀ t : ControlsStore, (t.claimUnlessExcluded now r).2 ≠ .existing state response := by
    intro t
    rw [ControlsStore.claimUnlessExcluded]
    split
    · nofun
    · nofun
  rw [claimIdempotencyKey] at h
  split at h
  · exact absurd h (hnever _)
  next row hbound =>
    split at h
    · cases h
    next htarget =>
      split at h
      · cases h
        have hfind := bound_some hbound (not_not.1 htarget)
        rw [find_deleteExpired] at hfind
        exact ⟨row, (Option.filter_eq_some_iff.1 hfind).1, rfl, rfl⟩
      · exact absurd h (hnever _)

end

end Phlo.Controls
