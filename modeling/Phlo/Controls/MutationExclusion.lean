import Phlo.Controls.Store
import Phlo.Library.Transition

/-!
# Unresolved mutations exclude each other

A claim looks for unresolved rows by the column `exclusion_target`, but a claim that re-opens a row leaves
this column as it was.  What a row excludes is then not what its claim has asked for.

* `mutations_exclusive` — while every claim that re-opens a row asks for what the row has, at most one row
  of each project, operation and exclusion target is unresolved;
* `reopened_claim_not_exclusive` — otherwise there may be two.
-/

namespace Phlo.Controls

open Phlo.Library

/-! ### Runs -/

inductive StoreCall where
  | claim (now : ℕ) (r : ClaimRequest)
  | complete (now : ℕ) (i : Identity) (response : JsonValue)
  | fail (i : Identity) (state : ClaimState)
  | resolve (now : ℕ) (r : ResolveRequest)
  | expire (now : ℕ)

def storeStep (s : ControlsStore) : StoreCall → ControlsStore
  | .claim now r => (claimIdempotencyKey now r s).1
  | .complete now i response => (completeIdempotencyClaim now i response s).1
  | .fail i state => (failIdempotencyClaim i state s).1
  | .resolve now r => (resolveIdempotencyClaim now r s).1
  | .expire now => s.deleteExpired now

def openStore (hasState hasExclusionTarget : Bool) (rows : Operations) (resolutions : List ResolutionRow)
    (claims : ℕ) : ControlsStore :=
  ⟨migrateOperationsSchema hasState hasExclusionTarget rows, resolutions, claims⟩

/-- At most one row of each project, operation and exclusion target asked for is unresolved. -/
def Exclusive (s : ControlsStore) : Prop :=
  ∀ a ∈ s.operations.rows, ∀ b ∈ s.operations.rows, a.state.active = true → b.state.active = true →
    a.identity.project = b.identity.project → a.identity.operation = b.identity.operation →
    a.requested = b.requested → a = b

def SameExclusion (s : ControlsStore) : StoreCall → Prop
  | .claim now r => ∀ row, (s.deleteExpired now).find r.identity = some row → row.state = .safeToRetry →
      row.exclusionTarget = r.excluded
  | _ => True

/-! ### The invariant -/

/-- The column says what was asked for, and unresolved rows exclude each other. -/
structure Tracked (s : ControlsStore) : Prop where
  requested : ∀ row ∈ s.operations.rows, row.requested = row.exclusionTarget
  exclusive : Exclusive s

/-- A row that has stayed, or has been resolved. -/
def Descends (a b : OperationRow) : Prop :=
  b.identity = a.identity ∧ b.requested = a.requested ∧ b.exclusionTarget = a.exclusionTarget ∧
    (b.state.active = true → a.state.active = true)

theorem Descends.refl (row : OperationRow) : Descends row row := ⟨rfl, rfl, rfl, id⟩

theorem descends_ifPending {f : OperationRow → OperationRow} (row : OperationRow)
    (hidentity : (f row).identity = row.identity) (hrequested : (f row).requested = row.requested)
    (htarget : (f row).exclusionTarget = row.exclusionTarget) : Descends row (ifPending f row) := by
  rw [ifPending]
  split
  next hpending => exact ⟨hidentity, hrequested, htarget, fun _ => by rw [hpending]; rfl⟩
  next => exact Descends.refl row

variable {s : ControlsStore}

theorem Tracked.of_descends {s' : ControlsStore} (h : Tracked s)
    (hrows : ∀ b ∈ s'.operations.rows, ∃ a ∈ s.operations.rows, Descends a b) : Tracked s' := by
  constructor
  · intro b hb
    obtain ⟨a, ha, -, hrequested, htarget, -⟩ := hrows b hb
    rw [hrequested, htarget, h.requested a ha]
  · intro b hb b' hb' hactive hactive' hproject hoperation hrequested
    obtain ⟨a, ha, hid, hreq, -, hact⟩ := hrows b hb
    obtain ⟨a', ha', hid', hreq', -, hact'⟩ := hrows b' hb'
    rw [hid, hid'] at hproject hoperation
    rw [hreq, hreq'] at hrequested
    have hsame := h.exclusive a ha a' ha' (hact hactive) (hact' hactive') hproject hoperation hrequested
    refine s'.operations.eq_of_key_eq hb hb' ?_
    rw [hid, hid', hsame]

theorem Tracked.deleteExpired (h : Tracked s) (now : ℕ) : Tracked (s.deleteExpired now) :=
  h.of_descends fun b hb => ⟨b, (KeyedTable.mem_deleteWhere.1 hb).1, Descends.refl b⟩

theorem Tracked.finish (h : Tracked s) (i : Identity) (f : OperationRow → OperationRow)
    (hf : ∀ row, (f row).identity = row.identity) (hrequested : ∀ row, (f row).requested = row.requested)
    (htarget : ∀ row, (f row).exclusionTarget = row.exclusionTarget) : Tracked (s.finish i f hf).1 := by
  refine h.of_descends fun b hb => ?_
  have hb' : b ∈ (s.operations.update i (ifPending f) (identity_ifPending hf)).rows := hb
  obtain ⟨hold, -⟩ | ⟨a, ha, rfl⟩ := (KeyedTable.mem_update _ _ _).1 hb'
  · exact ⟨b, hold, Descends.refl b⟩
  · exact ⟨a, KeyedTable.mem_of_find ha, descends_ifPending a (hf a) (hrequested a) (htarget a)⟩

theorem inactive_resolution (resolution : Resolution) : resolution.state.active = false := by
  cases resolution <;> rfl

theorem Tracked.resolve (h : Tracked s) (now : ℕ) (r : ResolveRequest) : Tracked (s.resolve now r) := by
  refine h.of_descends fun b hb => ?_
  have hb' : b ∈ (s.operations.update r.identity (r.row now) (r.identity_row now)).rows := hb
  obtain ⟨hold, -⟩ | ⟨a, ha, rfl⟩ := (KeyedTable.mem_update _ _ _).1 hb'
  · exact ⟨b, hold, Descends.refl b⟩
  · refine ⟨a, KeyedTable.mem_of_find ha, rfl, rfl, rfl, fun hactive => ?_⟩
    have hinactive : (r.row now a).state.active = false := inactive_resolution r.resolution
    rw [hinactive] at hactive
    cases hactive

theorem Tracked.grant (h : Tracked s) (now : ℕ) (r : ClaimRequest)
    (hretry : ∀ row, s.find r.identity = some row → row.exclusionTarget = r.excluded) (hfree : s.excluding r = none) :
    Tracked (s.grant now r) := by
  -- a row is an old one under another key, or the one the claim has written
  have hrows : ∀ b ∈ (s.grant now r).operations.rows, (b ∈ s.operations.rows ∧ b.identity ≠ r.identity) ∨
        (b.identity = r.identity ∧ b.requested = r.excluded ∧ b.exclusionTarget = r.excluded) := by
    intro b hb
    obtain hold | ⟨-, rfl⟩ | ⟨a, ha, rfl⟩ := KeyedTable.mem_upsert hb
    · exact .inl hold
    · exact .inr ⟨rfl, rfl, rfl⟩
    · have hkey : a.identity = r.identity := KeyedTable.key_of_find ha
      exact .inr ⟨hkey, rfl, hretry a ha⟩
  have hnone : ∀ a ∈ s.operations.rows, a.state.active = true →
      a.identity.project = r.identity.project → a.identity.operation = r.identity.operation →
      a.requested ≠ r.excluded := by
    intro a ha hactive hproject hoperation hrequested
    have hno := List.find?_eq_none.1 hfree a ha
    rw [h.requested a ha] at hrequested
    simp [hproject, hoperation, hrequested, hactive] at hno
  constructor
  · intro b hb
    obtain ⟨hold, -⟩ | ⟨-, hrequested, htarget⟩ := hrows b hb
    · exact h.requested b hold
    · rw [hrequested, htarget]
  · intro a ha b hb hactive hactive' hproject hoperation hrequested
    obtain ⟨holda, -⟩ | ⟨hida, hreqa, -⟩ := hrows a ha
    · obtain ⟨holdb, -⟩ | ⟨hidb, hreqb, -⟩ := hrows b hb
      · exact h.exclusive a holda b holdb hactive hactive' hproject hoperation hrequested
      · rw [hidb] at hproject hoperation
        exact absurd (hrequested.trans hreqb) (hnone a holda hactive hproject hoperation)
    · obtain ⟨holdb, -⟩ | ⟨hidb, hreqb, -⟩ := hrows b hb
      · rw [hida] at hproject hoperation
        exact absurd (hrequested.symm.trans hreqa)
          (hnone b holdb hactive' hproject.symm hoperation.symm)
      · exact (s.grant now r).operations.eq_of_key_eq ha hb (hida.trans hidb.symm)

theorem tracked_storeStep (s : ControlsStore) (call : StoreCall) (h : Tracked s)
    (hcall : SameExclusion s call) : Tracked (storeStep s call) := by
  cases call with
  | claim now r =>
    show Tracked (claimIdempotencyKey now r s).1
    generalize hclaim : claimIdempotencyKey now r s = result
    obtain ⟨s', answer⟩ := result
    obtain ⟨-, hretry, hfree, rfl⟩ | ⟨-, rfl⟩ := claim_cases hclaim
    · exact (h.deleteExpired now).grant now r (fun row hrow => hcall row hrow (hretry row hrow)) hfree
    · exact h.deleteExpired now
  | complete now i response =>
    exact h.finish i (OperationRow.completed now response) (fun _ => rfl) (fun _ => rfl) fun _ => rfl
  | fail i state =>
    exact h.finish i (OperationRow.inState state) (fun _ => rfl) (fun _ => rfl) fun _ => rfl
  | resolve now r =>
    show Tracked (resolveIdempotencyClaim now r s).1
    obtain ⟨heq, -⟩ | ⟨heq, -⟩ := resolve_cases (s := s) r
    · rw [heq]
      exact h.resolve now r
    · rw [heq]
      exact h
  | expire now => exact h.deleteExpired now

theorem tracked_openStore {hasState hasExclusionTarget : Bool} {rows : Operations}
    {resolutions : List ResolutionRow} {claims : ℕ}
    (h : Exclusive (openStore hasState hasExclusionTarget rows resolutions claims)) :
    Tracked (openStore hasState hasExclusionTarget rows resolutions claims) := by
  refine ⟨fun row hrow => ?_, h⟩
  obtain ⟨old, -, rfl⟩ := List.mem_map.1 hrow
  rfl

/-- **Unresolved mutations exclude each other**, as long as claims that re-open a row ask for what the row
has. -/
theorem mutations_exclusive (hasState hasExclusionTarget : Bool) (rows : Operations)
    (resolutions : List ResolutionRow) (claims : ℕ)
    (hopen : Exclusive (openStore hasState hasExclusionTarget rows resolutions claims)) (calls : List StoreCall)
    (hcalls : Along storeStep SameExclusion (openStore hasState hasExclusionTarget rows resolutions claims) calls) :
    ∀ s ∈ trace storeStep (openStore hasState hasExclusionTarget rows resolutions claims) calls, Exclusive s := by
  intro s hs
  exact (hcalls.invariant tracked_storeStep (tracked_openStore hopen) s hs).exclusive

/-! ### A deploy is retried for another environment -/

def deployClaim (keyHash target exclusionTarget : String) : ClaimRequest where
  identity := ⟨"shop", keyHash, "deploy", target⟩
  exclusionTarget := some exclusionTarget

def deployResolution (keyHash target : String) : ResolveRequest where
  identity := ⟨"shop", keyHash, "deploy", target⟩
  resolution := .safeToRetry
  resolvedBy := "ops"
  evidence := .obj []

/-- A claim is found safe to retry and made again, then another key claims. -/
def deployCalls (first again other : String) : List StoreCall :=
  [.claim 0 (deployClaim "k1" "a" first), .resolve 1 (deployResolution "k1" "a"),
    .claim 2 (deployClaim "k1" "a" again), .claim 3 (deployClaim "k2" "b" other)]

def noOperations : Operations := KeyedTable.empty _

/-- In the last state of the run, as in every other. -/
theorem mutations_exclusive_deploy : Exclusive (finish storeStep (openStore true true noOperations [] 0)
    (deployCalls "prod" "prod" "stage")) := by
  refine mutations_exclusive true true noOperations [] 0 (fun a ha => absurd ha List.not_mem_nil)
    (deployCalls "prod" "prod" "stage") ?_ _ (by simp [trace, deployCalls])
  refine ⟨?_, trivial, ?_, ?_, trivial⟩
  · intro row hrow
    cases hrow
  · intro row hrow hstate
    cases hrow
    rfl
  · intro row hrow
    cases hrow

/-- The claim that re-opens its row asks for another exclusion target than the first time; a second key
then claims this target as well. -/
theorem reopened_claim_not_exclusive :
    ¬Exclusive (finish storeStep ControlsStore.empty (deployCalls "stage" "prod" "prod")) := by
  intro h
  have hrows : (finish storeStep ControlsStore.empty
      (deployCalls "stage" "prod" "prod")).operations.rows =
        [(deployClaim "k1" "a" "prod").reopen 2 1 ((deployClaim "k1" "a" "stage").row 0 0),
          (deployClaim "k2" "b" "prod").row 3 2] := rfl
  rw [Exclusive, hrows] at h
  have hsame := h _ List.mem_cons_self _ (List.mem_cons_of_mem _ List.mem_cons_self) rfl rfl rfl rfl rfl
  cases congrArg OperationRow.claim hsame

end Phlo.Controls
