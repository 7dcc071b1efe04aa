import Phlo.Dataset.Service

/-!
# What transitions do to each other

Clients run `transition` on a shared store, and overlay imports may happen in between.  Whatever they
do, records only move forward and committed actions stay (`World.Advances`): this is all a client can
rely on between two of its operations.  What it guarantees is that its compare-and-set was planned from
the record it loaded last (`Planned`).

* `advances_of_permitted` — what is guaranteed only advances the world;
* `keeps_transition` — every call of `transition` keeps to the guarantee, and its outcome is committed
  exactly if a compare-and-set of it has committed;
* `Planned.unchanged` — no writer comes between the load of a record and the commit planned from it.
-/

namespace Phlo.Dataset

open Phlo.Library Phlo.Library.Program
open Phlo.RunEvidence (Dict)

/-! ### States only move forward -/

def stateRank : String → ℕ
  | "claimed" => 1
  | "review" => 2
  | "promoted" => 3
  | "rejected" => 3
  | "draft" => 1
  | "published" => 2
  | "retired" => 3
  | _ => 0

variable {action : String} {states : List String}

variable {state : String}

theorem workflowTransitions_rank {toState : WorkflowState} (h : workflowTransitions action = some (states, toState))
    (hstate : states.contains state = true) : stateRank state < stateRank toState.value := by
  unfold workflowTransitions at h
  split at h
  all_goals cases h
  all_goals
    rw [List.contains_iff_mem, List.mem_singleton] at hstate
    subst hstate
    decide

theorem publicationTransitions_rank {toState : PublicationState}
    (h : publicationTransitions action = some (states, toState)) (hstate : states.contains state = true) :
    stateRank state < stateRank toState.value := by
  unfold publicationTransitions at h
  split at h
  all_goals cases h
  all_goals
    rw [List.contains_iff_mem, List.mem_singleton] at hstate
    subst hstate
    decide

theorem stateRank_pos (record : DatasetStateRecord) : 0 < stateRank record.currentState := by
  cases record with
  | candidate r => rw [DatasetStateRecord.currentState]; cases r.state <;> decide
  | dataset r => rw [DatasetStateRecord.currentState]; cases r.publicationState <;> decide

/-- Committed actions stay; a record is untouched, or has been written and is further on. -/
structure World.Advances (w w' : World) : Prop where
  actions : ∀ k a entry, w.store.actions k a = some entry → w'.store.actions k a = some entry
  records : ∀ k, (w'.store.records k = w.store.records k ∧ w'.writes k = w.writes k) ∨
    (stateRank (w.store.stateOf k) < stateRank (w'.store.stateOf k) ∧ w.writes k < w'.writes k)

namespace World.Advances

variable {w w' w'' : World}

theorem refl (w : World) : w.Advances w :=
  ⟨fun _ _ _ h => h, fun _ => Or.inl ⟨rfl, rfl⟩⟩

theorem stateOf_of_records {k : String} (h : w'.store.records k = w.store.records k) :
    w'.store.stateOf k = w.store.stateOf k := by rw [Store.stateOf, h, Store.stateOf]

theorem trans (w w' w'' : World) (h : w.Advances w') (h' : w'.Advances w'') : w.Advances w'' := by
  refine ⟨fun k a entry he => h'.actions k a entry (h.actions k a entry he), fun k => ?_⟩
  obtain ⟨hr, hv⟩ | ⟨hr, hv⟩ := h.records k
  · obtain ⟨hr', hv'⟩ | ⟨hr', hv'⟩ := h'.records k
    · exact Or.inl ⟨hr'.trans hr, hv'.trans hv⟩
    · rw [stateOf_of_records hr, hv] at *
      exact Or.inr ⟨hr', hv'⟩
  · obtain ⟨hr', hv'⟩ | ⟨hr', hv'⟩ := h'.records k
    · rw [stateOf_of_records hr', hv']
      exact Or.inr ⟨hr, hv⟩
    · exact Or.inr ⟨hr.trans hr', hv.trans hv'⟩

theorem rank_le (h : w.Advances w') (k : String) :
    stateRank (w.store.stateOf k) ≤ stateRank (w'.store.stateOf k) := by
  obtain ⟨hr, -⟩ | ⟨hr, -⟩ := h.records k
  · rw [stateOf_of_records hr]
  · exact hr.le

/-- A record found in the same state has not been touched: no state is entered twice. -/
theorem unchanged (h : w.Advances w') {k : String} (hstate : w'.store.stateOf k = w.store.stateOf k) :
    w'.store.records k = w.store.records k ∧ w'.writes k = w.writes k := by
  obtain hsame | ⟨hr, -⟩ := h.records k
  · exact hsame
  · rw [hstate] at hr
    exact absurd hr (lt_irrefl _)

end World.Advances

/-! ### What a compare-and-set was planned from -/

def loaded : Moment DatasetOp World → Option (String × World)
  | ⟨.load datasetId, w⟩ => some (datasetId, w)
  | _ => none

def lastLoad (past : List (Moment DatasetOp World)) : Option (String × World) := past.findSome? loaded

/-- The batch was planned for the request from the record loaded last, in world `w₀`. -/
structure Planned (past : List (Moment DatasetOp World)) (w : World) (batch : WriteBatch)
    (request : TransitionRequest) (resource : DatasetId) (w₀ : World) : Prop where
  validated : validatedResourceId request.resourceId = .ok resource
  load : lastLoad past = some (resource.text, w₀)
  advances : w₀.Advances w
  expected : request.expectedState = none ∨
    request.expectedState = some (w₀.store.stateOf resource.text)
  allowed : stateMachineCheck resource request.action (w₀.store.stateOf resource.text) = none
  planned : ∃ policyVersion, planWrites resource request (w₀.store.records resource.text)
    policyVersion = .ok batch

/-- What every operation guarantees. -/
def Permitted (past : List (Moment DatasetOp World)) : Moment DatasetOp World → Prop
  | ⟨.compareAndSet batch actionId action fingerprint, w⟩ =>
    ∃ request resource w₀, Planned past w batch request resource w₀ ∧ actionId = request.actionId ∧
      action = request.action ∧ fingerprint = request.fingerprint
  | _ => True

def Commits : Moment DatasetOp World → Prop
  | ⟨.compareAndSet batch actionId action fingerprint, w⟩ =>
    (w.store.compareAndSet batch actionId action fingerprint).2.status = .committed
  | _ => False

def HasCommitted (past : List (Moment DatasetOp World)) : Prop := ∃ m ∈ past, Commits m

/-- The outcome of a call is committed exactly if a compare-and-set of it has committed. -/
def Reports (past : List (Moment DatasetOp World)) (result : TransitionResult) (_ : World) : Prop :=
  HasCommitted past ↔ ∃ o, result = .ok o ∧ o.status = .committed

/-! ### The batches of a plan -/

/-- The transition of a record from one state to another that an action on a resource makes.  The only
action on one id that moves the record of another is a promotion, which creates the Dataset in draft. -/
def LegalMove (action : String) (resource : DatasetId) : DatasetId → String → String → Prop
  | .candidate table, fromState, toState => resource = .candidate table ∧
      ∃ states state, workflowTransitions action = some (states, state) ∧ fromState ∈ states ∧
        toState = state.value
  | .promoted table, fromState, toState =>
      (resource = .promoted table ∧
        ∃ states state, publicationTransitions action = some (states, state) ∧ fromState ∈ states ∧
          toState = state.value) ∨
      (resource = .candidate table ∧ action = "promote" ∧ fromState = workflowStateOpen ∧
        toState = PublicationState.draft.value)

theorem LegalMove.rank {fromState toState : String} {resource id : DatasetId}
    (h : LegalMove action resource id fromState toState) : stateRank fromState < stateRank toState := by
  cases id with
  | candidate table =>
    obtain ⟨-, states, state, haction, hfrom, rfl⟩ := h
    exact workflowTransitions_rank haction (List.contains_iff_mem.2 hfrom)
  | promoted table =>
    obtain ⟨-, states, state, haction, hfrom, rfl⟩ | ⟨-, -, rfl, rfl⟩ := h
    · exact publicationTransitions_rank haction (List.contains_iff_mem.2 hfrom)
    · decide

theorem workflowTransitions_promoted (h : workflowTransitions action = some (states, .promoted)) :
    action = "promote" := by
  unfold workflowTransitions at h
  split at h
  all_goals simp_all

/-- What `_plan_writes` plans: a step of a candidate, a promotion, or a step of a Dataset. -/
theorem planWrites_cases {resource : DatasetId} {request : TransitionRequest}
    {record : Option DatasetStateRecord} {policyVersion : String} {batch : WriteBatch}
    (h : planWrites resource request record policyVersion = .ok batch) :
    (∃ states state c, workflowTransitions request.action = some (states, state) ∧
      resource.isCandidate = true ∧ state ≠ .promoted ∧ c.state = state ∧
      batch = { last := ⟨resource.text, some (record.elim workflowStateOpen
        DatasetStateRecord.currentState), .candidate c⟩ }) ∨
    (∃ table c d, resource = .candidate table ∧ request.action = "promote" ∧ c.state = .promoted ∧
      d.tableId = table ∧ d.publicationState = .draft ∧
      batch =
        { before := [⟨resource.text, some (record.elim workflowStateOpen
            DatasetStateRecord.currentState), .candidate c⟩]
          last := ⟨table.name, some workflowStateOpen, .dataset d⟩ }) ∨
    (∃ states state d, publicationTransitions request.action = some (states, state) ∧
      resource.isCandidate = false ∧ d.publicationState = state ∧
      batch = { last := ⟨resource.text, some (record.elim workflowStateOpen
        DatasetStateRecord.currentState), .dataset d⟩ }) := by
  unfold planWrites at h
  cases resource with
  | candidate table =>
    dsimp only at h
    cases hwf : workflowTransitions request.action with
    | none => rw [hwf] at h; cases h
    | some transition =>
      obtain ⟨states, state⟩ := transition
      rw [hwf] at h
      dsimp only at h
      split at h
      next hpromoted =>
        subst hpromoted
        cases h
        exact Or.inr (Or.inl ⟨table, _, _, rfl, workflowTransitions_promoted hwf, rfl, rfl, rfl, rfl⟩)
      next hother =>
        cases h
        exact Or.inl ⟨states, state, _, rfl, rfl, hother, rfl, rfl⟩
  | promoted table =>
    dsimp only at h
    split at h
    next toState record hpt =>
      cases h
      exact Or.inr (Or.inr ⟨_, _, _, hpt, rfl, rfl, rfl⟩)
    all_goals cases h

theorem allowed_workflow {resource : DatasetId} {toState : WorkflowState} (hkind : resource.isCandidate = true)
    (h : stateMachineCheck resource action state = none)
    (haction : workflowTransitions action = some (states, toState)) : state ∈ states := by
  unfold stateMachineCheck fromStates at h
  rw [if_pos hkind, haction] at h
  by_contra hno
  rw [Option.map_some] at h
  dsimp only at h
  rw [if_neg fun hmem => hno (List.contains_iff_mem.1 hmem)] at h
  cases h

theorem allowed_publication {resource : DatasetId} {toState : PublicationState}
    (hkind : resource.isCandidate = false) (h : stateMachineCheck resource action state = none)
    (haction : publicationTransitions action = some (states, toState)) : state ∈ states := by
  unfold stateMachineCheck fromStates at h
  rw [if_neg (by rw [hkind]; exact Bool.false_ne_true), haction] at h
  by_contra hno
  rw [Option.map_some] at h
  dsimp only at h
  rw [if_neg fun hmem => hno (List.contains_iff_mem.1 hmem)] at h
  cases h

section

variable {past : List (Moment DatasetOp World)} {w w₀ : World} {batch : WriteBatch}
  {request : TransitionRequest} {resource : DatasetId}

theorem Planned.moves (h : Planned past w batch request resource w₀) :
    ∀ write ∈ batch.writes, ∃ id fromState, write.recordId = id.text ∧ write.expectedState = some fromState ∧
      LegalMove request.action resource id fromState write.nextRecord.currentState := by
  obtain ⟨policyVersion, hplan⟩ := h.planned
  have hallowed := h.allowed
  intro write hwrite
  obtain ⟨states, state, c, haction, hkind, -, hc, rfl⟩ | ⟨table, c, d, rfl, haction, hc, -, hd, rfl⟩ |
    ⟨states, state, d, haction, hkind, hd, rfl⟩ := planWrites_cases hplan
  · obtain rfl := List.mem_singleton.1 hwrite
    refine ⟨resource, _, rfl, rfl, ?_⟩
    cases resource with
    | candidate table =>
      exact ⟨rfl, states, state, haction, allowed_workflow rfl hallowed haction,
        congrArg WorkflowState.value hc⟩
    | promoted table => cases hkind
  · obtain rfl | rfl := List.mem_pair.1 hwrite
    · refine ⟨.candidate table, _, rfl, rfl, rfl, ["review"], .promoted, by rw [haction]; rfl, ?_,
        congrArg WorkflowState.value hc⟩
      exact allowed_workflow rfl hallowed (by rw [haction]; rfl)
    · exact ⟨.promoted table, _, rfl, rfl, Or.inr ⟨rfl, haction, rfl,
        congrArg PublicationState.value hd⟩⟩
  · obtain rfl := List.mem_singleton.1 hwrite
    refine ⟨resource, _, rfl, rfl, ?_⟩
    cases resource with
    | candidate table => cases hkind
    | promoted table =>
      exact Or.inl ⟨rfl, states, state, haction, allowed_publication rfl hallowed haction,
        congrArg PublicationState.value hd⟩

theorem Planned.nodup (h : Planned past w batch request resource w₀) :
    (batch.writes.map StoreWrite.recordId).Nodup := by
  obtain ⟨policyVersion, hplan⟩ := h.planned
  obtain ⟨_, _, _, _, _, _, _, rfl⟩ | ⟨table, c, d, rfl, _, _, _, _, rfl⟩ | ⟨_, _, _, _, _, _, rfl⟩ :=
    planWrites_cases hplan
  · exact List.nodup_singleton _
  · refine List.nodup_cons.2 ⟨fun hmem => ?_, List.nodup_singleton _⟩
    have htext : DatasetId.text (.candidate table) = DatasetId.text (.promoted table) :=
      List.mem_singleton.1 hmem
    cases text_injective htext
  · exact List.nodup_singleton _

theorem Planned.first (h : Planned past w batch request resource w₀) :
    ∃ write ∈ batch.writes, write.recordId = resource.text ∧
      write.expectedState = some (w₀.store.stateOf resource.text) := by
  obtain ⟨policyVersion, hplan⟩ := h.planned
  obtain ⟨_, _, _, _, _, _, _, rfl⟩ | ⟨table, c, d, rfl, _, _, _, _, rfl⟩ | ⟨_, _, _, _, _, _, rfl⟩ :=
    planWrites_cases hplan
  · exact ⟨_, List.mem_singleton_self _, rfl, rfl⟩
  · exact ⟨_, List.mem_cons_self, rfl, rfl⟩
  · exact ⟨_, List.mem_singleton_self _, rfl, rfl⟩

end

/-! ### The guarantee advances the world -/

theorem stateOf_commit {s : Store} {batch : WriteBatch} {actionId : String} {fingerprint : Fingerprint}
    (hnodup : (batch.writes.map StoreWrite.recordId).Nodup) {write : StoreWrite} (hwrite : write ∈ batch.writes) :
    (s.commit batch actionId action fingerprint).stateOf write.recordId = write.nextRecord.currentState := by
  rw [Store.stateOf, commit_records, foldl_put_records hnodup hwrite]
  rfl

theorem World.counted_of_ne {w : World} {ids : List String} {r : Store × StoreWriteResult}
    (hr : r.2.status ≠ .committed) : (w.counted ids r).1 = { w with store := r.1 } := by
  rw [World.counted, if_neg hr]

theorem World.counted_of_eq {w : World} {ids : List String} {r : Store × StoreWriteResult}
    (hr : r.2.status = .committed) :
    (w.counted ids r).1 = { w with store := r.1, writes := fun k => w.writes k + ids.count k } := by
  rw [World.counted, if_pos hr]

theorem Planned.advances_commit {past : List (Moment DatasetOp World)} {w w₀ : World}
    {batch : WriteBatch} {request : TransitionRequest} {resource : DatasetId}
    (h : Planned past w batch request resource w₀) (actionId action : String) (fingerprint : Fingerprint) :
    w.Advances (semantics.exec (.compareAndSet batch actionId action fingerprint) w).1 := by
  show w.Advances (w.counted _ _).1
  obtain ⟨hstatus, hnew, hmoved, hstore, -⟩ | ⟨hstatus, hstore⟩ :=
    compareAndSet_cases w.store batch actionId action fingerprint
  · rw [World.counted_of_eq hstatus, hstore]
    refine ⟨fun k a entry he => ?_, fun k => ?_⟩
    · rw [commit_actions, if_neg]
      · exact he
      · intro hka
        rw [hka.1, hka.2, hnew] at he
        cases he
    · by_cases hk : ∃ write ∈ batch.writes, write.recordId = k
      · obtain ⟨write, hwrite, rfl⟩ := hk
        obtain ⟨id, fromState, -, hfrom, hmove⟩ := h.moves write hwrite
        have hstate := expected_of_moved hmoved write hwrite
        rw [hfrom] at hstate
        cases hstate
        refine Or.inr ⟨?_, ?_⟩
        · show _ < stateRank ((w.store.commit batch actionId action fingerprint).stateOf _)
          rw [stateOf_commit h.nodup hwrite]
          exact hmove.rank
        · have hcount := List.count_pos_iff.2 (List.mem_map_of_mem (f := StoreWrite.recordId) hwrite)
          dsimp only
          omega
      · have hne : ∀ write ∈ batch.writes, write.recordId ≠ k := fun write hwrite heq =>
          hk ⟨write, hwrite, heq⟩
        refine Or.inl ⟨?_, ?_⟩
        · rw [commit_records]
          exact foldl_put_records_of_notMem hne _
        · have hcount : (batch.writes.map StoreWrite.recordId).count k = 0 := by
            rw [List.count_eq_zero, List.mem_map]
            intro hmem
            exact hk hmem
          dsimp only
          omega
  · rw [World.counted_of_ne hstatus, hstore]
    exact World.Advances.refl w

theorem advances_importOverlay (w : World) (imported : List DatasetStateRecord) (config : Dict)
    (actionId fingerprint : String) (actor scope : Option String) :
    w.Advances (w.importOverlay imported config actionId fingerprint actor scope) := by
  unfold World.importOverlay
  obtain ⟨hstatus, hnew, hrecords, hactions⟩ | ⟨hstatus, hstore⟩ :=
    commitMigration_cases w.store imported config actionId fingerprint actor scope
  · rw [World.counted_of_eq hstatus]
    refine ⟨fun k a entry he => by rw [hactions]; exact he, fun k => ?_⟩
    dsimp only
    have hids : imported.map (fun record => record.datasetId.text) =
        (importWrites imported).map StoreWrite.recordId := by
      rw [importWrites, List.map_map]
      rfl
    by_cases hk : k ∈ (importWrites imported).map StoreWrite.recordId
    · refine Or.inr ⟨?_, ?_⟩
      · obtain ⟨write, hwrite, hid, hstored⟩ := foldl_put_of_mem hk w.store
        obtain ⟨record, hrecord, rfl⟩ := List.mem_map.1 hwrite
        have hnone := hnew record hrecord
        rw [show record.datasetId.text = k from hid] at hnone
        rw [Store.stateOf, hnone, Store.stateOf, hrecords, hstored]
        exact stateRank_pos record
      · have hcount := List.count_pos_iff.2 hk
        rw [hids]
        omega
    · refine Or.inl ⟨?_, ?_⟩
      · rw [hrecords]
        exact foldl_put_records_of_notMem (fun write hwrite heq =>
          hk (List.mem_map.2 ⟨write, hwrite, heq⟩)) _
      · rw [hids, List.count_eq_zero.2 hk, Nat.add_zero]
  · rw [World.counted_of_ne hstatus, hstore]
    exact World.Advances.refl w

theorem advances_of_permitted (past : List (Moment DatasetOp World)) (m : Moment DatasetOp World)
    (h : Permitted past m) : m.before.Advances (m.after semantics) := by
  obtain ⟨op, w⟩ := m
  cases op with
  | load datasetId => exact World.Advances.refl w
  | committedAction datasetId actionId => exact World.Advances.refl w
  | readiness datasetId action => exact World.Advances.refl w
  | appendAudit event => exact ⟨fun _ _ _ he => he, fun _ => Or.inl ⟨rfl, rfl⟩⟩
  | compareAndSet batch actionId action fingerprint =>
    obtain ⟨request, resource, w₀, hplanned, -⟩ := h
    exact hplanned.advances_commit actionId action fingerprint

theorem advances_of_verdictsChange (w w' : World) (h : VerdictsChange w w') : w.Advances w' := by
  obtain ⟨verdict, rfl⟩ := h
  exact ⟨fun _ _ _ he => he, fun _ => Or.inl ⟨rfl, rfl⟩⟩

theorem advances_of_worldChanges {Imports : List DatasetStateRecord → Prop} (w w' : World)
    (h : WorldChanges Imports w w') : w.Advances w' := by
  obtain h | ⟨imported, config, actionId, fingerprint, actor, scope, -, rfl⟩ := h
  · exact advances_of_verdictsChange w w' h
  · exact advances_importOverlay w imported config actionId fingerprint actor scope

/-! ### Transitions keep to the guarantee -/

theorem hasCommitted_cons {m : Moment DatasetOp World} {past : List (Moment DatasetOp World)} :
    HasCommitted (m :: past) ↔ Commits m ∨ HasCommitted past := by
  simp [HasCommitted]

section

variable {past : List (Moment DatasetOp World)} {w : World} {request : TransitionRequest} {resource : DatasetId}

/-- To keep to the guarantee, and report what has been committed. -/
abbrev Abides : ServiceProgram → List (Moment DatasetOp World) → World → Prop :=
  Keeps semantics World.Advances Permitted Reports

variable {message : String}

theorem abides_error (h : ¬ HasCommitted past) : Abides (return .error message) past w := by
  intro w' _
  refine iff_of_false h fun hok => ?_
  obtain ⟨o, ho, -⟩ := hok
  cases ho

theorem abides_finishWith {status : TransitionStatus} {beforeState afterState : Option String}
    {record : Option DatasetStateRecord} {auditOutcome : String} {verdict : Option PolicyVerdict}
    (h : HasCommitted past ↔ status = .committed) :
    Abides (finishWith request status beforeState afterState record message auditOutcome verdict) past w := by
  intro w' _
  refine ⟨trivial, fun w'' _ => ?_⟩
  rw [Reports, hasCommitted_cons, or_iff_right (by exact id), h]
  constructor
  · intro hstatus
    exact ⟨_, rfl, hstatus⟩
  · intro hok
    obtain ⟨o, ho, hstatus⟩ := hok
    cases ho
    exact hstatus

theorem abides_failedOutcome {status : TransitionStatus} {beforeState afterState : Option String}
    {verdict : Option PolicyVerdict} (h : ¬ HasCommitted past) (hstatus : status ≠ .committed) :
    Abides (failedOutcome request status message beforeState afterState verdict) past w :=
  abides_finishWith (iff_of_false h hstatus)

theorem abides_replayOutcome {committed : CommittedAction} {beforeState : String} (h : ¬ HasCommitted past) :
    Abides (replayOutcome request committed beforeState) past w := by
  unfold replayOutcome
  split
  · intro w' _
    refine ⟨trivial, abides_finishWith (iff_of_false ?_ (by decide))⟩
    rw [hasCommitted_cons]
    exact not_or.2 ⟨id, h⟩
  · exact abides_failedOutcome h (by decide)

/-- After the compare-and-set: a call that retries has committed nothing, and one that has committed
says so. -/
theorem abides_afterWrite {beforeState : String} {verdict : PolicyVerdict} {retry : ServiceProgram}
    {result : StoreWriteResult} (hretry : ¬ HasCommitted past → Abides retry past w)
    (hresult : HasCommitted past ↔ result.status = .committed) :
    Abides (afterWrite resource request beforeState verdict retry result) past w := by
  unfold afterWrite
  dsimp only
  split
  next hstatus =>
    rw [hstatus] at hresult
    exact hretry fun hcommitted => by cases hresult.1 hcommitted
  next hstatus =>
    rw [hstatus] at hresult
    intro w' _
    refine ⟨trivial, abides_finishWith (iff_of_false ?_ (by decide))⟩
    rw [hasCommitted_cons]
    exact not_or.2 ⟨id, fun hcommitted => by cases hresult.1 hcommitted⟩
  next hstatus =>
    rw [hstatus] at hresult
    exact abides_failedOutcome (fun hcommitted => by cases hresult.1 hcommitted) (by decide)
  next hstatus =>
    rw [hstatus] at hresult
    exact abides_finishWith (iff_of_true (hresult.2 rfl) rfl)

theorem lastLoad_cons_of_not {m : Moment DatasetOp World} (h : loaded m = none) :
    lastLoad (m :: past) = lastLoad past := by
  rw [lastLoad, List.findSome?_cons, h]
  rfl

theorem abides_checkAndWrite {w₀ : World} {retry : ServiceProgram}
    (hvalidated : validatedResourceId request.resourceId = .ok resource)
    (hload : lastLoad past = some (resource.text, w₀)) (hadvances : w₀.Advances w)
    (hexpected : request.expectedState = none ∨ request.expectedState = some (w₀.store.stateOf resource.text))
    (hnone : ¬ HasCommitted past) (hretry : ∀ past w, ¬ HasCommitted past → Abides retry past w) :
    Abides (checkAndWrite resource request (w₀.store.records resource.text)
      (w₀.store.stateOf resource.text) retry) past w := by
  unfold checkAndWrite
  cases hcheck : stateMachineCheck resource request.action (w₀.store.stateOf resource.text) with
  | some message =>
    dsimp only
    split
    · exact abides_failedOutcome hnone (by decide)
    · exact abides_failedOutcome hnone (by decide)
  | none =>
    refine keeps_perform_bind.2 fun w₁ hw₁ => ⟨trivial, ?_⟩
    have hload₁ : lastLoad (⟨.readiness resource.text request.action, w₁⟩ :: past) = some (resource.text, w₀) := by
      rw [lastLoad_cons_of_not rfl]
      exact hload
    have hnone₁ : ¬ HasCommitted (⟨.readiness resource.text request.action, w₁⟩ :: past) := by
      rw [hasCommitted_cons]
      exact not_or.2 ⟨id, hnone⟩
    rw [exec_readiness]
    dsimp only
    split
    · exact abides_failedOutcome hnone₁ (by decide)
    · split
      · exact abides_error hnone₁
      next batch hplan =>
        refine keeps_perform_bind.2 fun w₂ hw₂ => ⟨?_, abides_afterWrite (hretry _ _) ?_⟩
        · have hadvances₂ := hadvances.trans _ _ _ (hw₁.trans _ _ _ hw₂)
          exact ⟨request, resource, w₀,
            ⟨hvalidated, hload₁, hadvances₂, hexpected, hcheck, _, hplan⟩, rfl, rfl, rfl⟩
        · rw [hasCommitted_cons, or_iff_left hnone₁]
          exact Iff.rfl

/-- Every attempt keeps to the guarantee, by induction on the attempts left. -/
theorem abides_attempt (hvalidated : validatedResourceId request.resourceId = .ok resource) (n : ℕ) :
    ∀ past w, ¬ HasCommitted past → Abides (attempt resource request n) past w := by
  induction n with
  | zero =>
    intro past w hnone
    exact abides_failedOutcome hnone (by decide)
  | succ n ih =>
    intro past w hnone
    refine keeps_perform_bind.2 fun w₀ _ => ⟨trivial, ?_⟩
    have hnone₀ : ¬ HasCommitted (⟨.load resource.text, w₀⟩ :: past) := by
      rw [hasCommitted_cons]
      exact not_or.2 ⟨id, hnone⟩
    rw [exec_load]
    dsimp only
    split
    · exact abides_failedOutcome hnone₀ (by decide)
    next hexpected =>
      rw [not_and_or, not_not, not_not] at hexpected
      refine keeps_perform_bind.2 fun w₁ hw₁ => ⟨trivial, ?_⟩
      have hnone₁ : ¬ HasCommitted (⟨.committedAction resource.text request.actionId, w₁⟩ ::
          ⟨.load resource.text, w₀⟩ :: past) := by
        rw [hasCommitted_cons]
        exact not_or.2 ⟨id, hnone₀⟩
      rw [exec_committedAction]
      dsimp only
      split
      · exact abides_replayOutcome hnone₁
      · exact abides_checkAndWrite hvalidated rfl hw₁ hexpected hnone₁ ih

/-- **Every call of `transition` keeps to the guarantee.** -/
theorem keeps_transition (request : TransitionRequest) (w : World) : Abides (transition request) [] w := by
  have hnone : ¬ HasCommitted [] := fun h => by
    obtain ⟨m, hm, -⟩ := h
    cases hm
  unfold transition
  cases hvalidated : validatedResourceId request.resourceId with
  | error message => exact abides_error hnone
  | ok resource =>
    dsimp only
    by_cases hvalid : (if resource.isCandidate = true then workflowActions
      else publicationActions).contains request.action = true
    · rw [if_pos hvalid]
      exact abides_attempt hvalidated _ _ _ hnone
    · rw [if_neg hvalid]
      exact abides_failedOutcome hnone (by decide)

end

theorem Planned.unchanged {past : List (Moment DatasetOp World)} {w w₀ : World} {batch : WriteBatch}
    {request : TransitionRequest} {resource : DatasetId}
    (h : Planned past w batch request resource w₀) (hmoved : w.store.moved batch = none) :
    w.store.records resource.text = w₀.store.records resource.text ∧
      w.writes resource.text = w₀.writes resource.text := by
  obtain ⟨write, hwrite, hid, hexpected⟩ := h.first
  have hstate := expected_of_moved hmoved write hwrite
  rw [hexpected, hid] at hstate
  exact h.advances.unchanged (Option.some.inj hstate).symm

end Phlo.Dataset
