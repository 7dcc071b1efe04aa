import Phlo.Dataset.Interference

/-!
# The lifecycle of a Dataset under concurrency

Any number of clients call `transition` with any requests on one store that starts empty; loads, lookups
and compare-and-sets are atomic and come in any order.

* `Commit`, `history` — what has been committed to a record, in order;
* `LifecycleSafe` — the committed states of every record are a path of its state machine, a state without
  a way out is never left, only commits change anything, and no two commits start from the same version of
  a record.
-/

namespace Phlo.Dataset

open Phlo.Library Phlo.Library.Program

variable {ι : Type}

abbrev DatasetNetwork (ι : Type) := Network ι DatasetOp World TransitionResult

/-- One write of a record that has been committed: by which action on which resource, from which state to
which. -/
structure Commit where
  resourceId : String
  actionId : String
  action : String
  fromState : String
  toState : String
  deriving DecidableEq

def commitTo (recordId : String) (e : Entry ι DatasetOp World) : Option Commit :=
  match e.moment with
  | ⟨.compareAndSet batch actionId action fingerprint, w⟩ =>
    if (w.store.compareAndSet batch actionId action fingerprint).2.status = .committed then
      (batch.writes.find? fun write => write.recordId = recordId).map fun write =>
        { resourceId := fingerprint.resourceId
          actionId, action
          fromState := w.store.stateOf recordId
          toState := write.nextRecord.currentState }
    else none
  | _ => none

/-- All that has been committed to a record, the earliest first. -/
def history (recordId : String) (trace : List (Entry ι DatasetOp World)) : List Commit :=
  trace.reverse.filterMap (commitTo recordId)

/-- The commits lead from one state to another, each from where the one before has led. -/
def IsPath : String → List Commit → String → Prop
  | fromState, [], toState => fromState = toState
  | fromState, c :: cs, toState => c.fromState = fromState ∧ IsPath c.toState cs toState

/-- A commit makes a transition of the state machine of its record. -/
def Commit.LegalFor (id : DatasetId) (c : Commit) : Prop :=
  ∃ resource : DatasetId, c.resourceId = resource.text ∧ LegalMove c.action resource id c.fromState c.toState

/-- The record and the version of it that a commit was planned from. -/
def basis (e : Entry ι DatasetOp World) : Option (String × ℕ) :=
  match e.moment with
  | ⟨.compareAndSet batch actionId action fingerprint, w⟩ =>
    if (w.store.compareAndSet batch actionId action fingerprint).2.status = .committed then
      (lastLoad e.past).map fun load => (load.1, load.2.writes load.1)
    else none
  | _ => none

def Terminal : DatasetId → String → Prop
  | .candidate _, state => ∀ action states toState,
      workflowTransitions action = some (states, toState) → state ∉ states
  | .promoted _, state => ∀ action states toState,
      publicationTransitions action = some (states, toState) → state ∉ states

/-- What holds of every record and every commit so far, and of every next step. -/
structure LifecycleSafe [DecidableEq ι] (n : DatasetNetwork ι) (next : DatasetNetwork ι → Prop) : Prop where
  /-- The committed states are a path from open to the state stored. -/
  path : ∀ id : DatasetId,
    IsPath workflowStateOpen (history id.text n.trace) (n.shared.store.stateOf id.text)
  /-- Each commit is a transition of the tables, or the creation of a Dataset in draft by a promotion. -/
  legal : ∀ (id : DatasetId), ∀ c ∈ history id.text n.trace, c.LegalFor id
  /-- Only canonical ids are ever written. -/
  canonical : ∀ recordId, (∀ id : DatasetId, id.text ≠ recordId) → n.shared.store.records recordId = none
  /-- A state without a way out is never left. -/
  terminal : ∀ n', next n' → ∀ (id : DatasetId) record, n.shared.store.records id.text = some record →
    Terminal id record.currentState → n'.shared.store.records id.text = some record
  /-- Records and actions change only in an operation that returns committed. -/
  committed_only : ∀ n', next n' →
    (n'.shared.store.records ≠ n.shared.store.records ∨
      n'.shared.store.actions ≠ n.shared.store.actions) →
    ∃ e, n'.trace = e :: n.trace ∧ Commits e.moment
  /-- A call returns committed exactly if one of its operations has. -/
  reported : ∀ i result past, n.threads i = some ⟨.done result, past⟩ →
    (HasCommitted past ↔ ∃ o, result = .ok o ∧ o.status = .committed)
  /-- No two commits were planned from the same version of a record. -/
  no_lost_transition : (n.trace.filterMap basis).Nodup

/-! ### Paths -/

theorem IsPath.append {a b c : String} {cs ds : List Commit} (h : IsPath a cs b) (h' : IsPath b ds c) :
    IsPath a (cs ++ ds) c := by
  induction cs generalizing a with
  | nil =>
    obtain rfl : a = b := h
    exact h'
  | cons d cs ih => exact ⟨h.1, ih h.2⟩

theorem history_cons (recordId : String) (e : Entry ι DatasetOp World) (trace : List (Entry ι DatasetOp World)) :
    history recordId (e :: trace) = history recordId trace ++ (commitTo recordId e).toList := by
  rw [history, List.reverse_cons, List.filterMap_append, history]
  cases h : commitTo recordId e with
  | none => rw [List.filterMap_cons_none h, List.filterMap_nil, Option.toList_none]
  | some c => rw [List.filterMap_cons_some h, List.filterMap_nil, Option.toList_some]

/-! ### One operation -/

section

variable {e : Entry ι DatasetOp World} {batch : WriteBatch} {actionId action : String}
  {fingerprint : Fingerprint} {w : World} {past : List (Moment DatasetOp World)} {i : ι}

abbrev writeEntry (i : ι) (past : List (Moment DatasetOp World)) (batch : WriteBatch)
    (actionId action : String) (fingerprint : Fingerprint) (w : World) : Entry ι DatasetOp World :=
  ⟨i, past, ⟨.compareAndSet batch actionId action fingerprint, w⟩⟩

theorem permitted_cases (h : Permitted e.past e.moment) :
    ((e.moment.after semantics).store.records = e.moment.before.store.records ∧
      (e.moment.after semantics).store.actions = e.moment.before.store.actions ∧
      (e.moment.after semantics).writes = e.moment.before.writes ∧
      (∀ recordId, commitTo recordId e = none) ∧ basis e = none ∧ ¬ Commits e.moment) ∨
    (∃ i past batch w request resource w₀,
      e = writeEntry i past batch request.actionId request.action request.fingerprint w ∧
      Planned past w batch request resource w₀ ∧
      (w.store.compareAndSet batch request.actionId request.action request.fingerprint).2.status =
        .committed ∧ w.store.moved batch = none ∧
      (e.moment.after semantics) = { w with
        store := w.store.commit batch request.actionId request.action request.fingerprint
        writes := fun k => w.writes k + (batch.writes.map StoreWrite.recordId).count k }) := by
  obtain ⟨i, past, op, w⟩ := e
  cases op with
  | load datasetId => exact Or.inl ⟨rfl, rfl, rfl, fun _ => rfl, rfl, id⟩
  | committedAction datasetId actionId => exact Or.inl ⟨rfl, rfl, rfl, fun _ => rfl, rfl, id⟩
  | readiness datasetId action => exact Or.inl ⟨rfl, rfl, rfl, fun _ => rfl, rfl, id⟩
  | appendAudit event => exact Or.inl ⟨rfl, rfl, rfl, fun _ => rfl, rfl, id⟩
  | compareAndSet batch actionId action fingerprint =>
    obtain ⟨request, resource, w₀, hplanned, rfl, rfl, rfl⟩ := h
    obtain ⟨hstatus, -, hmoved, hstore, -⟩ | ⟨hstatus, hstore⟩ :=
      compareAndSet_cases w.store batch request.actionId request.action request.fingerprint
    · refine Or.inr ⟨i, past, batch, w, request, resource, w₀, rfl, hplanned, hstatus, hmoved, ?_⟩
      show (w.counted _ _).1 = _
      rw [World.counted_of_eq hstatus, hstore]
    · have hafter : (w.counted (batch.writes.map StoreWrite.recordId) (w.store.compareAndSet batch
          request.actionId request.action request.fingerprint)).1 = w := by
        rw [World.counted_of_ne hstatus, hstore]
      refine Or.inl ⟨?_, ?_, ?_, fun recordId => if_neg hstatus, if_neg hstatus,
        hstatus⟩
      · exact congrArg (fun w => w.store.records) hafter
      · exact congrArg (fun w => w.store.actions) hafter
      · exact congrArg World.writes hafter

end

/-! ### All operations -/

/-- What the commits so far and the store have to do with each other. -/
structure Recorded (w : World) (trace : List (Entry ι DatasetOp World)) : Prop where
  path : ∀ id : DatasetId, IsPath workflowStateOpen (history id.text trace) (w.store.stateOf id.text)
  legal : ∀ (id : DatasetId), ∀ c ∈ history id.text trace, c.LegalFor id
  canonical : ∀ recordId, (∀ id : DatasetId, id.text ≠ recordId) → w.store.records recordId = none
  earlier : ∀ b ∈ trace.filterMap basis, b.2 < w.writes b.1
  nodup : (trace.filterMap basis).Nodup

section

variable {e : Entry ι DatasetOp World} {trace : List (Entry ι DatasetOp World)}

theorem recorded_initial (verdict : String → String → PolicyVerdict) :
    Recorded (World.initial verdict) ([] : List (Entry ι DatasetOp World)) where
  path _ := rfl
  legal _ _ hc := absurd hc List.not_mem_nil
  canonical _ _ := rfl
  earlier _ hb := absurd hb List.not_mem_nil
  nodup := List.nodup_nil

theorem Recorded.skip {w w' : World} (h : Recorded w trace)
    (hrecords : w'.store.records = w.store.records) (hwrites : w'.writes = w.writes)
    (hcommit : ∀ recordId, commitTo recordId e = none) (hbasis : basis e = none) : Recorded w' (e :: trace) := by
  have hhistory : ∀ recordId, history recordId (e :: trace) = history recordId trace := by
    intro recordId
    rw [history_cons, hcommit, Option.toList_none, List.append_nil]
  have hbases : (e :: trace).filterMap basis = trace.filterMap basis := List.filterMap_cons_none hbasis
  refine ⟨fun id => ?_, fun id => ?_, fun recordId hid => ?_, ?_, ?_⟩
  · rw [hhistory, Store.stateOf, hrecords]
    exact h.path id
  · rw [hhistory]
    exact h.legal id
  · rw [hrecords]
    exact h.canonical recordId hid
  · rw [hbases, hwrites]
    exact h.earlier
  · rw [hbases]
    exact h.nodup

theorem commitTo_writeEntry {i : ι} {past : List (Moment DatasetOp World)} {batch : WriteBatch}
    {actionId action : String} {fingerprint : Fingerprint} {w : World}
    (hstatus : (w.store.compareAndSet batch actionId action fingerprint).2.status = .committed)
    (recordId : String) :
    commitTo recordId (writeEntry i past batch actionId action fingerprint w) =
      (batch.writes.find? fun write => write.recordId = recordId).map fun write =>
        { resourceId := fingerprint.resourceId
          actionId, action
          fromState := w.store.stateOf recordId
          toState := write.nextRecord.currentState } :=
  if_pos hstatus

theorem Recorded.commit {i : ι} {past : List (Moment DatasetOp World)} {batch : WriteBatch}
    {request : TransitionRequest} {resource : DatasetId} {w w₀ : World} (h : Recorded w trace)
    (hplanned : Planned past w batch request resource w₀)
    (hstatus : (w.store.compareAndSet batch request.actionId request.action
      request.fingerprint).2.status = .committed)
    (hmoved : w.store.moved batch = none) :
    Recorded { w with
        store := w.store.commit batch request.actionId request.action request.fingerprint
        writes := fun k => w.writes k + (batch.writes.map StoreWrite.recordId).count k }
      (writeEntry i past batch request.actionId request.action request.fingerprint w :: trace) := by
  have hresource : request.resourceId = resource.text := (text_of_validated hplanned.validated).symm
  have hbasis : basis (writeEntry i past batch request.actionId request.action request.fingerprint w) =
      some (resource.text, w.writes resource.text) := by
    rw [(hplanned.unchanged hmoved).2]
    show (if _ then _ else _) = _
    rw [if_pos hstatus, hplanned.load]
    rfl
  have hwritten : ∀ id : DatasetId, ∀ write ∈ batch.writes, write.recordId = id.text →
      LegalMove request.action resource id (w.store.stateOf id.text) write.nextRecord.currentState := by
    intro id write hwrite hid
    obtain ⟨id', fromState, hid', hfrom, hmove⟩ := hplanned.moves write hwrite
    obtain rfl := text_injective (hid'.symm.trans hid)
    have hstate := expected_of_moved hmoved write hwrite
    rw [hfrom, hid'] at hstate
    cases hstate
    exact hmove
  refine ⟨fun id => ?_, fun id => ?_, fun recordId hid => ?_, ?_, ?_⟩
  · rw [history_cons, commitTo_writeEntry hstatus]
    cases hfind : batch.writes.find? fun write => write.recordId = id.text with
    | none =>
      rw [Option.map_none, Option.toList_none, List.append_nil]
      have hstored : (w.store.commit batch request.actionId request.action
          request.fingerprint).stateOf id.text = w.store.stateOf id.text := by
        have hne : ∀ write ∈ batch.writes, write.recordId ≠ id.text := by
          intro write hwrite
          simpa using List.find?_eq_none.1 hfind write hwrite
        rw [Store.stateOf, commit_records, foldl_put_records_of_notMem hne, Store.stateOf]
      show IsPath _ _ (Store.stateOf _ _)
      rw [hstored]
      exact h.path id
    | some write =>
      have hwrite := List.mem_of_find?_eq_some hfind
      have hid : write.recordId = id.text := by simpa using List.find?_some hfind
      have hstored : (w.store.commit batch request.actionId request.action
          request.fingerprint).stateOf write.recordId = write.nextRecord.currentState :=
        stateOf_commit hplanned.nodup hwrite
      rw [hid] at hstored
      refine (h.path id).append ⟨rfl, ?_⟩
      exact hstored.symm
  · rw [history_cons, commitTo_writeEntry hstatus]
    intro c hc
    obtain hc | hc := List.mem_append.1 hc
    · exact h.legal id c hc
    · obtain ⟨write, hfind, rfl⟩ := Option.map_eq_some_iff.1 (Option.mem_toList.1 hc)
      have hid : write.recordId = id.text := by simpa using List.find?_some hfind
      exact ⟨resource, hresource, hwritten id write (List.mem_of_find?_eq_some hfind) hid⟩
  · have hne : ∀ write ∈ batch.writes, write.recordId ≠ recordId := by
      intro write hwrite heq
      obtain ⟨id, _, htext, _⟩ := hplanned.moves write hwrite
      exact hid id (htext.symm.trans heq)
    rw [commit_records, foldl_put_records_of_notMem hne]
    exact h.canonical recordId hid
  · rw [List.filterMap_cons_some hbasis]
    intro b hb
    obtain rfl | hb := List.mem_cons.1 hb
    · obtain ⟨write, hwrite, hid, -⟩ := hplanned.first
      have hmem := List.mem_map_of_mem (f := StoreWrite.recordId) hwrite
      rw [hid] at hmem
      have hcount := List.count_pos_iff.2 hmem
      dsimp only
      omega
    · have hbound := h.earlier b hb
      dsimp only
      omega
  · rw [List.filterMap_cons_some hbasis]
    refine List.nodup_cons.2 ⟨fun hmem => ?_, h.nodup⟩
    exact lt_irrefl _ (h.earlier _ hmem)

end

/-! ### Every network -/

section

variable [DecidableEq ι] {n n' : DatasetNetwork ι} {verdict : String → String → PolicyVerdict}

/-- The clients call `transition`. -/
def IsTransition (p : ServiceProgram) : Prop := ∃ request, p = transition request

abbrev Reached (verdict : String → String → PolicyVerdict) (n : DatasetNetwork ι) : Prop :=
  Network.Reachable semantics IsTransition VerdictsChange (World.initial verdict) n

abbrev ReachedWith (Imports : List DatasetStateRecord → Prop)
    (verdict : String → String → PolicyVerdict) (n : DatasetNetwork ι) : Prop :=
  Network.Reachable semantics IsTransition (WorldChanges Imports) (World.initial verdict) n

/-- Everybody keeps to their part, also when the world moves on by itself. -/
theorem guarded_of_advances {Drift : World → World → Prop} (hdrift : ∀ w w', Drift w w' → w.Advances w')
    (h : Network.Reachable semantics IsTransition Drift (World.initial verdict) n) :
    Guarded semantics World.Advances Permitted Reports (World.initial verdict) n := by
  refine guarded_of_reachable World.Advances.refl World.Advances.trans advances_of_permitted hdrift
    (fun p hp w _ => ?_) h
  obtain ⟨request, rfl⟩ := hp
  exact keeps_transition request w

theorem guarded_of_reached (h : Reached verdict n) :
    Guarded semantics World.Advances Permitted Reports (World.initial verdict) n :=
  guarded_of_advances advances_of_verdictsChange h

theorem recorded_of_reached (h : Reached verdict n) : Recorded n.shared n.trace := by
  refine trace_inv (fun n => guarded_of_reached) World.Advances.refl (recorded_initial verdict)
    (fun w w' l hw hl => ?_) (fun l e hg hl => ?_) h
  · obtain ⟨verdict', rfl⟩ := hw
    exact ⟨hl.path, hl.legal, hl.canonical, hl.earlier, hl.nodup⟩
  · obtain ⟨hrecords, -, hwrites, hcommit, hbasis, -⟩ |
      ⟨i, past, batch, w, request, resource, w₀, rfl, hplanned, hstatus, hmoved, hafter⟩ :=
      permitted_cases hg
    · exact hl.skip hrecords hwrites hcommit hbasis
    · rw [hafter]
      exact Recorded.commit hl hplanned hstatus hmoved

theorem step_cases (h : Reached verdict n) (hstep : Network.Step semantics IsTransition VerdictsChange n n') :
    (n'.shared.store.records = n.shared.store.records ∧ n'.shared.store.actions = n.shared.store.actions) ∨
    (∃ i past batch request resource w₀,
      n'.trace = writeEntry i past batch request.actionId request.action request.fingerprint n.shared :: n.trace ∧
      Planned past n.shared batch request resource w₀ ∧
      (n.shared.store.compareAndSet batch request.actionId request.action request.fingerprint).2.status = .committed ∧
      n.shared.store.moved batch = none ∧
      n'.shared.store.records = (batch.writes.foldl Store.put n.shared.store).records) := by
  cases hstep with
  | start i p hp => exact Or.inl ⟨rfl, rfl⟩
  | drift s hs =>
    obtain ⟨verdict', rfl⟩ := hs
    exact Or.inl ⟨rfl, rfl⟩
  | operate i op rest past hi =>
    have hg : Permitted past ⟨op, n.shared⟩ :=
      (guarded_of_reached h).operation World.Advances.refl hi
    obtain ⟨hrecords, hactions, -⟩ |
      ⟨j, past', batch, w, request, resource, w₀, he, hplanned, hstatus, hmoved, hafter⟩ :=
      permitted_cases (e := ⟨i, past, ⟨op, n.shared⟩⟩) hg
    · exact Or.inl ⟨hrecords, hactions⟩
    · cases he
      refine Or.inr ⟨i, past, batch, request, resource, w₀, rfl, hplanned, hstatus, hmoved, ?_⟩
      exact congrArg (fun w => w.store.records) hafter

theorem terminal_kept {past : List (Moment DatasetOp World)} {batch : WriteBatch}
    {request : TransitionRequest} {resource id : DatasetId} {w w₀ : World}
    (hplanned : Planned past w batch request resource w₀) (hmoved : w.store.moved batch = none)
    {record : DatasetStateRecord} (hrecord : w.store.records id.text = some record)
    (hterminal : Terminal id record.currentState) :
    (batch.writes.foldl Store.put w.store).records id.text = some record := by
  rw [foldl_put_records_of_notMem, hrecord]
  intro write hwrite hid
  obtain ⟨id', fromState, hid', hfrom, hmove⟩ := hplanned.moves write hwrite
  obtain rfl := text_injective (hid'.symm.trans hid)
  have hstate := expected_of_moved hmoved write hwrite
  rw [hfrom, hid', Store.stateOf, hrecord] at hstate
  cases hstate
  cases id' with
  | candidate table =>
    obtain ⟨-, states, state, haction, hmem, -⟩ := hmove
    exact hterminal _ _ _ haction hmem
  | promoted table =>
    obtain ⟨-, states, state, haction, hmem, -⟩ | ⟨-, -, hopen, -⟩ := hmove
    · exact hterminal _ _ _ haction hmem
    · have hpos := stateRank_pos record
      rw [show record.currentState = workflowStateOpen from hopen] at hpos
      exact absurd hpos (by decide)

/-- **Dataset lifecycle safety.**  Whatever the clients call and in whatever order their operations come,
the network is safe, and so is every next step. -/
theorem lifecycle_safe (verdict : String → String → PolicyVerdict) (n : DatasetNetwork ι) (h : Reached verdict n) :
    LifecycleSafe n (Network.Step semantics IsTransition VerdictsChange n) where
  path := (recorded_of_reached h).path
  legal := (recorded_of_reached h).legal
  canonical := (recorded_of_reached h).canonical
  terminal n' hstep id record hrecord hterminal := by
    obtain ⟨hrecords, -⟩ | ⟨i, past, batch, request, resource, w₀, -, hplanned, -, hmoved, hrecords⟩ :=
      step_cases h hstep
    · rw [hrecords]
      exact hrecord
    · rw [hrecords]
      exact terminal_kept hplanned hmoved hrecord hterminal
  committed_only n' hstep hchanged := by
    obtain ⟨hrecords, hactions⟩ | ⟨i, past, batch, request, resource, w₀, htrace, -, hstatus, -, -⟩ :=
      step_cases h hstep
    · exact absurd hchanged (not_or.2 ⟨not_not_intro hrecords, not_not_intro hactions⟩)
    · exact ⟨_, htrace, hstatus⟩
  reported i result past hi := (guarded_of_reached h).result World.Advances.refl hi
  no_lost_transition := (recorded_of_reached h).nodup

end

/-- Every action is allowed by version 1 of the policy. -/
def readyVerdict (_ _ : String) : PolicyVerdict := ⟨"1", true⟩

def claimBy (actionId : String) (h : actionId ≠ "") : TransitionRequest where
  resourceId := "candidate:orders"
  action := "claim"
  actionId := actionId
  actionId_ne := h

/-- Two clients claim a candidate, operation by operation in turns. -/
def claimRace : DatasetNetwork Bool :=
  [true, false, true, false, true, false, true, false, true, false].foldl (Network.tick semantics)
    (((Network.idle (World.initial readyVerdict)).call true
      (transition (claimBy "a" (by decide)))).call false (transition (claimBy "b" (by decide))))

/-- One of the two claims commits. -/
theorem lifecycle_safe_race : (history "candidate:orders" claimRace.trace).map (fun c => (c.actionId, c.toState)) =
        [("a", "claimed")] ∧ LifecycleSafe claimRace (Network.Step semantics IsTransition VerdictsChange claimRace) :=
  ⟨by decide +kernel, lifecycle_safe readyVerdict claimRace
    (((Network.Reachable.init.call true ⟨_, rfl⟩).call false ⟨_, rfl⟩).schedule _)⟩

end Phlo.Dataset
