import Phlo.Dataset.Lifecycle

/-!
# Replaying a committed request

A request that has committed is meant to be answered, when it is made again, with the outcome it had.
It is, unless it is a promotion or names the state it expects: a promotion is filed under the id of the
Dataset it creates and looked up under that of the candidate, and the expected state is compared before
the action is looked up.

* `promotion_not_replayed` — a promotion that is refused when it is made again;
* `changed_by_listed` — only actions that are listed before a commit change a record.
-/

namespace Phlo.Dataset

open Phlo.Library Phlo.Library.Program

variable {ι : Type}

/-! ### Commits and replays -/

/-- The request that an operation has committed, and the record that the outcome reports. -/
def committedAs (e : Entry ι DatasetOp World) : Option (Fingerprint × DatasetStateRecord) :=
  match e.moment with
  | ⟨.compareAndSet batch actionId action fingerprint, w⟩ =>
    if (w.store.compareAndSet batch actionId action fingerprint).2.status = .committed then
      (w.store.compareAndSet batch actionId action fingerprint).2.records.getLast?.map fun record =>
        (fingerprint, record)
    else none
  | _ => none

def Returned (request : TransitionRequest) (record : DatasetStateRecord) (e : Entry ι DatasetOp World) : Prop :=
  committedAs e = some (request.fingerprint, record)

theorem committedAs_of_not {e : Entry ι DatasetOp World} (h : ¬ Commits e.moment) : committedAs e = none := by
  obtain ⟨i, past, op, w⟩ := e
  cases op with
  | compareAndSet batch actionId action fingerprint => exact if_neg h
  | _ => rfl

def DatasetStateRecord.isCandidate (record : DatasetStateRecord) : Bool := record.datasetId.isCandidate

/-- Made again in world `w`, the request is answered with the state and the kind of record it was
answered with when it committed, and no record and no action changes. -/
structure Replays (request : TransitionRequest) (record : DatasetStateRecord) (w : World) : Prop where
  outcome : ∃ o found, (alone semantics (transition request) w).2 = .ok o ∧ o.status = .replayed ∧
    o.afterState = some record.currentState ∧ o.record = some found ∧
    found.isCandidate = record.isCandidate
  records : (alone semantics (transition request) w).1.store.records = w.store.records
  actions : (alone semantics (transition request) w).1.store.actions = w.store.actions

/-! ### What the store remembers -/

/-- The request has moved its resource past the state it was allowed in, and unless it was a promotion it
is filed under its resource. -/
structure Kept (request : TransitionRequest) (record : DatasetStateRecord) (resource : DatasetId)
    (before : String) (w : World) : Prop where
  validated : validatedResourceId request.resourceId = .ok resource
  expected : request.expectedState = none ∨ request.expectedState = some before
  allowed : stateMachineCheck resource request.action before = none
  past : stateRank before < stateRank (w.store.stateOf resource.text)
  filed : request.action ≠ "promote" → ∃ entry,
    w.store.actions resource.text request.actionId = some entry ∧
    entry.fingerprint = request.fingerprint ∧ entry.afterState = some record.currentState
  kind : request.action ≠ "promote" → record.isCandidate = resource.isCandidate

theorem Kept.advance {request : TransitionRequest} {record : DatasetStateRecord} {resource : DatasetId}
    {before : String} {w w' : World} (h : Kept request record resource before w) (hw : w.Advances w') :
    Kept request record resource before w' where
  validated := h.validated
  expected := h.expected
  allowed := h.allowed
  past := h.past.trans_le (hw.rank_le _)
  filed hother := by
    obtain ⟨entry, hentry, hfingerprint, hafter⟩ := h.filed hother
    exact ⟨entry, hw.actions _ _ _ hentry, hfingerprint, hafter⟩
  kind := h.kind

/-- Records are of the kind of their id, no promotion is filed under a candidate, and every request that
has committed is kept. -/
structure Remembers (w : World) (trace : List (Entry ι DatasetOp World)) : Prop where
  kinds : ∀ (id : DatasetId) record, w.store.records id.text = some record →
    record.isCandidate = id.isCandidate
  filed : ∀ table a entry, w.store.actions (DatasetId.candidate table).text a = some entry →
    entry.fingerprint.action ≠ "promote"
  kept : ∀ e ∈ trace, ∀ request record, Returned request record e →
    ∃ resource before, Kept request record resource before w

section

variable {past : List (Moment DatasetOp World)} {w w₀ : World} {batch : WriteBatch}
  {request : TransitionRequest} {resource : DatasetId}

theorem Planned.kinds (h : Planned past w batch request resource w₀) : ∀ write ∈ batch.writes,
    ∀ id : DatasetId, write.recordId = id.text → write.nextRecord.isCandidate = id.isCandidate := by
  obtain ⟨policyVersion, hplan⟩ := h.planned
  intro write hwrite id hid
  obtain ⟨states, state, c, -, hkind, -, -, rfl⟩ | ⟨table, c, d, rfl, -, -, -, -, rfl⟩ |
    ⟨states, state, d, -, hkind, -, rfl⟩ := planWrites_cases hplan
  · obtain rfl := List.mem_singleton.1 hwrite
    obtain rfl := text_injective hid
    exact hkind.symm
  · obtain rfl | rfl := List.mem_pair.1 hwrite
    · have htext : (DatasetId.candidate table).text = id.text := hid
      obtain rfl := text_injective htext
      rfl
    · have htext : (DatasetId.promoted table).text = id.text := hid
      obtain rfl := text_injective htext
      rfl
  · obtain rfl := List.mem_singleton.1 hwrite
    obtain rfl := text_injective hid
    exact hkind.symm

theorem Planned.not_promote (h : Planned past w batch request resource w₀) {table : TableKey}
    (hlast : batch.last.recordId = (DatasetId.candidate table).text) : request.action ≠ "promote" := by
  obtain ⟨policyVersion, hplan⟩ := h.planned
  obtain ⟨states, state, c, haction, -, hstate, -, rfl⟩ | ⟨table', c, d, rfl, -, -, -, -, rfl⟩ |
    ⟨states, state, d, -, hkind, -, rfl⟩ := planWrites_cases hplan
  · intro hpromote
    rw [hpromote] at haction
    cases haction
    exact hstate rfl
  · have htext : (DatasetId.promoted table').text = (DatasetId.candidate table).text := hlast
    cases text_injective htext
  · obtain rfl := text_injective hlast
    cases hkind

theorem Planned.last_of_not_promote (h : Planned past w batch request resource w₀)
    (hother : request.action ≠ "promote") : batch.last.recordId = resource.text := by
  obtain ⟨policyVersion, hplan⟩ := h.planned
  obtain ⟨states, state, c, -, -, -, -, rfl⟩ | ⟨table, c, d, -, hpromote, -, -, -, -⟩ |
    ⟨states, state, d, -, -, -, rfl⟩ := planWrites_cases hplan
  · rfl
  · exact absurd hpromote hother
  · rfl

theorem getLast_writes (batch : WriteBatch) :
    (batch.writes.map StoreWrite.nextRecord).getLast? = some batch.last.nextRecord := by
  rw [WriteBatch.writes, List.map_append, List.map_singleton, List.getLast?_concat]

end

/-! ### Every operation is remembered -/

section

variable {e : Entry ι DatasetOp World} {trace : List (Entry ι DatasetOp World)} {w w' : World}

theorem remembers_initial (verdict : String → String → PolicyVerdict) :
    Remembers (World.initial verdict) ([] : List (Entry ι DatasetOp World)) where
  kinds _ _ h := by cases h
  filed _ _ _ h := by cases h
  kept _ he := absurd he List.not_mem_nil

theorem Remembers.advance (h : Remembers w trace) (hw : w.Advances w')
    (hkinds : ∀ (id : DatasetId) record, w'.store.records id.text = some record → record.isCandidate = id.isCandidate)
    (hactions : w'.store.actions = w.store.actions) : Remembers w' trace where
  kinds := hkinds
  filed := by
    rw [hactions]
    exact h.filed
  kept e he request record hreturned := by
    obtain ⟨resource, before, hkept⟩ := h.kept e he request record hreturned
    exact ⟨resource, before, hkept.advance hw⟩

theorem Remembers.importOverlay (h : Remembers w trace) (imported : List DatasetStateRecord)
    (config : RunEvidence.Dict) (actionId fingerprint : String) (actor scope : Option String) :
    Remembers (w.importOverlay imported config actionId fingerprint actor scope) trace := by
  have hadvances := advances_importOverlay w imported config actionId fingerprint actor scope
  obtain ⟨hstatus, hnew, hrecords, hactions⟩ | ⟨hstatus, hstore⟩ :=
    commitMigration_cases w.store imported config actionId fingerprint actor scope
  · refine h.advance hadvances (fun id record hrecord => ?_) ?_
    · rw [World.importOverlay, World.counted_of_eq hstatus, hrecords] at hrecord
      by_cases hmem : id.text ∈ (importWrites imported).map StoreWrite.recordId
      · obtain ⟨write, hwrite, hid, hstored⟩ := foldl_put_of_mem hmem w.store
        obtain ⟨found, -, rfl⟩ := List.mem_map.1 hwrite
        rw [hstored] at hrecord
        cases hrecord
        have htext : found.datasetId.text = id.text := hid
        show found.datasetId.isCandidate = id.isCandidate
        rw [text_injective htext]
      · rw [foldl_put_records_of_notMem fun write hwrite heq =>
          hmem (List.mem_map.2 ⟨write, hwrite, heq⟩)] at hrecord
        exact h.kinds id record hrecord
    · rw [World.importOverlay, World.counted_of_eq hstatus, hactions]
  · have hsame : (w.importOverlay imported config actionId fingerprint actor scope).store = w.store := by
      rw [World.importOverlay, World.counted_of_ne hstatus, hstore]
    refine h.advance hadvances ?_ ?_
    · rw [hsame]
      exact h.kinds
    · rw [hsame]

theorem returned_writeEntry {i : ι} {past : List (Moment DatasetOp World)} {batch : WriteBatch}
    {made request : TransitionRequest} {record : DatasetStateRecord}
    (hstatus : (w.store.compareAndSet batch made.actionId made.action made.fingerprint).2.status = .committed)
    (h : Returned request record (writeEntry i past batch made.actionId made.action made.fingerprint w)) :
    made.fingerprint = request.fingerprint ∧ batch.last.nextRecord = record := by
  obtain ⟨-, -, -, -, hrecords⟩ | ⟨hother, -⟩ :=
    compareAndSet_cases w.store batch made.actionId made.action made.fingerprint
  · have hmap := (if_pos hstatus).symm.trans h
    rw [hrecords, getLast_writes] at hmap
    exact Prod.mk.inj (Option.some.inj hmap)
  · exact absurd hstatus hother

theorem Planned.kept {past : List (Moment DatasetOp World)} {w₀ : World} {batch : WriteBatch}
    {made request : TransitionRequest} {resource : DatasetId} (hplanned : Planned past w batch made resource w₀)
    (hfingerprint : made.fingerprint = request.fingerprint)
    (hstore : w'.store = w.store.commit batch made.actionId made.action made.fingerprint) :
    Kept request batch.last.nextRecord resource (w₀.store.stateOf resource.text) w' := by
  have hsame := hfingerprint
  simp only [TransitionRequest.fingerprint, Fingerprint.mk.injEq] at hsame
  obtain ⟨haction, hid, hexpected, hresource⟩ := hsame
  refine ⟨?_, ?_, ?_, ?_, fun hother => ?_, fun hother => ?_⟩
  · rw [← hresource]
    exact hplanned.validated
  · rw [← hexpected]
    exact hplanned.expected
  · rw [← haction]
    exact hplanned.allowed
  · obtain ⟨write, hwrite, htext, hfrom⟩ := hplanned.first
    obtain ⟨id, fromState, hid', hfrom', hmove⟩ := hplanned.moves write hwrite
    have hstate : w'.store.stateOf write.recordId = write.nextRecord.currentState := by
      rw [hstore]
      exact stateOf_commit hplanned.nodup hwrite
    rw [hfrom] at hfrom'
    cases hfrom'
    rw [← htext, hstate, htext]
    exact hmove.rank
  · have hlast := hplanned.last_of_not_promote (by rw [haction]; exact hother)
    refine ⟨Store.actionEntry batch made.actionId made.action made.fingerprint, ?_, hfingerprint, rfl⟩
    rw [hstore, commit_actions, ← hid, if_pos ⟨hlast.symm, rfl⟩]
  · have hlast := hplanned.last_of_not_promote (by rw [haction]; exact hother)
    exact hplanned.kinds batch.last (List.mem_append_right _ List.mem_cons_self) resource hlast

theorem Remembers.operate (h : Remembers e.moment.before trace) (hg : Permitted e.past e.moment) :
    Remembers (e.moment.after semantics) (e :: trace) := by
  have hadvances := advances_of_permitted e.past e.moment hg
  obtain ⟨hrecords, hactions, -, -, -, hcommit⟩ |
    ⟨i, past, batch, w, made, resource, w₀, rfl, hplanned, hstatus, -, hafter⟩ :=
    permitted_cases hg
  · have hsame := h.advance hadvances (by rw [hrecords]; exact h.kinds) hactions
    refine ⟨hsame.kinds, hsame.filed, fun e' he' request record hreturned => ?_⟩
    obtain rfl | he' := List.mem_cons.1 he'
    · rw [Returned, committedAs_of_not hcommit] at hreturned
      cases hreturned
    · exact hsame.kept e' he' request record hreturned
  · refine ⟨fun id record hrecord => ?_, fun table a entry hentry => ?_,
      fun e' he' request record hreturned => ?_⟩
    · rw [hafter] at hrecord
      by_cases hmem : id.text ∈ batch.writes.map StoreWrite.recordId
      · obtain ⟨write, hwrite, hid, hstored⟩ := foldl_put_of_mem hmem w.store
        rw [commit_records, hstored] at hrecord
        cases hrecord
        exact hplanned.kinds write hwrite id hid
      · rw [commit_records, foldl_put_records_of_notMem fun write hwrite heq =>
          hmem (List.mem_map.2 ⟨write, hwrite, heq⟩)] at hrecord
        exact h.kinds id record hrecord
    · rw [hafter, commit_actions] at hentry
      split at hentry
      next hkey =>
        cases hentry
        exact hplanned.not_promote hkey.1.symm
      · exact h.filed table a entry hentry
    · obtain rfl | he' := List.mem_cons.1 he'
      · obtain ⟨hfingerprint, rfl⟩ := returned_writeEntry hstatus hreturned
        exact ⟨resource, _, hplanned.kept hfingerprint (congrArg World.store hafter)⟩
      · obtain ⟨resource', before, hkept⟩ := h.kept e' he' request record hreturned
        exact ⟨resource', before, hkept.advance hadvances⟩

end

/-! ### A request made again -/

variable {action : String} {states : List String}

theorem workflowTransitions_valid {toState : WorkflowState} (h : workflowTransitions action = some (states, toState)) :
    workflowActions.contains action = true ∧ ∃ state, states = [state] := by
  unfold workflowTransitions at h
  split at h
  all_goals cases h
  all_goals exact ⟨by decide, _, rfl⟩

theorem publicationTransitions_valid {toState : PublicationState}
    (h : publicationTransitions action = some (states, toState)) :
    publicationActions.contains action = true ∧ ∃ state, states = [state] := by
  unfold publicationTransitions at h
  split at h
  all_goals cases h
  all_goals exact ⟨by decide, _, rfl⟩

/-- An action that is allowed is valid, and allowed from one state only. -/
theorem fromStates_valid {resource : DatasetId} (h : fromStates resource action = some states) :
    (if resource.isCandidate then workflowActions else publicationActions).contains action = true ∧
      ∃ state, states = [state] := by
  unfold fromStates at h
  split at h
  next hkind =>
    obtain ⟨⟨states', toState⟩, htransition, rfl⟩ := Option.map_eq_some_iff.1 h
    rw [if_pos hkind]
    exact workflowTransitions_valid htransition
  next hkind =>
    obtain ⟨⟨states', toState⟩, htransition, rfl⟩ := Option.map_eq_some_iff.1 h
    rw [if_neg hkind]
    exact publicationTransitions_valid htransition

theorem fromStates_of_allowed {resource : DatasetId} {state : String}
    (h : stateMachineCheck resource action state = none) : fromStates resource action = some [state] := by
  unfold stateMachineCheck at h
  split at h
  · cases h
  next states hstates =>
    obtain ⟨state', rfl⟩ := (fromStates_valid hstates).2
    split at h
    next hcontains =>
      rw [hstates, List.mem_singleton.1 (List.contains_iff_mem.1 hcontains)]
    · cases h

section

variable {request : TransitionRequest} {resource : DatasetId} {before : String} {w : World}

theorem alone_finishWith (request : TransitionRequest) (w : World) (status : TransitionStatus)
    (beforeState afterState : Option String) (record : Option DatasetStateRecord) (message auditOutcome : String)
    (verdict : Option PolicyVerdict) : ∃ o event, alone semantics
        (finishWith request status beforeState afterState record message auditOutcome verdict) w =
        ({ w with store := w.store.appendAudit event }, .ok o) ∧
      o.status = status ∧ o.afterState = afterState ∧ o.record = record :=
  ⟨_, _, rfl, rfl, rfl, rfl⟩

theorem transition_of_allowed (hvalidated : validatedResourceId request.resourceId = .ok resource)
    (hallowed : stateMachineCheck resource request.action before = none) :
    transition request = attempt resource request maxCasAttempts := by
  rw [transition, hvalidated]
  exact if_pos (fromStates_valid (fromStates_of_allowed hallowed)).1

theorem alone_attempt_unexpected (n : ℕ) (h : request.expectedState ≠ none ∧
      request.expectedState ≠ some (w.store.stateOf resource.text)) :
    alone semantics (attempt resource request (n + 1)) w = alone semantics (failedOutcome request .conflict
        ("Expected state " ++ request.expectedState.elim "None" quoted ++ " for " ++ resource.text ++
          ", found " ++ quoted (w.store.stateOf resource.text) ++ ".")
        (some (w.store.stateOf resource.text)) none none) w := by
  rw [attempt, alone_perform_bind, exec_load]
  exact congrArg (fun p => alone semantics p w) (if_pos h)

theorem alone_attempt_lookup (n : ℕ) (h : request.expectedState = none) :
    alone semantics (attempt resource request (n + 1)) w =
      alone semantics
        (match w.store.actions resource.text request.actionId with
        | some committed => replayOutcome request committed (w.store.stateOf resource.text)
        | none => checkAndWrite resource request (w.store.records resource.text)
            (w.store.stateOf resource.text) (attempt resource request n)) w := by
  have hno : ¬ (request.expectedState ≠ none ∧
      request.expectedState ≠ some (w.store.stateOf resource.text)) := fun hstate => hstate.1 h
  rw [attempt, alone_perform_bind, exec_load]
  exact (congrArg (fun p => alone semantics p w) (if_neg hno)).trans (by
    rw [alone_perform_bind, exec_committedAction]
    rfl)

theorem failedOutcome_not_replayed {status : TransitionStatus} (hstatus : status ≠ .replayed)
    (message : String) (beforeState afterState : Option String) (verdict : Option PolicyVerdict) :
    ∀ o, (alone semantics (failedOutcome request status message beforeState afterState verdict) w).2 = .ok o →
      o.status ≠ .replayed := by
  intro o ho
  obtain ⟨o', event, halone, hstatus', -⟩ := alone_finishWith request w status beforeState
    afterState none message "" verdict
  rw [failedOutcome, halone] at ho
  cases ho
  rw [hstatus']
  exact hstatus

theorem checkAndWrite_not_replayed (record : Option DatasetStateRecord) {beforeState : String}
    (retry : ServiceProgram) (h : stateMachineCheck resource request.action beforeState ≠ none) :
    ∀ o, (alone semantics (checkAndWrite resource request record beforeState retry) w).2 = .ok o →
      o.status ≠ .replayed := by
  obtain ⟨message, hmessage⟩ := Option.ne_none_iff_exists'.1 h
  unfold checkAndWrite
  rw [hmessage]
  dsimp only
  split
  · exact failedOutcome_not_replayed (by decide) _ _ _ _
  · exact failedOutcome_not_replayed (by decide) _ _ _ _

theorem replayOutcome_not_replayed {committed : CommittedAction} (beforeState : String)
    (h : committed.fingerprint ≠ request.fingerprint) :
    ∀ o, (alone semantics (replayOutcome request committed beforeState) w).2 = .ok o → o.status ≠ .replayed := by
  rw [replayOutcome, if_neg h]
  exact failedOutcome_not_replayed (by decide) _ _ _ _

theorem Replays.not_of {record : DatasetStateRecord}
    (h : ∀ o, (alone semantics (transition request) w).2 = .ok o → o.status ≠ .replayed) :
    ¬ Replays request record w := by
  intro hreplays
  obtain ⟨o, found, ho, hstatus, -⟩ := hreplays.outcome
  exact h o ho hstatus

variable {record : DatasetStateRecord}

theorem Kept.moved_on (h : Kept request record resource before w) : w.store.stateOf resource.text ≠ before := by
  intro heq
  have hpast := h.past
  rw [heq] at hpast
  exact lt_irrefl _ hpast

theorem Kept.expected_not_replayed (h : Kept request record resource before w)
    (hexpected : request.expectedState ≠ none) : ¬ Replays request record w := by
  refine Replays.not_of ?_
  rw [transition_of_allowed h.validated h.allowed, maxCasAttempts, alone_attempt_unexpected]
  · exact failedOutcome_not_replayed (by decide) _ _ _ _
  · refine ⟨hexpected, fun hsame => h.moved_on ?_⟩
    obtain hnone | hbefore := h.expected
    · exact absurd hnone hexpected
    · rw [hbefore] at hsame
      exact (Option.some.inj hsame).symm

theorem Kept.promote_not_replayed (h : Kept request record resource before w)
    (hfiled : ∀ table a entry, w.store.actions (DatasetId.candidate table).text a = some entry →
      entry.fingerprint.action ≠ "promote")
    (hpromote : request.action = "promote") (hexpected : request.expectedState = none) :
    ¬ Replays request record w := by
  refine Replays.not_of ?_
  rw [transition_of_allowed h.validated h.allowed, maxCasAttempts, alone_attempt_lookup _ hexpected]
  cases haction : w.store.actions resource.text request.actionId with
  | none =>
    refine checkAndWrite_not_replayed _ _ fun hallowed => h.moved_on ?_
    have hsame := (fromStates_of_allowed hallowed).symm.trans (fromStates_of_allowed h.allowed)
    exact List.cons.inj (Option.some.inj hsame) |>.1
  | some committed =>
    refine replayOutcome_not_replayed _ fun hfingerprint => ?_
    cases resource with
    | candidate table =>
      refine hfiled table _ _ haction ?_
      rw [hfingerprint]
      exact hpromote
    | promoted table =>
      have hstates := fromStates_of_allowed h.allowed
      rw [hpromote] at hstates
      cases hstates

theorem Kept.replays (h : Kept request record resource before w)
    (hkinds : ∀ (id : DatasetId) found, w.store.records id.text = some found → found.isCandidate = id.isCandidate)
    (hother : request.action ≠ "promote") (hexpected : request.expectedState = none) : Replays request record w := by
  obtain ⟨entry, hentry, hfingerprint, hafter⟩ := h.filed hother
  have hstored : ∃ found, w.store.records resource.text = some found := by
    refine Option.ne_none_iff_exists'.1 fun hnone => ?_
    have hpast := h.past
    rw [Store.stateOf, hnone] at hpast
    exact absurd hpast (Nat.not_lt_zero _)
  obtain ⟨found, hfound⟩ := hstored
  have hrun : alone semantics (transition request) w =
      alone semantics (finishWith request .replayed (some (w.store.stateOf resource.text))
        entry.afterState (some found)
        ("Action " ++ quoted request.action ++ " already committed; replaying outcome.") "replayed"
        none) w := by
    rw [transition_of_allowed h.validated h.allowed, maxCasAttempts,
      alone_attempt_lookup _ hexpected, hentry]
    dsimp only
    rw [replayOutcome, if_pos hfingerprint, alone_perform_bind, exec_load,
      ← text_of_validated h.validated, hfound]
  obtain ⟨o, event, halone, hstatus, hafter', hrecord⟩ := alone_finishWith request w
    .replayed (some (w.store.stateOf resource.text)) entry.afterState (some found)
    ("Action " ++ quoted request.action ++ " already committed; replaying outcome.") "replayed" none
  rw [halone] at hrun
  have hkind : found.isCandidate = record.isCandidate :=
    (hkinds resource found hfound).trans (h.kind hother).symm
  refine ⟨⟨o, found, ?_, hstatus, hafter'.trans hafter, hrecord, hkind⟩, ?_, ?_⟩
  · rw [hrun]
  · rw [hrun]
    rfl
  · rw [hrun]
    rfl

end

/-! ### Every network -/

section

variable [DecidableEq ι] {Imports : List DatasetStateRecord → Prop}
  {verdict : String → String → PolicyVerdict} {n : DatasetNetwork ι}

theorem remembers_of_reached (h : ReachedWith Imports verdict n) : Remembers n.shared n.trace := by
  refine trace_inv (fun n => guarded_of_advances advances_of_worldChanges) World.Advances.refl
    (remembers_initial verdict) (fun w w' l hw hl => ?_) (fun l e hg hl => hl.operate hg) h
  obtain ⟨verdict', rfl⟩ | ⟨imported, config, actionId, fingerprint, actor, scope, -, rfl⟩ := hw
  · exact hl.advance (advances_of_verdictsChange _ _ ⟨verdict', rfl⟩) hl.kinds rfl
  · exact hl.importOverlay imported config actionId fingerprint actor scope

/-- **Replay.**  Whatever has happened since, a request that has committed is replayed exactly when it is
not a promotion and expects no state. -/
theorem replay_iff (Imports : List DatasetStateRecord → Prop)
    (verdict : String → String → PolicyVerdict) (n : DatasetNetwork ι)
    (h : ReachedWith Imports verdict n) (e : Entry ι DatasetOp World) (he : e ∈ n.trace)
    (request : TransitionRequest) (record : DatasetStateRecord) (hreturned : Returned request record e) :
    Replays request record n.shared ↔ request.action ≠ "promote" ∧ request.expectedState = none := by
  have hremembers := remembers_of_reached h
  obtain ⟨resource, before, hkept⟩ := hremembers.kept e he request record hreturned
  constructor
  · intro hreplays
    have hexpected : request.expectedState = none := by
      by_contra hexpected
      exact hkept.expected_not_replayed hexpected hreplays
    exact ⟨fun hpromote => hkept.promote_not_replayed hremembers.filed hpromote hexpected hreplays,
      hexpected⟩
  · intro hrequest
    exact hkept.replays hremembers.kinds hrequest.1 hrequest.2

end

/-! ### Runs of one client -/

/-- The client calls `transition` and nobody interferes. -/
def serve (n : DatasetNetwork Unit) (request : TransitionRequest) : DatasetNetwork Unit :=
  (List.replicate 5 ()).foldl (Network.tick semantics) (n.call () (transition request))

theorem reached_serves {Imports : List DatasetStateRecord → Prop}
    {verdict : String → String → PolicyVerdict} {n : DatasetNetwork Unit}
    (h : ReachedWith Imports verdict n) (requests : List TransitionRequest) :
    ReachedWith Imports verdict (requests.foldl serve n) := by
  induction requests generalizing n with
  | nil => exact h
  | cons request requests ih => exact ih ((h.call () ⟨request, rfl⟩).schedule _)

theorem returned_of_mem (request : TransitionRequest) {trace : List (Entry ι DatasetOp World)}
    (h : request.fingerprint ∈ (trace.filterMap committedAs).map Prod.fst) :
    ∃ e ∈ trace, ∃ record, Returned request record e := by
  obtain ⟨⟨fingerprint, record⟩, hmem, heq⟩ := List.mem_map.1 h
  obtain ⟨e, he, hcommitted⟩ := List.mem_filterMap.1 hmem
  obtain rfl : fingerprint = request.fingerprint := heq
  exact ⟨e, he, record, hcommitted⟩

def claimRequest : TransitionRequest := claimBy "a1" (by decide)

def reviewRequest : TransitionRequest where
  resourceId := "candidate:orders"
  action := "review"
  actionId := "a2"

def promoteRequest : TransitionRequest where
  resourceId := "candidate:orders"
  action := "promote"
  actionId := "a3"

/-- A client claims, reviews and promotes a candidate. -/
def promotedRun : DatasetNetwork Unit :=
  [claimRequest, reviewRequest, promoteRequest].foldl serve (Network.idle (World.initial readyVerdict))

theorem reached_promotedRun : ReachedWith (fun _ => True) readyVerdict promotedRun :=
  reached_serves Network.Reachable.init [claimRequest, reviewRequest, promoteRequest]

/-- The claim is replayed after the promotion. -/
theorem replay_iff_claim : ∃ e ∈ promotedRun.trace, ∃ record, Returned claimRequest record e ∧
    Replays claimRequest record promotedRun.shared := by
  obtain ⟨e, he, record, hreturned⟩ := returned_of_mem claimRequest
    (show _ ∈ (promotedRun.trace.filterMap committedAs).map Prod.fst by decide +kernel)
  exact ⟨e, he, record, hreturned,
    (replay_iff _ _ _ reached_promotedRun e he _ record hreturned).2 ⟨by decide, rfl⟩⟩

/-- A promotion made again is refused: it is filed under the Dataset and looked up under the candidate. -/
theorem promotion_not_replayed :
    ¬ ∀ n : DatasetNetwork Unit, ReachedWith (fun _ => True) readyVerdict n → ∀ e ∈ n.trace,
      ∀ request record, Returned request record e → Replays request record n.shared := by
  intro hall
  obtain ⟨e, he, record, hreturned⟩ := returned_of_mem promoteRequest
    (show _ ∈ (promotedRun.trace.filterMap committedAs).map Prod.fst by decide +kernel)
  obtain ⟨o, found, ho, hstatus, -⟩ := (hall _ reached_promotedRun e he _ record hreturned).outcome
  have hconflict : (alone semantics (transition promoteRequest) promotedRun.shared).2.map
      TransitionOutcome.status = .ok .conflict := by decide +kernel
  rw [ho] at hconflict
  cases hstatus.symm.trans (Except.ok.inj hconflict)

/-! ### What is listed -/

/-- What passes the check of the state machine is listed. -/
theorem listed_of_allowed {s : Store} {datasetId action : String} {resource : DatasetId}
    (hvalidated : validatedResourceId datasetId = .ok resource)
    (hallowed : stateMachineCheck resource action (s.stateOf resource.text) = none) :
    ∃ actions, allowedTransitions s datasetId = .ok actions ∧ action ∈ actions := by
  have hstates := fromStates_of_allowed hallowed
  have hvalid := List.contains_iff_mem.1 (fromStates_valid hstates).1
  have hfrom : (fromStates resource action).any (·.contains (s.stateOf resource.text)) = true := by
    rw [hstates]
    exact List.contains_iff_mem.2 List.mem_cons_self
  rw [allowedTransitions, hvalidated]
  cases resource with
  | candidate table =>
    refine ⟨_, rfl, ?_⟩
    exact List.mem_mergeSort.2 (List.mem_filter.2 ⟨hvalid, hfrom⟩)
  | promoted table =>
    rw [Store.stateOf] at hstates hfrom
    cases hrecord : s.records (DatasetId.promoted table).text with
    | none =>
      rw [hrecord] at hstates
      obtain ⟨⟨states, state⟩, htransition, hopen⟩ := Option.map_eq_some_iff.1 hstates
      unfold publicationTransitions at htransition
      split at htransition
      all_goals cases htransition
      all_goals exact absurd hopen (by decide)
    | some record =>
      rw [hrecord] at hfrom
      dsimp only
      rw [hrecord]
      refine ⟨_, rfl, ?_⟩
      exact List.mem_mergeSort.2 (List.mem_filter.2 ⟨hvalid, hfrom⟩)

/-- A step commits an action that was listed for the resource of the call. -/
def CommitsListed (n n' : DatasetNetwork ι) : Prop :=
  ∃ i past batch actionId action fingerprint actions,
    n'.trace = writeEntry i past batch actionId action fingerprint n.shared :: n.trace ∧
    (n.shared.store.compareAndSet batch actionId action fingerprint).2.status = .committed ∧
    allowedTransitions n.shared.store fingerprint.resourceId = .ok actions ∧ action ∈ actions

/-- Whatever the clients call and in whatever order their operations come, what changes a record is a commit of an
action that was listed for its resource just before. -/
theorem changed_by_listed [DecidableEq ι] {verdict : String → String → PolicyVerdict} {n n' : DatasetNetwork ι}
    (h : Reached verdict n) (hstep : Network.Step semantics IsTransition VerdictsChange n n')
    (hchanged : n'.shared.store.records ≠ n.shared.store.records) : CommitsListed n n' := by
  obtain ⟨hrecords, -⟩ | ⟨i, past, batch, request, resource, w₀, htrace, hplanned, hstatus, hmoved, -⟩ :=
    step_cases h hstep
  · exact absurd hrecords hchanged
  · -- nobody has moved the record that the plan was made from
    obtain ⟨write, hwrite, hid, hexpected⟩ := hplanned.first
    have hstate := expected_of_moved hmoved write hwrite
    rw [hexpected, hid] at hstate
    have hallowed := hplanned.allowed
    rw [Option.some.inj hstate] at hallowed
    obtain ⟨actions, hlisted⟩ := listed_of_allowed hplanned.validated hallowed
    exact ⟨i, past, batch, _, _, _, actions, htrace, hstatus, hlisted⟩

/-- A client that is about to commit a claim. -/
def claiming : DatasetNetwork Unit :=
  [(), (), ()].foldl (Network.tick semantics)
    ((Network.idle (World.initial readyVerdict)).call () (transition claimRequest))

theorem changed_by_listed_claim : CommitsListed claiming (claiming.tick semantics ()) := by
  have hchanged : (claiming.tick semantics ()).shared.store.records ≠ claiming.shared.store.records := fun hsame =>
    absurd (congrArg Option.isSome (congrFun hsame "candidate:orders")) (by decide +kernel)
  exact changed_by_listed ((Network.Reachable.init.call () ⟨_, rfl⟩).schedule _)
    (Network.step_tick fun hsame => hchanged (by rw [hsame])) hchanged

end Phlo.Dataset
