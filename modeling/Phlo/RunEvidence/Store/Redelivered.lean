import Phlo.Library.Redelivery
import Phlo.RunEvidence.Store.RunRow

/-!
# The records of an observation, written twice

Every call with a present observation writes its events and stages again.  A stored event is left
alone.  A stage is updated once for each time the observation lists it, and one such update need not
be idempotent after the others; all of them together are.

* `foldl_updateStage_foldl_updateStage` — folding the stages of an observation into a row again
  changes nothing;
* `insertObservationRecords_present` — the event and stage tables after a present observation;
* `ingest_again_store` — hence a second call with the observation leaves both as they are.
-/

namespace Phlo.RunEvidence

open Phlo.Library

/-! ### One stage row -/

theorem updateStage_stageRow (stage : RunStage) : updateStage stage (stageRow stage) = stageRow stage := by
  unfold updateStage stageRow
  simp

def updateStages (stages : List RunStage) (row : StageRow) : StageRow :=
  stages.foldl (fun row stage => updateStage stage row) row

theorem updateStages_cons (stage : RunStage) (stages : List RunStage) (row : StageRow) :
    updateStages (stage :: stages) row = updateStages stages (updateStage stage row) := rfl

/-- The times and the error of a stage are there already, where an update would fill them in. -/
structure StageRow.Covers (row : StageRow) (stage : RunStage) : Prop where
  startedAt : stage.status.isSqlStarting = true → stage.startedAt.isSome = true →
    row.startedAt.isSome = true
  finishedAt : stage.finishedAt.isSome = true → row.finishedAt.isSome = true
  error : (text stage.error).isSome = true → row.error.isSome = true

theorem updateStage_finishedAt_isSome (stage : RunStage) (row : StageRow) :
    (updateStage stage row).finishedAt.isSome = (row.finishedAt.isSome || stage.finishedAt.isSome) := by
  unfold updateStage
  cases row.status.isSqlTerminal with
  | true => simp
  | false => simp [Bool.or_comm]

theorem updateStage_error_isSome (stage : RunStage) (row : StageRow) :
    (updateStage stage row).error.isSome = (row.error.isSome || (text stage.error).isSome) := by
  unfold updateStage
  cases row.status.isSqlTerminal with
  | true => simp
  | false => simp [Bool.or_comm]

theorem covers_updateStage (stage : RunStage) (row : StageRow) : (updateStage stage row).Covers stage := by
  refine ⟨?_, ?_, ?_⟩
  · intro hstarting hsome
    cases hrow : row.startedAt <;> simp [updateStage, hrow, hstarting, hsome]
  · intro hsome
    rw [updateStage_finishedAt_isSome, hsome, Bool.or_true]
  · intro hsome
    rw [updateStage_error_isSome, hsome, Bool.or_true]

variable {row : StageRow} {stage : RunStage} {stages : List RunStage}

/-- No update takes a time or an error away. -/
theorem StageRow.Covers.updateStage (h : row.Covers stage) (other : RunStage) :
    (RunEvidence.updateStage other row).Covers stage := by
  refine ⟨?_, ?_, ?_⟩
  · intro hstarting hsome
    have hrow := h.startedAt hstarting hsome
    simp [RunEvidence.updateStage, hrow]
  · intro hsome
    rw [updateStage_finishedAt_isSome, h.finishedAt hsome, Bool.true_or]
  · intro hsome
    rw [updateStage_error_isSome, h.error hsome, Bool.true_or]

theorem StageRow.Covers.updateStages (h : row.Covers stage) (stages : List RunStage) :
    (updateStages stages row).Covers stage := by
  induction stages generalizing row with
  | nil => exact h
  | cons other stages ih => exact ih (h.updateStage other)

theorem covers_updateStages (h : stage ∈ stages) (row : StageRow) : (updateStages stages row).Covers stage := by
  induction stages generalizing row with
  | nil => cases h
  | cons other stages ih =>
    rcases List.mem_cons.1 h with rfl | h
    · exact (covers_updateStage stage row).updateStages stages
    · exact ih h _

theorem updateStage_of_terminal (ht : row.status.isTerminal = true) (h : row.Covers stage) :
    updateStage stage row = row := by
  have hterminal : row.status.isSqlTerminal = true := by
    rw [RunStatus.isSqlTerminal_eq]
    exact ht
  have hfinished : row.finishedAt.or stage.finishedAt = row.finishedAt := by
    cases hrow : row.finishedAt with
    | some t => rfl
    | none => simpa [hrow] using h.finishedAt
  have herror : row.error.or (text stage.error) = row.error := by
    cases hrow : row.error with
    | some t => rfl
    | none => simpa [hrow] using h.error
  have hstarted : (if row.startedAt.isSome = true then row.startedAt
      else if stage.status.isSqlStarting = true then stage.startedAt else row.startedAt) =
      row.startedAt := by
    cases hrow : row.startedAt with
    | some t => rfl
    | none =>
      cases hstarting : stage.status.isSqlStarting with
      | false => rfl
      | true => simpa [hrow] using h.startedAt hstarting
  unfold updateStage
  simp only [hterminal, if_true, hfinished, herror, hstarted]

theorem updateStages_of_terminal (ht : row.status.isTerminal = true) (h : ∀ stage ∈ stages, row.Covers stage) :
    updateStages stages row = row := by
  induction stages with
  | nil => rfl
  | cons stage stages ih =>
    rw [List.forall_mem_cons] at h
    rw [updateStages_cons, updateStage_of_terminal ht h.1]
    exact ih h.2

/-! ### A row that stays open -/

theorem updateStage_status_terminal (stage : RunStage) (row : StageRow) :
    (updateStage stage row).status.isTerminal = (row.status.isTerminal || stage.status.isTerminal) := by
  unfold updateStage
  rw [RunStatus.isSqlTerminal_eq]
  cases h : row.status.isTerminal <;> simp [h]

theorem updateStages_status_terminal (stages : List RunStage) (row : StageRow) :
    (updateStages stages row).status.isTerminal =
      (row.status.isTerminal || stages.any fun stage => stage.status.isTerminal) := by
  induction stages generalizing row with
  | nil => simp [updateStages]
  | cons stage stages ih =>
    rw [updateStages_cons, ih, updateStage_status_terminal, List.any_cons, Bool.or_assoc]

def RunStage.offeredStart (stage : RunStage) : Option Timestamp :=
  if stage.status.isSqlStarting then stage.startedAt else none

/-- While no terminal status is involved each column is folded for itself. -/
theorem updateStages_of_open (ht : row.status.isTerminal = false)
    (h : ∀ stage ∈ stages, stage.status.isTerminal = false) : updateStages stages row =
      { row with
        startedAt := stages.foldl (fun c stage => c.or stage.offeredStart) row.startedAt
        status := stages.foldl (fun _ stage => stage.status) row.status
        finishedAt := stages.foldl (fun c stage => stage.finishedAt.or c) row.finishedAt
        metrics := stages.foldl (fun _ stage => canonicalJson (.obj stage.metrics)) row.metrics
        error := stages.foldl (fun c stage => (text stage.error).or c) row.error } := by
  induction stages generalizing row with
  | nil => rfl
  | cons stage stages ih =>
    rw [List.forall_mem_cons] at h
    have hstep : updateStage stage row =
        { row with
          startedAt := row.startedAt.or stage.offeredStart
          status := stage.status
          finishedAt := stage.finishedAt.or row.finishedAt
          metrics := canonicalJson (.obj stage.metrics)
          error := (text stage.error).or row.error } := by
      have hopen : row.status.isSqlTerminal = false := by
        rw [RunStatus.isSqlTerminal_eq]
        exact ht
      unfold updateStage RunStage.offeredStart
      simp only [hopen, Bool.false_eq_true, if_false]
      cases row.startedAt <;> simp
    have hopen : (updateStage stage row).status.isTerminal = false := by
      rw [updateStage_status_terminal, ht, h.1]
      rfl
    rw [updateStages_cons, ih hopen h.2, hstep]
    rfl

/-- **The updates of an observation, repeated.** -/
theorem updateStages_updateStages (stages : List RunStage) (row : StageRow) :
    updateStages stages (updateStages stages row) = updateStages stages row := by
  cases ht : (updateStages stages row).status.isTerminal with
  | true => exact updateStages_of_terminal ht fun stage hstage => covers_updateStages hstage row
  | false =>
    have hopen := ht
    rw [updateStages_status_terminal, Bool.or_eq_false_iff, List.any_eq_false] at hopen
    have hstages : ∀ stage ∈ stages, stage.status.isTerminal = false := fun stage hstage =>
      Bool.eq_false_iff.2 (hopen.2 stage hstage)
    rw [updateStages_of_open ht hstages, updateStages_of_open hopen.1 hstages]
    simp only [foldl_keep_foldl_keep, foldl_const_foldl_const, foldl_or_foldl_or]

/-! ### The tables -/

def withRecords (s : Store) (o : RunObservation) : Store :=
  { s with
    events := s.events.insertAll (o.events.map eventRow)
    stages := s.stages.upsertAll stageRow updateStage updateStage_key o.stages }

theorem foldl_withEvent (events : List RunEvent) (s : Store) :
    events.foldl withEvent s = { s with events := s.events.insertAll (events.map eventRow) } := by
  induction events generalizing s with
  | nil => rfl
  | cons event events ih => exact ih (withEvent s event)

theorem foldl_withStage (stages : List RunStage) (s : Store) :
    stages.foldl withStage s =
      { s with stages := s.stages.upsertAll stageRow updateStage updateStage_key stages } := by
  induction stages generalizing s with
  | nil => rfl
  | cons stage stages ih => exact ih (withStage s stage)

theorem insertObservationRecords_present {s s' : Store} {o : RunObservation}
    (h : insertObservationRecords s o = .ok s') (hp : o.lookupOutcome = .present) : s' = withRecords s o := by
  unfold insertObservationRecords at h
  rw [hp] at h
  simp only [bind_eq_ok] at h
  obtain ⟨t, hevents, hstages⟩ := h
  have hevent : ∀ s event s', insertObservedEvent o s event = .ok s' → s' = withEvent s event := by
    intro s event s' h
    simp only [insertObservedEvent, bind_eq_ok] at h
    obtain ⟨-, -, -, -, ⟨t, inserted⟩, hinsert, hresult⟩ := h
    cases hresult
    exact (insertEvent_eq_ok.1 hinsert).2.1
  have hstage : ∀ s stage s', insertObservedStage o s stage = .ok s' → s' = withStage s stage := by
    intro s stage s' h
    simp only [insertObservedStage, bind_eq_ok] at h
    obtain ⟨-, -, -, -, hinsert⟩ := h
    exact (insertStage_eq_ok.1 hinsert).2
  rw [foldlM_eq_foldl hstage hstages, foldl_withStage, foldlM_eq_foldl hevent hevents,
    foldl_withEvent]
  rfl

/-- Records that were written already change neither table. -/
theorem withRecords_of_recorded {s t : Store} {o : RunObservation}
    (hevents : t.events = (withRecords s o).events) (hstages : t.stages = (withRecords s o).stages) :
    withRecords t o = t := by
  have hevents' : t.events.insertAll (o.events.map eventRow) = t.events := by
    rw [hevents]
    exact KeyedTable.insertAll_insertAll s.events _
  have hstages' : t.stages.upsertAll stageRow updateStage updateStage_key o.stages = t.stages := by
    rw [hstages]
    exact KeyedTable.upsertAll_upsertAll updateStage_key updateStage_stageRow
      updateStages_updateStages s.stages o.stages
  rw [withRecords, hevents', hstages']

/-! ### The call -/

variable {q : ReconcileRequest}

theorem ingest_present_store {s : Store} {clock : Clock} {scan : Scan} {i : Ingested}
    (h : ingest s clock scan q = .ok i) (hp : q.observation.lookupOutcome = .present) :
    i.store = withRecords (upsertRun s clock (observedRun q.observation)) q.observation := by
  obtain ⟨s₁, hingest, -, hrecords, -⟩ := ingest_eq_ok.1 h
  unfold ingestObservation at hingest
  rw [hp] at hingest
  obtain ⟨rfl, hobs⟩ := Prod.mk.inj (Except.ok.inj hingest)
  rw [← hobs] at hrecords
  exact insertObservationRecords_present hrecords hp

/-- A call changes the run and decision tables only, once the observation is ingested. -/
theorem reconcile_tables {s s' : Store} {clock : Clock} {scan : Scan} {r : ReconciliationDecision} {i : Ingested}
    (h : reconcileObservation s clock scan q = .ok (s', r)) (hi : ingest s clock scan q = .ok i) :
    s' = { i.store with runs := s'.runs, decisions := s'.decisions } := by
  obtain ⟨i', d, hi', -, -, hcases⟩ := reconcile_eq_ok.1 h
  obtain rfl := Except.ok.inj (hi.symm.trans hi')
  rcases hcases with ⟨-, -, rfl⟩ | ⟨stored, -, -, -, rfl⟩
  · rw [applyDecision_frame]
    rfl
  · rw [restored_frame]

/-- **The second ingestion writes the run row only.** -/
theorem ingest_again_store {s s₁ : Store} {clock clock' : Clock} {scan scan' : Scan} {q' : ReconcileRequest}
    {r : ReconciliationDecision} {i i' : Ingested} (hp : q.observation.lookupOutcome = .present)
    (hi : ingest s clock scan q = .ok i) (h : reconcileObservation s clock scan q = .ok (s₁, r))
    (hi' : ingest s₁ clock' scan' q' = .ok i') (hsame : q'.observation = q.observation) :
    i'.store = upsertRun s₁ clock' (observedRun q.observation) := by
  have hstore := ingest_present_store hi hp
  have htables := reconcile_tables h hi
  rw [hstore] at htables
  have hp' : q'.observation.lookupOutcome = .present := by rw [hsame, hp]
  rw [ingest_present_store hi' hp', hsame]
  apply withRecords_of_recorded (s := s)
  · show s₁.events = _
    rw [htables]
    rfl
  · show s₁.stages = _
    rw [htables]
    rfl

end Phlo.RunEvidence
