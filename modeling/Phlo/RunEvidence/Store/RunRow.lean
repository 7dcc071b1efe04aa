import Phlo.RunEvidence.Evaluation
import Phlo.RunEvidence.Store.Recording

/-!
# The run row through a reconciliation

A present observation first goes through the upsert (`ingestedRow`); the decision is evaluated on what
the upsert left.  A new decision then writes the row (`decidedRow`), a known one only gives it its old
update time back (`replayedRow`).  An absent observation skips the upsert.

`reconcile_present` and `reconcile_absent` say this of every successful call, and that no other run is
touched.  What the decision is depends on the request and on the rows read back; `Evaluates` says
which arguments come from the request.
-/

namespace Phlo.RunEvidence

open Phlo.Library

def RunObservation.key (o : RunObservation) : String × String := (o.projectId, o.runId)

/-- The arguments `x` of an evaluation are those of the request `q`, with the observation `o`. -/
structure Evaluates (q : ReconcileRequest) (o : RunObservation) (x : ReconciliationInput) : Prop where
  observation : x.observation = o
  profile : x.profile = q.profile
  now : x.now = q.now
  staleAfter : x.staleAfter = q.staleAfter
  clockSkew : x.clockSkew = q.clockSkew

variable {o : RunObservation} {q : ReconcileRequest} {s : Store} {scan : Scan} {clock : Clock} {row : PipelineRunRow}
  {k : String × String} {r : ReconciliationDecision}

theorem readEvidence_evaluates {x : ReconciliationInput} (h : readEvidence s scan q o = .ok x) : Evaluates q o x := by
  simp only [readEvidence, bind_eq_ok] at h
  obtain ⟨resources, -, catalogChanges, -, qualityResults, -, artifacts, -, events, -, stages, -, h⟩ := h
  cases h
  exact ⟨rfl, rfl, rfl, rfl, rfl⟩

/-! ### Ingesting -/

variable {s' : Store} {i : Ingested}

theorem insertObservationRecords_runs (h : insertObservationRecords s o = .ok s') : s'.runs = s.runs := by
  refine insertObservationRecords_rel (R := fun s s' => s'.runs = s.runs) (fun _ => rfl)
    (fun hab hbc => hbc.trans hab) (fun h => ?_) (fun h => ?_) h
  · rw [(insertEvent_eq_ok.1 h).2.1]
    rfl
  · rw [(insertStage_eq_ok.1 h).2]
    rfl

def ingestedRow (s : Store) (clock : Clock) (o : RunObservation) : PipelineRunRow :=
  (s.runs.find o.key).elim (runRow clock (observedRun o))
    (mergeRun clock (runRow clock (observedRun o)))

theorem ingest_present (h : ingest s clock scan q = .ok i) (hp : q.observation.lookupOutcome = .present) :
    i.observation = q.observation ∧ i.current = ingestedRow s clock q.observation ∧
      i.store.runs = (upsertRun s clock (observedRun q.observation)).runs := by
  obtain ⟨s₁, hingest, -, hrecords, -, hcurrent⟩ := ingest_eq_ok.1 h
  unfold ingestObservation at hingest
  rw [hp] at hingest
  obtain ⟨rfl, hobs⟩ := Prod.mk.inj (Except.ok.inj hingest)
  have hruns := insertObservationRecords_runs hrecords
  refine ⟨hobs.symm, ?_, hruns⟩
  rw [hruns, ← hobs] at hcurrent
  have hself : (upsertRun s clock (observedRun q.observation)).runs.find q.observation.key =
      some (ingestedRow s clock q.observation) := upsertRun_find_self s clock _
  exact Option.some.inj (hcurrent.symm.trans hself)

theorem ingest_absent (h : ingest s clock scan q = .ok i) (hp : q.observation.lookupOutcome = .absent) :
    i.store = s ∧ s.runs.find q.observation.key = some i.current ∧
      i.observation = absentObservation q.observation i.current := by
  obtain ⟨s₁, hingest, -, hrecords, -, hcurrent⟩ := ingest_eq_ok.1 h
  unfold ingestObservation at hingest
  rw [hp] at hingest
  cases hfind : s.runs.find (q.observation.projectId, q.observation.runId) with
  | none =>
    simp only [hfind] at hingest
    cases hingest
  | some row =>
    simp only [hfind] at hingest
    obtain ⟨rfl, hobs⟩ := Prod.mk.inj (Except.ok.inj hingest)
    have hlookup : i.observation.lookupOutcome = .absent := by
      rw [← hobs]
      exact hp
    unfold insertObservationRecords at hrecords
    rw [hlookup] at hrecords
    obtain rfl := Except.ok.inj hrecords
    rw [← hobs] at hcurrent
    have hrow : row = i.current := Option.some.inj (hfind.symm.trans hcurrent)
    subst hrow
    exact ⟨rfl, hfind, hobs.symm⟩

/-! ### Deciding -/

def decidedRow (clock : Clock) (row : PipelineRunRow) (o : RunObservation)
    (d : ReconciliationDecision) : PipelineRunRow :=
  if writesRun row o d then decideRun clock row o d row else row

/-- A terminal run is not sent back to running, incomplete or abandoned: the row is left alone. -/
def RunStatus.suppresses (stored decided : RunStatus) : Bool :=
  stored.isTerminal && (decided == .running || decided == .incomplete || decided == .abandoned)

def RunStatus.overrules (stored decided : RunStatus) : Bool :=
  stored.isTerminal && decided.isTerminal && decided != stored

theorem decidedRow_of_attempt (clock : Clock) (d : ReconciliationDecision) (h : row.attempt = o.attempt) :
    decidedRow clock row o d =
      if row.status.suppresses d.status then row
      else { row with
        status := if row.status.overrules d.status then row.status else d.status
        finishedAt :=
          if row.status.overrules d.status then row.finishedAt.map Timestamp.canonical
          else d.finishedAt
        evidenceCompleteness := d.evidenceCompleteness
        lastHeartbeatAt := d.heartbeatAt
        reconciledAt := some d.decidedAt
        reconciliationReason := some (redactText d.reason)
        updatedAt := clock.utcNow } := by
  have hwrites : writesRun row o d = !row.status.suppresses d.status := by
    simp [writesRun, RunStatus.suppresses, h]
  have hcontradicts : contradictsStored row o d = row.status.overrules d.status := by
    simp [contradictsStored, RunStatus.overrules, h]
  rw [decidedRow, hwrites, decideRun, if_pos h, hcontradicts]
  cases row.status.suppresses d.status with
  | true => rfl
  | false => rfl

theorem decidedRow_of_ne (clock : Clock) (d : ReconciliationDecision) (h : row.attempt ≠ o.attempt) :
    decidedRow clock row o d = row := by
  rw [decidedRow, decideRun, if_neg h]
  split
  · rfl
  · rfl

def replayedRow (s : Store) (row : PipelineRunRow) (o : RunObservation) : PipelineRunRow :=
  (s.runs.find o.key).elim row fun old => { row with updatedAt := old.updatedAt.canonical }

theorem applyDecision_find_of_ne (s : Store) (clock : Clock) (current : PipelineRunRow) (o : RunObservation)
    (d : ReconciliationDecision) (hk : k ≠ o.key) :
    (applyDecision s clock current o d).runs.find k = s.runs.find k := by
  unfold applyDecision
  split
  · exact KeyedTable.find_update_of_ne (f := markReconciled clock d) s.runs (fun _ => rfl) hk
  · split
    · exact KeyedTable.find_update_of_ne s.runs (decideRun_key clock current o d) hk
    · rfl

theorem applyDecision_find_present (clock : Clock) (d : ReconciliationDecision) (hp : o.lookupOutcome = .present)
    (hrow : s.runs.find o.key = some row) :
    (applyDecision s clock row o d).runs.find o.key = some (decidedRow clock row o d) := by
  unfold applyDecision decidedRow
  rw [hp]
  cases writesRun row o d with
  | true => exact KeyedTable.find_update_self (decideRun_key clock row o d) hrow
  | false => exact hrow

theorem applyDecision_find_absent (clock : Clock) (d : ReconciliationDecision) (hp : o.lookupOutcome = .absent)
    (hrow : s.runs.find o.key = some row) :
    (applyDecision s clock row o d).runs.find o.key = some (markReconciled clock d row) := by
  unfold applyDecision
  rw [hp]
  exact KeyedTable.find_update_self (f := markReconciled clock d) (fun _ => rfl) hrow

theorem restored_find_of_ne (s : Store) (i : Ingested) (hk : k ≠ i.observation.key) :
    (restored s i).runs.find k = i.store.runs.find k := by
  unfold restored
  cases s.runs.find (i.observation.projectId, i.observation.runId) with
  | none => rfl
  | some old =>
    exact KeyedTable.find_update_of_ne
      (f := fun row : PipelineRunRow => { row with updatedAt := old.updatedAt.canonical })
      i.store.runs (fun _ => rfl) hk

theorem restored_find_self (hrow : i.store.runs.find i.observation.key = some row) :
    (restored s i).runs.find i.observation.key = some (replayedRow s row i.observation) := by
  unfold restored replayedRow RunObservation.key
  cases s.runs.find (i.observation.projectId, i.observation.runId) with
  | none => exact hrow
  | some old =>
    exact KeyedTable.find_update_self
      (f := fun row : PipelineRunRow => { row with updatedAt := old.updatedAt.canonical })
      (fun _ => rfl) hrow

/-- **A present observation.**  A new decision is applied to the ingested row, a known one is
returned as it is stored. -/
theorem reconcile_present (h : reconcileObservation s clock scan q = .ok (s', r))
    (hp : q.observation.lookupOutcome = .present) :
    ∃ i, ingest s clock scan q = .ok i ∧ Evaluates q q.observation i.evidence ∧ i.evidence.Admissible ∧
      ((storedDecision s i.evidence.decision = none ∧ r = i.evidence.decision ∧ s'.runs.find q.observation.key = some
            (decidedRow clock (ingestedRow s clock q.observation) q.observation r)) ∨
        ∃ stored, storedDecision s i.evidence.decision = some stored ∧ r = decisionFromRow stored ∧
          s'.runs.find q.observation.key =
            some (replayedRow s (ingestedRow s clock q.observation) q.observation)) := by
  obtain ⟨i, d, hi, hd, -, hcases⟩ := reconcile_eq_ok.1 h
  obtain ⟨hobs, hcurrent, hruns⟩ := ingest_present hi hp
  obtain ⟨-, -, -, -, hread, -⟩ := ingest_eq_ok.1 hi
  obtain ⟨hadmissible, rfl⟩ := (i.evidence.evaluate_ok_iff d).1 hd
  have heval := readEvidence_evaluates hread
  rw [hobs] at heval
  have hstored : storedDecision i.store i.evidence.decision = storedDecision s i.evidence.decision := by
    rw [storedDecision, (ingest_recording hi).sameDecisions, storedDecision]
  have hrow : i.store.runs.find q.observation.key = some (ingestedRow s clock q.observation) := by
    rw [hruns]
    exact upsertRun_find_self s clock _
  rw [hstored] at hcases
  refine ⟨i, hi, heval, hadmissible, ?_⟩
  rcases hcases with ⟨hnew, hr, rfl⟩ | ⟨stored, hold, -, hr, rfl⟩
  · refine Or.inl ⟨hnew, hr, ?_⟩
    rw [hobs, hcurrent, hr]
    exact applyDecision_find_present clock _ hp hrow
  · refine Or.inr ⟨stored, hold, hr, ?_⟩
    rw [← hobs] at hrow ⊢
    exact restored_find_self hrow

theorem decisionRow_key (d : ReconciliationDecision) : (decisionRow d).key = (d.projectId, d.decisionId) := rfl

theorem decisionFromRow_key (r : DecisionRow) : (decisionRow (decisionFromRow r)).key = r.key := by
  rw [decisionRow_key]
  rfl

theorem reconcile_present_new (h : reconcileObservation s clock scan q = .ok (s', r))
    (hp : q.observation.lookupOutcome = .present) (hnew : storedDecision s r = none) :
    ∃ i, ingest s clock scan q = .ok i ∧ Evaluates q q.observation i.evidence ∧ r = i.evidence.decision ∧
      s'.runs.find q.observation.key = some
        (decidedRow clock (ingestedRow s clock q.observation) q.observation r) := by
  obtain ⟨i, hi, heval, -, ⟨-, hr, hfind⟩ | ⟨stored, hstored, rfl, -⟩⟩ := reconcile_present h hp
  · exact ⟨i, hi, heval, hr, hfind⟩
  · have hfound : s.decisions.find (decisionRow i.evidence.decision).key = some stored := hstored
    rw [storedDecision, decisionFromRow_key, KeyedTable.key_of_find hfound, hfound] at hnew
    cases hnew

/-- **An absent observation.**  The run row is only marked as reconciled, or not changed at all but
for the form of its update time. -/
theorem reconcile_absent (h : reconcileObservation s clock scan q = .ok (s', r))
    (hp : q.observation.lookupOutcome = .absent) : ∃ row, s.runs.find q.observation.key = some row ∧
      (s'.runs.find q.observation.key = some (markReconciled clock r row) ∨
        s'.runs.find q.observation.key = some { row with updatedAt := row.updatedAt.canonical }) := by
  obtain ⟨i, d, hi, hd, -, hcases⟩ := reconcile_eq_ok.1 h
  obtain ⟨hstore, hfind, hobs⟩ := ingest_absent hi hp
  have hkey : i.observation.key = q.observation.key := by
    rw [hobs]
    rfl
  have hlookup : i.observation.lookupOutcome = .absent := by
    rw [hobs]
    exact hp
  have hrow : i.store.runs.find i.observation.key = some i.current := by
    rw [hstore, hkey]
    exact hfind
  refine ⟨i.current, hfind, ?_⟩
  rw [← hkey]
  rcases hcases with ⟨-, rfl, rfl⟩ | ⟨stored, -, -, -, rfl⟩
  · exact Or.inl (applyDecision_find_absent clock _ hlookup hrow)
  · right
    rw [restored_find_self hrow, replayedRow, hkey, hfind]
    rfl

theorem reconcile_find_of_ne (h : reconcileObservation s clock scan q = .ok (s', r)) (hk : k ≠ q.observation.key) :
    s'.runs.find k = s.runs.find k := by
  obtain ⟨i, d, hi, -, -, hcases⟩ := reconcile_eq_ok.1 h
  have hobs : i.observation.key = q.observation.key ∧ i.store.runs.find k = s.runs.find k := by
    cases hp : q.observation.lookupOutcome with
    | present =>
      obtain ⟨hobs, -, hruns⟩ := ingest_present hi hp
      refine ⟨by rw [hobs], ?_⟩
      rw [hruns]
      exact upsertRun_find_of_ne s clock hk
    | absent =>
      obtain ⟨hstore, -, hobs⟩ := ingest_absent hi hp
      refine ⟨by rw [hobs]; rfl, by rw [hstore]⟩
  rw [← hobs.1] at hk
  rcases hcases with ⟨-, -, rfl⟩ | ⟨stored, -, -, -, rfl⟩
  · exact (applyDecision_find_of_ne _ _ _ _ _ hk).trans hobs.2
  · exact (restored_find_of_ne s i hk).trans hobs.2

end Phlo.RunEvidence
