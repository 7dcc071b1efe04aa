import Phlo.Library.Redelivery
import Phlo.RunEvidence.AggregateFollows

/-!
# Run rows that a second upsert keeps

A call that finds its decision stored has upserted the run row before it found out, and it does not
apply the decision again.  So the columns that the first call wrote have to survive the upsert.

* `Holds`, `mergeRun_of_holds` — every column does but status and completeness;
* `Settled`, `asInstants_mergeRun_iff` — the rows in which these two survive as well;
* `RowKept`, `settled_iff_rowKept` — when the first call leaves such a row.
-/

namespace Phlo.RunEvidence

open Phlo.Library

/-! ### The upsert of an observation, repeated -/

/-- The row holds what an upsert of the observation writes, its status and completeness apart. -/
structure PipelineRunRow.Holds (row : PipelineRunRow) (o : RunObservation) : Prop where
  attempt : o.attempt ≤ row.attempt
  pipelineName : row.pipelineName.or (text o.pipelineName) = row.pipelineName
  providerRunId : row.providerRunId.or (text o.providerRunId) = row.providerRunId
  startedAt : row.attempt = o.attempt → row.startedAt.or o.startedAt = row.startedAt
  finishedAt : row.attempt = o.attempt →
    (if row.status.isTerminal then row.finishedAt.or o.finishedAt
      else o.finishedAt.or row.finishedAt) = row.finishedAt

def RunObservation.declared (o : RunObservation) : EvidenceCompleteness :=
  o.evidenceState.getD .incomplete

/-- An upsert of the observation keeps the status and completeness of the row. -/
def PipelineRunRow.Settled (row : PipelineRunRow) (o : RunObservation) : Prop :=
  o.attempt < row.attempt ∨ row.status.isTerminal = true ∨
    (row.status = o.status.getD .running ∧
      (row.evidenceCompleteness = o.declared ∨
        keepsCompleteness row.evidenceCompleteness o.declared = true))

def PipelineRunRow.statusAfter (row : PipelineRunRow) (o : RunObservation) : RunStatus :=
  if o.attempt < row.attempt ∨ row.status.isTerminal = true then row.status
  else o.status.getD .running

def PipelineRunRow.completenessAfter (row : PipelineRunRow) (o : RunObservation) : EvidenceCompleteness :=
  if o.attempt < row.attempt ∨ row.status.isTerminal = true ∨
      keepsCompleteness row.evidenceCompleteness o.declared = true then
    row.evidenceCompleteness
  else o.declared

section Row

variable {row : PipelineRunRow} {o : RunObservation}

theorem settled_iff : row.Settled o ↔ row.statusAfter o = row.status ∧
      row.completenessAfter o = row.evidenceCompleteness := by
  unfold PipelineRunRow.Settled PipelineRunRow.statusAfter PipelineRunRow.completenessAfter
  by_cases hlt : o.attempt < row.attempt
  · simp [hlt]
  · by_cases ht : row.status.isTerminal = true
    · simp [ht]
    · by_cases hkeeps : keepsCompleteness row.evidenceCompleteness o.declared = true
      · simp [hlt, ht, hkeeps, eq_comm]
      · simp [hlt, ht, hkeeps, eq_comm]

theorem mergeRun_of_holds (clock clock' : Clock) (h : row.Holds o) :
    mergeRun clock (runRow clock' (observedRun o)) row =
      { row with
        status := row.statusAfter o
        evidenceCompleteness := row.completenessAfter o
        updatedAt := clock.currentTimestamp } := by
  have htext : text none = none := rfl
  have hdeclared : o.evidenceState.getD .incomplete = o.declared := rfl
  unfold PipelineRunRow.statusAfter PipelineRunRow.completenessAfter
  rcases Nat.lt_or_eq_of_le h.attempt with hlt | heq
  · have hnot : ¬ row.attempt < o.attempt := by omega
    simp only [mergeRun, attemptColumn, byAttempt, runRow, observedRun, gt_iff_lt, hnot, hlt, if_true,
      if_false, true_or, h.pipelineName, h.providerRunId, htext, Option.or_none]
  · have hfinished := h.finishedAt heq.symm
    have hcompleteness : (if row.status.isTerminal = true then row.evidenceCompleteness
        else if keepsCompleteness row.evidenceCompleteness o.declared = true then
          row.evidenceCompleteness
        else o.declared) =
        if row.status.isTerminal = true ∨
            keepsCompleteness row.evidenceCompleteness o.declared = true then
          row.evidenceCompleteness
        else o.declared := by
      by_cases ht : row.status.isTerminal = true
      · simp [ht]
      · simp [ht]
    simp only [mergeRun, attemptColumn, byAttempt, runRow, observedRun, gt_iff_lt, heq, lt_irrefl,
      if_false, false_or, h.pipelineName, h.providerRunId, h.startedAt heq.symm, htext, Option.or_none,
      Option.none_or, ite_self, RunStatus.isSqlTerminal_eq, hfinished, hdeclared, hcompleteness]

end Row

/-! ### Rows that hold an observation -/

theorem holds_mergeRun (clock : Clock) (row : PipelineRunRow) (o : RunObservation) :
    (mergeRun clock (runRow clock (observedRun o)) row).Holds o := by
  have hattempt : (mergeRun clock (runRow clock (observedRun o)) row).attempt =
      max row.attempt o.attempt := mergeRun_attempt clock _ row
  refine ⟨?_, or_or_self _ _, or_or_self _ _, fun hsame => ?_, fun hsame => ?_⟩
  · rw [hattempt]
    exact le_max_right _ _
  · rcases Nat.lt_or_ge row.attempt o.attempt with hlt | hge
    · simp only [mergeRun, byAttempt, runRow, observedRun, gt_iff_lt, hlt, if_true, Option.or_self]
    · have heq : row.attempt = o.attempt := by omega
      simp only [mergeRun, byAttempt, runRow, observedRun, gt_iff_lt, heq, lt_irrefl, if_false,
        or_or_self]
  · rcases Nat.lt_or_ge row.attempt o.attempt with hlt | hge
    · simp only [mergeRun, byAttempt, runRow, observedRun, gt_iff_lt, hlt, if_true, Option.or_self,
        ite_self]
    · have heq : row.attempt = o.attempt := by omega
      simp only [mergeRun, byAttempt, runRow, observedRun, gt_iff_lt, heq, lt_irrefl, if_false,
        RunStatus.isSqlTerminal_eq]
      cases ht : row.status.isTerminal with
      | true => simp only [if_true, ht, or_or_self]
      | false =>
        have hfilled : (o.finishedAt.or row.finishedAt).or o.finishedAt = o.finishedAt.or row.finishedAt := by
          cases o.finishedAt with
          | none => exact Option.or_none
          | some t => rfl
        simp only [Bool.false_eq_true, if_false, hfilled, or_self_or, ite_self]

theorem holds_ingestedRow (s : Store) (clock : Clock) (o : RunObservation) : (ingestedRow s clock o).Holds o := by
  unfold ingestedRow
  cases s.runs.find o.key with
  | some row => exact holds_mergeRun clock row o
  | none =>
    refine ⟨le_rfl, Option.or_self, Option.or_self, fun _ => Option.or_self, fun _ => ?_⟩
    show (if _ then o.finishedAt.or o.finishedAt else o.finishedAt.or o.finishedAt) = o.finishedAt
    rw [Option.or_self, ite_self]

theorem PipelineRunRow.Holds.decidedRow {row : PipelineRunRow} {o : RunObservation} (h : row.Holds o)
    (clock : Clock) {d : ReconciliationDecision} (hd : d.finishedAt = o.finishedAt) :
    (decidedRow clock row o d).Holds o := by
  by_cases hattempt : row.attempt = o.attempt
  · rw [decidedRow_of_attempt clock d hattempt]
    split
    · exact h
    · refine ⟨h.attempt, h.pipelineName, h.providerRunId, h.startedAt, fun _ => ?_⟩
      cases hoverrules : row.status.overrules d.status with
      | true =>
        -- the stored finish time is read back in UTC
        have hterminal : row.status.isTerminal = true := by
          simp only [RunStatus.overrules, Bool.and_eq_true] at hoverrules
          exact hoverrules.1.1
        have hfinished := h.finishedAt hattempt
        rw [if_pos hterminal] at hfinished
        simp only [if_true, hterminal]
        cases hrow : row.finishedAt with
        | none =>
          rw [hrow] at hfinished
          exact hfinished
        | some t => rfl
      | false => simp only [Bool.false_eq_true, if_false, hd, Option.or_self, ite_self]
  · rw [decidedRow_of_ne clock d hattempt]
    exact h

theorem PipelineRunRow.Holds.replayedRow {row : PipelineRunRow} {o : RunObservation}
    (h : row.Holds o) (s : Store) : (replayedRow s row o).Holds o := by
  unfold RunEvidence.replayedRow
  cases s.runs.find o.key with
  | none => exact h
  | some old => exact ⟨h.attempt, h.pipelineName, h.providerRunId, h.startedAt, h.finishedAt⟩

/-! ### Rows compared as instants -/

/-- The row with its timestamps as they are read back. -/
def PipelineRunRow.asInstants (row : PipelineRunRow) : PipelineRunRow :=
  { row with
    startedAt := row.startedAt.map Timestamp.canonical
    finishedAt := row.finishedAt.map Timestamp.canonical
    createdAt := row.createdAt.canonical
    updatedAt := row.updatedAt.canonical
    lastHeartbeatAt := row.lastHeartbeatAt.map Timestamp.canonical
    reconciledAt := row.reconciledAt.map Timestamp.canonical }

theorem asInstants_mergeRun_iff {row : PipelineRunRow} {o : RunObservation} (clock clock' : Clock)
    (h : row.Holds o) :
    ({ mergeRun clock (runRow clock' (observedRun o)) row with
        updatedAt := row.updatedAt.canonical } : PipelineRunRow).asInstants = row.asInstants ↔
      row.Settled o := by
  rw [mergeRun_of_holds clock clock' h, settled_iff]
  constructor
  · intro hsame
    exact ⟨congrArg PipelineRunRow.status hsame, congrArg PipelineRunRow.evidenceCompleteness hsame⟩
  · rintro ⟨hstatus, hcompleteness⟩
    rw [hstatus, hcompleteness]
    simp only [PipelineRunRow.asInstants, Timestamp.canonical_canonical]

/-! ### What a call leaves -/

theorem reconcile_holds {s s₁ : Store} {clock : Clock} {scan : Scan} {q : ReconcileRequest}
    {r : ReconciliationDecision} (h : reconcileObservation s clock scan q = .ok (s₁, r))
    (hp : q.observation.lookupOutcome = .present) :
    ∃ row, s₁.runs.find q.observation.key = some row ∧ row.Holds q.observation := by
  obtain ⟨i, -, heval, -, hcases⟩ := reconcile_present h hp
  have hholds := holds_ingestedRow s clock q.observation
  rcases hcases with ⟨-, rfl, hfind⟩ | ⟨stored, -, -, hfind⟩
  · refine ⟨_, hfind, hholds.decidedRow clock ?_⟩
    rw [← heval.observation]
    rfl
  · exact ⟨_, hfind, hholds.replayedRow s⟩

theorem settled_mergeRun (clock : Clock) (row : PipelineRunRow) (o : RunObservation) :
    (mergeRun clock (runRow clock (observedRun o)) row).Settled o := by
  have hdeclared : o.evidenceState.getD .incomplete = o.declared := rfl
  rcases lt_trichotomy row.attempt o.attempt with hlt | heq | hgt
  · refine Or.inr (Or.inr ⟨?_, Or.inl ?_⟩)
    · simp only [mergeRun, byAttempt, runRow, observedRun, gt_iff_lt, hlt, if_true]
    · simp only [mergeRun, byAttempt, runRow, observedRun, gt_iff_lt, hlt, if_true, hdeclared]
  · cases ht : row.status.isTerminal with
    | true =>
      refine Or.inr (Or.inl ?_)
      rw [mergeRun_status_of_terminal clock heq.ge ht]
      exact ht
    | false =>
      refine Or.inr (Or.inr ⟨?_, ?_⟩)
      · simp only [mergeRun, byAttempt, runRow, observedRun, gt_iff_lt, heq, lt_irrefl, if_false,
          RunStatus.isSqlTerminal_eq, ht, Bool.false_eq_true]
      · simp only [mergeRun, byAttempt, runRow, observedRun, gt_iff_lt, heq, lt_irrefl, if_false,
          RunStatus.isSqlTerminal_eq, ht, Bool.false_eq_true, hdeclared]
        cases hkeeps : keepsCompleteness row.evidenceCompleteness o.declared with
        | true => exact Or.inr (by rw [if_pos rfl]; exact hkeeps)
        | false => exact Or.inl rfl
  · refine Or.inl ?_
    rw [mergeRun_attempt]
    exact lt_of_lt_of_le hgt (le_max_left _ _)

theorem settled_ingestedRow (s : Store) (clock : Clock) (o : RunObservation) : (ingestedRow s clock o).Settled o := by
  unfold ingestedRow
  cases s.runs.find o.key with
  | some row => exact settled_mergeRun clock row o
  | none => exact Or.inr (Or.inr ⟨rfl, Or.inl rfl⟩)

theorem settled_decidedRow_iff (clock : Clock) {row : PipelineRunRow} {o : RunObservation}
    (d : ReconciliationDecision) (h : row.attempt = o.attempt) : (decidedRow clock row o d).Settled o ↔
      d.status.isTerminal = true ∨ row.status.suppresses d.status = true ∨ (d.status = o.status.getD .running ∧
          (d.evidenceCompleteness = o.declared ∨ keepsCompleteness d.evidenceCompleteness o.declared = true)) := by
  have hattempt : ¬ o.attempt < row.attempt := by omega
  unfold PipelineRunRow.Settled
  rw [decidedRow_attempt, decidedRow_of_attempt clock d h]
  cases hsuppresses : row.status.suppresses d.status with
  | true =>
    have ht : row.status.isTerminal = true := by
      simp only [RunStatus.suppresses, Bool.and_eq_true] at hsuppresses
      exact hsuppresses.1
    simp [hattempt, ht]
  | false =>
    cases hoverrules : row.status.overrules d.status with
    | true =>
      have ht : row.status.isTerminal = true ∧ d.status.isTerminal = true := by
        simp only [RunStatus.overrules, Bool.and_eq_true] at hoverrules
        exact hoverrules.1
      simp [hattempt, ht.1, ht.2]
    | false => simp [hattempt]

theorem decision_status_cases (x : ReconciliationInput) :
    (x.observation.status.any RunStatus.isTerminal = true ∧ x.decision.status.isTerminal = true) ∨
      (x.observation.status.any RunStatus.isNonterminal = true ∧ x.heartbeatExpired = true ∧
        x.decision.status = .abandoned) ∨
      (∃ status, x.observation.status = some status ∧ status.isNonterminal = true ∧
        x.heartbeatExpired = false ∧ x.decision.status = status) ∨
      (x.observation.status = none ∧ x.decision.status = .unknown) ∨
      ∃ status, x.observation.status = some status ∧ status.isTerminal = false ∧
        status.isNonterminal = false ∧ x.decision.status = .unsupported := by
  have hdecision : x.decision.status = x.outcome.status := rfl
  rw [hdecision]
  cases hs : x.observation.status with
  | none => exact Or.inr (Or.inr (Or.inr (Or.inl ⟨rfl, (x.outcome_of_none hs).1⟩)))
  | some status =>
    cases ht : status.isTerminal with
    | true =>
      have hany := x.status_terminal
      rw [hs, Option.any_some, ht] at hany
      obtain ⟨resolved, hresolved, hterminal⟩ := (Option.any_eq_true _ _).1 hany
      refine Or.inl ⟨ht, ?_⟩
      rw [(x.outcome_of_terminal hresolved hterminal).1]
      exact hterminal
    | false =>
      cases hn : status.isNonterminal with
      | true =>
        rw [x.outcome_status_of_nonterminal hs hn]
        cases hexpired : x.heartbeatExpired with
        | true => exact Or.inr (Or.inl ⟨hn, rfl, rfl⟩)
        | false => exact Or.inr (Or.inr (Or.inl ⟨status, rfl, hn, rfl, rfl⟩))
      | false =>
        rw [x.outcome_of_unsupported hs ht hn]
        exact Or.inr (Or.inr (Or.inr (Or.inr ⟨status, rfl, ht, hn, rfl⟩)))

/-- The completeness a decision gives a run that has not ended. -/
def ReconciliationInput.openCompleteness (x : ReconciliationInput) : EvidenceCompleteness :=
  if x.observation.status.any RunStatus.isNonterminal && x.isDegraded then
    x.explicitState.getD .incomplete
  else .incomplete

theorem ReconciliationInput.openCompleteness_eq (x : ReconciliationInput) {status : RunStatus}
    (hs : x.observation.status = some status) (ht : status.isTerminal = false) :
    x.decision.evidenceCompleteness = x.openCompleteness := by
  show x.outcome.completeness = _
  rw [x.outcome_completeness, openCompleteness, hs]
  cases hn : status.isNonterminal with
  | true => cases x.isDegraded <;> simp [ht, hn]
  | false => simp [ht, hn]

/-- Why a second upsert of the observation leaves the run row alone. -/
inductive RowKept (s : Store) (q : ReconcileRequest) (x : ReconciliationInput) : Prop where
  /-- The decision was stored before the first call. -/
  | known (h : (storedDecision s x.decision).isSome = true)
  /-- The run is stored at a higher attempt. -/
  | superseded (row : PipelineRunRow) (hrow : s.runs.find q.observation.key = some row)
      (h : q.observation.attempt < row.attempt)
  /-- A terminal status was observed. -/
  | terminal (h : q.observation.status.any RunStatus.isTerminal = true)
  /-- The heartbeat of a run that had not ended has expired. -/
  | expired (h : q.observation.status.any RunStatus.isNonterminal = true)
      (hexpired : q.arguments.heartbeatExpired = true)
  /-- A run that is stored as terminal was observed to be running. -/
  | ended (row : PipelineRunRow) (hrow : s.runs.find q.observation.key = some row)
      (hattempt : row.attempt = q.observation.attempt) (ht : row.status.isTerminal = true)
      (h : q.observation.status = some .running)
  /-- The decision has the observed status, and a completeness that the upsert writes or keeps. -/
  | repeated (h : q.observation.status = some .unsupported ∨
        q.observation.status.any RunStatus.isNonterminal = true)
      (hcompleteness : x.openCompleteness = q.observation.declared ∨
        keepsCompleteness x.openCompleteness q.observation.declared = true)

theorem ingestedRow_attempt {s : Store} {o : RunObservation} {row : PipelineRunRow}
    (h : s.runs.find o.key = some row) (clock : Clock) :
    (ingestedRow s clock o).attempt = max row.attempt o.attempt := by
  rw [ingestedRow_of_find h]
  exact mergeRun_attempt clock _ row

theorem superseded_of_ingestedRow {s : Store} {clock : Clock} {o : RunObservation}
    (h : o.attempt < (ingestedRow s clock o).attempt) :
    ∃ row, s.runs.find o.key = some row ∧ o.attempt < row.attempt := by
  cases hfind : s.runs.find o.key with
  | none =>
    rw [ingestedRow, hfind] at h
    exact absurd h (lt_irrefl _)
  | some row =>
    rw [ingestedRow_attempt hfind] at h
    exact ⟨row, rfl, by omega⟩

theorem ended_of_ingestedRow {s : Store} {clock : Clock} {o : RunObservation}
    (ho : (o.status.getD .running).isTerminal = false) (hattempt : (ingestedRow s clock o).attempt = o.attempt)
    (ht : (ingestedRow s clock o).status.isTerminal = true) :
    ∃ row, s.runs.find o.key = some row ∧ row.attempt = o.attempt ∧ row.status.isTerminal = true := by
  by_contra hnone
  have hopen : OpenTo s o := by
    intro row hrow
    rw [ingestedRow_attempt hrow] at hattempt
    rcases Nat.lt_or_ge row.attempt o.attempt with hlt | hge
    · exact Or.inl hlt
    · have heq : row.attempt = o.attempt := by omega
      exact Or.inr ⟨heq, Bool.eq_false_iff.2 fun hrowEnded => hnone ⟨row, hrow, heq, hrowEnded⟩⟩
  rw [(ingestedRow_columns clock hopen).2.1, ho] at ht
  cases ht

theorem ingestedRow_status_of_ended {s : Store} {o : RunObservation} {row : PipelineRunRow}
    (hrow : s.runs.find o.key = some row) (hattempt : row.attempt = o.attempt)
    (ht : row.status.isTerminal = true) (clock : Clock) : (ingestedRow s clock o).status = row.status := by
  rw [ingestedRow_of_find hrow]
  exact mergeRun_status_of_terminal clock hattempt.ge ht

theorem PipelineRunRow.Settled.replayedRow {row : PipelineRunRow} {o : RunObservation}
    (h : row.Settled o) (s : Store) : (replayedRow s row o).Settled o := by
  unfold RunEvidence.replayedRow
  cases s.runs.find o.key with
  | none => exact h
  | some old => exact h

theorem RunStatus.suppresses_nonterminal (stored : RunStatus) {status : RunStatus}
    (hn : status.isNonterminal = true) :
    stored.suppresses status = true ↔ status = .running ∧ stored.isTerminal = true := by
  simp only [suppresses, Bool.and_eq_true, Bool.or_eq_true, beq_iff_eq]
  constructor
  · rintro ⟨ht, (rfl | rfl) | rfl⟩
    · exact ⟨rfl, ht⟩
    · cases hn
    · cases hn
  · rintro ⟨rfl, ht⟩
    exact ⟨ht, Or.inl (Or.inl rfl)⟩

section New

variable {s : Store} {clock : Clock} {q : ReconcileRequest} {x : ReconciliationInput}

theorem rowKept_new_iff (hnew : storedDecision s x.decision = none)
    (hattempt : (ingestedRow s clock q.observation).attempt = q.observation.attempt) :
    RowKept s q x ↔ q.observation.status.any RunStatus.isTerminal = true ∨
      (q.observation.status.any RunStatus.isNonterminal = true ∧ q.arguments.heartbeatExpired = true) ∨
      (q.observation.status = some .running ∧ (ingestedRow s clock q.observation).status.isTerminal = true) ∨
      ((q.observation.status = some .unsupported ∨ q.observation.status.any RunStatus.isNonterminal = true) ∧
        (x.openCompleteness = q.observation.declared ∨
          keepsCompleteness x.openCompleteness q.observation.declared = true)) := by
  constructor
  · intro hkept
    cases hkept with
    | known h =>
      rw [hnew] at h
      cases h
    | superseded row hrow h =>
      rw [ingestedRow_attempt hrow] at hattempt
      omega
    | terminal h => exact Or.inl h
    | expired h hexpired => exact Or.inr (Or.inl ⟨h, hexpired⟩)
    | ended row hrow hsame ht h =>
      refine Or.inr (Or.inr (Or.inl ⟨h, ?_⟩))
      rw [ingestedRow_status_of_ended hrow hsame ht]
      exact ht
    | repeated h hcompleteness => exact Or.inr (Or.inr (Or.inr ⟨h, hcompleteness⟩))
  · rintro (h | ⟨h, hexpired⟩ | ⟨h, ht⟩ | ⟨h, hcompleteness⟩)
    · exact .terminal h
    · exact .expired h hexpired
    · obtain ⟨row, hrow, hsame, hended⟩ := ended_of_ingestedRow (by rw [h]; rfl) hattempt ht
      exact .ended row hrow hsame hended h
    · exact .repeated h hcompleteness

theorem settled_new_iff (heval : Evaluates q q.observation x) (hnew : storedDecision s x.decision = none)
    (hattempt : (ingestedRow s clock q.observation).attempt = q.observation.attempt) :
    (decidedRow clock (ingestedRow s clock q.observation) q.observation x.decision).Settled
        q.observation ↔ RowKept s q x := by
  have hcompleteness : ∀ status, q.observation.status = some status → status.isTerminal = false →
      x.decision.evidenceCompleteness = x.openCompleteness := by
    intro status hs ht
    exact x.openCompleteness_eq (heval.observation ▸ hs) ht
  have hcases := decision_status_cases x
  rw [heval.observation, heartbeatExpired_of_evaluates heval] at hcases
  rw [settled_decidedRow_iff clock _ hattempt, rowKept_new_iff hnew hattempt]
  obtain ⟨ht, hd⟩ | ⟨hn, hexpired, hd⟩ | ⟨status, hs, hn, hexpired, hd⟩ | ⟨hs, hd⟩ |
    ⟨status, hs, ht, hn, hd⟩ := hcases
  · simp [ht, hd]
  · simp [hn, hexpired, hd, RunStatus.isTerminal]
  · have ht : status.isTerminal = false := by cases status <;> first | rfl | cases hn
    rw [hd, RunStatus.suppresses_nonterminal _ hn, hcompleteness status hs ht]
    simp [hs, hn, ht, hexpired]
  · simp [hs, hd, RunStatus.suppresses, RunStatus.isTerminal]
  · rw [hd, hcompleteness status hs ht]
    have hrunning : status ≠ .running := by
      rintro rfl
      cases hn
    have hcomm : RunStatus.unsupported = status ↔ status = .unsupported := eq_comm
    have hopen : RunStatus.unsupported.isTerminal = false := rfl
    have hsuppresses : ∀ stored : RunStatus, stored.suppresses .unsupported = false := by
      intro stored
      simp [RunStatus.suppresses]
    simp [hs, hn, ht, hrunning, hcomm, hopen, hsuppresses]

end New

/-- **The row after the first call** is settled exactly in the cases of `RowKept`. -/
theorem settled_iff_rowKept {s s₁ : Store} {clock : Clock} {scan : Scan} {q : ReconcileRequest}
    {r : ReconciliationDecision} {i : Ingested} (hp : q.observation.lookupOutcome = .present)
    (hi : ingest s clock scan q = .ok i) (h : reconcileObservation s clock scan q = .ok (s₁, r)) :
    (∀ row, s₁.runs.find q.observation.key = some row → row.Settled q.observation) ↔ RowKept s q i.evidence := by
  obtain ⟨i₀, hi₀, heval, -, hcases⟩ := reconcile_present h hp
  obtain rfl := Except.ok.inj (hi.symm.trans hi₀)
  rcases hcases with ⟨hnew, rfl, hfind⟩ | ⟨stored, hstored, -, hfind⟩
  · have hrow : (∀ row, s₁.runs.find q.observation.key = some row → row.Settled q.observation) ↔
        (decidedRow clock (ingestedRow s clock q.observation) q.observation
          i.evidence.decision).Settled q.observation := by
      rw [hfind]
      simp
    rw [hrow]
    rcases Nat.lt_or_eq_of_le (holds_ingestedRow s clock q.observation).attempt with hlt | heq
    · obtain ⟨row, hrow, hlower⟩ := superseded_of_ingestedRow hlt
      refine ⟨fun _ => .superseded row hrow hlower, fun _ => Or.inl ?_⟩
      rw [decidedRow_attempt]
      exact hlt
    · exact settled_new_iff heval hnew heq.symm
  · refine ⟨fun _ => .known (by rw [hstored]; rfl), fun _ row hrow => ?_⟩
    obtain rfl := Option.some.inj (hfind.symm.trans hrow)
    exact (settled_ingestedRow s clock q.observation).replayedRow s

end Phlo.RunEvidence
