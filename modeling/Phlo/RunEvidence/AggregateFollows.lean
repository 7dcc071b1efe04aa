import Phlo.RunEvidence.FinishTimes

/-!
# The run row after a new decision

When a run is new, or observed at a higher attempt, or has not ended, a new decision should end up in
its row.  But the upsert writes the raw provider status first, and the guards then take it for a
status that was stored before:

* a successful run downgraded to no-data keeps `success`, the upsert's own status overruling the
  decision's;
* an abandoned run is not updated at all, so the row shows what the upsert left.

`aggregate_follows_iff` says that these are the only two exceptions, and when the second one shows.
-/

namespace Phlo.RunEvidence

open Phlo.Library

def PipelineRunRow.Shows (row : PipelineRunRow) (d : ReconciliationDecision) : Prop :=
  row.status = d.status ∧ row.finishedAt = d.finishedAt ∧
    row.evidenceCompleteness = d.evidenceCompleteness

def Follows (s : Store) (o : RunObservation) (d : ReconciliationDecision) : Prop :=
  ∃ row, s.runs.find o.key = some row ∧ row.attempt = o.attempt ∧ row.Shows d

/-- The run does not exist, or at a lower attempt, or at the observed one without having ended. -/
def OpenTo (s : Store) (o : RunObservation) : Prop :=
  ∀ row, s.runs.find o.key = some row →
    row.attempt < o.attempt ∨ (row.attempt = o.attempt ∧ row.status.isTerminal = false)

def FinishTimeAgrees (s : Store) (o : RunObservation) : Prop :=
  o.finishedAt.isSome = true ∨
    ∀ row, s.runs.find o.key = some row → row.attempt = o.attempt → row.finishedAt = none

/-- The completeness the upsert writes: what the observation declares, unless that would replace
complete, expired or redacted evidence of the attempt by incomplete. -/
def writtenCompleteness (s : Store) (o : RunObservation) : EvidenceCompleteness :=
  (s.runs.find o.key).elim (o.evidenceState.getD .incomplete) fun row =>
    if row.attempt = o.attempt ∧
        keepsCompleteness row.evidenceCompleteness (o.evidenceState.getD .incomplete) = true then
      row.evidenceCompleteness
    else o.evidenceState.getD .incomplete

/-- The completeness that the strongest evidence state and the gaps leave a run that has ended. -/
def ReconciliationInput.supportedCompleteness (x : ReconciliationInput) : EvidenceCompleteness :=
  if x.isDegraded then x.explicitState.getD .incomplete
  else if x.missing.isEmpty then .complete else .incomplete

/-! ### The upsert of an open run -/

section Open

variable {s : Store} {o : RunObservation}

theorem ingestedRow_columns (clock : Clock) (h : OpenTo s o) : (ingestedRow s clock o).attempt = o.attempt ∧
      (ingestedRow s clock o).status = o.status.getD .running ∧
      ((ingestedRow s clock o).finishedAt = o.finishedAt ↔ FinishTimeAgrees s o) ∧
      (ingestedRow s clock o).evidenceCompleteness = writtenCompleteness s o := by
  unfold ingestedRow FinishTimeAgrees writtenCompleteness
  cases hfind : s.runs.find o.key with
  | none =>
    have hvacuous : ∀ row : PipelineRunRow, none = some row → row.attempt = o.attempt → row.finishedAt = none := by
      intro row hrow
      cases hrow
    exact ⟨rfl, rfl, ⟨fun _ => Or.inr hvacuous, fun _ => rfl⟩, rfl⟩
  | some row =>
    have hexcluded : (runRow clock (observedRun o)).attempt = o.attempt := rfl
    rcases h row hfind with hlt | ⟨heq, ht⟩
    · have hne : row.attempt ≠ o.attempt := by omega
      have hnot : ¬ row.attempt > o.attempt := by omega
      simp only [Option.elim_some, mergeRun, byAttempt, hexcluded, gt_iff_lt, hlt, if_true, hne,
        false_and, if_false]
      refine ⟨by rw [if_neg hnot], rfl, ⟨fun _ => Or.inr ?_, fun _ => rfl⟩, rfl⟩
      intro row' h hattempt
      cases h
      exact absurd hattempt hne
    · have hterminal : row.status.isSqlTerminal = false := by
        rw [RunStatus.isSqlTerminal_eq]
        exact ht
      simp only [Option.elim_some, mergeRun, byAttempt, hexcluded, heq, gt_iff_lt, lt_irrefl,
        if_false, hterminal, Bool.false_eq_true, true_and]
      refine ⟨rfl, ?_, rfl⟩
      show o.finishedAt.or row.finishedAt = o.finishedAt ↔ _
      cases o.finishedAt with
      | none => simp [heq]
      | some t => simp

end Open

/-! ### The guards -/

theorem status_success_noData {x : ReconciliationInput} :
    x.status = some .noData ↔ x.observation.status = some .noData ∨
      (x.observation.status = some .success ∧ x.taggedNoData = true) := by
  by_cases hs : x.observation.status = some .success
  · have hterminal : x.successfulTerminal = true := by simp [ReconciliationInput.successfulTerminal, hs]
    simp [ReconciliationInput.status, ReconciliationInput.noData, hs, hterminal]
  · rw [x.status_of_not_success hs]
    simp [hs]

theorem ReconciliationInput.outcome_status_of_terminal (x : ReconciliationInput) {status : RunStatus}
    (hs : x.observation.status = some status) (ht : status.isTerminal = true) :
    x.outcome.status = if status = .success ∧ x.taggedNoData = true then .noData else status := by
  by_cases hsuccess : status = .success
  · subst hsuccess
    by_cases htag : x.taggedNoData = true
    · have hx : x.status = some .noData := status_success_noData.2 (Or.inr ⟨hs, htag⟩)
      rw [(x.outcome_of_terminal hx rfl).1, if_pos ⟨rfl, htag⟩]
    · have hx : x.status = some .success := by
        simp [ReconciliationInput.status, ReconciliationInput.noData, hs, htag]
      rw [(x.outcome_of_terminal hx rfl).1, if_neg fun h => htag h.2]
  · have hx : x.status = some status := by
      rw [x.status_of_not_success (by simp [hs, hsuccess]), hs]
    rw [(x.outcome_of_terminal hx ht).1, if_neg fun h => hsuccess h.1]

/-- The update is skipped for an abandoned observation only. -/
theorem suppresses_iff (x : ReconciliationInput) :
    (x.observation.status.getD .running).suppresses x.decision.status = true ↔
      x.observation.status = some .abandoned := by
  show (x.observation.status.getD .running).suppresses x.outcome.status = true ↔ _
  cases hs : x.observation.status with
  | none => simp [RunStatus.suppresses, RunStatus.isTerminal]
  | some status =>
    cases ht : status.isTerminal with
    | false => cases status <;> simp_all [RunStatus.suppresses, RunStatus.isTerminal]
    | true =>
      rw [x.outcome_status_of_terminal hs ht]
      cases status <;> cases x.taggedNoData <;> simp_all [RunStatus.suppresses, RunStatus.isTerminal]

/-- The upsert's own status overrules the decision for a successful run without data only. -/
theorem overrules_iff (x : ReconciliationInput) :
    (x.observation.status.getD .running).overrules x.decision.status = true ↔
      x.observation.status = some .success ∧ x.taggedNoData = true := by
  show (x.observation.status.getD .running).overrules x.outcome.status = true ↔ _
  cases hs : x.observation.status with
  | none => simp [RunStatus.overrules, RunStatus.isTerminal]
  | some status =>
    cases ht : status.isTerminal with
    | false => cases status <;> simp_all [RunStatus.overrules, RunStatus.isTerminal]
    | true =>
      rw [x.outcome_status_of_terminal hs ht]
      cases status <;> cases x.taggedNoData <;> simp_all [RunStatus.overrules, RunStatus.isTerminal]

/-- What a new decision leaves of a row of the observed attempt shows its outcome exactly when the
stored status does not overrule it and a row that is left alone showed it before. -/
theorem decidedRow_shows_iff (clock : Clock) {row : PipelineRunRow} {o : RunObservation}
    (d : ReconciliationDecision) (h : row.attempt = o.attempt) : (decidedRow clock row o d).Shows d ↔
      row.status.overrules d.status = false ∧ (row.status.suppresses d.status = true → row.Shows d) := by
  rw [decidedRow_of_attempt clock d h]
  cases hs : row.status.suppresses d.status with
  | true =>
    rw [if_pos rfl]
    constructor
    · intro hshows
      refine ⟨?_, fun _ => hshows⟩
      simp [RunStatus.overrules, hshows.1]
    · rintro ⟨-, hshows⟩
      exact hshows rfl
  | false =>
    cases ho : row.status.overrules d.status with
    | true =>
      have hne : row.status ≠ d.status := by
        simp only [RunStatus.overrules, Bool.and_eq_true, bne_iff_ne] at ho
        exact fun hcon => ho.2 hcon.symm
      simp [PipelineRunRow.Shows, hne]
    | false => simp [PipelineRunRow.Shows]

/-! ### The call -/

def firstObservation (eventType : String) : ReconcileRequest where
  observation := {
    projectId := "p"
    runId := "r"
    status := some .success
    events := [{ projectId := "p", runId := "r", eventId := "e", eventType, producer := "w" }] }
  profile := { profileId := "f", version := "1" }
  now := ⟨0, some 0⟩

def firstReconciliation (eventType : String) : Except StoreError (Store × ReconciliationDecision) :=
  reconcileObservation Store.empty ⟨⟨0, some 0⟩, ⟨0, some 0⟩⟩ {} (firstObservation eventType)

end Phlo.RunEvidence
