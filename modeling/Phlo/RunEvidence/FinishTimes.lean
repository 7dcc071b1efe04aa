import Phlo.RunEvidence.RunProgress

/-!
# The finish time of a run

The upsert never loses the finish time of a terminal attempt.  The update that follows a new decision
writes the finish time the *observation* carries, also when it carries none, unless the row is left
alone or a stored terminal status is kept together with its finish time.
-/

namespace Phlo.RunEvidence

open Phlo.Library

def PipelineRunRow.Finished (row : PipelineRunRow) : Prop :=
  row.status.isTerminal = true ∧ row.finishedAt.isSome = true

/-- A finish time of an attempt stays while the attempt does. -/
def FinishKept (k : String × String) (s s' : Store) : Prop :=
  ∀ row row', s.runs.find k = some row → s'.runs.find k = some row' → row'.attempt = row.attempt →
    row.Finished → row'.finishedAt.isSome = true

/-! ### The upsert -/

theorem mergeRun_finished (clock : Clock) {excluded existing : PipelineRunRow}
    (hle : excluded.attempt ≤ existing.attempt) (h : existing.Finished) :
    (mergeRun clock excluded existing).Finished := by
  obtain ⟨ht, hfinished⟩ := h
  refine ⟨?_, ?_⟩
  · rw [mergeRun_status_of_terminal clock hle ht]
    exact ht
  · have hnot : ¬ existing.attempt < excluded.attempt := by omega
    obtain ⟨t, hsome⟩ := Option.isSome_iff_exists.1 hfinished
    show (byAttempt existing excluded excluded.finishedAt existing.finishedAt _).isSome = true
    rw [byAttempt, if_neg hnot, RunStatus.isSqlTerminal_eq, ht, hsome]
    split
    · rfl
    · rfl

/-- Upserts that end at the attempt they started from keep its finish time. -/
theorem Merged.finished {row row' : PipelineRunRow} (h : Merged row row')
    (hattempt : row'.attempt = row.attempt) (hrow : row.Finished) : row'.Finished := by
  induction h with
  | refl => exact hrow
  | tail hmerged hstep ih =>
    obtain ⟨clock, excluded, rfl⟩ := hstep
    have hle := (Merged.progress hmerged).attempt_le
    rw [mergeRun_attempt] at hattempt
    exact mergeRun_finished clock (by omega) (ih (by omega))

/-! ### The decision -/

def RunStatus.spares (stored decided : RunStatus) : Bool :=
  stored.suppresses decided || stored.overrules decided

/-- **When a new decision erases a finish time**: the observation has none, and the decision neither
leaves the row alone nor is overruled by the stored status. -/
theorem finishedAt_erased_iff {clock : Clock} {row : PipelineRunRow} {o : RunObservation}
    {d : ReconciliationDecision} (hattempt : row.attempt = o.attempt) (hrow : row.Finished) :
    (decidedRow clock row o d).finishedAt = none ↔ d.finishedAt = none ∧ row.status.spares d.status = false := by
  obtain ⟨t, ht⟩ := Option.isSome_iff_exists.1 hrow.2
  have hfinished : (decidedRow clock row o d).finishedAt =
      if row.status.suppresses d.status then row.finishedAt
      else if row.status.overrules d.status then row.finishedAt.map Timestamp.canonical
      else d.finishedAt := by
    rw [decidedRow_of_attempt clock d hattempt]
    split
    · rfl
    · rfl
  rw [hfinished, ht, RunStatus.spares]
  cases row.status.suppresses d.status with
  | true => simp
  | false =>
    cases row.status.overrules d.status with
    | true => simp
    | false => simp

/-- The observation of a finished attempt is harmless: it carries a finish time, or its status is
running, or expired, or a terminal one that is not, after the no-data downgrade, the stored status
(abandoned apart, which never reaches the update). -/
def SparesFinishTime (q : ReconcileRequest) (x : ReconciliationInput) (stored : RunStatus) : Prop :=
  q.observation.finishedAt.isSome = true ∨
    ∃ status, x.status = some status ∧
      (status = .running ∨ status = .abandoned ∨
        (status.isNonterminal = true ∧ q.arguments.heartbeatExpired = true) ∨
        (status.isTerminal = true ∧ status ≠ stored))

theorem status_eq_of_not_terminal (x : ReconciliationInput)
    (h : x.observation.status.any RunStatus.isTerminal = false) : x.status = x.observation.status := by
  apply x.status_of_not_success
  intro hs
  rw [hs] at h
  cases h

theorem sparesFinishTime_iff {q : ReconcileRequest} {x : ReconciliationInput} {stored : RunStatus}
    (h : Evaluates q q.observation x) (ht : stored.isTerminal = true) : SparesFinishTime q x stored ↔
      ¬ (x.decision.finishedAt = none ∧ stored.spares x.decision.status = false) := by
  have hfinished : x.decision.finishedAt = q.observation.finishedAt := by
    rw [← h.observation]
    rfl
  have hspares : stored.spares x.outcome.status = true ↔ ∃ status, x.status = some status ∧
        (status = .running ∨ status = .abandoned ∨ (status.isNonterminal = true ∧ x.heartbeatExpired = true) ∨
          (status.isTerminal = true ∧ status ≠ stored)) := by
    have heq : ∀ decided, stored.spares decided = (decided == .running || decided == .incomplete ||
        decided == .abandoned || (decided.isTerminal && decided != stored)) := by
      intro decided
      rw [RunStatus.spares, RunStatus.suppresses, RunStatus.overrules, ht, Bool.true_and,
        Bool.true_and]
    rw [heq]
    cases hs : x.status with
    | none =>
      have hobs : x.observation.status = none := by
        rw [← hs]
        refine (status_eq_of_not_terminal x ?_).symm
        rw [← x.status_terminal, hs]
        rfl
      rw [(x.outcome_of_none hobs).1]
      simp [RunStatus.isTerminal]
    | some status =>
      cases hterminal : status.isTerminal with
      | true =>
        rw [(x.outcome_of_terminal hs hterminal).1]
        have hrunning : status ≠ .running := by
          intro hr
          rw [hr] at hterminal
          cases hterminal
        have hincomplete : status ≠ .incomplete := by
          intro hi
          rw [hi] at hterminal
          cases hterminal
        have hn : status.isNonterminal = false := by cases status <;> first | rfl | cases hterminal
        simp [hterminal, hrunning, hincomplete, hn]
      | false =>
        have hobs : x.observation.status = some status := by
          rw [← hs]
          refine (status_eq_of_not_terminal x ?_).symm
          rw [← x.status_terminal, hs]
          exact hterminal
        have habandoned : status ≠ .abandoned := by
          intro ha
          rw [ha] at hterminal
          cases hterminal
        cases hn : status.isNonterminal with
        | false =>
          rw [x.outcome_of_unsupported hobs hterminal hn]
          have hrunning : status ≠ .running := by
            intro hr
            rw [hr] at hn
            cases hn
          have hunsupported : RunStatus.unsupported.isTerminal = false := rfl
          simp [hterminal, hn, hrunning, habandoned, hunsupported]
        | true =>
          rw [x.outcome_status_of_nonterminal hobs hn]
          have hincomplete : status ≠ .incomplete := by
            intro hi
            rw [hi] at hn
            cases hn
          cases x.heartbeatExpired with
          | true => simp [hn]
          | false => simp [hterminal, hincomplete, habandoned]
  unfold SparesFinishTime
  rw [← heartbeatExpired_of_evaluates h, ← hspares, hfinished]
  show _ ↔ ¬ (_ ∧ stored.spares x.outcome.status = false)
  cases q.observation.finishedAt <;> cases stored.spares x.outcome.status <;> simp

/-! ### One call -/

/-- A present observation of a finished attempt is harmless, whatever evidence it is evaluated on. -/
def Call.KeepsFinishTimes (s : Store) : Call → Prop
  | .reconcileObservation clock scan q => q.observation.lookupOutcome = .present →
      ∀ row, s.runs.find q.observation.key = some row → row.attempt = q.observation.attempt →
        row.Finished → ∀ i, ingest s clock scan q = .ok i →
          SparesFinishTime q i.evidence row.status
  | _ => True

theorem replayedRow_finishedAt (s : Store) (row : PipelineRunRow) (o : RunObservation) :
    (replayedRow s row o).finishedAt = row.finishedAt ∧ (replayedRow s row o).attempt = row.attempt := by
  unfold replayedRow
  cases s.runs.find o.key with
  | none => exact ⟨rfl, rfl⟩
  | some old => exact ⟨rfl, rfl⟩

theorem reconcile_finishKept {s s' : Store} {clock : Clock} {scan : Scan} {q : ReconcileRequest}
    {r : ReconciliationDecision} (h : reconcileObservation s clock scan q = .ok (s', r))
    (hc : Call.KeepsFinishTimes s (.reconcileObservation clock scan q)) (k : String × String) :
    FinishKept k s s' := by
  intro row row' hrow hrow' hattempt hfinished
  by_cases hk : k = q.observation.key
  · subst hk
    cases hp : q.observation.lookupOutcome with
    | present =>
      obtain ⟨i, hi, heval, -, hcases⟩ := reconcile_present h hp
      rw [ingestedRow_of_find hrow] at hcases
      have hexcluded : (runRow clock (observedRun q.observation)).attempt = q.observation.attempt := rfl
      generalize runRow clock (observedRun q.observation) = excluded at hcases hexcluded
      rcases hcases with ⟨-, rfl, hfind⟩ | ⟨stored, -, -, hfind⟩
      · obtain rfl := Option.some.inj (hrow'.symm.trans hfind)
        rw [decidedRow_attempt, mergeRun_attempt, hexcluded] at hattempt
        have hmerged : (mergeRun clock excluded row).Finished :=
          mergeRun_finished clock (by omega) hfinished
        by_cases ho : row.attempt = q.observation.attempt
        · have hsame : (mergeRun clock excluded row).attempt = q.observation.attempt := by
            rw [mergeRun_attempt]
            omega
          have hstatus := mergeRun_status_of_terminal clock (hexcluded ▸ ho.ge) hfinished.1
          have hspares := (sparesFinishTime_iff heval hfinished.1).1
            (hc hp row hrow ho hfinished i hi)
          rw [← Option.ne_none_iff_isSome, ne_eq, finishedAt_erased_iff hsame hmerged, hstatus]
          exact hspares
        · have hne : (mergeRun clock excluded row).attempt ≠ q.observation.attempt := by
            rw [mergeRun_attempt]
            omega
          rw [decidedRow_of_ne clock _ hne]
          exact hmerged.2
      · obtain rfl := Option.some.inj (hrow'.symm.trans hfind)
        rw [(replayedRow_finishedAt _ _ _).2, mergeRun_attempt] at hattempt
        rw [(replayedRow_finishedAt _ _ _).1]
        exact (mergeRun_finished clock (by omega) hfinished).2
    | absent =>
      obtain ⟨old, hold, hfind⟩ := reconcile_absent h hp
      obtain rfl := Option.some.inj (hrow.symm.trans hold)
      rcases hfind with hfind | hfind
      · obtain rfl := Option.some.inj (hrow'.symm.trans hfind)
        exact hfinished.2
      · obtain rfl := Option.some.inj (hrow'.symm.trans hfind)
        exact hfinished.2
  · have hsame := reconcile_find_of_ne h hk
    obtain rfl := Option.some.inj (hrow'.symm.trans (hsame.trans hrow))
    exact hfinished.2

theorem step_finishKept (s : Store) (c : Call) (hc : c.KeepsFinishTimes s) (k : String × String) :
    FinishKept k s (step s c) := by
  cases hexec : exec s c with
  | error e =>
    rw [step_of_error hexec]
    intro row row' hrow hrow' _ hfinished
    obtain rfl := Option.some.inj (hrow'.symm.trans hrow)
    exact hfinished.2
  | ok s' =>
    rw [step_of_ok hexec]
    rcases exec_cases hexec with hrec | ⟨clock, scan, q, r, rfl, hrec⟩
    · intro row row' hrow hrow' hattempt hfinished
      obtain ⟨merged, hmerged, hchain⟩ := hrec.merged k row hrow
      obtain rfl := Option.some.inj (hrow'.symm.trans hmerged)
      exact (hchain.finished hattempt hfinished).2
    · exact reconcile_finishKept hrec hc k

/-! ### Runs -/

/-- **Finish times are durable** while observations of finished attempts are harmless: along any
calls, from any store, a call that leaves the attempt of a terminal run leaves its finish time. -/
theorem finish_times_durable (s : Store) (calls : List Call)
    (h : Along step (fun s c => c.KeepsFinishTimes s) s calls) (k : String × String) :
    List.IsChain (FinishKept k) (trace step s calls) :=
  isChain_trace (fun _ _ (h : True) => h) (fun s c _ hc => step_finishKept s c hc k) trivial h

/-! ### A finished run that is observed without a finish time -/

def writtenFinish : Call :=
  .appendPipelineRun ⟨⟨0, some 0⟩, ⟨0, some 0⟩⟩
    { projectId := "p", runId := "r", status := .success, finishedAt := some ⟨5, some 0⟩ }

def observedFinish (finishedAt : Option Timestamp) (h : finishedAt.all Timestamp.aware = true) : Call :=
  .reconcileObservation ⟨⟨0, some 0⟩, ⟨0, some 0⟩⟩ {}
    { observation :=
        { projectId := "p", runId := "r", status := some .success, finishedAt := finishedAt
          timestamps_aware := by rw [h]; rfl }
      profile := { profileId := "f", version := "1" }
      now := ⟨9, some 0⟩ }

theorem finish_times_durable_given : List.IsChain (FinishKept ("p", "r"))
      (trace step Store.empty [writtenFinish, observedFinish (some ⟨5, some 0⟩) rfl]) := by
  refine finish_times_durable Store.empty [writtenFinish, observedFinish (some ⟨5, some 0⟩) rfl]
    ⟨trivial, ?_, trivial⟩ ("p", "r")
  intro _ _ _ _ _ _ _
  exact Or.inl rfl

theorem observation_erases_finish_time :
    ¬ ∀ (s : Store) (c : Call) (k : String × String), ReachableStore s → FinishKept k s (step s c) := by
  intro hclaim
  have hbefore : ((step Store.empty writtenFinish).runs.find ("p", "r")).map
      (fun row => (row.attempt, row.status, row.finishedAt.isSome)) = some (1, .success, true) := by
    decide +kernel
  have hafter : ((step (step Store.empty writtenFinish) (observedFinish none rfl)).runs.find
      ("p", "r")).map (fun row => (row.attempt, row.finishedAt.isSome)) = some (1, false) := by
    decide +kernel
  obtain ⟨row, hrow, hcolumns⟩ := Option.map_eq_some_iff.1 hbefore
  obtain ⟨row', hrow', hcolumns'⟩ := Option.map_eq_some_iff.1 hafter
  simp only [Prod.mk.injEq] at hcolumns hcolumns'
  obtain ⟨hattempt, hstatus, hfinished⟩ := hcolumns
  have hkept := hclaim _ (observedFinish none rfl) ("p", "r") (Reachable.init.step writtenFinish) row row'
    hrow hrow' (hcolumns'.1.trans hattempt.symm) ⟨by rw [hstatus]; rfl, hfinished⟩
  rw [hcolumns'.2] at hkept
  cases hkept

end Phlo.RunEvidence
