import Phlo.Library.StickyRegister
import Phlo.RunEvidence.Store.RunRow

/-!
# The status of a run

Attempt and status of a run row are a register: a higher attempt starts over, a terminal status of an
attempt is final.  The upsert is exactly a write of that register (`mergeRun_register`).  The update
that follows a new decision is not: its guard lists only running, incomplete and abandoned, so a
decision with any other status that is not terminal overwrites a terminal run.
-/

namespace Phlo.RunEvidence

open Phlo.Library

abbrev RunStatus.Final (status : RunStatus) : Prop := status.isTerminal = true

def PipelineRunRow.register (row : PipelineRunRow) : Register ℕ RunStatus := ⟨row.attempt, row.status⟩

/-- The attempt did not decrease, and a terminal status of the same attempt did not change. -/
def RowProgress (row row' : PipelineRunRow) : Prop :=
  Register.Progress RunStatus.Final row.register row'.register

theorem RowProgress.refl (row : PipelineRunRow) : RowProgress row row := Register.Progress.refl _

variable {row : PipelineRunRow} {clock : Clock} {o : RunObservation} {q : ReconcileRequest}

theorem RowProgress.of_register {row' : PipelineRunRow} (hattempt : row'.attempt = row.attempt)
    (hstatus : row'.status = row.status) : RowProgress row row' :=
  ⟨hattempt.ge, fun _ _ => hstatus⟩

theorem RowProgress.attempt_le {row' : PipelineRunRow} (h : RowProgress row row') : row.attempt ≤ row'.attempt := h.1

/-! ### The upsert -/

/-- **The CASE expressions of `_upsert_run` refine a write of the register.** -/
theorem mergeRun_register (clock : Clock) (excluded existing : PipelineRunRow) :
    (mergeRun clock excluded existing).register =
      Register.write RunStatus.Final existing.register excluded.register := by
  unfold Register.write mergeRun byAttempt
  by_cases hlt : existing.attempt < excluded.attempt
  · have hnot : ¬ existing.attempt > excluded.attempt := by omega
    simp [PipelineRunRow.register, hlt, hnot]
  · by_cases hgt : excluded.attempt < existing.attempt
    · simp [PipelineRunRow.register, hlt, hgt]
    · have heq : existing.attempt = excluded.attempt := by omega
      by_cases ht : existing.status.isTerminal = true
      · simp [PipelineRunRow.register, heq, RunStatus.isSqlTerminal_eq, ht]
      · simp [PipelineRunRow.register, heq, RunStatus.isSqlTerminal_eq, ht]

theorem mergeRun_progress (clock : Clock) (excluded existing : PipelineRunRow) :
    RowProgress existing (mergeRun clock excluded existing) := by
  unfold RowProgress
  rw [mergeRun_register]
  exact Register.write_progress _ _

theorem Merged.progress {row' : PipelineRunRow} (h : Merged row row') : RowProgress row row' := by
  induction h with
  | refl => exact RowProgress.refl row
  | tail _ hstep ih =>
    obtain ⟨clock, excluded, rfl⟩ := hstep
    exact ih.trans (mergeRun_progress clock excluded _)

/-! ### The decision -/

/-- Statuses whose decision leaves a terminal run alone: another terminal status is overruled by the
stored one, the others never reach the update. -/
def RunStatus.keepsTerminal (status : RunStatus) : Bool :=
  status.isTerminal || status == .running || status == .incomplete

@[simp] theorem decidedRow_attempt (clock : Clock) (row : PipelineRunRow) (o : RunObservation)
    (d : ReconciliationDecision) : (decidedRow clock row o d).attempt = row.attempt := by
  by_cases h : row.attempt = o.attempt
  · rw [decidedRow_of_attempt clock d h]
    split
    · rfl
    · rfl
  · rw [decidedRow_of_ne clock d h]

theorem decidedRow_status_of_terminal {d : ReconciliationDecision} (hattempt : row.attempt = o.attempt)
    (ht : row.status.isTerminal = true) : (decidedRow clock row o d).status =
      if d.status.keepsTerminal then row.status else d.status := by
  have hstatus : (decidedRow clock row o d).status =
      if row.status.suppresses d.status then row.status
      else if row.status.overrules d.status then row.status else d.status := by
    rw [decidedRow_of_attempt clock d hattempt]
    split
    · rfl
    · rfl
  rw [hstatus]
  by_cases hsame : d.status = row.status
  · rw [hsame]
    simp
  · have hoverrules : row.status.overrules d.status = d.status.isTerminal := by
      simp [RunStatus.overrules, ht, hsame]
    rw [hoverrules, RunStatus.suppresses, RunStatus.keepsTerminal, ht]
    cases d.status <;> rfl

theorem mergeRun_attempt (clock : Clock) (excluded existing : PipelineRunRow) :
    (mergeRun clock excluded existing).attempt = max existing.attempt excluded.attempt := by
  have h := congrArg Register.version (mergeRun_register clock excluded existing)
  rw [Register.write_version] at h
  exact h

theorem mergeRun_status_of_terminal (clock : Clock) {excluded existing : PipelineRunRow}
    (hle : excluded.attempt ≤ existing.attempt) (ht : existing.status.isTerminal = true) :
    (mergeRun clock excluded existing).status = existing.status := by
  have hattempt : (mergeRun clock excluded existing).attempt = existing.attempt := by
    rw [mergeRun_attempt]
    omega
  exact (mergeRun_progress clock excluded existing).2 hattempt ht

/-- An upsert followed by a decision makes progress, unless the decision takes a terminal status of
the observed attempt away. -/
theorem decidedRow_progress {excluded : PipelineRunRow} {d : ReconciliationDecision}
    (hexcluded : excluded.attempt = o.attempt)
    (h : row.attempt = o.attempt → row.status.isTerminal = true → d.status.keepsTerminal = true) :
    RowProgress row (decidedRow clock (mergeRun clock excluded row) o d) := by
  have hattempt : (decidedRow clock (mergeRun clock excluded row) o d).attempt = max row.attempt o.attempt := by
    rw [decidedRow_attempt, mergeRun_attempt, hexcluded]
  refine ⟨?_, fun hsame ht => ?_⟩
  · show row.attempt ≤ (decidedRow clock (mergeRun clock excluded row) o d).attempt
    rw [hattempt]
    exact le_max_left _ _
  · have hle : max row.attempt o.attempt = row.attempt := hattempt.symm.trans hsame
    have hmerged : (mergeRun clock excluded row).attempt = row.attempt := by
      rw [mergeRun_attempt, hexcluded, hle]
    have hstatus : (mergeRun clock excluded row).status = row.status :=
      mergeRun_status_of_terminal clock (by omega) ht
    show (decidedRow clock (mergeRun clock excluded row) o d).status = row.status
    by_cases ho : row.attempt = o.attempt
    · rw [decidedRow_status_of_terminal (hmerged.trans ho) (hstatus ▸ ht), if_pos (h ho ht), hstatus]
    · rw [decidedRow_of_ne clock d (fun hcon => ho (hmerged.symm.trans hcon)), hstatus]

/-! ### Conclusive observations -/

def ReconcileRequest.arguments (q : ReconcileRequest) : ReconciliationInput where
  observation := q.observation
  profile := q.profile
  now := q.now
  staleAfter := q.staleAfter
  clockSkew := q.clockSkew

/-- The observed status is terminal, or running, or one of the other statuses of a run that has not
ended with a heartbeat older than `stale_after`. -/
def ReconcileRequest.Conclusive (q : ReconcileRequest) : Prop :=
  ∃ status, q.observation.status = some status ∧
    (status.isTerminal = true ∨ status = .running ∨
      (status.isNonterminal = true ∧ q.arguments.heartbeatExpired = true))

theorem heartbeatExpired_of_evaluates {x : ReconciliationInput} (h : Evaluates q q.observation x) :
    x.heartbeatExpired = q.arguments.heartbeatExpired := by
  unfold ReconciliationInput.heartbeatExpired ReconciliationInput.runTiming
  rw [h.observation, h.now, h.staleAfter, h.clockSkew]
  rfl

theorem keepsTerminal_iff_conclusive {x : ReconciliationInput} (h : Evaluates q q.observation x) :
    x.decision.status.keepsTerminal = true ↔ q.Conclusive := by
  show x.outcome.status.keepsTerminal = true ↔ _
  unfold ReconcileRequest.Conclusive
  rw [← h.observation, ← heartbeatExpired_of_evaluates h]
  cases hs : x.observation.status with
  | none =>
    rw [(x.outcome_of_none hs).1]
    simp [RunStatus.keepsTerminal, RunStatus.isTerminal]
  | some status =>
    cases ht : status.isTerminal with
    | true =>
      have hfinal : x.outcome.status.isTerminal = true := by
        obtain ⟨resolved, hresolved, hterminal⟩ : ∃ resolved, x.status = some resolved ∧
            resolved.isTerminal = true := by
          have hany := x.status_terminal
          rw [hs, Option.any_some, ht] at hany
          exact Option.any_eq_true _ _ |>.1 hany
        rw [(x.outcome_of_terminal hresolved hterminal).1]
        exact hterminal
      simp [RunStatus.keepsTerminal, hfinal, ht]
    | false =>
      cases hn : status.isNonterminal with
      | false =>
        rw [x.outcome_of_unsupported hs ht hn]
        have hrunning : status ≠ .running := by
          intro hr
          rw [hr] at hn
          cases hn
        have hunsupported : RunStatus.unsupported.keepsTerminal = false := rfl
        simp [hunsupported, ht, hn, hrunning]
      | true =>
        rw [x.outcome_status_of_nonterminal hs hn]
        have hincomplete : status ≠ .incomplete := by
          intro hi
          rw [hi] at hn
          cases hn
        cases x.heartbeatExpired with
        | true => simp [RunStatus.keepsTerminal, RunStatus.isTerminal, hn]
        | false => simp [RunStatus.keepsTerminal, ht, hincomplete]

/-! ### One call -/

def RunProgress (k : String × String) (s s' : Store) : Prop :=
  ∀ row, s.runs.find k = some row → ∃ row', s'.runs.find k = some row' ∧ RowProgress row row'

def Call.KeepsTerminal (s : Store) : Call → Prop
  | .reconcileObservation _ _ q => q.observation.lookupOutcome = .present →
      ∀ row, s.runs.find q.observation.key = some row → row.attempt = q.observation.attempt →
        row.status.isTerminal = true → q.Conclusive
  | _ => True

theorem ingestedRow_of_find {s : Store} (h : s.runs.find o.key = some row) (clock : Clock) :
    ingestedRow s clock o = mergeRun clock (runRow clock (observedRun o)) row := by
  rw [ingestedRow, h]
  rfl

theorem replayedRow_progress (s : Store) (row : PipelineRunRow) (o : RunObservation) :
    RowProgress row (replayedRow s row o) := by
  unfold replayedRow
  cases s.runs.find o.key with
  | none => exact RowProgress.refl row
  | some old => exact RowProgress.of_register rfl rfl

theorem reconcile_progress {s s' : Store} {scan : Scan} {r : ReconciliationDecision}
    (h : reconcileObservation s clock scan q = .ok (s', r))
    (hc : Call.KeepsTerminal s (.reconcileObservation clock scan q)) (k : String × String) : RunProgress k s s' := by
  intro row hrow
  by_cases hk : k = q.observation.key
  · subst hk
    cases hp : q.observation.lookupOutcome with
    | present =>
      obtain ⟨i, -, heval, -, hcases⟩ := reconcile_present h hp
      have hmerge := ingestedRow_of_find hrow clock
      rw [hmerge] at hcases
      rcases hcases with ⟨-, rfl, hfind⟩ | ⟨stored, -, -, hfind⟩
      · refine ⟨_, hfind, decidedRow_progress rfl fun hattempt ht => ?_⟩
        exact (keepsTerminal_iff_conclusive heval).2 (hc hp row hrow hattempt ht)
      · exact ⟨_, hfind, (mergeRun_progress _ _ row).trans (replayedRow_progress s _ _)⟩
    | absent =>
      obtain ⟨row', hrow', hfind⟩ := reconcile_absent h hp
      obtain rfl := Option.some.inj (hrow.symm.trans hrow')
      rcases hfind with hfind | hfind
      · exact ⟨_, hfind, RowProgress.of_register rfl rfl⟩
      · exact ⟨_, hfind, RowProgress.of_register rfl rfl⟩
  · exact ⟨row, (reconcile_find_of_ne h hk).trans hrow, RowProgress.refl row⟩

theorem step_progress (s : Store) (c : Call) (hc : c.KeepsTerminal s) (k : String × String) :
    RunProgress k s (step s c) := by
  cases hexec : exec s c with
  | error e =>
    rw [step_of_error hexec]
    exact fun row hrow => ⟨row, hrow, RowProgress.refl row⟩
  | ok s' =>
    rw [step_of_ok hexec]
    rcases exec_cases hexec with hrec | ⟨clock, scan, q, r, rfl, hrec⟩
    · intro row hrow
      obtain ⟨row', hrow', hmerged⟩ := hrec.merged k row hrow
      exact ⟨row', hrow', hmerged.progress⟩
    · exact reconcile_progress hrec hc k

/-! ### Runs -/

/-- **Run status never regresses** while observations of terminal attempts are conclusive: along any
calls, from any store, the attempt of every run never decreases and a terminal status of an attempt
stays. -/
theorem run_status_never_regresses (s : Store) (calls : List Call)
    (h : Along step (fun s c => c.KeepsTerminal s) s calls) (k : String × String) :
    List.IsChain (RunProgress k) (trace step s calls) :=
  isChain_trace (fun _ _ (h : True) => h) (fun s c _ hc => step_progress s c hc k) trivial h

/-! ### A finished run that is observed again -/

/-- The run is written as successful, then observed with `status`. -/
def observedAfterSuccess (status : RunStatus) : List Call :=
  [.appendPipelineRun ⟨⟨0, some 0⟩, ⟨0, some 0⟩⟩ { projectId := "p", runId := "r", status := .success },
    .reconcileObservation ⟨⟨0, some 0⟩, ⟨0, some 0⟩⟩ {}
      { observation := { projectId := "p", runId := "r", status := some status }
        profile := { profileId := "f", version := "1" }
        now := ⟨0, some 0⟩ }]

theorem run_status_never_regresses_failed :
    List.IsChain (RunProgress ("p", "r")) (trace step Store.empty (observedAfterSuccess .failed)) := by
  refine run_status_never_regresses Store.empty (observedAfterSuccess .failed) ⟨trivial, ?_, trivial⟩
    ("p", "r")
  intro _ _ _ _ _
  exact ⟨.failed, rfl, Or.inl rfl⟩

theorem queued_observation_reopens_run : ¬ ∀ (s : Store) (calls : List Call) (k : String × String), ReachableStore s →
      List.IsChain (RunProgress k) (trace step s calls) := by
  intro hclaim
  have hchain := hclaim Store.empty (observedAfterSuccess .queued) ("p", "r") Reachable.init
  have hprogress := (List.isChain_cons_cons.1 (List.isChain_cons_cons.1 hchain).2).1
  have hbefore : ((finish step Store.empty ((observedAfterSuccess .queued).take 1)).runs.find
      ("p", "r")).map PipelineRunRow.register = some ⟨1, .success⟩ := by
    decide +kernel
  have hafter : ((finish step Store.empty (observedAfterSuccess .queued)).runs.find
      ("p", "r")).map PipelineRunRow.register = some ⟨1, .queued⟩ := by
    decide +kernel
  obtain ⟨row, hrow, hregister⟩ := Option.map_eq_some_iff.1 hbefore
  obtain ⟨row', hrow', hprogress⟩ := hprogress row hrow
  have hregister' : row'.register = ⟨1, .queued⟩ := by
    have hfound := hafter
    rw [show (finish step Store.empty (observedAfterSuccess .queued)).runs.find ("p", "r") =
      some row' from hrow'] at hfound
    exact Option.some.inj hfound
  have hsame := hprogress.2
  rw [hregister, hregister'] at hsame
  exact absurd (hsame rfl rfl) (by decide)

end Phlo.RunEvidence
