import Phlo.RunEvidence.Reconciliation

/-!
# What the evaluator computes

Facts about `evaluateReconciliation` that the results on decisions share.

* `evaluate_ok_iff` — evaluation succeeds on admissible arguments and returns `decision`;
* `outcome_status_of_terminal`, `outcome_status_terminal_iff` — a terminal observation keeps its
  status, up to the no-data downgrade, and only an expired heartbeat makes a terminal status out of
  another one;
* `outcome_completeness` — the completeness of the decision depends on three things only: the
  observed status, the strongest evidence state, and whether any gap was found;
* `reason_of_terminal` — the reason given for a terminal run.
-/

namespace Phlo.RunEvidence

open Phlo.Library

/-! ### Evidence states -/

theorem foldl_stronger_degraded (states : List EvidenceCompleteness) (best : Option EvidenceCompleteness) :
    (states.foldl stronger best).any EvidenceCompleteness.degraded =
      (best.any EvidenceCompleteness.degraded || states.any EvidenceCompleteness.degraded) := by
  induction states generalizing best with
  | nil => simp
  | cons state states ih =>
    rw [List.foldl_cons, ih, List.any_cons, ← Bool.or_assoc]
    congr 1
    cases best with
    | none => rfl
    | some best => cases best <;> cases state <;> rfl

/-- The strongest of some states is degraded exactly when one of them is. -/
theorem strongestEvidenceState_degraded (states : List (Option EvidenceCompleteness)) :
    (strongestEvidenceState states).any EvidenceCompleteness.degraded =
      states.any fun state => state.any EvidenceCompleteness.degraded := by
  rw [strongestEvidenceState, foldl_stronger_degraded, Option.any_none, Bool.false_or]
  induction states with
  | nil => rfl
  | cons state states ih =>
    cases state with
    | none => simpa using ih
    | some state =>
      have hcons : (some state :: states).filterMap id = state :: states.filterMap id := rfl
      rw [hcons, List.any_cons, List.any_cons, ih]
      rfl

namespace ReconciliationInput

/-! ### Admissible arguments -/

/-- What `evaluate_reconciliation` checks before it looks at any evidence. -/
structure Admissible (x : ReconciliationInput) : Prop where
  now_aware : x.now.aware = true
  clockSkew_nonneg : 0 ≤ x.clockSkew
  pipelineName : truthy x.profile.pipelineName = true →
    x.observation.pipelineName = x.profile.pipelineName
  provider : truthy x.profile.provider = true → x.observation.provider = x.profile.provider

theorem evaluate_ok_iff (x : ReconciliationInput) (d : ReconciliationDecision) :
    evaluateReconciliation x = .ok d ↔ x.Admissible ∧ d = x.decision := by
  unfold evaluateReconciliation
  constructor
  · intro h
    split at h
    · cases h
    · split at h
      · cases h
      · split at h
        · cases h
        · split at h
          · cases h
          · next hnow hskew hpipeline hprovider =>
            refine ⟨⟨by simpa using hnow, by omega, ?_, ?_⟩, (Except.ok.inj h).symm⟩
            · intro ht
              simpa [ht] using hpipeline
            · intro ht
              simpa [ht] using hprovider
  · rintro ⟨hx, rfl⟩
    have hskew : ¬ x.clockSkew < 0 := by have := hx.clockSkew_nonneg; omega
    have hpipeline : (truthy x.profile.pipelineName &&
        x.observation.pipelineName != x.profile.pipelineName) = false := by
      cases ht : truthy x.profile.pipelineName with
      | false => rfl
      | true => simp [hx.pipelineName ht]
    have hprovider : (truthy x.profile.provider && x.observation.provider != x.profile.provider) = false := by
      cases ht : truthy x.profile.provider with
      | false => rfl
      | true => simp [hx.provider ht]
    simp [hx.now_aware, hskew, hpipeline, hprovider]

variable (x : ReconciliationInput)

/-! ### The status of the decision -/

/-- Missing, expired or redacted evidence was declared or found. -/
def isDegraded : Bool := x.explicitState.any EvidenceCompleteness.degraded

theorem status_of_not_success (h : x.observation.status ≠ some .success) : x.status = x.observation.status := by
  simp [status, h]

theorem status_terminal : x.status.any RunStatus.isTerminal = x.observation.status.any RunStatus.isTerminal := by
  unfold status
  split
  · next h => rw [h.1]; rfl
  · rfl

theorem status_eq_noData (h : x.noData = true)
    (ht : x.observation.status.any RunStatus.isTerminal = true) : x.status = some .noData := by
  have hsuccess : x.successfulTerminal = true := by
    simp only [noData, Bool.and_eq_true] at h
    exact h.2
  simp only [successfulTerminal, ht, Bool.not_true, Bool.false_and, Bool.or_false,
    Bool.or_eq_true, beq_iff_eq] at hsuccess
  rcases hsuccess with hs | hs
  · simp [status, hs, h]
  · rw [status_of_not_success x (by simp [hs]), hs]

/-! ### One lemma per branch of `_resolve_run_outcome` -/

theorem outcome_of_none (h : x.observation.status = none) :
    x.outcome.status = .unknown ∧ x.outcome.reason = "missing_provider_status" ∧
      x.outcome.completeness = if x.isDegraded then x.initialCompleteness else .incomplete := by
  have hs : x.status = none := by rw [status_of_not_success x (by simp [h]), h]
  cases hd : x.isDegraded <;> simp_all [outcome, resolveRunOutcome, isDegraded]

variable {status : RunStatus}

theorem outcome_of_unsupported (h : x.observation.status = some status) (ht : status.isTerminal = false)
    (hn : status.isNonterminal = false) : x.outcome = ⟨.unsupported, "unsupported_provider_status", .incomplete⟩ := by
  have hs : x.status = some status := by
    rw [status_of_not_success x (by rintro h'; rw [h] at h'; cases h'; cases ht), h]
  simp [outcome, resolveRunOutcome, hs, ht, hn]

theorem outcome_of_nonterminal (h : x.observation.status = some status) (hn : status.isNonterminal = true) :
    (x.outcome.status, x.outcome.reason) = resolveNonterminal x.observation.heartbeatAt x.runTiming
        x.now x.staleAfter status ∧
      x.outcome.completeness = if x.isDegraded then x.initialCompleteness else .incomplete := by
  have ht : status.isTerminal = false := by cases status <;> first | rfl | cases hn
  have hs : x.status = some status := by
    rw [status_of_not_success x (by rintro h'; rw [h] at h'; cases h'; cases ht), h]
  cases hd : x.isDegraded <;> simp_all [outcome, resolveRunOutcome, isDegraded]

theorem outcome_of_terminal (h : x.status = some status) (ht : status.isTerminal = true) : x.outcome.status = status ∧
      x.outcome.reason = terminalReason x.outcome.completeness x.explicitState x.missing ∧ x.outcome.completeness =
        if !x.runTiming.missing.isEmpty && !x.isDegraded then .incomplete else x.initialCompleteness := by
  simp [outcome, resolveRunOutcome, isDegraded, h, ht]

/-- The status and reason of a run that has not ended depend on the observation and the clock
only, not on any stored row. -/
theorem outcome_of_not_terminal {x y : ReconciliationInput} (hobs : x.observation = y.observation)
    (hnow : x.now = y.now) (hskew : x.clockSkew = y.clockSkew) (hstale : x.staleAfter = y.staleAfter)
    (ht : x.observation.status.any RunStatus.isTerminal = false) :
    x.outcome.status = y.outcome.status ∧ x.outcome.reason = y.outcome.reason := by
  cases hs : x.observation.status with
  | none =>
    have hx := x.outcome_of_none hs
    have hy := y.outcome_of_none (hobs ▸ hs)
    exact ⟨hx.1.trans hy.1.symm, hx.2.1.trans hy.2.1.symm⟩
  | some status =>
    have hterminal : status.isTerminal = false := by simpa [hs] using ht
    cases hn : status.isNonterminal with
    | false =>
      rw [x.outcome_of_unsupported hs hterminal hn,
        y.outcome_of_unsupported (hobs ▸ hs) hterminal hn]
      exact ⟨rfl, rfl⟩
    | true =>
      have htiming : x.runTiming = y.runTiming := by
        simp only [runTiming, hobs, hnow, hskew]
      have hx := (x.outcome_of_nonterminal hs hn).1
      have hy := (y.outcome_of_nonterminal (hobs ▸ hs) hn).1
      rw [hobs, htiming, hnow, hstale, ← hy] at hx
      exact Prod.mk.inj hx

/-! ### The status and completeness of the decision -/

/-- The heartbeat of a running run is older than `stale_after`, and no timestamp of the run is out
of place. -/
def heartbeatExpired : Bool :=
  !x.runTiming.invalidHeartbeat && !x.runTiming.futureEndpoint &&
    x.staleAfter.any fun staleAfter => x.observation.heartbeatAt.any fun heartbeat =>
      staleAfter ≤ x.now.instant - heartbeat.instant

theorem outcome_status_of_nonterminal (h : x.observation.status = some status) (hn : status.isNonterminal = true) :
    x.outcome.status = if x.heartbeatExpired then .abandoned else status := by
  have hpair := congrArg Prod.fst (x.outcome_of_nonterminal h hn).1
  rw [show x.outcome.status = _ from hpair, resolveNonterminal, heartbeatExpired]
  cases x.runTiming.invalidHeartbeat with
  | true => rfl
  | false =>
    cases x.runTiming.futureEndpoint with
    | true => rfl
    | false =>
      simp only [Bool.not_false, Bool.true_and, Bool.false_eq_true, if_false]
      split
      · rfl
      · split <;> rfl

theorem outcome_completeness : x.outcome.completeness =
      if x.observation.status.any (fun status => !status.isTerminal && !status.isNonterminal) then .incomplete
      else if x.isDegraded then x.explicitState.getD .incomplete
      else if x.observation.status.any RunStatus.isTerminal && x.missing.isEmpty then .complete else .incomplete := by
  have hinitial : x.initialCompleteness =
      if x.isDegraded then x.explicitState.getD .incomplete
      else if x.collectedGaps.isEmpty then .complete else .incomplete := by
    unfold initialCompleteness isDegraded
    cases x.explicitState <;> rfl
  cases hs : x.observation.status with
  | none =>
    rw [(x.outcome_of_none hs).2.2, hinitial]
    cases x.isDegraded <;> rfl
  | some status =>
    cases ht : status.isTerminal with
    | true =>
      obtain ⟨resolved, hx⟩ : ∃ resolved, x.status = some resolved := by
        cases hx : x.status with
        | none =>
          have := x.status_terminal
          simp [hx, hs, ht] at this
        | some resolved => exact ⟨resolved, rfl⟩
      have hterminal : resolved.isTerminal = true := by
        have := x.status_terminal
        simpa [hx, hs, ht] using this
      rw [(x.outcome_of_terminal hx hterminal).2.2, hinitial]
      have hempty : x.missing.isEmpty = (x.collectedGaps.isEmpty && x.runTiming.missing.isEmpty) := by
        rw [missing, Bool.eq_iff_iff]
        simp
      rw [hempty]
      cases x.isDegraded <;> cases x.runTiming.missing.isEmpty <;> simp [ht]
    | false =>
      cases hn : status.isNonterminal with
      | true =>
        rw [(x.outcome_of_nonterminal hs hn).2, hinitial]
        cases x.isDegraded <;> simp [ht, hn]
      | false => simp [x.outcome_of_unsupported hs ht hn, ht, hn]

theorem explicitState_ne_complete (h : x.isDegraded = true) : x.explicitState.getD .incomplete ≠ .complete := by
  unfold isDegraded at h
  cases he : x.explicitState with
  | none => simp
  | some state =>
    rw [he] at h
    rintro rfl
    cases h

/-- **When a verdict is complete.**  A terminal observation, no degraded evidence and no gap. -/
theorem outcome_complete_iff : x.outcome.completeness = .complete ↔
      x.observation.status.any RunStatus.isTerminal = true ∧ x.isDegraded = false ∧ x.missing = [] := by
  rw [outcome_completeness, ← List.isEmpty_iff]
  split
  · next hs =>
    have ht : x.observation.status.any RunStatus.isTerminal = false := by
      cases ho : x.observation.status with
      | none => rfl
      | some status => simpa [ho] using (by simpa [ho] using hs : _ ∧ _).1
    simp [ht]
  · cases hd : x.isDegraded with
    | true => simpa using x.explicitState_ne_complete hd
    | false => simp

end ReconciliationInput

end Phlo.RunEvidence
