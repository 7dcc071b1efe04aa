import Phlo.RunEvidence.Evaluation

/-!
# Which evidence state a decision reports

The observation and the rows of required families may say that evidence is missing, expired or redacted.
The strongest of these is to be the completeness of the decision, whatever else is wrong with the run.

* `strongest_iff` — the evaluator finds the strongest state.
-/

namespace Phlo.RunEvidence

/-! ### The strongest of some states -/

variable {state : EvidenceCompleteness}

theorem foldl_stronger_mem {states : List EvidenceCompleteness} {best : Option EvidenceCompleteness}
    (h : states.foldl stronger best = some state) : best = some state ∨ state ∈ states := by
  induction states generalizing best with
  | nil => exact Or.inl h
  | cons first states ih =>
    rcases ih h with hbest | hmem
    · cases best with
      | none => exact Or.inr (Option.some.inj hbest ▸ List.mem_cons_self)
      | some old =>
        have hkept : (if old.precedence < first.precedence then some first else some old) = some state := hbest
        split_ifs at hkept
        · exact Or.inr (Option.some.inj hkept ▸ List.mem_cons_self)
        · exact Or.inl hkept
    · exact Or.inr (List.mem_cons_of_mem _ hmem)

theorem foldl_stronger_dominates {states : List EvidenceCompleteness} {best : Option EvidenceCompleteness} :
    (∀ old ∈ best, ∃ state, states.foldl stronger best = some state ∧ old.precedence ≤ state.precedence) ∧
      ∀ other ∈ states, ∃ state, states.foldl stronger best = some state ∧ other.precedence ≤ state.precedence := by
  induction states generalizing best with
  | nil => exact ⟨fun old hold => ⟨old, hold, le_rfl⟩, fun other hother => absurd hother List.not_mem_nil⟩
  | cons first states ih =>
    rw [List.foldl_cons]
    have hstep : ∃ kept, stronger best first = some kept ∧ first.precedence ≤ kept.precedence ∧
        ∀ old ∈ best, old.precedence ≤ kept.precedence := by
      cases best with
      | none => exact ⟨first, rfl, le_rfl, fun old hold => absurd hold (Option.not_mem_none old)⟩
      | some old =>
        by_cases hlt : old.precedence < first.precedence
        · refine ⟨first, if_pos hlt, le_rfl, fun other hother => ?_⟩
          rw [← Option.some.inj hother]
          exact hlt.le
        · refine ⟨old, if_neg hlt, Nat.not_lt.1 hlt, fun other hother => ?_⟩
          rw [← Option.some.inj hother]
    obtain ⟨kept, hkept, hfirst, hold⟩ := hstep
    obtain ⟨state, hstate, hle⟩ := ih.1 kept hkept
    refine ⟨fun old ho => ⟨state, hstate, (hold old ho).trans hle⟩, fun other hother => ?_⟩
    rcases List.mem_cons.1 hother with rfl | hother
    · exact ⟨state, hstate, hfirst.trans hle⟩
    · exact ih.2 other hother

theorem strongestEvidenceState_mem {states : List (Option EvidenceCompleteness)}
    (h : strongestEvidenceState states = some state) : some state ∈ states := by
  rcases foldl_stronger_mem h with hnone | hmem
  · cases hnone
  · simpa using hmem

theorem strongestEvidenceState_dominates {states : List (Option EvidenceCompleteness)}
    {other : EvidenceCompleteness} (h : some other ∈ states) :
    ∃ state, strongestEvidenceState states = some state ∧ other.precedence ≤ state.precedence :=
  foldl_stronger_dominates.2 other (List.mem_filterMap.2 ⟨_, h, rfl⟩)

theorem eq_of_degraded {other : EvidenceCompleteness} (h : state.degraded = true)
    (heq : state.precedence = other.precedence) : state = other := by
  cases state <;> cases other <;> first | rfl | exact absurd h (by decide) | cases heq

/-! ### The states of the evidence -/

namespace ReconciliationInput

/-- A row of a required family says that evidence is in the state, or is an artifact whose retention ran
out. -/
def RecordState (x : ReconciliationInput) (state : EvidenceCompleteness) : Prop :=
  ∃ requirement ∈ x.profile.requiredRecords, ∃ row ∈ requirement.rows x.recordRows,
    row.evidenceStatus = some state.value ∨
      (requirement.family = .artifact ∧ row.isExpiredArtifact x.now = true ∧ state = .expired)

def HasState (x : ReconciliationInput) (state : EvidenceCompleteness) : Prop :=
  x.observation.evidenceState = some state ∨ x.RecordState state

/-- The strongest of the states that are missing, expired or redacted. -/
structure Strongest (x : ReconciliationInput) (state : EvidenceCompleteness) : Prop where
  degraded : state.degraded = true
  has : x.HasState state
  dominates : ∀ other, x.HasState other → other.precedence ≤ state.precedence

/-- The provider reports a status that neither ends a run nor says that it goes on. -/
def UnknownStatus (x : ReconciliationInput) : Prop :=
  ∃ status, x.observation.status = some status ∧ status.isTerminal = false ∧ status.isNonterminal = false

end ReconciliationInput

/-! ### The states the evaluator collects -/

namespace RequiredEvidenceRecord

variable (requirement : RequiredEvidenceRecord) {rows : List StoredRecord} {now : Timestamp}

theorem exists_row_of_mem_states (h : state ∈ requirement.states rows now) :
    ∃ row ∈ rows, row.evidenceStatus = some state.value ∨
      (requirement.family = .artifact ∧ row.isExpiredArtifact now = true ∧ state = .expired) := by
  rcases List.mem_append.1 h with hstatus | hexpired
  · have hrow : some state.value ∈ rows.map StoredRecord.evidenceStatus := by
      split_ifs at hstatus with hr he hm
      · rw [List.mem_singleton.1 hstatus]
        exact List.contains_iff_mem.1 hr
      · rw [List.mem_singleton.1 hstatus]
        exact List.contains_iff_mem.1 he
      · rw [List.mem_singleton.1 hstatus]
        exact List.contains_iff_mem.1 hm
      · cases hstatus
    obtain ⟨row, hrow, heq⟩ := List.mem_map.1 hrow
    exact ⟨row, hrow, Or.inl heq⟩
  · split_ifs at hexpired with hfamily
    · obtain ⟨row, hrow, rfl⟩ := List.mem_map.1 hexpired
      obtain ⟨hrow, hout⟩ := List.mem_filter.1 hrow
      exact ⟨row, hrow, Or.inr ⟨beq_iff_eq.1 hfamily, hout, rfl⟩⟩
    · cases hexpired

theorem states_dominate {row : StoredRecord} (hrow : row ∈ rows) (hdegraded : state.degraded = true)
    (h : row.evidenceStatus = some state.value ∨ (requirement.family = .artifact ∧ row.isExpiredArtifact now = true ∧ state = .expired)) :
    ∃ found ∈ requirement.states rows now, state.precedence ≤ found.precedence := by
  rcases h with hstatus | ⟨hfamily, hout, rfl⟩
  · have hmem : some state.value ∈ rows.map StoredRecord.evidenceStatus :=
      List.mem_map.2 ⟨row, hrow, hstatus⟩
    unfold states
    -- the chain of branches looks for the strongest status first
    by_cases hr : some "redacted" ∈ rows.map StoredRecord.evidenceStatus
    · refine ⟨.redacted, List.mem_append_left _ ?_, by cases state <;> decide⟩
      rw [if_pos (List.contains_iff_mem.2 hr)]
      exact List.mem_singleton_self _
    · by_cases he : some "expired" ∈ rows.map StoredRecord.evidenceStatus
      · refine ⟨.expired, List.mem_append_left _ ?_, ?_⟩
        · rw [if_neg (fun h => hr (List.contains_iff_mem.1 h)), if_pos (List.contains_iff_mem.2 he)]
          exact List.mem_singleton_self _
        · cases state with
          | redacted => exact absurd hmem hr
          | _ => decide
      · cases state with
        | redacted => exact absurd hmem hr
        | expired => exact absurd hmem he
        | missing =>
          have hm : some "missing" ∈ rows.map StoredRecord.evidenceStatus := hmem
          refine ⟨.missing, List.mem_append_left _ ?_, le_rfl⟩
          rw [if_neg (fun h => hr (List.contains_iff_mem.1 h)), if_neg (fun h => he (List.contains_iff_mem.1 h)),
            if_pos (List.contains_iff_mem.2 hm)]
          exact List.mem_singleton_self _
        | complete => cases hdegraded
        | incomplete => cases hdegraded
  · refine ⟨.expired, List.mem_append_right _ ?_, le_rfl⟩
    rw [if_pos (beq_iff_eq.2 hfamily)]
    exact List.mem_map.2 ⟨row, List.mem_filter.2 ⟨hrow, hout⟩, rfl⟩

end RequiredEvidenceRecord

namespace ReconciliationInput

variable (x : ReconciliationInput)

theorem recordState_of_mem (h : state ∈ collectRecordStates x.profile x.recordRows x.now) : x.RecordState state := by
  obtain ⟨requirement, hrequirement, hmem⟩ := List.mem_flatMap.1 h
  exact ⟨requirement, hrequirement, requirement.exists_row_of_mem_states hmem⟩

theorem exists_mem_of_recordState (hdegraded : state.degraded = true) (h : x.RecordState state) :
    ∃ found ∈ collectRecordStates x.profile x.recordRows x.now, state.precedence ≤ found.precedence := by
  obtain ⟨requirement, hrequirement, row, hrow, hstate⟩ := h
  obtain ⟨found, hfound, hle⟩ := requirement.states_dominate hrow hdegraded hstate
  exact ⟨found, List.mem_flatMap.2 ⟨requirement, hrequirement, hfound⟩, hle⟩

theorem hasState_explicitState (h : x.explicitState = some state) : x.HasState state := by
  rcases List.mem_cons.1 (strongestEvidenceState_mem h) with hobserved | hrecords
  · exact Or.inl hobserved.symm
  · have hstrongest := (List.mem_singleton.1 hrecords).symm
    obtain ⟨found, hfound, heq⟩ := List.mem_map.1 (strongestEvidenceState_mem hstrongest)
    rw [← Option.some.inj heq]
    exact Or.inr (x.recordState_of_mem hfound)

theorem explicitState_dominates (hdegraded : state.degraded = true) (h : x.HasState state) :
    ∃ explicit, x.explicitState = some explicit ∧ state.precedence ≤ explicit.precedence := by
  rcases h with hobserved | hrecord
  · exact strongestEvidenceState_dominates (hobserved ▸ List.mem_cons_self)
  · obtain ⟨found, hfound, hle⟩ := x.exists_mem_of_recordState hdegraded hrecord
    obtain ⟨strongest, hstrongest, hfoundLe⟩ :=
      strongestEvidenceState_dominates (List.mem_map.2 ⟨found, hfound, rfl⟩)
    have hmem : some strongest ∈ [x.observation.evidenceState,
        strongestEvidenceState ((collectRecordStates x.profile x.recordRows x.now).map some)] := by
      rw [hstrongest]
      exact List.mem_cons_of_mem _ (List.mem_singleton_self _)
    obtain ⟨explicit, hexplicit, hstrongestLe⟩ := strongestEvidenceState_dominates hmem
    exact ⟨explicit, hexplicit, hle.trans (hfoundLe.trans hstrongestLe)⟩

theorem strongest_iff : x.Strongest state ↔ state.degraded = true ∧ x.explicitState = some state := by
  constructor
  · intro h
    obtain ⟨explicit, hexplicit, hle⟩ := x.explicitState_dominates h.degraded h.has
    have hge := h.dominates explicit (x.hasState_explicitState hexplicit)
    refine ⟨h.degraded, ?_⟩
    rw [hexplicit, eq_of_degraded h.degraded (hle.antisymm hge)]
  · rintro ⟨hdegraded, hexplicit⟩
    refine ⟨hdegraded, x.hasState_explicitState hexplicit, fun other hother => ?_⟩
    by_cases hother' : other.degraded = true
    · obtain ⟨explicit, heq, hle⟩ := x.explicitState_dominates hother' hother
      rwa [Option.some.inj (hexplicit.symm.trans heq)]
    · have hzero : other.precedence = 0 := by
        unfold EvidenceCompleteness.degraded at hother'
        simpa using hother'
      rw [hzero]
      exact Nat.zero_le _

theorem completeness_of_strongest (h : x.Strongest state) (hknown : ¬x.UnknownStatus) :
    x.outcome.completeness = state := by
  obtain ⟨hdegraded, hexplicit⟩ := x.strongest_iff.1 h
  have hisDegraded : x.isDegraded = true := by
    rw [isDegraded, hexplicit]
    exact hdegraded
  rw [outcome_completeness, if_neg, if_pos hisDegraded, hexplicit]
  · rfl
  · intro hunknown
    refine hknown ?_
    cases hs : x.observation.status with
    | none =>
      rw [hs] at hunknown
      cases hunknown
    | some status =>
      rw [hs] at hunknown
      have hboth : status.isTerminal = false ∧ status.isNonterminal = false := by simpa using hunknown
      exact ⟨status, hs, hboth⟩

/-- The strongest of missing, expired and redacted evidence is the completeness of the decision, unless the
provider reports a status that is not known. -/
theorem strongest_prevails_iff {d : ReconciliationDecision} (h : evaluateReconciliation x = .ok d) :
    (∀ state, x.Strongest state → d.evidenceCompleteness = state) ↔
      ¬x.UnknownStatus ∨ ∀ state, x.HasState state → state.degraded = false := by
  obtain ⟨-, rfl⟩ := (evaluate_ok_iff x d).1 h
  show (∀ state, x.Strongest state → x.outcome.completeness = state) ↔ _
  constructor
  · intro hreported
    by_contra hcon
    rw [not_or, not_not] at hcon
    obtain ⟨⟨status, hstatus, hterminal, hnonterminal⟩, hdegraded⟩ := hcon
    refine hdegraded fun state hstate => ?_
    by_contra hd
    obtain ⟨explicit, hexplicit, hle⟩ := x.explicitState_dominates (Bool.not_eq_false _ ▸ hd) hstate
    have hstrongest : x.Strongest explicit := by
      refine x.strongest_iff.2 ⟨?_, hexplicit⟩
      have hpos : 0 < state.precedence := Nat.pos_of_ne_zero (by simpa [EvidenceCompleteness.degraded] using hd)
      exact decide_eq_true (hpos.trans_le hle)
    have hcompleteness := hreported explicit hstrongest
    rw [x.outcome_of_unsupported hstatus hterminal hnonterminal] at hcompleteness
    have hexplicitDegraded := hstrongest.degraded
    rw [← hcompleteness] at hexplicitDegraded
    cases hexplicitDegraded
  · rintro (hknown | hnone) state hstrongest
    · exact x.completeness_of_strongest hstrongest hknown
    · have hdegraded := hstrongest.degraded
      rw [hnone state hstrongest.has] at hdegraded
      cases hdegraded

end ReconciliationInput

/-! ### A redacted run with an unknown status -/

def redactedRun (status : RunStatus) : ReconciliationInput where
  observation := { projectId := "p", runId := "r", status := some status, evidenceState := some .redacted }
  profile := { profileId := "f", version := "1", runTerminalEventTypes := [], requiredRunFields := [] }
  now := ⟨0, some 0⟩

theorem strongest_redactedRun (status : RunStatus) : (redactedRun status).Strongest .redacted := by
  refine ⟨rfl, Or.inl rfl, fun other _ => ?_⟩
  cases other <;> decide

/-- The redacted run is reported as incomplete. -/
theorem redacted_run_reported_incomplete : ∃ d, evaluateReconciliation (redactedRun .unsupported) = .ok d ∧
      (redactedRun .unsupported).Strongest .redacted ∧ d.evidenceCompleteness = .incomplete :=
  ⟨_, rfl, strongest_redactedRun _, rfl⟩

theorem strongest_prevails_success : (∀ state, (redactedRun .success).Strongest state →
      (redactedRun .success).decision.evidenceCompleteness = state) ↔
      ¬(redactedRun .success).UnknownStatus ∨ ∀ state, (redactedRun .success).HasState state →
        state.degraded = false :=
  (redactedRun .success).strongest_prevails_iff rfl

end Phlo.RunEvidence
