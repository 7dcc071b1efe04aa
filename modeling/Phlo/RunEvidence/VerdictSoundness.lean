import Phlo.RunEvidence.Evaluation

/-!
# Soundness of a complete verdict

`SoundVerdict` says what a COMPLETE verdict promises: nothing is missing, the run has ended, the
evidence is available, and every stage, event, record, run field and timestamp the profile asks for
is there.  Each collector has a lemma `..._eq_nil` that turns "no gap found" into its share of the
promise.
-/

namespace Phlo.RunEvidence

/-! ### Timestamps -/

theorem stageTimingGaps_eq_nil (now : Timestamp) (clockSkew : ℤ) (row : StoredStage) :
    stageTimingGaps now clockSkew row = [] ↔ (∀ t ∈ row.startedAt, t.instant ≤ now.instant + clockSkew) ∧
        (∀ t ∈ row.finishedAt, t.instant ≤ now.instant + clockSkew) ∧
        ∀ started ∈ row.startedAt, ∀ finished ∈ row.finishedAt, started.instant ≤ finished.instant := by
  cases hs : row.startedAt <;> cases hf : row.finishedAt <;>
    simp [stageTimingGaps, hs, hf]

theorem collectEventTimingGaps_eq_nil (events : List StoredEvent) (now : Timestamp) (clockSkew : ℤ)
    (stages : List StoredStage) : collectEventTimingGaps events now clockSkew stages = [] ↔
      (∀ row ∈ events, row.observedAt.instant ≤ now.instant + clockSkew) ∧
        ∀ row ∈ stages, stageTimingGaps now clockSkew row = [] := by
  simp [collectEventTimingGaps, List.filter_eq_nil_iff, List.flatMap_eq_nil_iff]

theorem runTimingGaps_eq_nil (now : Timestamp) (clockSkew : ℤ) (observation : RunObservation)
    (heartbeat : Option Timestamp) : (runTimingGaps now clockSkew observation heartbeat).missing = [] ↔
      (∀ started ∈ observation.startedAt, ∀ finished ∈ observation.finishedAt, started.instant ≤ finished.instant) ∧
        (∀ t ∈ observation.startedAt, t.instant ≤ now.instant + clockSkew) ∧
        (∀ t ∈ observation.finishedAt, t.instant ≤ now.instant + clockSkew) ∧
        (∀ t ∈ heartbeat, t.instant ≤ now.instant + clockSkew) ∧
        ∀ started ∈ observation.startedAt, ∀ t ∈ heartbeat, started.instant ≤ t.instant := by
  cases hs : observation.startedAt <;> cases hf : observation.finishedAt <;> cases heartbeat <;>
    simp [runTimingGaps, hs, hf]

/-! ### Terminal events and run fields -/

theorem mem_terminalEvents (profile : RequiredEvidenceProfile) (events : List StoredEvent) (row : StoredEvent) :
    row ∈ terminalEvents profile events ↔ row ∈ events ∧ row.eventType ∈ profile.runTerminalEventTypes := by
  simp [terminalEvents]

theorem collectRunTerminalGaps_eq_nil (events : List StoredEvent)
    (profile : RequiredEvidenceProfile) {status : RunStatus} (noData : Bool)
    (observation : RunObservation) (ht : status.isTerminal = true) :
    collectRunTerminalGaps events profile (some status) noData observation = [] ↔
      (terminalEvents profile events = [] → ¬ (status = .noData ∧ noData = true) →
          profile.runTerminalEventTypes = []) ∧
        (∀ row ∈ terminalEvents profile events, ∀ s ∈ eventStatus row, s = status) ∧
        ∀ fieldName ∈ profile.requiredRunFields, isRunFieldMissing observation fieldName = false := by
  have hcontra : (∀ row ∈ terminalEvents profile events,
      ¬ ((eventStatus row).isSome = true ∧ eventStatus row ≠ some status)) ↔
      ∀ row ∈ terminalEvents profile events, ∀ s ∈ eventStatus row, s = status := by
    apply forall₂_congr
    intro row _
    cases eventStatus row <;> simp
  rw [← hcontra]
  simp only [collectRunTerminalGaps, Option.any_some, ht, if_true, List.append_eq_nil_iff,
    List.map_eq_nil_iff, List.filter_eq_nil_iff, and_assoc]
  refine and_congr ?_ (and_congr ?_ ?_)
  · by_cases he : terminalEvents profile events = [] <;> by_cases hs : status = .noData <;>
      cases noData <;> simp [he, hs]
  · simp
  · simp

/-! ### Stages and their events -/

namespace RequiredEvidenceStage

variable (requirement : RequiredEvidenceStage)

/-- The event belongs to one of the matching stages; an unattributed event belongs to the only
one. -/
def Attributed (matching : List StoredStage) (event : StoredEvent) : Prop :=
  (∃ row ∈ matching, eventStage event = some row.stageId) ∨
    (eventStage event = none ∧ matching.length = 1)

/-- The status of the event is one the requirement accepts; an event without a status inherits that
of the only matching stage. -/
def Compatible (matching : List StoredStage) (event : StoredEvent) : Prop :=
  requirement.normalizedExpected = [] ∨
    (∃ s ∈ eventStatus event, s ∈ requirement.normalizedExpected) ∨
    (eventStatus event = none ∧ ∃ row, matching = [row] ∧
      row.status ∈ requirement.normalizedExpected)

theorem mem_eventStatuses (events : List StoredEvent) (eventType : String) (stageId : Option String)
    (s : Option RunStatus) : s ∈ eventStatuses events eventType stageId ↔
      ∃ event ∈ events, event.eventType = eventType ∧ eventStage event = stageId ∧ eventStatus event = s := by
  simp [eventStatuses, and_assoc]

theorem mem_attributedStatuses (events : List StoredEvent) (matching : List StoredStage)
    (eventType : String) (s : Option RunStatus) :
    s ∈ attributedStatuses events matching eventType ↔
      ∃ event ∈ events, event.eventType = eventType ∧ Attributed matching event ∧
        eventStatus event = s := by
  unfold attributedStatuses Attributed
  rw [List.mem_append, List.mem_flatMap]
  constructor
  · rintro (⟨row, hrow, hs⟩ | hs)
    · obtain ⟨event, he, htype, hstage, rfl⟩ := (mem_eventStatuses _ _ _ _).1 hs
      exact ⟨event, he, htype, Or.inl ⟨row, hrow, hstage⟩, rfl⟩
    · split at hs
      · next hone =>
        obtain ⟨event, he, htype, hstage, rfl⟩ := (mem_eventStatuses _ _ _ _).1 hs
        exact ⟨event, he, htype, Or.inr ⟨hstage, hone⟩, rfl⟩
      · exact absurd hs List.not_mem_nil
  · rintro ⟨event, he, htype, ⟨row, hrow, hstage⟩ | ⟨hstage, hone⟩, rfl⟩
    · exact Or.inl ⟨row, hrow, (mem_eventStatuses _ _ _ _).2 ⟨event, he, htype, hstage, rfl⟩⟩
    · right
      rw [if_pos hone]
      exact (mem_eventStatuses _ _ _ _).2 ⟨event, he, htype, hstage, rfl⟩

theorem isEventSatisfied_iff (events : List StoredEvent) (matching : List StoredStage)
    (eventType : String) :
    requirement.isEventSatisfied events matching eventType = true ↔
      ∃ event ∈ events, event.eventType = eventType ∧ Attributed matching event ∧
        requirement.Compatible matching event := by
  have hone : (matching.length = 1 ∧ ∀ row ∈ matching, row.status ∈ requirement.normalizedExpected)
      ↔ ∃ row, matching = [row] ∧ row.status ∈ requirement.normalizedExpected := by
    rw [List.length_eq_one_iff]
    constructor
    · rintro ⟨⟨row, rfl⟩, h⟩
      exact ⟨row, rfl, h row (List.mem_singleton.2 rfl)⟩
    · rintro ⟨row, rfl, h⟩
      exact ⟨⟨row, rfl⟩, by simpa using h⟩
  have hsat : requirement.isEventSatisfied events matching eventType = true ↔
      ∃ s ∈ attributedStatuses events matching eventType,
        requirement.normalizedExpected = [] ∨
        (∃ r ∈ s, r ∈ requirement.normalizedExpected) ∨
        (s = none ∧ ∃ row, matching = [row] ∧ row.status ∈ requirement.normalizedExpected) := by
    rw [← hone]
    simp only [isEventSatisfied, Bool.and_eq_true, Bool.or_eq_true, Bool.not_eq_true',
      List.isEmpty_eq_false_iff_exists_mem, List.isEmpty_iff, List.any_eq_true, List.contains_iff_mem,
      beq_iff_eq, List.all_eq_true, Option.any_eq_true]
    constructor
    · rintro ⟨⟨s, hs⟩, (hnil | ⟨r, hr, hok⟩) | ⟨⟨hnone, hlen⟩, hall⟩⟩
      · exact ⟨s, hs, Or.inl hnil⟩
      · exact ⟨r, hr, Or.inr (Or.inl hok)⟩
      · exact ⟨none, hnone, Or.inr (Or.inr ⟨rfl, hlen, hall⟩)⟩
    · rintro ⟨s, hs, hnil | hok | ⟨rfl, hlen, hall⟩⟩
      · exact ⟨⟨s, hs⟩, Or.inl (Or.inl hnil)⟩
      · exact ⟨⟨s, hs⟩, Or.inl (Or.inr ⟨s, hs, hok⟩)⟩
      · exact ⟨⟨none, hs⟩, Or.inr ⟨⟨hs, hlen⟩, hall⟩⟩
  rw [hsat]
  constructor
  · rintro ⟨s, hs, hok⟩
    obtain ⟨event, he, htype, hattr, rfl⟩ := (mem_attributedStatuses _ _ _ _).1 hs
    exact ⟨event, he, htype, hattr, hok⟩
  · rintro ⟨event, he, htype, hattr, hok⟩
    exact ⟨eventStatus event,
      (mem_attributedStatuses _ _ _ _).2 ⟨event, he, htype, hattr, rfl⟩, hok⟩

/-- A stage of the required kind has an accepted status, and every required event type is there. -/
structure Satisfied (events : List StoredEvent) (stages : List StoredStage) : Prop where
  stage : ∃ row ∈ requirement.matchingStages stages,
    requirement.normalizedExpected = [] ∨ row.status ∈ requirement.normalizedExpected
  events : ∀ eventType ∈ requirement.requiredEventTypes,
    ∃ event ∈ events, event.eventType = eventType ∧
      Attributed (requirement.matchingStages stages) event ∧
      requirement.Compatible (requirement.matchingStages stages) event

theorem normalizedExpected_eq_nil : requirement.normalizedExpected = [] ↔ requirement.expectedStatuses = [] := by
  simp [normalizedExpected]

theorem satisfied_of_stageGaps {events : List StoredEvent} {stages : List StoredStage} {noData : Bool}
    (hw : (noData && requirement.allowNoData) = false)
    (h : requirement.stageGaps events stages noData = []) : requirement.Satisfied events stages := by
  simp only [stageGaps, hw, Bool.not_false, Bool.and_true] at h
  cases hm : (requirement.matchingStages stages).isEmpty with
  | true => simp [hm] at h
  | false =>
    simp only [hm, Bool.false_eq_true, if_false, List.append_eq_nil_iff, Bool.not_false,
      Bool.and_true] at h
    obtain ⟨first, hfirst⟩ := List.isEmpty_eq_false_iff_exists_mem.1 hm
    constructor
    · cases hexp : requirement.expectedStatuses with
      | nil => exact ⟨first, hfirst, Or.inl (requirement.normalizedExpected_eq_nil.2 hexp)⟩
      | cons value values =>
        have hany : ∃ row ∈ requirement.matchingStages stages,
            row.status ∈ requirement.normalizedExpected := by
          simpa [hexp] using h.1
        obtain ⟨row, hrow, hok⟩ := hany
        exact ⟨row, hrow, Or.inr hok⟩
    · intro eventType htype
      have hnone := h.2
      rw [List.map_eq_nil_iff, List.filter_eq_nil_iff] at hnone
      have hsat := hnone eventType htype
      rw [← requirement.isEventSatisfied_iff]
      simpa using hsat

end RequiredEvidenceStage

/-! ### Records -/

namespace RequiredEvidenceRecord

variable (requirement : RequiredEvidenceRecord)

theorem requiredStatus_ne_empty {status : String} (h : requirement.requiredStatus = some status) : status ≠ "" := by
  rintro rfl
  have hvalid := requirement.requiredStatus_valid
  rw [h] at hvalid
  revert hvalid
  cases requirement.family <;> decide

theorem gaps_eq_nil (rows : List StoredRecord) (now : Timestamp) (h : requirement.gaps rows now = []) :
    requirement.minimum ≤ rows.length ∧ (∀ status ∈ requirement.requiredStatus,
        ∃ row ∈ rows, row.evidenceStatus = some (stripLower status)) ∧
      ∀ row ∈ rows, row.evidenceCompleteness ≠ some .incomplete := by
  simp only [gaps, List.append_eq_nil_iff] at h
  obtain ⟨⟨⟨hmin, hstatus⟩, hincomplete⟩, -⟩ := h
  refine ⟨?_, ?_, ?_⟩
  · by_contra hlt
    rw [if_pos (by omega)] at hmin
    cases hmin
  · intro status hs
    rw [Option.mem_def] at hs
    have hne := requirement.requiredStatus_ne_empty hs
    rw [hs] at hstatus
    by_contra hcon
    have hany : (rows.any fun row => row.evidenceStatus == some (stripLower status)) = false := by
      rw [List.any_eq_false]
      intro row hrow heq
      exact hcon ⟨row, hrow, beq_iff_eq.1 heq⟩
    simp [hne, hany] at hstatus
  · intro row hrow heq
    rw [List.map_eq_nil_iff, List.filter_eq_nil_iff] at hincomplete
    exact hincomplete row hrow (by simp [heq])

theorem states_degraded (rows : List StoredRecord) (now : Timestamp)
    (h : (requirement.states rows now).any EvidenceCompleteness.degraded = false) :
    (∀ row ∈ rows, row.evidenceStatus ∉ [some "missing", some "expired", some "redacted"]) ∧
      (requirement.family = .artifact → ∀ row ∈ rows, row.isExpiredArtifact now = false) := by
  simp only [states, List.any_append, Bool.or_eq_false_iff] at h
  constructor
  · intro row hrow hmem
    have hstatus : row.evidenceStatus ∈ rows.map StoredRecord.evidenceStatus :=
      List.mem_map_of_mem hrow
    have hcases : some "redacted" ∈ rows.map StoredRecord.evidenceStatus ∨
        some "expired" ∈ rows.map StoredRecord.evidenceStatus ∨
        some "missing" ∈ rows.map StoredRecord.evidenceStatus := by
      simp only [List.mem_cons, List.not_mem_nil, or_false] at hmem
      rcases hmem with heq | heq | heq
      · exact Or.inr (Or.inr (heq ▸ hstatus))
      · exact Or.inr (Or.inl (heq ▸ hstatus))
      · exact Or.inl (heq ▸ hstatus)
    have hany := h.1
    simp only [List.contains_iff_mem] at hany
    split at hany
    · cases hany
    · split at hany
      · cases hany
      · split at hany
        · cases hany
        · next hr he hm => exact hcases.elim hr fun hc => hc.elim he hm
  · intro hfamily row hrow
    have hany := h.2
    rw [hfamily] at hany
    by_contra hexp
    have hmem : row ∈ rows.filter (StoredRecord.isExpiredArtifact now) :=
      List.mem_filter.2 ⟨hrow, by simpa using hexp⟩
    have hdeg := List.any_eq_false.1 hany .expired (by
      rw [if_pos (by rfl)]
      exact List.mem_map.2 ⟨row, hmem, rfl⟩)
    exact hdeg rfl

end RequiredEvidenceRecord

/-- The record says that its evidence is not available: by its status or in its metadata. -/
def StoredRecord.Unavailable (row : StoredRecord) : Prop :=
  row.evidenceStatus ∈ [some "missing", some "expired", some "redacted"] ∨
    ∃ state ∈ row.evidenceCompleteness, state.degraded = true

/-! ### The promise of a complete verdict -/

/-- What a COMPLETE verdict `d` on the evidence `x` promises. -/
structure SoundVerdict (x : ReconciliationInput) (d : ReconciliationDecision) : Prop where
  nothing_missing : d.missingEvidence = []
  status_terminal : d.status.isTerminal = true
  observation_available : ∀ state ∈ x.observation.evidenceState, state.degraded = false
  records_available : ∀ requirement ∈ x.profile.requiredRecords,
    ∀ row ∈ requirement.rows x.recordRows, ¬ row.Unavailable
  artifacts_retained : ∀ requirement ∈ x.profile.requiredRecords, requirement.family = .artifact →
    ∀ row ∈ requirement.rows x.recordRows, ∀ status expiresAt legalHold,
      row.family = .artifact status (some expiresAt) legalHold →
      legalHold = true ∨ x.now.instant < expiresAt.instant
  stages : ∀ requirement ∈ x.profile.stages,
    requirement.Satisfied x.attemptEvents x.attemptStages ∨
      (requirement.allowNoData = true ∧ x.taggedNoData = true ∧ d.status = .noData)
  records : ∀ requirement ∈ x.profile.requiredRecords,
    requirement.minimum ≤ (requirement.rows x.recordRows).length ∧
      ∀ status ∈ requirement.requiredStatus,
        ∃ row ∈ requirement.rows x.recordRows, row.evidenceStatus = some (stripLower status)
  terminal_event : x.profile.runTerminalEventTypes ≠ [] →
    (∃ event ∈ x.attemptEvents, event.eventType ∈ x.profile.runTerminalEventTypes) ∨
      (x.taggedNoData = true ∧ d.status = .noData)
  not_contradicted : ∀ event ∈ x.attemptEvents,
    event.eventType ∈ x.profile.runTerminalEventTypes → ∀ s ∈ eventStatus event, s = d.status
  run_fields : ∀ fieldName ∈ x.profile.requiredRunFields,
    isRunFieldMissing x.observation fieldName = false
  events_timely : ∀ event ∈ x.attemptEvents,
    event.observedAt.instant ≤ x.now.instant + x.clockSkew
  stages_timely : ∀ row ∈ x.attemptStages,
    (∀ t ∈ row.startedAt, t.instant ≤ x.now.instant + x.clockSkew) ∧
      (∀ t ∈ row.finishedAt, t.instant ≤ x.now.instant + x.clockSkew) ∧
      ∀ started ∈ row.startedAt, ∀ finished ∈ row.finishedAt,
        started.instant ≤ finished.instant
  run_timely : (∀ started ∈ x.observation.startedAt, ∀ finished ∈ x.observation.finishedAt,
      started.instant ≤ finished.instant) ∧
    (∀ t ∈ x.observation.startedAt, t.instant ≤ x.now.instant + x.clockSkew) ∧
    (∀ t ∈ x.observation.finishedAt, t.instant ≤ x.now.instant + x.clockSkew) ∧
    (∀ t ∈ x.observation.heartbeatAt, t.instant ≤ x.now.instant + x.clockSkew) ∧
    ∀ started ∈ x.observation.startedAt, ∀ t ∈ x.observation.heartbeatAt,
      started.instant ≤ t.instant

/-- No record of a required family declares itself missing, expired or redacted in its metadata. -/
def ReconciliationInput.MetadataAvailable (x : ReconciliationInput) : Prop :=
  ∀ requirement ∈ x.profile.requiredRecords, ∀ row ∈ requirement.rows x.recordRows,
    ∀ state ∈ row.evidenceCompleteness, state.degraded = false

namespace ReconciliationInput

variable (x : ReconciliationInput)

theorem available_of_not_degraded (h : x.isDegraded = false) :
    (∀ state ∈ x.observation.evidenceState, state.degraded = false) ∧ ∀ requirement ∈ x.profile.requiredRecords,
        (requirement.states (requirement.rows x.recordRows) x.now).any EvidenceCompleteness.degraded = false := by
  rw [isDegraded, explicitState, strongestEvidenceState_degraded] at h
  simp only [List.any_cons, List.any_nil, Bool.or_false, Bool.or_eq_false_iff,
    strongestEvidenceState_degraded] at h
  constructor
  · intro state hstate
    have hobs := h.1
    rw [Option.mem_def.1 hstate] at hobs
    exact hobs
  · intro requirement hreq
    rw [List.any_eq_false]
    intro state hstate
    have hrec := h.2
    rw [List.any_eq_false] at hrec
    refine hrec (some state) (List.mem_map.2 ⟨state, ?_, rfl⟩)
    exact List.mem_flatMap.2 ⟨requirement, hreq, hstate⟩

theorem gaps_eq_nil (h : x.missing = []) :
    x.timingGaps = [] ∧ x.terminalGaps = [] ∧ x.stageGaps = [] ∧ x.recordGaps = [] ∧ x.runTiming.missing = [] := by
  simpa [missing, collectedGaps, and_assoc] using h

/-- **A complete verdict is sound** up to the completeness its records declare in their metadata. -/
theorem sound_of_complete (hc : x.outcome.completeness = .complete)
    (hm : x.MetadataAvailable) : SoundVerdict x x.decision := by
  obtain ⟨hterminal, hdegraded, hmissing⟩ := x.outcome_complete_iff.1 hc
  obtain ⟨htiming, hrunEnd, hstages, hrecords, hrun⟩ := x.gaps_eq_nil hmissing
  obtain ⟨hobs, hstates⟩ := x.available_of_not_degraded hdegraded
  obtain ⟨status, hstatus, ht⟩ : ∃ status, x.status = some status ∧ status.isTerminal = true := by
    rw [← x.status_terminal] at hterminal
    simpa only [Option.any_eq_true] using hterminal
  have hdecision : x.decision.status = status := (x.outcome_of_terminal hstatus ht).1
  have hnoData : x.noData = true → x.taggedNoData = true ∧ x.decision.status = .noData := by
    intro hn
    have heq := x.status_eq_noData hn hterminal
    rw [hdecision]
    refine ⟨?_, Option.some.inj (hstatus.symm.trans heq)⟩
    simp only [noData, Bool.and_eq_true] at hn
    exact hn.1
  rw [timingGaps, collectEventTimingGaps_eq_nil] at htiming
  rw [terminalGaps, hstatus, collectRunTerminalGaps_eq_nil _ _ _ _ ht] at hrunEnd
  rw [stageGaps, collectStageGaps, List.flatMap_eq_nil_iff] at hstages
  rw [recordGaps, collectRecordGaps, List.flatMap_eq_nil_iff] at hrecords
  refine
    { nothing_missing := hmissing
      status_terminal := hdecision ▸ ht
      observation_available := hobs
      records_available := ?_
      artifacts_retained := ?_
      stages := ?_
      records := ?_
      terminal_event := ?_
      not_contradicted := ?_
      run_fields := hrunEnd.2.2
      events_timely := htiming.1
      stages_timely := fun row hrow => (stageTimingGaps_eq_nil _ _ _).1 (htiming.2 row hrow)
      run_timely := (runTimingGaps_eq_nil _ _ _ _).1 hrun }
  · intro requirement hreq row hrow hun
    rcases hun with hstatus | ⟨state, hstate, hdeg⟩
    · exact (requirement.states_degraded _ _ (hstates requirement hreq)).1 row hrow hstatus
    · rw [hm requirement hreq row hrow state hstate] at hdeg
      cases hdeg
  · intro requirement hreq hfamily row hrow status expiresAt legalHold hrowFamily
    have havail := requirement.states_degraded _ _ (hstates requirement hreq)
    have hexp := havail.2 hfamily row hrow
    have hnotRedacted : status ≠ .redacted := by
      rintro rfl
      exact havail.1 row hrow (by simp [StoredRecord.evidenceStatus, hrowFamily,
        EvidenceCompleteness.value])
    simp only [StoredRecord.isExpiredArtifact, hrowFamily, Bool.and_eq_false_iff,
      decide_eq_false_iff_not, bne_eq_false_iff_eq, Bool.not_eq_false'] at hexp
    rcases hexp with (hlt | hred) | hhold
    · right
      omega
    · exact absurd hred hnotRedacted
    · exact Or.inl hhold
  · intro requirement hreq
    cases hw : (x.noData && requirement.allowNoData) with
    | false => exact Or.inl (requirement.satisfied_of_stageGaps hw (hstages requirement hreq))
    | true =>
      rw [Bool.and_eq_true] at hw
      exact Or.inr ⟨hw.2, hnoData hw.1⟩
  · intro requirement hreq
    have hgaps := requirement.gaps_eq_nil _ _ (hrecords requirement hreq)
    exact ⟨hgaps.1, hgaps.2.1⟩
  · intro htypes
    by_cases hevents : terminalEvents x.profile x.attemptEvents = []
    · right
      by_contra hcon
      refine htypes (hrunEnd.1 hevents fun hn => hcon ?_)
      exact hnoData hn.2
    · left
      obtain ⟨event, he⟩ := List.exists_mem_of_ne_nil _ hevents
      rw [mem_terminalEvents] at he
      exact ⟨event, he⟩
  · intro event he htype s hs
    rw [hdecision]
    exact hrunEnd.2.1 event ((mem_terminalEvents _ _ _).2 ⟨he, htype⟩) s hs

end ReconciliationInput

/-- A COMPLETE verdict keeps every promise exactly when no record of a required family declares
missing, expired or redacted evidence in its metadata. -/
theorem sound_iff_metadata_available (x : ReconciliationInput) (d : ReconciliationDecision)
    (h : evaluateReconciliation x = .ok d) (hc : d.evidenceCompleteness = .complete) :
    SoundVerdict x d ↔ x.MetadataAvailable := by
  obtain ⟨-, rfl⟩ := (x.evaluate_ok_iff d).1 h
  constructor
  · intro hsound requirement hreq row hrow state hstate
    by_contra hdeg
    refine hsound.records_available requirement hreq row hrow (Or.inr ⟨state, hstate, ?_⟩)
    simpa using hdeg
  · exact x.sound_of_complete hc

/-! ### A record that declares itself redacted -/

def anyResource : RequiredEvidenceRecord := { family := .resource }

/-- A resource row that declares `state` in its metadata. -/
def declaredResource (state : Option EvidenceCompleteness) : StoredRecord where
  projectId := "p"
  runId := "r"
  recordId := "o"
  evidenceCompleteness := state
  family := .resource

/-- A finished run whose profile asks for a resource and finds that row. -/
def declaredRun (state : Option EvidenceCompleteness) : ReconciliationInput where
  observation := { projectId := "p", runId := "r", status := some .success }
  profile := {
    profileId := "f"
    version := "1"
    runTerminalEventTypes := []
    requiredRunFields := []
    requiredRecords := [anyResource] }
  recordRows := [("resource", [declaredResource state])]
  now := ⟨0, some 0⟩

theorem evaluate_declaredRun (state : Option EvidenceCompleteness) :
    evaluateReconciliation (declaredRun state) = .ok (declaredRun state).decision := rfl

theorem sound_iff_metadata_available_declared : SoundVerdict (declaredRun none) (declaredRun none).decision ↔
      (declaredRun none).MetadataAvailable :=
  sound_iff_metadata_available _ _ (evaluate_declaredRun none) (by decide)

theorem complete_verdict_with_redacted_record :
    ¬ ∀ (x : ReconciliationInput) (d : ReconciliationDecision), evaluateReconciliation x = .ok d →
      d.evidenceCompleteness = .complete → SoundVerdict x d := by
  intro hclaim
  have hsound := hclaim _ _ (evaluate_declaredRun (some .redacted)) (by decide)
  have hrequired : anyResource ∈ (declaredRun (some .redacted)).profile.requiredRecords :=
    List.mem_singleton.2 rfl
  have hrow : declaredResource (some .redacted) ∈
      anyResource.rows (declaredRun (some .redacted)).recordRows := by decide
  exact hsound.records_available _ hrequired _ hrow (Or.inr ⟨.redacted, rfl, rfl⟩)

end Phlo.RunEvidence
