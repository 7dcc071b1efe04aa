import Phlo.RunEvidence.DagsterSource

/-!
# When the Dagster observer answers

`observe_run` is meant to return an observation, or to raise `RunEvidenceUnavailable` or the refusal of
another project, whatever the event log holds.  It does so exactly when the run and its log are
`Observable`.

* `datetimeFromEpoch_eq` — timestamps are read, except the ones too large for `time_t`;
* `exists_normalizeStage_iff` — the stage of an entry is built unless the entry is a step up for retry,
  whose status `retrying` is not in the vocabulary of `RunStatus`;
* `chainLength_raises`, `eventRecords_raises` — both loops end, and fail only as unavailable;
* `retried_step_refused` — a log with one retried step.
-/

namespace Phlo.RunEvidence

open Phlo.Library

/-! ### The condition -/

/-- Infinite, or a number of seconds outside `time_t`. -/
def EpochValue.overflows : EpochValue → Bool
  | .infinite => true
  | .micros n => decide (n / 1000000 < -2 ^ 63 ∨ 2 ^ 63 ≤ n / 1000000)
  | _ => false

def EpochValue.datetime : EpochValue → Option Timestamp
  | .micros n =>
    if -62135596800000000 ≤ n ∧ n < 253402300800000000 then some ⟨n, some 0⟩ else none
  | _ => none

/-- A retry of a step, told by an event that names the step or an asset. -/
def EventLogEntry.RetriesStage (entry : EventLogEntry) : Prop :=
  entry.eventName = "STEP_UP_FOR_RETRY" ∧
    (truthy entry.resolvedStepKey || truthy entry.assetName) = true

/-- An entry that does not stand in the way of the observation. -/
structure EventLogEntry.Normalizes (entry : EventLogEntry) : Prop where
  fits : entry.timestamp.overflows = false
  notRetried : entry.timestamp.datetime.isSome = true → ¬ entry.RetriesStage

/-- What the observation of a present run takes, once the run is read. -/
structure DagsterRunEvidenceSource.Builds (source : DagsterRunEvidenceSource)
    (projectId logicalRunId : String) (run : DagsterRun) (record : Option RunRecord)
    (entries : List (EventLogEntry × Option ℤ)) : Prop where
  projectNamed : isBlank projectId = false
  runNamed : isBlank logicalRunId = false
  started : (record.elim run.startTime RunRecord.startTime).overflows = false
  finished : (record.elim run.endTime RunRecord.endTime).overflows = false
  entries : ∀ entry ∈ entries, entry.1.Normalizes
  heartbeat : (source.heartbeatResolver.bind fun resolver => resolver run).all Timestamp.aware = true

/-- What the provider answers for the run can be observed: an absent run with ids that are not blank, or
a present one whose logical id is not blank and which, if its retry chain, its record and its log can be
read, `Builds`. -/
structure DagsterRunEvidenceSource.Observable (source : DagsterRunEvidenceSource)
    (projectId runId : String) : Prop where
  absent : source.dagster.getRunById runId = .ok none →
    isBlank projectId = false ∧ isBlank runId = false
  named : ∀ run resolver, source.dagster.getRunById runId = .ok (some run) →
    source.logicalRunIdResolver = some resolver → isBlank (resolver run) = false
  present : ∀ run n record entries logicalRunId,
    source.dagster.getRunById runId = .ok (some run) → attempt source.dagster run = .ok n →
    source.dagster.getRunRecordById runId = .ok record →
    eventRecords source.dagster runId = .ok entries → source.logicalRunId run = .ok logicalRunId →
    source.Builds projectId logicalRunId run record entries

/-- The observer answers as it should: with an observation whose stages have statuses of the vocabulary,
or with one of its two documented refusals. -/
def Answers (source : DagsterRunEvidenceSource) (projectId : String)
    (answer : Except ObserveError RunObservation) : Prop :=
  (∃ o, answer = .ok o ∧ ∀ stage ∈ o.stages, (RunStatus.parse stage.status.value).isSome = true) ∨
  (∃ message, answer = .error (.unavailable message)) ∨
  (projectId ≠ source.projectId ∧
    answer = .error (.valueError "Dagster event source is configured for another project"))

/-! ### Timestamps and statuses -/

theorem datetimeFromEpoch_eq (v : EpochValue) :
    datetimeFromEpoch v = if v.overflows = true then .error .overflowError else .ok v.datetime := by
  cases v with
  | micros n =>
    simp only [datetimeFromEpoch, EpochValue.overflows, EpochValue.datetime, decide_eq_true_eq]
    split
    · rfl
    · split
      · rfl
      · rfl
  | _ => rfl

theorem datetimeFromEpoch_eq_ok {v : EpochValue} {t : Option Timestamp} :
    datetimeFromEpoch v = .ok t ↔ v.overflows = false ∧ v.datetime = t := by
  rw [datetimeFromEpoch_eq]
  cases v.overflows with
  | true => simp
  | false => simp

theorem EpochValue.datetime_aware (v : EpochValue) : v.datetime.all Timestamp.aware = true := by
  cases v with
  | micros n =>
    rw [EpochValue.datetime]
    split
    · rfl
    · rfl
  | _ => rfl

section

variable {entry : EventLogEntry} {c : RunContext}

theorem normalizedType_of_retry (h : entry.eventName = "STEP_UP_FOR_RETRY") :
    entry.normalizedType c = "stage.step" := by
  simp [EventLogEntry.normalizedType, EventLogEntry.eventStatus, h, providerEventStatus,
    normalizedEventType]

theorem stageType_of_retry (h : entry.eventName = "STEP_UP_FOR_RETRY") : entry.stageType c = some "dagster_step" := by
  rw [EventLogEntry.stageType, normalizedType_of_retry h]
  rfl

theorem parse_stageStatus (h : entry.eventName ≠ "STEP_UP_FOR_RETRY") :
    ∃ r, parseStageStatus ((entry.stageStatus c).getD "unknown") = .ok r := by
  have hall : ∀ s ∈ [some "running", some "success", some "failed", some "skipped", none],
      ∃ r, parseStageStatus (s.getD "unknown") = .ok r := by
    intro s hs
    simp only [List.mem_cons, List.not_mem_nil, or_false] at hs
    rcases hs with rfl | rfl | rfl | rfl | rfl
    · exact ⟨.running, rfl⟩
    · exact ⟨.success, rfl⟩
    · exact ⟨.failed, rfl⟩
    · exact ⟨.skipped, rfl⟩
    · exact ⟨.unknown, rfl⟩
  apply hall
  unfold EventLogEntry.stageStatus
  split
  · simp
  · split
    · simp
    · simp
  · unfold stepStatus
    split
    all_goals simp_all

theorem parse_retrying :
    parseStageStatus "retrying" = .error (.valueError "'retrying' is not a valid RunStatus") := by
  decide +kernel

variable {d : StableDigest} {recordStorageId : Option ℤ}

theorem stageId_isSome_of_retry (d : StableDigest) (c : RunContext) (recordStorageId : Option ℤ)
    (h : entry.eventName = "STEP_UP_FOR_RETRY") : entry.stageId d c recordStorageId ≠ none ↔
      (truthy entry.resolvedStepKey || truthy entry.assetName) = true := by
  rw [EventLogEntry.stageId, stageType_of_retry h, Option.bind_some]
  split
  next hnamed => simp [hnamed]
  next hnamed => simp [hnamed]

theorem exists_normalizeStage_iff {observedAt : Timestamp} {href : c.resourceRef.validFor c.projectId = true} :
    (∃ stage, normalizeStage d c entry recordStorageId observedAt href = .ok stage) ↔ ¬ entry.RetriesStage := by
  by_cases hname : entry.eventName = "STEP_UP_FOR_RETRY"
  · have hstatus : entry.stageStatus c = some "retrying" := by
      rw [EventLogEntry.stageStatus, normalizedType_of_retry hname, hname]
      rfl
    have hid := stageId_isSome_of_retry d c recordStorageId hname
    rw [normalizeStage, stageType_of_retry hname]
    cases hstage : entry.stageId d c recordStorageId with
    | none =>
      rw [hstage] at hid
      have hnamed := mt hid.2 (not_not_intro rfl)
      exact iff_of_true ⟨none, rfl⟩ fun h => hnamed h.2
    | some stageId =>
      rw [hstage] at hid
      have hnamed := hid.1 (Option.some_ne_none _)
      rw [hstatus]
      show (∃ stage, (parseStageStatus "retrying" >>= _) = .ok stage) ↔ _
      rw [parse_retrying]
      refine iff_of_false ?_ fun h => h ⟨hname, hnamed⟩
      intro ⟨stage, hstage⟩
      cases hstage
  · refine iff_of_true ?_ fun h => hname h.1
    obtain ⟨r, hr⟩ := parse_stageStatus (c := c) hname
    unfold normalizeStage
    split
    · rw [hr]
      exact ⟨_, rfl⟩
    · exact ⟨none, rfl⟩

/-- What `observe_run` should not fail with. -/
def ObserveError.Undocumented : ObserveError → Prop
  | .unavailable _ => False
  | .valueError message => message ≠ "Dagster event source is configured for another project"
  | .overflowError | .diverged => True

theorem datetimeFromEpoch_raises (v : EpochValue) : Raises ObserveError.Undocumented (datetimeFromEpoch v) := by
  intro e h
  rw [datetimeFromEpoch_eq] at h
  split at h
  · cases h
    exact trivial
  · cases h

theorem validateResourceRef_raises (projectId : String) (r : ResourceRef) :
    Raises ObserveError.Undocumented (validateResourceRef projectId r) := by
  intro e h
  unfold validateResourceRef at h
  split at h
  · cases h
  · split at h
    · cases h
      simp [ObserveError.Undocumented]
    · cases h
      simp [ObserveError.Undocumented]

theorem exists_validateResourceRef_iff {projectId : String} {r : ResourceRef} :
    (∃ u, validateResourceRef projectId r = .ok u) ↔ r.validFor projectId = true := by
  unfold validateResourceRef
  split
  next h => exact iff_of_true ⟨_, rfl⟩ h
  next h =>
    refine iff_of_false (fun hu => ?_) h
    obtain ⟨u, hu⟩ := hu
    split at hu
    · cases hu
    · cases hu

theorem parseStageStatus_raises (status : String) : Raises ObserveError.Undocumented (parseStageStatus status) := by
  intro e h
  unfold parseStageStatus at h
  split at h
  · cases h
  · cases h
    show _ ≠ _
    intro heq
    have hchars := congrArg (fun s => s.toList.head?) heq
    simp at hchars

theorem normalizeStage_raises {observedAt : Timestamp}
    {href : c.resourceRef.validFor c.projectId = true} : Raises ObserveError.Undocumented
      (normalizeStage d c entry recordStorageId observedAt href) := by
  unfold normalizeStage
  split
  · exact (parseStageStatus_raises _).bind fun _ _ => raises_ok
  · exact raises_ok

theorem normalizeEvent_raises {index : ℕ} :
    Raises ObserveError.Undocumented (normalizeEvent d c entry recordStorageId index) := by
  refine (datetimeFromEpoch_raises _).bind fun observedAt _ => ?_
  cases observedAt with
  | none => exact raises_ok
  | some observedAt =>
    refine (validateResourceRef_raises _ _).bind fun href _ => ?_
    exact normalizeStage_raises.bind fun _ _ => raises_ok

/-- An entry is normalized exactly when its timestamp fits and, if it is in the calendar, the reference
of the run is valid and no step is retried. -/
theorem exists_normalizeEvent_iff {index : ℕ} : (∃ x, normalizeEvent d c entry recordStorageId index = .ok x) ↔
      entry.timestamp.overflows = false ∧ (entry.timestamp.datetime.isSome = true →
        c.resourceRef.validFor c.projectId = true ∧ ¬ entry.RetriesStage) := by
  simp only [normalizeEvent, bind_eq_ok, datetimeFromEpoch_eq_ok]
  constructor
  · intro ⟨x, t, ⟨hfits, ht⟩, hx⟩
    refine ⟨hfits, fun hsome => ?_⟩
    obtain ⟨observedAt, hobserved⟩ := Option.isSome_iff_exists.1 hsome
    rw [hobserved] at ht
    cases ht
    obtain ⟨href, hvalid, hstage⟩ := bind_eq_ok.1 hx
    obtain ⟨stage, hstage, -⟩ := bind_eq_ok.1 hstage
    exact ⟨exists_validateResourceRef_iff.1 ⟨href, hvalid⟩, exists_normalizeStage_iff.1 ⟨stage, hstage⟩⟩
  · intro ⟨hfits, hsome⟩
    cases ht : entry.timestamp.datetime with
    | none => exact ⟨_, none, ⟨hfits, rfl⟩, rfl⟩
    | some observedAt =>
      obtain ⟨hvalid, hretry⟩ := hsome (by rw [ht]; rfl)
      obtain ⟨href, hr⟩ := exists_validateResourceRef_iff.2 hvalid
      have hbuilt : ∃ stage, normalizeStage d c entry recordStorageId observedAt href.valid = .ok stage :=
        exists_normalizeStage_iff.2 hretry
      obtain ⟨stage, hstage⟩ := hbuilt
      refine ⟨_, some observedAt, ⟨hfits, rfl⟩, bind_eq_ok.2 ⟨href, hr, bind_eq_ok.2 ⟨stage, hstage, rfl⟩⟩⟩

end

/-! ### The observation of a present run -/

section

variable {d : StableDigest} {source : DagsterRunEvidenceSource} {projectId runId logicalRunId : String}
  {n : ℕ+} {run : DagsterRun} {record : Option RunRecord} {entries : List (EventLogEntry × Option ℤ)}

theorem noDataEvent_raises {c : RunContext} {t : Timestamp} : Raises ObserveError.Undocumented (noDataEvent d c t) :=
  (validateResourceRef_raises _ _).bind fun _ _ => raises_ok

theorem exists_noDataEvent {c : RunContext} (h : c.resourceRef.validFor c.projectId = true)
    (t : Timestamp) : ∃ event, noDataEvent d c t = .ok event := by
  obtain ⟨href, hr⟩ := exists_validateResourceRef_iff.2 h
  exact ⟨_, bind_eq_ok.2 ⟨href, hr, rfl⟩⟩

theorem context_valid (projectId runId : String) (n : ℕ+) (run : DagsterRun)
    (entries : List (EventLogEntry × Option ℤ)) (h : isBlank logicalRunId = false) :
    (run.context projectId runId logicalRunId n entries).resourceRef.validFor projectId = true := by
  have hrun : isBlank "run" = false := by decide
  simp only [DagsterRun.context, ResourceRef.validFor, hrun, h]
  simp

theorem observation_raises : Raises ObserveError.Undocumented
    (source.observation d projectId runId logicalRunId n run record entries) := by
  refine (datetimeFromEpoch_raises _).bind fun startedAt _ => ?_
  refine (datetimeFromEpoch_raises _).bind fun finishedAt _ => ?_
  refine (raises_mapM fun _ _ => normalizeEvent_raises).bind fun normalized _ => ?_
  refine (raises_mapM fun _ _ => noDataEvent_raises).bind fun tagged _ => ?_
  intro e h
  by_cases hids : (isBlank projectId || isBlank logicalRunId) = false
  · rw [dif_pos hids] at h
    split at h
    · cases h
    · cases h
      simp [ObserveError.Undocumented]
  · rw [dif_neg hids] at h
    cases h
    simp [ObserveError.Undocumented]

theorem forall_zipIdx {α : Type} {P : α → Prop} {l : List α} : (∀ x ∈ l.zipIdx, P x.1) ↔ ∀ a ∈ l, P a := by
  have hfst : l.zipIdx.map Prod.fst = l := List.zipIdx_map_fst 0 l
  constructor
  · intro h a ha
    rw [← hfst] at ha
    obtain ⟨x, hx, rfl⟩ := List.mem_map.1 ha
    exact h x hx
  · intro h x hx
    have ha := List.mem_map_of_mem (f := Prod.fst) hx
    rw [hfst] at ha
    exact h x.1 ha

theorem exists_observation_iff :
    (∃ o, source.observation d projectId runId logicalRunId n run record entries = .ok o) ↔
      source.Builds projectId logicalRunId run record entries := by
  constructor
  · intro h
    simp only [DagsterRunEvidenceSource.observation, bind_eq_ok, datetimeFromEpoch_eq_ok] at h
    obtain ⟨o, startedAt, ⟨hstarted, -⟩, finishedAt, ⟨hfinished, -⟩, normalized, hnormalized, tagged, -, ho⟩ := h
    split at ho
    next hids =>
      obtain ⟨hproject, hrun⟩ := Bool.or_eq_false_iff.1 hids
      split at ho
      next haware =>
        refine ⟨hproject, hrun, hstarted, hfinished, ?_, (Bool.and_eq_true_iff.1 haware).2⟩
        have hall := exists_mapM_eq_ok.1 ⟨normalized, hnormalized⟩
        intro entry hentry
        refine forall_zipIdx (P := fun entry => entry.1.Normalizes).1 (fun x hmem => ?_) entry hentry
        obtain ⟨hfits, hsome⟩ := exists_normalizeEvent_iff.1 (hall x hmem)
        exact ⟨hfits, fun h => (hsome h).2⟩
      · cases ho
    · cases ho
  · intro ⟨hproject, hrun, hstarted, hfinished, hentries, hheartbeat⟩
    have hvalid := context_valid projectId runId n run entries hrun
    let c := run.context projectId runId logicalRunId n entries
    have hnormal : ∀ x ∈ entries.zipIdx, ∃ y, normalizeEvent d c x.1.1 x.1.2 x.2 = .ok y := by
      intro x hx
      have hentry := forall_zipIdx (P := fun entry => entry.1.Normalizes).2 hentries x hx
      exact exists_normalizeEvent_iff.2 ⟨hentry.fits, fun h => ⟨hvalid, hentry.notRetried h⟩⟩
    obtain ⟨normalized, hnormalized⟩ := exists_mapM_eq_ok.2 hnormal
    have htag : ∀ t ∈ ((record.elim run.endTime RunRecord.endTime).datetime.or
        (record.elim run.startTime RunRecord.startTime).datetime).toList.filter fun _ => c.noData,
        ∃ event, noDataEvent d c t = .ok event := fun t _ => exists_noDataEvent hvalid t
    obtain ⟨tagged, htagged⟩ := exists_mapM_eq_ok.2 htag
    have hids : (isBlank projectId || isBlank logicalRunId) = false := by rw [hproject, hrun]; rfl
    have haware : ((record.elim run.startTime RunRecord.startTime).datetime.all Timestamp.aware &&
        (record.elim run.endTime RunRecord.endTime).datetime.all Timestamp.aware &&
        (source.heartbeatResolver.bind fun resolver => resolver run).all Timestamp.aware) = true := by
      rw [EpochValue.datetime_aware, EpochValue.datetime_aware, hheartbeat]
      rfl
    exact ⟨_, bind_eq_ok.2 ⟨_, datetimeFromEpoch_eq_ok.2 ⟨hstarted, rfl⟩,
      bind_eq_ok.2 ⟨_, datetimeFromEpoch_eq_ok.2 ⟨hfinished, rfl⟩,
        bind_eq_ok.2 ⟨normalized, hnormalized,
          bind_eq_ok.2 ⟨tagged, htagged, (dif_pos hids).trans (dif_pos haware)⟩⟩⟩⟩⟩

end

/-! ### Reading the run and its log -/

def ObserveError.IsUnavailable : ObserveError → Prop
  | .unavailable _ => True
  | _ => False

section

variable {dagster : DagsterInstance} {runId : String} {run : DagsterRun}

theorem visitParent_raises (seen : List String) (parentId : String) (n : ℕ+) :
    Raises ObserveError.IsUnavailable (visitParent dagster seen parentId n) := by
  intro e h
  unfold visitParent at h
  split at h
  · cases h
    exact trivial
  · cases h
    exact trivial
  · split at h
    · cases h
    · cases h

theorem visitParent_next {seen : List String} {parentId next : String} {n n' : ℕ+}
    (h : visitParent dagster seen parentId n = .ok (.next next n')) : next ∈ dagster.parents := by
  unfold visitParent at h
  split at h
  · cases h
  · cases h
  next parent hparent =>
    split at h
    · cases h
    next next' hnext =>
      cases h
      exact dagster.parent_mem hparent (Option.eq_some_of_filter_eq_some hnext)

/-- The retry chain of a run that the instance holds is walked to its end, or refused. -/
theorem chainLength_raises (hrun : dagster.getRunById runId = .ok (some run)) :
    Raises ObserveError.IsUnavailable (chainLength dagster run) := by
  unfold chainLength
  split
  · exact raises_ok
  next parentId hparent =>
    have hmem : parentId ∈ dagster.parents :=
      dagster.parent_mem hrun (Option.eq_some_of_filter_eq_some hparent)
    cases hwalk : walk (visitParent dagster) (ObserveError.unavailable
        "Dagster retry-chain parent cycle was detected; reconciliation did not change the run")
        (dagster.parents.length + 1) [run.runId] parentId 1 with
    | none =>
      exact absurd hwalk (walk_ends _ (fun _ _ _ _ _ _ h => visitParent_next h) _ _ hmem
        (by omega))
    | some x =>
      refine walk_raises (P := ObserveError.IsUnavailable) ?_ visitParent_raises hwalk
      exact trivial

theorem attempt_raises (hrun : dagster.getRunById runId = .ok (some run)) :
    Raises ObserveError.IsUnavailable (attempt dagster run) := by
  refine (chainLength_raises hrun).bind fun n _ => ?_
  split
  · exact raises_ok
  · exact Raises.bind (raises_require trivial) fun _ _ => raises_ok

theorem visitPage_raises {read : Option String → Except Unit Connection}
    (seen : List (Option String)) (cursor : Option String) (records : List (EventLogEntry × Option ℤ)) :
    Raises ObserveError.IsUnavailable (visitPage read seen cursor records) := by
  intro e h
  unfold visitPage at h
  split at h
  · cases h
    exact trivial
  · dsimp only at h
    split at h
    · cases h
    · split at h
      · cases h
        exact trivial
      · split at h
        · cases h
          exact trivial
        · cases h

theorem visitPage_next {read : Option String → Except Unit Connection} {seen : List (Option String)}
    {cursor next : Option String} {records records' : List (EventLogEntry × Option ℤ)}
    (h : visitPage read seen cursor records = .ok (.next next records')) :
    ∃ page c, read cursor = .ok page ∧ page.cursor = some c ∧ next = some c := by
  unfold visitPage at h
  split at h
  · cases h
  next page hpage =>
    dsimp only at h
    split at h
    · cases h
    · split at h
      · cases h
      · split at h
        · cases h
        next hstuck =>
          cases h
          obtain ⟨c, hc⟩ := Option.ne_none_iff_exists'.1 fun hnone => hstuck (Or.inl hnone)
          exact ⟨page, c, hpage, hc, hc⟩

/-- The log of a run is read to its end, or refused. -/
theorem eventRecords_raises : Raises ObserveError.IsUnavailable (eventRecords dagster runId) := by
  unfold eventRecords
  split
  · intro e h
    split at h
    · cases h
      exact trivial
    · cases h
  next read hread =>
    cases hwalk : walk (visitPage (read runId)) pageRepeated ((dagster.cursors runId).length + 2) []
        none [] with
    | none =>
      refine absurd hwalk (walk_ends (none :: (dagster.cursors runId).map some) ?_ _ _ ?_ ?_)
      · intro _ cursor _ next _ _ h
        obtain ⟨page, c, hpage, hc, rfl⟩ := visitPage_next h
        exact List.mem_cons_of_mem _ (List.mem_map_of_mem (dagster.cursor_mem hread hpage hc))
      · exact List.mem_cons_self
      · simp
    | some x =>
      refine walk_raises (P := ObserveError.IsUnavailable) ?_ visitPage_raises hwalk
      exact trivial

end

/-! ### The observer -/

section

variable {d : StableDigest} {source : DagsterRunEvidenceSource} {projectId runId : String}

theorem answers_iff (hp : projectId = source.projectId) {answer : Except ObserveError RunObservation} :
    Answers source projectId answer ↔ Raises ObserveError.IsUnavailable answer := by
  cases answer with
  | ok o =>
    refine iff_of_true (Or.inl ⟨o, rfl, fun stage _ => ?_⟩) raises_ok
    rw [RunStatus.parse_value]
    rfl
  | error e =>
    constructor
    · intro h e' he
      cases he
      obtain ⟨o, ho, -⟩ | ⟨message, hm⟩ | ⟨hother, -⟩ := h
      · cases ho
      · cases hm
        exact trivial
      · exact absurd hp hother
    · intro h
      have he := h e rfl
      cases e with
      | unavailable message => exact Or.inr (Or.inl ⟨message, rfl⟩)
      | valueError message => exact he.elim
      | overflowError => exact he.elim
      | diverged => exact he.elim

theorem exists_ok_of_raises {α : Type} {x : Except ObserveError α}
    (h : Raises ObserveError.IsUnavailable x) (h' : Raises ObserveError.Undocumented x) : ∃ a, x = .ok a := by
  cases x with
  | ok a => exact ⟨a, rfl⟩
  | error e =>
    have he := h e rfl
    have he' := h' e rfl
    cases e with
    | unavailable message => exact he'.elim
    | valueError message => exact he.elim
    | overflowError => exact he.elim
    | diverged => exact he.elim

theorem observation_raises_iff {logicalRunId : String} {n : ℕ+} {run : DagsterRun}
    {record : Option RunRecord} {entries : List (EventLogEntry × Option ℤ)} : Raises ObserveError.IsUnavailable
        (source.observation d projectId runId logicalRunId n run record entries) ↔
      source.Builds projectId logicalRunId run record entries := by
  rw [← exists_observation_iff (d := d) (n := n)]
  constructor
  · intro h
    exact exists_ok_of_raises h observation_raises
  · intro ⟨o, ho⟩
    rw [ho]
    exact raises_ok

theorem missingObservation_raises_iff : Raises ObserveError.IsUnavailable (missingObservation projectId runId) ↔
      isBlank projectId = false ∧ isBlank runId = false := by
  rw [← Bool.or_eq_false_iff]
  unfold missingObservation
  split
  next h => exact iff_of_true raises_ok h
  next h => exact iff_of_false (fun hraises => hraises _ rfl) h

theorem logicalRunId_raises_iff {run : DagsterRun} : Raises ObserveError.IsUnavailable (source.logicalRunId run) ↔
      ∀ resolver, source.logicalRunIdResolver = some resolver → isBlank (resolver run) = false := by
  unfold DagsterRunEvidenceSource.logicalRunId
  split
  next resolver hresolver =>
    simp only [hresolver, Option.some.injEq, forall_eq']
    split
    next h => exact iff_of_false (fun hraises => hraises _ rfl) (by rw [h]; decide)
    next h => exact iff_of_true raises_ok (Bool.eq_false_iff.2 h)
  next hnone => exact iff_of_true raises_ok fun resolver h => by rw [hnone] at h; cases h

theorem observable_of_error {u : Unit} (hget : source.dagster.getRunById runId = .error u) :
    source.Observable projectId runId where
  absent h := by rw [hget] at h; cases h
  named _ _ h := by rw [hget] at h; cases h
  present _ _ _ _ _ h := by rw [hget] at h; cases h

theorem observable_iff_of_absent (hget : source.dagster.getRunById runId = .ok none) :
    source.Observable projectId runId ↔ isBlank projectId = false ∧ isBlank runId = false := by
  constructor
  · intro h
    exact h.absent hget
  · intro h
    refine ⟨fun _ => h, ?_, ?_⟩
    · intro _ _ hfound
      rw [hget] at hfound
      cases hfound
    · intro _ _ _ _ _ hfound
      rw [hget] at hfound
      cases hfound

theorem observable_iff_of_present {run : DagsterRun} (hget : source.dagster.getRunById runId = .ok (some run)) :
    source.Observable projectId runId ↔ Raises ObserveError.IsUnavailable (source.logicalRunId run) ∧
      ∀ logicalRunId n record entries, source.logicalRunId run = .ok logicalRunId →
        attempt source.dagster run = .ok n → source.dagster.getRunRecordById runId = .ok record →
        eventRecords source.dagster runId = .ok entries →
        source.Builds projectId logicalRunId run record entries := by
  rw [logicalRunId_raises_iff]
  constructor
  · intro h
    exact ⟨fun resolver => h.named run resolver hget,
      fun _ _ _ _ hid hn hrecord hentries => h.present _ _ _ _ _ hget hn hrecord hentries hid⟩
  · intro ⟨hnamed, hbuilds⟩
    refine ⟨?_, ?_, ?_⟩
    · intro habsent
      rw [hget] at habsent
      cases habsent
    · intro run' resolver hfound hresolver
      rw [hget] at hfound
      cases hfound
      exact hnamed resolver hresolver
    · intro run' n record entries logicalRunId hfound hn hrecord hentries hid
      rw [hget] at hfound
      cases hfound
      exact hbuilds logicalRunId n record entries hid hn hrecord hentries

/-- The observer answers exactly when it is asked about another project, or the run is observable. -/
theorem observe_total_iff (d : StableDigest) (source : DagsterRunEvidenceSource) (projectId runId : String) :
    Answers source projectId (source.observeRun d projectId runId) ↔
      (projectId = source.projectId → source.Observable projectId runId) := by
  by_cases hp : projectId = source.projectId
  · rw [answers_iff hp, imp_iff_right hp, DagsterRunEvidenceSource.observeRun,
      if_neg (not_not_intro hp)]
    match hget : source.dagster.getRunById runId with
    | .error u =>
      refine iff_of_true (fun e h => ?_) (observable_of_error hget)
      cases h
      exact trivial
    | .ok none =>
      rw [observable_iff_of_absent hget]
      exact missingObservation_raises_iff
    | .ok (some run) =>
      rw [observable_iff_of_present hget]
      show Raises ObserveError.IsUnavailable (source.logicalRunId run >>= _) ↔ _
      simp only [raises_bind_iff, mapError_eq_ok, observation_raises_iff]
      constructor
      · intro ⟨hid, hrest⟩
        refine ⟨hid, fun logicalRunId n record entries hok hn hrecord hentries => ?_⟩
        exact (((hrest _ hok).2 _ hn).2 _ hrecord).2 _ hentries
      · intro ⟨hid, hbuilds⟩
        refine ⟨hid, fun logicalRunId hok => ⟨attempt_raises hget, fun n hn => ?_⟩⟩
        refine ⟨raises_mapError fun _ => trivial, fun record hrecord => ?_⟩
        exact ⟨eventRecords_raises, fun entries => hbuilds _ _ _ _ hok hn hrecord⟩
  · refine iff_of_true (Or.inr (Or.inr ⟨hp, ?_⟩)) fun h => absurd h hp
    rw [DagsterRunEvidenceSource.observeRun, if_pos hp]

end

/-- Run `r` of an instance with one run, whose log is `entries`. -/
def sourceWithLog (entries : List EventLogEntry) : DagsterRunEvidenceSource where
  projectId := "p"
  dagster :=
    { getRunById := fun runId => .ok (if runId = "r" then some { runId := "r" } else none)
      getRunRecordById := fun _ => .ok none
      getRecordsForRun := none
      getEventLogEntries := fun _ => .ok entries
      parents := []
      cursors := fun _ => []
      parent_mem := by
        intro runId run parentId hrun hparent
        split at hrun
        · cases hrun
          cases hparent
        · cases hrun
      cursor_mem := by
        intro read runId cursor page next hread
        cases hread }

def upForRetry : EventLogEntry where
  timestamp := .micros 1700000000000000
  eventType := some "STEP_UP_FOR_RETRY"
  stepKey := some "load"

example : ((sourceWithLog [{ upForRetry with eventType := some "STEP_START" }]).observeRun
    plainDigest "p" "r").toOption.map (fun o => o.stages.map RunStage.status) = some [.running] := rfl

/-- One retried step in the log, and the run cannot be observed. -/
theorem retried_step_refused : (sourceWithLog [upForRetry]).observeRun plainDigest "p" "r" =
        .error (.valueError "'retrying' is not a valid RunStatus") ∧ ¬ ∀ d source projectId runId,
        Answers source projectId (source.observeRun d projectId runId) := by
  have hfails : (sourceWithLog [upForRetry]).observeRun plainDigest "p" "r" =
      .error (.valueError "'retrying' is not a valid RunStatus") := rfl
  refine ⟨hfails, fun hclaim => ?_⟩
  have hanswer := (answers_iff rfl).1 (hclaim plainDigest (sourceWithLog [upForRetry]) "p" "r")
  exact hanswer _ hfails

end Phlo.RunEvidence
