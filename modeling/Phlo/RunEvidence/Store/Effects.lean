import Phlo.RunEvidence.Store.System

/-!
# What a successful write did

One lemma per helper of the store: exactly when it succeeds, and what the store is then.  Nothing
below unfolds a helper again.

* `insertEvent_eq_ok`, `insertStage_eq_ok`, `insertImmutable_eq_ok` — the three kinds of insert;
* `insertQuality_eq_ok` — a quality result is an immutable record with a stage reference;
* `upsertRun_find_self`, `upsertRun_find_of_ne` — the run row after an upsert;
* `appendEvent_cases`, `reconcile_cases` — the two calls that consist of several writes.
-/

namespace Phlo.RunEvidence

open Phlo.Library

/-! ### Checks -/

variable {u : Unit} {s s' : Store}

theorem requireId_eq_ok {name value : String} : requireId name value = .ok u ↔ isBlank value = false := require_eq_ok

theorem lockRun_eq_ok {projectId runId : String} :
    lockRun s projectId runId = .ok u ↔ (s.runs.find (projectId, runId)).isSome = true :=
  require_eq_ok

def StageAgrees (s : Store) (projectId runId stageId : String) (attempt : ℕ) : Prop :=
  ∀ row, s.stages.find (projectId, runId, stageId) = some row → row.attempt = attempt

theorem validateExistingStageAttempt_eq_ok {projectId runId stageId : String} {attempt : ℕ}
    {mismatch : String → StoreError} :
    validateExistingStageAttempt s projectId runId stageId attempt mismatch = .ok u ↔
      StageAgrees s projectId runId stageId attempt := by
  unfold validateExistingStageAttempt StageAgrees
  cases s.stages.find (projectId, runId, stageId) with
  | none => simp
  | some row => simp

variable {stage : RunStage} {inserted : Bool}

theorem validateReferences_eq_ok {table : String} {attempts : List ℕ} :
    validateReferences stage table attempts = .ok u ↔ ∀ a ∈ attempts, a = stage.attempt := by
  have hfilter : attempts.filter (· != stage.attempt) = [] ↔ ∀ a ∈ attempts, a = stage.attempt := by
    simp [List.filter_eq_nil_iff]
  rw [← hfilter]
  unfold validateReferences
  cases attempts.filter (· != stage.attempt) with
  | nil => simp
  | cons a l => simp

/-- Everything that refers to a stage, and the stage itself, has the attempt of the stage. -/
structure ReferencesAgree (s : Store) (stage : RunStage) : Prop where
  stored : StageAgrees s stage.projectId stage.runId stage.stageId stage.attempt
  events : ∀ row ∈ s.events.rows, row.projectId = stage.projectId → row.runId = stage.runId →
    row.stageId = some stage.stageId → row.attempt = stage.attempt
  qualityResults : ∀ row ∈ s.qualityResults.rows, row.projectId = stage.projectId →
    row.runId = stage.runId → row.stageId = some stage.stageId → row.attempt = stage.attempt

theorem validateStageWriteReferences_eq_ok :
    validateStageWriteReferences s stage = .ok u ↔ ReferencesAgree s stage := by
  unfold validateStageWriteReferences
  simp only [bind_eq_ok, validateExistingStageAttempt_eq_ok, validateReferences_eq_ok,
    eventAttempts, qualityAttempts, List.mem_map, List.mem_filter, Bool.and_eq_true, beq_iff_eq]
  constructor
  · rintro ⟨-, hstored, -, hevents, hquality⟩
    refine ⟨hstored, ?_, ?_⟩
    · intro row hrow hproject hrun hstage
      exact hevents _ ⟨row, ⟨hrow, ⟨hproject, hrun⟩, hstage⟩, rfl⟩
    · intro row hrow hproject hrun hstage
      exact hquality _ ⟨row, ⟨hrow, ⟨hproject, hrun⟩, hstage⟩, rfl⟩
  · rintro ⟨hstored, hevents, hquality⟩
    refine ⟨(), hstored, (), ?_, ?_⟩
    · rintro a ⟨row, ⟨hrow, ⟨hproject, hrun⟩, hstage⟩, rfl⟩
      exact hevents row hrow hproject hrun hstage
    · rintro a ⟨row, ⟨hrow, ⟨hproject, hrun⟩, hstage⟩, rfl⟩
      exact hquality row hrow hproject hrun hstage

/-! ### Inserts -/

def withEvent (s : Store) (event : RunEvent) : Store :=
  { s with events := (s.events.insertOrIgnore (eventRow event)).1 }

/-- What makes an event acceptable: its identity is free or holds the same event, and a stage it
names has its attempt. -/
structure EventFits (s : Store) (event : RunEvent) : Prop where
  eventId : isBlank event.eventId = false
  producer : isBlank event.producer = false
  replayed : ∀ stored, s.events.find (eventRow event).key = some stored →
    stored.runId = event.runId ∧ stored.content = (eventRow event).content
  stage : ∀ stageId ∈ event.stageId,
    StageAgrees s event.projectId event.runId stageId event.attempt

theorem insertEvent_eq_ok {event : RunEvent} : insertEvent s event = .ok (s', inserted) ↔
      EventFits s event ∧ s' = withEvent s event ∧ inserted = (s.events.find (eventRow event).key).isNone := by
  have hstored : ((s.events.insertOrIgnore (eventRow event)).1.find (eventRow event).key).getD
      (eventRow event) = (s.events.find (eventRow event).key).getD (eventRow event) := by
    rw [KeyedTable.find_insertOrIgnore_self]
    rfl
  have hreplayed : (∀ stored, s.events.find (eventRow event).key = some stored →
        stored.runId = event.runId ∧ stored.content = (eventRow event).content) ↔
      (((s.events.find (eventRow event).key).getD (eventRow event)).runId = event.runId ∧
        ((s.events.find (eventRow event).key).getD (eventRow event)).content = (eventRow event).content) := by
    cases s.events.find (eventRow event).key with
    | none => simp [eventRow]
    | some stored => simp
  unfold insertEvent
  simp only [bind_eq_ok, requireId_eq_ok, hstored, require_eq_ok, optionForM_eq_ok,
    validateExistingStageAttempt_eq_ok]
  constructor
  · rintro ⟨-, hid, -, hproducer, -, hrun, -, hcontent, -, hst, hresult⟩
    cases hresult
    exact ⟨⟨hid, hproducer, hreplayed.2 ⟨hrun, hcontent⟩, hst⟩, rfl,
      KeyedTable.insertOrIgnore_snd _ _⟩
  · rintro ⟨⟨hid, hproducer, hrep, hst⟩, rfl, rfl⟩
    obtain ⟨hrun, hcontent⟩ := hreplayed.1 hrep
    refine ⟨(), hid, (), hproducer, (), hrun, (), hcontent, (), hst, ?_⟩
    rw [← KeyedTable.insertOrIgnore_snd]
    rfl

def withStage (s : Store) (stage : RunStage) : Store :=
  { s with stages :=
      s.stages.upsert (stageRow stage) (updateStage stage) (updateStage_key stage) }

/-- What makes a stage acceptable: everything that refers to it has its attempt, and a stored stage
has its identity. -/
structure StageFits (s : Store) (stage : RunStage) : Prop where
  stageId : isBlank stage.stageId = false
  references : ReferencesAgree s stage
  replayed : ∀ stored, s.stages.find (stageRow stage).key = some stored →
    stored.recordChecksum = (stageRow stage).recordChecksum

theorem insertStage_eq_ok : insertStage s stage = .ok s' ↔ StageFits s stage ∧ s' = withStage s stage := by
  unfold insertStage
  simp only [bind_eq_ok, requireId_eq_ok, validateStageWriteReferences_eq_ok]
  cases hfind : s.stages.find (stageRow stage).key with
  | none =>
    have hinserted := (KeyedTable.insertOrIgnore_fresh hfind).2
    have htable : s.stages.upsert (stageRow stage) (updateStage stage) (updateStage_key stage) =
        (s.stages.insertOrIgnore (stageRow stage)).1 := by
      simp only [KeyedTable.upsert, hfind]
    simp only [hinserted, if_true]
    constructor
    · rintro ⟨-, hid, -, href, hresult⟩
      cases hresult
      exact ⟨⟨hid, href, fun stored h => by rw [hfind] at h; cases h⟩, by rw [withStage, htable]⟩
    · rintro ⟨⟨hid, href, -⟩, rfl⟩
      refine ⟨(), hid, (), href, ?_⟩
      rw [withStage, htable]
      rfl
  | some stored =>
    have hinserted := KeyedTable.insertOrIgnore_of_find hfind
    have htable : s.stages.upsert (stageRow stage) (updateStage stage) (updateStage_key stage) =
        s.stages.update (stageRow stage).key (updateStage stage) (updateStage_key stage) := by
      simp only [KeyedTable.upsert, hfind]
    simp only [hinserted, Bool.false_eq_true, if_false, bind_eq_ok, require_eq_ok, hfind,
      Option.any_some, decide_eq_true_eq]
    constructor
    · rintro ⟨-, hid, -, href, -, hchecksum, hresult⟩
      cases hresult
      refine ⟨⟨hid, href, fun row h => ?_⟩, by rw [withStage, htable]⟩
      rw [hfind] at h
      cases h
      exact hchecksum
    · rintro ⟨⟨hid, href, hrep⟩, rfl⟩
      refine ⟨(), hid, (), href, (), hrep stored hfind, ?_⟩
      rw [withStage, htable]
      rfl

theorem insertImmutable_eq_ok {α : Type} {key : α → String × String × String}
    {checksum : α → Sha256} {table : String} {t t' : KeyedTable key} {row : α} :
    insertImmutable checksum table t row = .ok t' ↔ t' = (t.insertOrIgnore row).1 ∧
        ∀ stored, t.find (key row) = some stored → checksum stored = checksum row := by
  unfold insertImmutable
  cases hfind : t.find (key row) with
  | none =>
    simp only [(KeyedTable.insertOrIgnore_fresh hfind).2, if_true]
    constructor
    · intro h
      cases h
      exact ⟨rfl, fun _ h => by cases h⟩
    · rintro ⟨rfl, -⟩
      rfl
  | some stored =>
    simp only [KeyedTable.insertOrIgnore_of_find hfind, Bool.false_eq_true, if_false, bind_eq_ok,
      require_eq_ok, hfind, Option.any_some, decide_eq_true_eq]
    constructor
    · rintro ⟨-, hchecksum, hresult⟩
      cases hresult
      exact ⟨rfl, fun _ h => by cases h; exact hchecksum⟩
    · rintro ⟨rfl, h⟩
      exact ⟨(), h stored rfl, rfl⟩

def withQuality (s : Store) (q : RunQualityResult) : Store :=
  { s with qualityResults := (s.qualityResults.insertOrIgnore (qualityResultRow q)).1 }

structure QualityFits (s : Store) (q : RunQualityResult) : Prop where
  qualityResultId : isBlank q.qualityResultId = false
  stage : ∀ stageId ∈ q.stageId, StageAgrees s q.projectId q.runId stageId q.attempt
  replayed : ∀ stored, s.qualityResults.find (qualityResultRow q).key = some stored →
    stored.recordChecksum = (qualityResultRow q).recordChecksum

theorem insertQuality_eq_ok {q : RunQualityResult} :
    insertQuality s q = .ok s' ↔ QualityFits s q ∧ s' = withQuality s q := by
  unfold insertQuality
  simp only [bind_eq_ok, requireId_eq_ok, insertImmutable_eq_ok, optionForM_eq_ok,
    validateExistingStageAttempt_eq_ok]
  constructor
  · rintro ⟨-, hid, -, hst, t, ⟨rfl, hrep⟩, hresult⟩
    cases hresult
    exact ⟨⟨hid, hst, hrep⟩, rfl⟩
  · rintro ⟨⟨hid, hst, hrep⟩, rfl⟩
    exact ⟨(), hid, (), hst, _, ⟨rfl, hrep⟩, rfl⟩

/-- The tables no other table refers to grow by one row at most; the rest stays. -/
structure ExtraGrowth (s s' : Store) : Prop where
  runs : s'.runs = s.runs
  events : s'.events = s.events
  stages : s'.stages = s.stages
  qualityResults : s'.qualityResults = s.qualityResults
  decisions : s'.decisions = s.decisions
  resources : s.resources.rows <+: s'.resources.rows
  lineageEdges : s.lineageEdges.rows <+: s'.lineageEdges.rows
  catalogChanges : s.catalogChanges.rows <+: s'.catalogChanges.rows
  artifacts : s.artifacts.rows <+: s'.artifacts.rows

theorem ExtraGrowth.refl (s : Store) : ExtraGrowth s s :=
  ⟨rfl, rfl, rfl, rfl, rfl, List.prefix_rfl, List.prefix_rfl, List.prefix_rfl, List.prefix_rfl⟩

theorem insertResource_growth {r : RunResource} (h : insertResource s r = .ok s') : ExtraGrowth s s' := by
  simp only [insertResource, bind_eq_ok, insertImmutable_eq_ok] at h
  obtain ⟨-, -, t, ⟨rfl, -⟩, hresult⟩ := h
  cases hresult
  exact { ExtraGrowth.refl s with resources := KeyedTable.rows_prefix_insertOrIgnore _ _ }

theorem insertLineage_growth {e : RunLineageEdge} (h : insertLineage s e = .ok s') : ExtraGrowth s s' := by
  simp only [insertLineage, bind_eq_ok, insertImmutable_eq_ok] at h
  obtain ⟨-, -, t, ⟨rfl, -⟩, hresult⟩ := h
  cases hresult
  exact { ExtraGrowth.refl s with lineageEdges := KeyedTable.rows_prefix_insertOrIgnore _ _ }

theorem insertCatalogChange_growth {c : RunCatalogChange} (h : insertCatalogChange s c = .ok s') :
    ExtraGrowth s s' := by
  simp only [insertCatalogChange, bind_eq_ok, insertImmutable_eq_ok] at h
  obtain ⟨-, -, t, ⟨rfl, -⟩, hresult⟩ := h
  cases hresult
  exact { ExtraGrowth.refl s with catalogChanges := KeyedTable.rows_prefix_insertOrIgnore _ _ }

theorem insertArtifact_growth {a : RunArtifact} (h : insertArtifact s a = .ok s') : ExtraGrowth s s' := by
  simp only [insertArtifact, bind_eq_ok, insertImmutable_eq_ok] at h
  obtain ⟨-, -, t, ⟨rfl, -⟩, hresult⟩ := h
  cases hresult
  exact { ExtraGrowth.refl s with artifacts := KeyedTable.rows_prefix_insertOrIgnore _ _ }

/-! ### Runs -/

theorem upsertRun_find_self (s : Store) (clock : Clock) (run : PipelineRun) :
    (upsertRun s clock run).runs.find (run.projectId, run.runId) =
      some ((s.runs.find (run.projectId, run.runId)).elim (runRow clock run) (mergeRun clock (runRow clock run))) :=
  KeyedTable.find_upsert_self s.runs (runRow clock run)

theorem upsertRun_find_of_ne (s : Store) (clock : Clock) {run : PipelineRun} {k : String × String}
    (hk : k ≠ (run.projectId, run.runId)) : (upsertRun s clock run).runs.find k = s.runs.find k :=
  KeyedTable.find_upsert_of_ne s.runs hk

/-! ### Calls -/

theorem commit_eq_ok : commit s = .ok s' ↔ s' = s ∧ s.qualityResults.rows.all s.referencesExist = true := by
  simp only [commit, bind_eq_ok, require_eq_ok]
  constructor
  · rintro ⟨-, hall, hresult⟩
    cases hresult
    exact ⟨rfl, hall⟩
  · rintro ⟨rfl, hall⟩
    exact ⟨(), hall, rfl⟩

theorem insertion_eq_ok {projectId runId : String} {insert : Except StoreError Store} :
    (do lockRun s projectId runId; let s ← insert; commit s) = .ok s' ↔
      (s.runs.find (projectId, runId)).isSome = true ∧ insert = .ok s' ∧
        s'.qualityResults.rows.all s'.referencesExist = true := by
  simp only [bind_eq_ok, lockRun_eq_ok, commit_eq_ok]
  constructor
  · rintro ⟨-, hrun, t, hinsert, rfl, hall⟩
    exact ⟨hrun, hinsert, hall⟩
  · rintro ⟨hrun, hinsert, hall⟩
    exact ⟨(), hrun, s', hinsert, rfl, hall⟩

namespace EventBundle

variable (b : EventBundle)

/-- The stages the event and the quality result name, and the stage of the bundle, fit the store. -/
structure ReferencesFit (s : Store) : Prop where
  named : ∀ stageId ∈ b.event.stageId.toList ++ (b.qualityResult.bind RunQualityResult.stageId).toList,
    StageAgrees s b.event.projectId b.event.runId stageId b.event.attempt
  stage : ∀ stage ∈ b.stage, ReferencesAgree s stage

theorem validateStageReferences_eq_ok : b.validateStageReferences s = .ok u ↔ b.ReferencesFit s := by
  unfold validateStageReferences
  simp only [bind_eq_ok, listForM_eq_ok, optionForM_eq_ok, validateExistingStageAttempt_eq_ok,
    validateStageWriteReferences_eq_ok]
  constructor
  · rintro ⟨-, hnamed, hstage⟩
    exact ⟨hnamed, hstage⟩
  · rintro ⟨hnamed, hstage⟩
    exact ⟨(), hnamed, hstage⟩

def placeholder (clock : Clock) (run : PipelineRun) : PipelineRunRow where
  projectId := b.event.projectId
  runId := b.event.runId
  attempt := run.attempt
  status := .running
  evidenceCompleteness := .incomplete
  createdAt := clock.currentTimestamp
  updatedAt := clock.currentTimestamp

variable {clock : Clock}

theorem ensureParent_cases {p : Store} (h : b.ensureParent s clock = .ok p) :
    ((s.runs.find (b.event.projectId, b.event.runId)).isSome = true ∧ p = s) ∨
      (s.runs.find (b.event.projectId, b.event.runId) = none ∧ ∃ run, b.run = some run ∧
        p = { s with runs := (s.runs.insertOrIgnore (b.placeholder clock run)).1 }) := by
  unfold ensureParent at h
  cases hfind : s.runs.find (b.event.projectId, b.event.runId) with
  | some row =>
    rw [hfind] at h
    cases h
    exact Or.inl ⟨rfl, rfl⟩
  | none =>
    rw [hfind] at h
    cases hrun : b.run with
    | none =>
      rw [hrun] at h
      cases h
    | some run =>
      rw [hrun] at h
      cases h
      exact Or.inr ⟨rfl, run, rfl, rfl⟩

theorem ensureParent_of_some (h : (s.runs.find (b.event.projectId, b.event.runId)).isSome = true) :
    b.ensureParent s clock = .ok s := by
  unfold ensureParent
  obtain ⟨row, hrow⟩ := Option.isSome_iff_exists.1 h
  rw [hrow]

theorem ensureParent_frame {p : Store} (h : b.ensureParent s clock = .ok p) : p = { s with runs := p.runs } := by
  rcases b.ensureParent_cases h with ⟨-, rfl⟩ | ⟨-, run, -, rfl⟩
  · rfl
  · rfl

end EventBundle

theorem withEvent_of_find {event : RunEvent} (h : (s.events.find (eventRow event).key).isSome = true) :
    withEvent s event = s := by
  obtain ⟨row, hrow⟩ := Option.isSome_iff_exists.1 h
  rw [withEvent, KeyedTable.insertOrIgnore_of_find hrow]

/-- **`append_event`.**  A known event changes nothing but a missing parent, a new one is written
with its derived records. -/
theorem appendEvent_cases {clock : Clock} {b : EventBundle} (h : appendEvent s clock b = .ok (s', inserted)) :
    b.validateInputs = .ok () ∧ b.ReferencesFit s ∧ s'.qualityResults.rows.all s'.referencesExist = true ∧
      ∃ p, b.ensureParent s clock = .ok p ∧ EventFits p b.event ∧
        (((s.events.find b.eventKey).isSome = true ∧ inserted = false ∧ s' = p) ∨
          (s.events.find b.eventKey = none ∧ inserted = true ∧
            b.insertDerived (withEvent p b.event) clock = .ok s')) := by
  unfold appendEvent at h
  rw [bind_eq_ok] at h
  obtain ⟨_, hvalid, h⟩ := h
  split at h
  · -- a stored event of another run never fits
    next hother =>
    simp only [bind_eq_ok] at h
    obtain ⟨⟨t, flag⟩, hinsert, -⟩ := h
    obtain ⟨hfits, -, -⟩ := insertEvent_eq_ok.1 hinsert
    rw [Option.any_eq_true] at hother
    obtain ⟨stored, hstored, hne⟩ := hother
    have hsame := (hfits.replayed stored hstored).1
    simp [hsame] at hne
  · simp only [bind_eq_ok, EventBundle.validateStageReferences_eq_ok] at h
    obtain ⟨-, href, p, hparent, -, -, -, -, ⟨t, flag⟩, hinsert, t', hderived, t'', hcommit, hresult⟩ := h
    obtain ⟨hfits, rfl, rfl⟩ := insertEvent_eq_ok.1 hinsert
    obtain ⟨rfl, hall⟩ := commit_eq_ok.1 hcommit
    cases hresult
    have hevents : p.events = s.events := by rw [b.ensureParent_frame hparent]
    have hkey : (eventRow b.event).key = b.eventKey := rfl
    refine ⟨hvalid, href, hall, p, hparent, hfits, ?_⟩
    rw [hkey, hevents] at hderived ⊢
    cases hfind : s.events.find b.eventKey with
    | none =>
      rw [hfind] at hderived
      exact Or.inr ⟨rfl, rfl, hderived⟩
    | some stored =>
      rw [hfind] at hderived
      have hwith : withEvent p b.event = p := by
        apply withEvent_of_find
        rw [hkey, hevents, hfind]
        rfl
      cases hderived
      exact Or.inl ⟨rfl, rfl, hwith⟩

/-! ### Reconciliation -/

theorem ingest_eq_ok {clock : Clock} {scan : Scan} {q : ReconcileRequest} {i : Ingested} :
    ingest s clock scan q = .ok i ↔ ∃ s₁, ingestObservation s clock q.observation = .ok (s₁, i.observation) ∧
        (s₁.runs.find (i.observation.projectId, i.observation.runId)).isSome = true ∧
        insertObservationRecords s₁ i.observation = .ok i.store ∧
        readEvidence i.store scan q i.observation = .ok i.evidence ∧
        i.store.runs.find (i.observation.projectId, i.observation.runId) = some i.current := by
  unfold ingest
  simp only [bind_eq_ok, lockRun_eq_ok]
  constructor
  · rintro ⟨⟨s₁, o⟩, hingest, -, hlock, s₂, hrecords, evidence, hread, h⟩
    cases hfind : s₂.runs.find (o.projectId, o.runId) with
    | none =>
      simp only [hfind] at h
      cases h
    | some current =>
      simp only [hfind] at h
      cases h
      exact ⟨s₁, hingest, hlock, hrecords, hread, hfind⟩
  · rintro ⟨s₁, hingest, hlock, hrecords, hread, hfind⟩
    refine ⟨(s₁, i.observation), hingest, (), hlock, i.store, hrecords, i.evidence, hread, ?_⟩
    simp only [hfind]
    rfl

def withDecision (s : Store) (d : ReconciliationDecision) : Store :=
  { s with decisions := (s.decisions.insertOrIgnore (decisionRow d)).1 }

/-- The row the decision table holds for `d`, if any. -/
def storedDecision (s : Store) (d : ReconciliationDecision) : Option DecisionRow :=
  s.decisions.find (decisionRow d).key

theorem insertReconciliationDecision_eq_ok {d r : ReconciliationDecision} :
    insertReconciliationDecision s d = .ok (s', r, inserted) ↔
      (storedDecision s d = none ∧ s' = withDecision s d ∧ r = d ∧ inserted = true) ∨
        ∃ stored, storedDecision s d = some stored ∧ stored.recordChecksum = (decisionRow d).recordChecksum ∧ s' = s ∧
          r = decisionFromRow stored ∧ inserted = false := by
  unfold insertReconciliationDecision storedDecision
  cases hfind : s.decisions.find (decisionRow d).key with
  | none =>
    simp only [(KeyedTable.insertOrIgnore_fresh hfind).2, if_true]
    constructor
    · intro h
      cases h
      exact Or.inl ⟨trivial, rfl, rfl, rfl⟩
    · rintro (⟨-, rfl, rfl, rfl⟩ | ⟨stored, h, -⟩)
      · rfl
      · cases h
  | some stored =>
    simp only [KeyedTable.insertOrIgnore_of_find hfind, Bool.false_eq_true, if_false, bind_eq_ok,
      require_eq_ok, hfind, Option.getD_some]
    constructor
    · rintro ⟨-, hchecksum, hresult⟩
      cases hresult
      exact Or.inr ⟨stored, rfl, hchecksum, rfl, rfl, rfl⟩
    · rintro (⟨h, -⟩ | ⟨stored', h, hchecksum, rfl, rfl, rfl⟩)
      · cases h
      · cases h
        exact ⟨(), hchecksum, rfl⟩

/-- The run row is given back the time it was last updated before a replay. -/
def restored (s : Store) (i : Ingested) : Store :=
  (s.runs.find (i.observation.projectId, i.observation.runId)).elim i.store fun row =>
    restoreUpdatedAt i.store i.observation.projectId i.observation.runId row.updatedAt.canonical

theorem ingestObservation_ids {s₁ : Store} {clock : Clock} {o o' : RunObservation}
    (h : ingestObservation s clock o = .ok (s₁, o')) :
    o'.projectId = o.projectId ∧ o'.runId = o.runId ∧ o'.lookupOutcome = o.lookupOutcome := by
  unfold ingestObservation at h
  cases hl : o.lookupOutcome with
  | present =>
    rw [hl] at h
    cases h
    exact ⟨rfl, rfl, hl⟩
  | absent =>
    rw [hl] at h
    cases hfind : s.runs.find (o.projectId, o.runId) with
    | none =>
      simp only [hfind] at h
      cases h
    | some row =>
      simp only [hfind] at h
      cases h
      exact ⟨rfl, rfl, hl⟩

/-- **`reconcile_observation`.**  The observation is ingested and evaluated; a new decision is stored
and applied to the run, a known one is returned as it is stored. -/
theorem reconcile_eq_ok {clock : Clock} {scan : Scan} {q : ReconcileRequest} {r : ReconciliationDecision} :
    reconcileObservation s clock scan q = .ok (s', r) ↔
      ∃ i d, ingest s clock scan q = .ok i ∧ evaluateReconciliation i.evidence = .ok d ∧
        s'.qualityResults.rows.all s'.referencesExist = true ∧ ((storedDecision i.store d = none ∧ r = d ∧
            s' = applyDecision (withDecision i.store d) clock i.current i.observation d) ∨
          ∃ stored, storedDecision i.store d = some stored ∧
            stored.recordChecksum = (decisionRow d).recordChecksum ∧ r = decisionFromRow stored ∧
            s' = restored s i) := by
  unfold reconcileObservation
  simp only [bind_eq_ok, mapError_eq_ok]
  constructor
  · rintro ⟨i, hi, d, hd, ⟨t, r', inserted⟩, hstore, t', hcommit, hresult⟩
    obtain ⟨rfl, hall⟩ := commit_eq_ok.1 hcommit
    cases hresult
    obtain ⟨s₁, hingest, -⟩ := ingest_eq_ok.1 hi
    obtain ⟨hproject, hrun, -⟩ := ingestObservation_ids hingest
    refine ⟨i, d, hi, hd, hall, ?_⟩
    rcases insertReconciliationDecision_eq_ok.1 hstore with
      ⟨hnew, rfl, rfl, rfl⟩ | ⟨stored, hstored, hchecksum, rfl, rfl, rfl⟩
    · exact Or.inl ⟨hnew, rfl, rfl⟩
    · refine Or.inr ⟨stored, hstored, hchecksum, rfl, ?_⟩
      unfold restored
      rw [hproject, hrun]
      rfl
  · rintro ⟨i, d, hi, hd, hall, hcases⟩
    obtain ⟨s₁, hingest, -⟩ := ingest_eq_ok.1 hi
    obtain ⟨hproject, hrun, -⟩ := ingestObservation_ids hingest
    rcases hcases with ⟨hnew, rfl, rfl⟩ | ⟨stored, hstored, hchecksum, rfl, hs'⟩
    · exact ⟨i, hi, _, hd, (withDecision i.store _, _, true),
        insertReconciliationDecision_eq_ok.2 (Or.inl ⟨hnew, rfl, rfl, rfl⟩), _,
        commit_eq_ok.2 ⟨rfl, hall⟩, rfl⟩
    · refine ⟨i, hi, d, hd, (i.store, decisionFromRow stored, false),
        insertReconciliationDecision_eq_ok.2 (Or.inr ⟨stored, hstored, hchecksum, rfl, rfl, rfl⟩),
        s', ?_, rfl⟩
      have hrestored : ((s.runs.find (q.observation.projectId, q.observation.runId)).elim i.store
          fun row => restoreUpdatedAt i.store i.observation.projectId i.observation.runId
            row.updatedAt.canonical) = s' := by
        rw [hs', restored, hproject, hrun]
      show commit ((s.runs.find (q.observation.projectId, q.observation.runId)).elim i.store
        fun row => restoreUpdatedAt i.store i.observation.projectId i.observation.runId
          row.updatedAt.canonical) = .ok s'
      rw [hrestored]
      exact commit_eq_ok.2 ⟨rfl, hall⟩

end Phlo.RunEvidence
