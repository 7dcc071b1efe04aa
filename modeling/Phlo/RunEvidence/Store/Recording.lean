import Mathlib.Logic.Relation
import Phlo.RunEvidence.Store.Effects

/-!
# Evidence is only ever added

`Growth` is the order in which a store moves: rows are appended, a stage keeps its attempt and its
identity, a run row stays.  `Recording` is what the writes below a decision do: they grow the store,
leave the decisions alone, change a run row through merges only, and keep the attempts of stages and
of the rows that refer to them in agreement (`Coherent`).

Both are preorders, so one lemma per helper gives the result for every call: `exec_growth` and
`exec_coherent`.
-/

namespace Phlo.RunEvidence

open Phlo.Library

/-- `s'` holds everything `s` holds. -/
structure Growth (s s' : Store) : Prop where
  runs : ∀ k row, s.runs.find k = some row → ∃ row', s'.runs.find k = some row'
  events : s.events.rows <+: s'.events.rows
  stages : ∀ k row, s.stages.find k = some row → ∃ row', s'.stages.find k = some row' ∧
    row'.attempt = row.attempt ∧ row'.recordChecksum = row.recordChecksum
  resources : s.resources.rows <+: s'.resources.rows
  lineageEdges : s.lineageEdges.rows <+: s'.lineageEdges.rows
  catalogChanges : s.catalogChanges.rows <+: s'.catalogChanges.rows
  qualityResults : s.qualityResults.rows <+: s'.qualityResults.rows
  artifacts : s.artifacts.rows <+: s'.artifacts.rows
  decisions : s.decisions.rows <+: s'.decisions.rows

theorem Growth.refl (s : Store) : Growth s s where
  runs _ row h := ⟨row, h⟩
  events := List.prefix_rfl
  stages _ row h := ⟨row, h, rfl, rfl⟩
  resources := List.prefix_rfl
  lineageEdges := List.prefix_rfl
  catalogChanges := List.prefix_rfl
  qualityResults := List.prefix_rfl
  artifacts := List.prefix_rfl
  decisions := List.prefix_rfl

theorem Growth.trans {a b c : Store} (hab : Growth a b) (hbc : Growth b c) : Growth a c where
  runs k row h := by
    obtain ⟨row', h'⟩ := hab.runs k row h
    exact hbc.runs k row' h'
  events := hab.events.trans hbc.events
  stages k row h := by
    obtain ⟨row', h', hattempt, hchecksum⟩ := hab.stages k row h
    obtain ⟨row'', h'', hattempt', hchecksum'⟩ := hbc.stages k row' h'
    exact ⟨row'', h'', hattempt'.trans hattempt, hchecksum'.trans hchecksum⟩
  resources := hab.resources.trans hbc.resources
  lineageEdges := hab.lineageEdges.trans hbc.lineageEdges
  catalogChanges := hab.catalogChanges.trans hbc.catalogChanges
  qualityResults := hab.qualityResults.trans hbc.qualityResults
  artifacts := hab.artifacts.trans hbc.artifacts
  decisions := hab.decisions.trans hbc.decisions

/-- Every event and every quality result that names a stored stage carries its attempt. -/
structure Coherent (s : Store) : Prop where
  events : ∀ row ∈ s.events.rows, ∀ stageId ∈ row.stageId,
    StageAgrees s row.projectId row.runId stageId row.attempt
  qualityResults : ∀ row ∈ s.qualityResults.rows, ∀ stageId ∈ row.stageId,
    StageAgrees s row.projectId row.runId stageId row.attempt

theorem coherent_empty : Coherent Store.empty := by
  refine ⟨?_, ?_⟩
  · intro row hrow
    cases hrow
  · intro row hrow
    cases hrow

variable {s s' : Store} {clock : Clock} {q : ReconcileRequest}

/-- Coherence is about three tables only. -/
theorem Coherent.congr (h : Coherent s) (hevents : s'.events = s.events)
    (hquality : s'.qualityResults = s.qualityResults) (hstages : s'.stages = s.stages) : Coherent s' := by
  refine ⟨?_, ?_⟩
  · intro row hrow stageId hstage stored hstored
    rw [hevents] at hrow
    rw [hstages] at hstored
    exact h.events row hrow stageId hstage stored hstored
  · intro row hrow stageId hstage stored hstored
    rw [hquality] at hrow
    rw [hstages] at hstored
    exact h.qualityResults row hrow stageId hstage stored hstored

/-- The run row went through any number of upserts. -/
def Merged : PipelineRunRow → PipelineRunRow → Prop :=
  Relation.ReflTransGen fun row row' => ∃ clock excluded, row' = mergeRun clock excluded row

/-- The store grew without a decision. -/
structure Recording (s s' : Store) : Prop extends Growth s s' where
  merged : ∀ k row, s.runs.find k = some row →
    ∃ row', s'.runs.find k = some row' ∧ Merged row row'
  sameDecisions : s'.decisions = s.decisions
  coherent : Coherent s → Coherent s'

theorem Recording.refl (s : Store) : Recording s s where
  toGrowth := Growth.refl s
  merged _ row h := ⟨row, h, Relation.ReflTransGen.refl⟩
  sameDecisions := rfl
  coherent h := h

theorem Recording.trans {a b c : Store} (hab : Recording a b) (hbc : Recording b c) : Recording a c where
  toGrowth := hab.toGrowth.trans hbc.toGrowth
  merged k row h := by
    obtain ⟨row', h', hmerged⟩ := hab.merged k row h
    obtain ⟨row'', h'', hmerged'⟩ := hbc.merged k row' h'
    exact ⟨row'', h'', hmerged.trans hmerged'⟩
  sameDecisions := hbc.sameDecisions.trans hab.sameDecisions
  coherent h := hbc.coherent (hab.coherent h)

theorem recording_of_runs (hs' : s' = { s with runs := s'.runs })
    (hmerged : ∀ k row, s.runs.find k = some row → ∃ row', s'.runs.find k = some row' ∧ Merged row row') :
    Recording s s' where
  runs k row h := by
    obtain ⟨row', h', -⟩ := hmerged k row h
    exact ⟨row', h'⟩
  events := KeyedTable.prefix_of_eq (by rw [hs'])
  stages k row h := ⟨row, by rw [hs']; exact h, rfl, rfl⟩
  resources := KeyedTable.prefix_of_eq (by rw [hs'])
  lineageEdges := KeyedTable.prefix_of_eq (by rw [hs'])
  catalogChanges := KeyedTable.prefix_of_eq (by rw [hs'])
  qualityResults := KeyedTable.prefix_of_eq (by rw [hs'])
  artifacts := KeyedTable.prefix_of_eq (by rw [hs'])
  decisions := KeyedTable.prefix_of_eq (by rw [hs'])
  merged := hmerged
  sameDecisions := by rw [hs']
  coherent h := h.congr (by rw [hs']) (by rw [hs']) (by rw [hs'])

/-! ### The helpers -/

theorem upsertRun_recording (s : Store) (clock : Clock) (run : PipelineRun) :
    Recording s (upsertRun s clock run) := by
  apply recording_of_runs rfl
  intro k row h
  by_cases hk : k = (run.projectId, run.runId)
  · subst hk
    refine ⟨_, upsertRun_find_self s clock run, ?_⟩
    rw [h]
    exact Relation.ReflTransGen.single ⟨clock, runRow clock run, rfl⟩
  · exact ⟨row, (upsertRun_find_of_ne s clock hk).trans h, Relation.ReflTransGen.refl⟩

variable {b : EventBundle} {stage : RunStage}

theorem ensureParent_recording {p : Store} (h : b.ensureParent s clock = .ok p) : Recording s p := by
  rcases b.ensureParent_cases h with ⟨-, rfl⟩ | ⟨-, run, -, rfl⟩
  · exact Recording.refl p
  · apply recording_of_runs rfl
    intro k row hrow
    exact ⟨row, KeyedTable.find_mono (KeyedTable.rows_prefix_insertOrIgnore _ _) hrow,
      Relation.ReflTransGen.refl⟩

theorem withEvent_recording {event : RunEvent} (h : EventFits s event) : Recording s (withEvent s event) where
  toGrowth := { Growth.refl s with events := KeyedTable.rows_prefix_insertOrIgnore _ _ }
  merged _ row hrow := ⟨row, hrow, Relation.ReflTransGen.refl⟩
  sameDecisions := rfl
  coherent hs := by
    refine ⟨?_, hs.qualityResults⟩
    intro row hrow stageId hstage
    rcases (KeyedTable.mem_insertOrIgnore _ _ _).1 hrow with hrow | ⟨-, rfl⟩
    · exact hs.events row hrow stageId hstage
    · exact h.stage stageId hstage

theorem withQuality_recording {q : RunQualityResult} (h : QualityFits s q) : Recording s (withQuality s q) where
  toGrowth := { Growth.refl s with qualityResults := KeyedTable.rows_prefix_insertOrIgnore _ _ }
  merged _ row hrow := ⟨row, hrow, Relation.ReflTransGen.refl⟩
  sameDecisions := rfl
  coherent hs := by
    refine ⟨hs.events, ?_⟩
    intro row hrow stageId hstage
    rcases (KeyedTable.mem_insertOrIgnore _ _ _).1 hrow with hrow | ⟨-, rfl⟩
    · exact hs.qualityResults row hrow stageId hstage
    · exact h.stage stageId hstage

theorem StageAgrees.withStage {projectId runId stageId : String} {attempt : ℕ}
    (h : StageAgrees s projectId runId stageId attempt)
    (hstage : projectId = stage.projectId → runId = stage.runId → stageId = stage.stageId → attempt = stage.attempt) :
    StageAgrees (withStage s stage) projectId runId stageId attempt := by
  intro row hrow
  by_cases hk : (projectId, runId, stageId) = (stageRow stage).key
  · obtain ⟨rfl, rfl, rfl⟩ : projectId = stage.projectId ∧ runId = stage.runId ∧ stageId = stage.stageId := by
      simpa [stageRow, StageRow.key] using hk
    have hself : (RunEvidence.withStage s stage).stages.find (stageRow stage).key = _ :=
      KeyedTable.find_upsert_self s.stages (stageRow stage)
    rw [hk, hself] at hrow
    cases hfind : s.stages.find (stageRow stage).key with
    | none =>
      rw [hfind] at hrow
      cases hrow
      exact (hstage rfl rfl rfl).symm
    | some stored =>
      rw [hfind] at hrow
      cases hrow
      exact h stored hfind
  · have hother : (RunEvidence.withStage s stage).stages.find (projectId, runId, stageId) =
        s.stages.find (projectId, runId, stageId) := KeyedTable.find_upsert_of_ne s.stages hk
    exact h row (hother.symm.trans hrow)

theorem withStage_recording (h : StageFits s stage) : Recording s (withStage s stage) where
  toGrowth :=
    { Growth.refl s with
      stages := by
        intro k row hrow
        by_cases hk : k = (stageRow stage).key
        · subst hk
          refine ⟨_, KeyedTable.find_upsert_self s.stages (stageRow stage), ?_⟩
          rw [hrow]
          exact ⟨rfl, rfl⟩
        · exact ⟨row, (KeyedTable.find_upsert_of_ne s.stages hk).trans hrow, rfl, rfl⟩ }
  merged _ row hrow := ⟨row, hrow, Relation.ReflTransGen.refl⟩
  sameDecisions := rfl
  coherent hs := by
    refine ⟨?_, ?_⟩
    · intro row hrow stageId hstage
      apply (hs.events row hrow stageId hstage).withStage
      rintro hproject hrun rfl
      exact h.references.events row hrow hproject hrun hstage
    · intro row hrow stageId hstage
      apply (hs.qualityResults row hrow stageId hstage).withStage
      rintro hproject hrun rfl
      exact h.references.qualityResults row hrow hproject hrun hstage

theorem ExtraGrowth.recording (h : ExtraGrowth s s') : Recording s s' where
  runs k row hrow := ⟨row, by rw [h.runs]; exact hrow⟩
  events := KeyedTable.prefix_of_eq h.events
  stages k row hrow := ⟨row, by rw [h.stages]; exact hrow, rfl, rfl⟩
  resources := h.resources
  lineageEdges := h.lineageEdges
  catalogChanges := h.catalogChanges
  qualityResults := KeyedTable.prefix_of_eq h.qualityResults
  artifacts := h.artifacts
  decisions := KeyedTable.prefix_of_eq h.decisions
  merged k row hrow := ⟨row, by rw [h.runs]; exact hrow, Relation.ReflTransGen.refl⟩
  sameDecisions := h.decisions
  coherent hs := hs.congr h.events h.qualityResults h.stages

theorem insertEvent_recording {event : RunEvent} {inserted : Bool} (h : insertEvent s event = .ok (s', inserted)) :
    Recording s s' := by
  obtain ⟨hfits, rfl, -⟩ := insertEvent_eq_ok.1 h
  exact withEvent_recording hfits

theorem insertStage_recording (h : insertStage s stage = .ok s') : Recording s s' := by
  obtain ⟨hfits, rfl⟩ := insertStage_eq_ok.1 h
  exact withStage_recording hfits

theorem insertQuality_recording {q : RunQualityResult} (h : insertQuality s q = .ok s') : Recording s s' := by
  obtain ⟨hfits, rfl⟩ := insertQuality_eq_ok.1 h
  exact withQuality_recording hfits

theorem foldlM_recording {α : Type} {f : Store → α → Except StoreError Store}
    (hf : ∀ s a s', f s a = .ok s' → Recording s s') {l : List α} (h : l.foldlM f s = .ok s') : Recording s s' :=
  foldlM_rel Recording.refl Recording.trans hf h

theorem insertDerived_recording (h : b.insertDerived s clock = .ok s') : Recording s s' := by
  simp only [EventBundle.insertDerived, bind_eq_ok] at h
  obtain ⟨s₁, h₁, s₂, h₂, s₃, h₃, s₄, h₄, s₅, h₅, h₆⟩ := h
  have hrun : Recording s (b.run.elim s (upsertRun s clock)) := by
    cases b.run with
    | none => exact Recording.refl s
    | some run => exact upsertRun_recording s clock run
  have hstage := foldlM_recording (fun _ _ _ => insertStage_recording) h₁
  have hquality := foldlM_recording (fun _ _ _ => insertQuality_recording) h₂
  have hlineage := foldlM_recording (fun _ _ _ h => (insertLineage_growth h).recording) h₃
  have hresources := foldlM_recording (fun _ _ _ h => (insertResource_growth h).recording) h₄
  have hcatalog := foldlM_recording (fun _ _ _ h => (insertCatalogChange_growth h).recording) h₅
  have hartifacts := foldlM_recording (fun _ _ _ h => (insertArtifact_growth h).recording) h₆
  exact hrun.trans (hstage.trans (hquality.trans (hlineage.trans
    (hresources.trans (hcatalog.trans hartifacts)))))

theorem appendEvent_recording {inserted : Bool} (h : appendEvent s clock b = .ok (s', inserted)) : Recording s s' := by
  obtain ⟨-, -, -, p, hparent, hfits, hcases⟩ := appendEvent_cases h
  have hp := ensureParent_recording hparent
  rcases hcases with ⟨-, -, rfl⟩ | ⟨-, -, hderived⟩
  · exact hp
  · exact hp.trans ((withEvent_recording hfits).trans (insertDerived_recording hderived))

theorem ingestObservation_recording {s₁ : Store} {o o' : RunObservation}
    (h : ingestObservation s clock o = .ok (s₁, o')) : Recording s s₁ := by
  unfold ingestObservation at h
  cases hl : o.lookupOutcome with
  | present =>
    rw [hl] at h
    cases h
    exact upsertRun_recording s clock (observedRun o)
  | absent =>
    rw [hl] at h
    cases hfind : s.runs.find (o.projectId, o.runId) with
    | none =>
      simp only [hfind] at h
      cases h
    | some row =>
      simp only [hfind] at h
      cases h
      exact Recording.refl s

theorem insertObservationRecords_rel {R : Store → Store → Prop} (hrefl : ∀ s, R s s)
    (htrans : ∀ {a b c}, R a b → R b c → R a c)
    (hevent : ∀ {s event s' inserted}, insertEvent s event = .ok (s', inserted) → R s s')
    (hstage : ∀ {s stage s'}, insertStage s stage = .ok s' → R s s') {o : RunObservation}
    (h : insertObservationRecords s o = .ok s') : R s s' := by
  unfold insertObservationRecords at h
  cases hl : o.lookupOutcome with
  | absent =>
    rw [hl] at h
    cases h
    exact hrefl s
  | present =>
    rw [hl] at h
    obtain ⟨s₁, hevents, hstages⟩ := bind_eq_ok.1 h
    refine htrans (foldlM_rel hrefl htrans (fun s event s' h => ?_) hevents)
      (foldlM_rel hrefl htrans (fun s stage s' h => ?_) hstages)
    · simp only [insertObservedEvent, bind_eq_ok] at h
      obtain ⟨-, -, -, -, ⟨t, inserted⟩, hinsert, hresult⟩ := h
      cases hresult
      exact hevent hinsert
    · simp only [insertObservedStage, bind_eq_ok] at h
      obtain ⟨-, -, -, -, hinsert⟩ := h
      exact hstage hinsert

theorem insertObservationRecords_recording {o : RunObservation} (h : insertObservationRecords s o = .ok s') :
    Recording s s' :=
  insertObservationRecords_rel Recording.refl Recording.trans insertEvent_recording insertStage_recording h

/-- Everything before the evaluation of an observation only records. -/
theorem ingest_recording {scan : Scan} {i : Ingested} (h : ingest s clock scan q = .ok i) : Recording s i.store := by
  obtain ⟨s₁, hingest, -, hrecords, -⟩ := ingest_eq_ok.1 h
  exact (ingestObservation_recording hingest).trans (insertObservationRecords_recording hrecords)

/-! ### The calls -/

/-- The run update of a new decision leaves every other table alone. -/
theorem applyDecision_frame (s : Store) (clock : Clock) (current : PipelineRunRow)
    (o : RunObservation) (d : ReconciliationDecision) :
    applyDecision s clock current o d =
      { s with runs := (applyDecision s clock current o d).runs } := by
  unfold applyDecision
  split
  · rfl
  · split
    · rfl
    · rfl

theorem restored_frame (s : Store) (i : Ingested) :
    restored s i = { i.store with runs := (restored s i).runs } := by
  unfold restored
  cases s.runs.find (i.observation.projectId, i.observation.runId) with
  | none => rfl
  | some row => rfl

theorem applyDecision_growth (s : Store) (clock : Clock) (current : PipelineRunRow)
    (o : RunObservation) (d : ReconciliationDecision) : Growth s (applyDecision s clock current o d) := by
  have hruns : ∀ k row, s.runs.find k = some row →
      ∃ row', (applyDecision s clock current o d).runs.find k = some row' := by
    intro k row h
    unfold applyDecision
    split
    · exact KeyedTable.exists_find_update (f := markReconciled clock d) (fun _ => rfl) h
    · split
      · exact KeyedTable.exists_find_update (decideRun_key clock current o d) h
      · exact ⟨row, h⟩
  rw [applyDecision_frame]
  exact { Growth.refl s with runs := hruns }

theorem restoreUpdatedAt_growth (s : Store) (projectId runId : String) (t : Timestamp) :
    Growth s (restoreUpdatedAt s projectId runId t) := by
  have hruns : ∀ k row, s.runs.find k = some row →
      ∃ row', (restoreUpdatedAt s projectId runId t).runs.find k = some row' := by
    intro k row h
    exact KeyedTable.exists_find_update (f := fun r : PipelineRunRow => { r with updatedAt := t })
      (fun _ => rfl) h
  exact { Growth.refl s with runs := hruns }

theorem restored_growth (s : Store) (i : Ingested) : Growth i.store (restored s i) := by
  unfold restored
  cases s.runs.find (i.observation.projectId, i.observation.runId) with
  | none => exact Growth.refl _
  | some row => exact restoreUpdatedAt_growth _ _ _ _

theorem reconcile_growth {scan : Scan} {r : ReconciliationDecision}
    (h : reconcileObservation s clock scan q = .ok (s', r)) : Growth s s' := by
  obtain ⟨i, d, hi, -, -, hcases⟩ := reconcile_eq_ok.1 h
  apply (ingest_recording hi).toGrowth.trans
  rcases hcases with ⟨-, -, rfl⟩ | ⟨stored, -, -, -, rfl⟩
  · have hdecision : Growth i.store (withDecision i.store d) :=
      { Growth.refl i.store with decisions := KeyedTable.rows_prefix_insertOrIgnore _ _ }
    exact hdecision.trans (applyDecision_growth _ _ _ _ _)
  · exact restored_growth s i

theorem reconcile_coherent {scan : Scan} {r : ReconciliationDecision}
    (h : reconcileObservation s clock scan q = .ok (s', r)) (hs : Coherent s) : Coherent s' := by
  obtain ⟨i, d, hi, -, -, hcases⟩ := reconcile_eq_ok.1 h
  have hi' : Coherent i.store := (ingest_recording hi).coherent hs
  rcases hcases with ⟨-, -, rfl⟩ | ⟨stored, -, -, -, rfl⟩
  · rw [applyDecision_frame]
    exact hi'.congr rfl rfl rfl
  · rw [restored_frame]
    exact hi'.congr rfl rfl rfl

/-- Every call but `reconcile_observation` only records. -/
theorem exec_cases {c : Call} (h : exec s c = .ok s') :
    Recording s s' ∨ ∃ clock scan q r, c = .reconcileObservation clock scan q ∧
      reconcileObservation s clock scan q = .ok (s', r) := by
  cases c with
  | appendPipelineRun clock run =>
    obtain ⟨rfl, -⟩ := commit_eq_ok.1 h
    exact Or.inl (upsertRun_recording s clock run)
  | appendEvent clock b =>
    obtain ⟨⟨t, inserted⟩, ht, rfl⟩ := map_eq_ok.1 h
    exact Or.inl (appendEvent_recording ht)
  | appendStage stage =>
    obtain ⟨-, hinsert, -⟩ := insertion_eq_ok.1 h
    exact Or.inl (insertStage_recording hinsert)
  | appendResource r =>
    obtain ⟨-, hinsert, -⟩ := insertion_eq_ok.1 h
    exact Or.inl (insertResource_growth hinsert).recording
  | appendLineageEdge e =>
    obtain ⟨-, hinsert, -⟩ := insertion_eq_ok.1 h
    exact Or.inl (insertLineage_growth hinsert).recording
  | appendQualityResult q =>
    obtain ⟨-, hinsert, -⟩ := insertion_eq_ok.1 h
    exact Or.inl (insertQuality_recording hinsert)
  | appendCatalogChange change =>
    obtain ⟨-, hinsert, -⟩ := insertion_eq_ok.1 h
    exact Or.inl (insertCatalogChange_growth hinsert).recording
  | appendArtifact a =>
    obtain ⟨-, hinsert, -⟩ := insertion_eq_ok.1 h
    exact Or.inl (insertArtifact_growth hinsert).recording
  | reconcileObservation clock scan q =>
    obtain ⟨⟨t, r⟩, ht, rfl⟩ := map_eq_ok.1 h
    exact Or.inr ⟨clock, scan, q, r, rfl, ht⟩

theorem exec_growth {c : Call} (h : exec s c = .ok s') : Growth s s' := by
  rcases exec_cases h with hrec | ⟨clock, scan, q, r, -, hrec⟩
  · exact hrec.toGrowth
  · exact reconcile_growth hrec

theorem exec_coherent {c : Call} (h : exec s c = .ok s') (hs : Coherent s) : Coherent s' := by
  rcases exec_cases h with hrec | ⟨clock, scan, q, r, -, hrec⟩
  · exact hrec.coherent hs
  · exact reconcile_coherent hrec hs

end Phlo.RunEvidence
