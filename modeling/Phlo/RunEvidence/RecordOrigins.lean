import Phlo.Library.StateView
import Phlo.RunEvidence.ExactlyOnce

/-!
# Where the rows of the immutable tables come from

* `reachable_wellRecorded` — in every reachable store, each row of the five immutable tables is the row
  of some record with a non-empty identifier, in a run that exists.

The run exists because a record is written under the lock of its run, or with an event of its run whose
parent has just been ensured; rows of runs are never deleted.
-/

namespace Phlo.RunEvidence

open Phlo.Library

/-- The run of a record exists, and its identifier is not blank. -/
structure Admitted (runs : KeyedTable PipelineRunRow.key) (projectId runId recordId : String) :
    Prop where
  recordId : isBlank recordId = false
  run : (runs.find (projectId, runId)).isSome = true

/-- Every row of a table is the row of a record that satisfies `Ok`. -/
def RowsOf {α ρ : Type} {key : α → String × String × String} (t : KeyedTable key) (row : ρ → α)
    (Ok : ρ → Prop) : Prop := ∀ a ∈ t.rows, ∃ r, Ok r ∧ row r = a

theorem RowsOf.insertOrIgnore {α ρ : Type} {key : α → String × String × String} {t : KeyedTable key}
    {row : ρ → α} {Ok : ρ → Prop} (h : RowsOf t row Ok) {r : ρ} (hr : Ok r) :
    RowsOf (t.insertOrIgnore (row r)).1 row Ok := by
  intro a ha
  rcases (KeyedTable.mem_insertOrIgnore t (row r) a).1 ha with ha | ⟨-, rfl⟩
  · exact h a ha
  · exact ⟨r, hr, rfl⟩

theorem RowsOf.imp {α ρ : Type} {key : α → String × String × String} {t : KeyedTable key}
    {row : ρ → α} {Ok Ok' : ρ → Prop} (h : RowsOf t row Ok) (himp : ∀ r, Ok r → Ok' r) : RowsOf t row Ok' := by
  intro a ha
  obtain ⟨r, hr, hrow⟩ := h a ha
  exact ⟨r, himp r hr, hrow⟩

/-- Every row of the immutable tables was written for a record. -/
structure WellRecorded (s : Store) : Prop where
  resources : RowsOf s.resources resourceRow fun r =>
    Admitted s.runs r.projectId r.runId r.resourceId
  lineageEdges : RowsOf s.lineageEdges lineageEdgeRow fun e =>
    Admitted s.runs e.projectId e.runId e.lineageEdgeId
  qualityResults : RowsOf s.qualityResults qualityResultRow fun q =>
    Admitted s.runs q.projectId q.runId q.qualityResultId
  catalogChanges : RowsOf s.catalogChanges catalogChangeRow fun c =>
    Admitted s.runs c.projectId c.runId c.catalogChangeId
  artifacts : RowsOf s.artifacts artifactRow fun a =>
    Admitted s.runs a.projectId a.runId a.artifactId

theorem wellRecorded_empty : WellRecorded Store.empty where
  resources _ h := by cases h
  lineageEdges _ h := by cases h
  qualityResults _ h := by cases h
  catalogChanges _ h := by cases h
  artifacts _ h := by cases h

/-! ### Writes of other tables -/

/-- The immutable tables stay, and no run is lost. -/
structure KeepsRecords (s s' : Store) : Prop where
  runs : ∀ k, (s.runs.find k).isSome = true → (s'.runs.find k).isSome = true
  resources : s'.resources = s.resources
  lineageEdges : s'.lineageEdges = s.lineageEdges
  qualityResults : s'.qualityResults = s.qualityResults
  catalogChanges : s'.catalogChanges = s.catalogChanges
  artifacts : s'.artifacts = s.artifacts

theorem KeepsRecords.refl (s : Store) : KeepsRecords s s := ⟨fun _ h => h, rfl, rfl, rfl, rfl, rfl⟩

theorem KeepsRecords.trans {a b c : Store} (hab : KeepsRecords a b) (hbc : KeepsRecords b c) : KeepsRecords a c where
  runs k h := hbc.runs k (hab.runs k h)
  resources := hbc.resources.trans hab.resources
  lineageEdges := hbc.lineageEdges.trans hab.lineageEdges
  qualityResults := hbc.qualityResults.trans hab.qualityResults
  catalogChanges := hbc.catalogChanges.trans hab.catalogChanges
  artifacts := hbc.artifacts.trans hab.artifacts

theorem Growth.isSome_run {s s' : Store} (h : Growth s s') (k : String × String)
    (hk : (s.runs.find k).isSome = true) : (s'.runs.find k).isSome = true := by
  obtain ⟨row, hrow⟩ := Option.isSome_iff_exists.1 hk
  obtain ⟨row', hrow'⟩ := h.runs k row hrow
  rw [hrow']
  rfl

/-- A write that grows the store and only touches runs, events, stages and decisions. -/
theorem Growth.keepsRecords {s s' : Store} (h : Growth s s') (hs' : s' =
    { s with
      runs := s'.runs, events := s'.events, stages := s'.stages, decisions := s'.decisions }) :
    KeepsRecords s s' where
  runs := h.isSome_run
  resources := by rw [hs']
  lineageEdges := by rw [hs']
  qualityResults := by rw [hs']
  catalogChanges := by rw [hs']
  artifacts := by rw [hs']

theorem WellRecorded.keeps {s s' : Store} (h : WellRecorded s) (hs : KeepsRecords s s') : WellRecorded s' := by
  have hadmits : ∀ projectId runId recordId, Admitted s.runs projectId runId recordId →
      Admitted s'.runs projectId runId recordId := by
    intro projectId runId recordId ha
    exact ⟨ha.recordId, hs.runs _ ha.run⟩
  refine ⟨?_, ?_, ?_, ?_, ?_⟩
  · rw [hs.resources]
    exact h.resources.imp fun _ => hadmits _ _ _
  · rw [hs.lineageEdges]
    exact h.lineageEdges.imp fun _ => hadmits _ _ _
  · rw [hs.qualityResults]
    exact h.qualityResults.imp fun _ => hadmits _ _ _
  · rw [hs.catalogChanges]
    exact h.catalogChanges.imp fun _ => hadmits _ _ _
  · rw [hs.artifacts]
    exact h.artifacts.imp fun _ => hadmits _ _ _

theorem upsertRun_keepsRecords (s : Store) (clock : Clock) (run : PipelineRun) :
    KeepsRecords s (upsertRun s clock run) :=
  (upsertRun_recording s clock run).toGrowth.keepsRecords rfl

theorem insertStage_keepsRecords {s s' : Store} {stage : RunStage} (h : insertStage s stage = .ok s') :
    KeepsRecords s s' := by
  have hgrowth := (insertStage_recording h).toGrowth
  obtain ⟨-, rfl⟩ := insertStage_eq_ok.1 h
  exact hgrowth.keepsRecords rfl

theorem insertEvent_keepsRecords {s s' : Store} {event : RunEvent} {inserted : Bool}
    (h : insertEvent s event = .ok (s', inserted)) : KeepsRecords s s' := by
  have hgrowth := (insertEvent_recording h).toGrowth
  obtain ⟨-, rfl, -⟩ := insertEvent_eq_ok.1 h
  exact hgrowth.keepsRecords rfl

variable {clock : Clock}

theorem ingestObservation_keepsRecords {s s₁ : Store} {o o' : RunObservation}
    (h : ingestObservation s clock o = .ok (s₁, o')) : KeepsRecords s s₁ := by
  unfold ingestObservation at h
  cases hl : o.lookupOutcome with
  | present =>
    rw [hl] at h
    cases h
    exact upsertRun_keepsRecords s clock (observedRun o)
  | absent =>
    rw [hl] at h
    cases hfind : s.runs.find (o.projectId, o.runId) with
    | none =>
      simp only [hfind] at h
      cases h
    | some row =>
      simp only [hfind] at h
      cases h
      exact KeepsRecords.refl s

theorem insertObservationRecords_keepsRecords {s s' : Store} {o : RunObservation}
    (h : insertObservationRecords s o = .ok s') : KeepsRecords s s' :=
  insertObservationRecords_rel KeepsRecords.refl KeepsRecords.trans insertEvent_keepsRecords
    insertStage_keepsRecords h

theorem reconcile_keepsRecords {s s' : Store} {scan : Scan} {q : ReconcileRequest} {r : ReconciliationDecision}
    (h : reconcileObservation s clock scan q = .ok (s', r)) : KeepsRecords s s' := by
  obtain ⟨i, d, hi, -, -, hcases⟩ := reconcile_eq_ok.1 h
  obtain ⟨s₁, hingest, -, hrecords, -⟩ := ingest_eq_ok.1 hi
  apply (ingestObservation_keepsRecords hingest).trans
  apply (insertObservationRecords_keepsRecords hrecords).trans
  rcases hcases with ⟨-, -, rfl⟩ | ⟨stored, -, -, -, rfl⟩
  · have hdecision : KeepsRecords i.store (withDecision i.store d) :=
      ⟨fun _ h => h, rfl, rfl, rfl, rfl, rfl⟩
    apply hdecision.trans
    apply (applyDecision_growth _ _ _ _ _).keepsRecords
    rw [applyDecision_frame]
  · apply (restored_growth s i).keepsRecords
    rw [restored_frame]

/-! ### Writes of the immutable tables -/

section Insert

variable {s s' : Store} (hs : WellRecorded s)

include hs

theorem insertResource_wellRecorded {r : RunResource}
    (hrun : (s.runs.find (r.projectId, r.runId)).isSome = true) (h : insertResource s r = .ok s') :
    WellRecorded s' := by
  simp only [insertResource, bind_eq_ok, requireId_eq_ok, insertImmutable_eq_ok] at h
  obtain ⟨-, hid, t, ⟨rfl, -⟩, hresult⟩ := h
  cases hresult
  exact { hs with resources := hs.resources.insertOrIgnore (r := r) ⟨hid, hrun⟩ }

theorem insertLineage_wellRecorded {e : RunLineageEdge}
    (hrun : (s.runs.find (e.projectId, e.runId)).isSome = true) (h : insertLineage s e = .ok s') :
    WellRecorded s' := by
  simp only [insertLineage, bind_eq_ok, requireId_eq_ok, insertImmutable_eq_ok] at h
  obtain ⟨-, hid, t, ⟨rfl, -⟩, hresult⟩ := h
  cases hresult
  exact { hs with lineageEdges := hs.lineageEdges.insertOrIgnore (r := e) ⟨hid, hrun⟩ }

theorem insertQuality_wellRecorded {q : RunQualityResult}
    (hrun : (s.runs.find (q.projectId, q.runId)).isSome = true) (h : insertQuality s q = .ok s') :
    WellRecorded s' := by
  obtain ⟨hfits, rfl⟩ := insertQuality_eq_ok.1 h
  have hadmits : Admitted s.runs q.projectId q.runId q.qualityResultId := ⟨hfits.qualityResultId, hrun⟩
  exact { hs with qualityResults := hs.qualityResults.insertOrIgnore hadmits }

theorem insertCatalogChange_wellRecorded {c : RunCatalogChange}
    (hrun : (s.runs.find (c.projectId, c.runId)).isSome = true)
    (h : insertCatalogChange s c = .ok s') : WellRecorded s' := by
  simp only [insertCatalogChange, bind_eq_ok, requireId_eq_ok, insertImmutable_eq_ok] at h
  obtain ⟨-, hid, t, ⟨rfl, -⟩, hresult⟩ := h
  cases hresult
  exact { hs with catalogChanges := hs.catalogChanges.insertOrIgnore (r := c) ⟨hid, hrun⟩ }

theorem insertArtifact_wellRecorded {a : RunArtifact}
    (hrun : (s.runs.find (a.projectId, a.runId)).isSome = true) (h : insertArtifact s a = .ok s') :
    WellRecorded s' := by
  simp only [insertArtifact, bind_eq_ok, requireId_eq_ok, insertImmutable_eq_ok] at h
  obtain ⟨-, hid, t, ⟨rfl, -⟩, hresult⟩ := h
  cases hresult
  exact { hs with artifacts := hs.artifacts.insertOrIgnore (r := a) ⟨hid, hrun⟩ }

end Insert

namespace EventBundle

variable {b : EventBundle}

/-- Every record of the bundle belongs to the run of the event. -/
structure WithinRun (b : EventBundle) : Prop where
  qualityResult : ∀ q ∈ b.qualityResult, q.projectId = b.event.projectId ∧ q.runId = b.event.runId
  lineageEdges : ∀ e ∈ b.lineageEdges, e.projectId = b.event.projectId ∧ e.runId = b.event.runId
  resources : ∀ r ∈ b.resources, r.projectId = b.event.projectId ∧ r.runId = b.event.runId
  catalogChange : ∀ c ∈ b.catalogChange, c.projectId = b.event.projectId ∧ c.runId = b.event.runId
  artifacts : ∀ a ∈ b.artifacts, a.projectId = b.event.projectId ∧ a.runId = b.event.runId

theorem withinRun_of_validateInputs {u : Unit} (h : b.validateInputs = .ok u) : b.WithinRun := by
  simp only [validateInputs, bind_eq_ok, optionForM_eq_ok, listForM_eq_ok] at h
  obtain ⟨-, -, -, -, -, -, -, -, -, -, -, -, -, hquality, -, -, -, hlineage, -, hresources, -, hcatalog,
    hartifacts⟩ := h
  have hsame : ∀ {label projectId runId : String} {attempt : ℕ} {objectId : Option String},
      b.validateObject label projectId runId attempt objectId = .ok () →
        projectId = b.event.projectId ∧ runId = b.event.runId := by
    intro label projectId runId attempt objectId h
    obtain ⟨hproject, hrun, -⟩ := b.validateObject_eq_ok h
    exact ⟨hproject, hrun⟩
  exact ⟨fun q hq => hsame (hquality q hq), fun e he => hsame (hlineage e he),
    fun r hr => hsame (hresources r hr), fun c hc => hsame (hcatalog c hc),
    fun a ha => hsame (hartifacts a ha)⟩

/-- The records written so far have origins, and the run of the event exists. -/
structure Parented (b : EventBundle) (s : Store) : Prop where
  wellRecorded : WellRecorded s
  run : (s.runs.find (b.event.projectId, b.event.runId)).isSome = true

theorem Parented.run_of {s : Store} (h : b.Parented s) {projectId runId : String}
    (hr : projectId = b.event.projectId ∧ runId = b.event.runId) :
    (s.runs.find (projectId, runId)).isSome = true := by
  obtain ⟨rfl, rfl⟩ := hr
  exact h.run

theorem Parented.keeps {s s' : Store} (h : b.Parented s) (hs : KeepsRecords s s') : b.Parented s' :=
  ⟨h.wellRecorded.keeps hs, hs.runs _ h.run⟩

theorem insertDerived_parented {s s' : Store} (hb : b.WithinRun) (hs : b.Parented s)
    (h : b.insertDerived s clock = .ok s') : b.Parented s' := by
  simp only [insertDerived, bind_eq_ok] at h
  obtain ⟨s₁, h₁, s₂, h₂, s₃, h₃, s₄, h₄, s₅, h₅, h₆⟩ := h
  have hloop : ∀ {α : Type} {f : Store → α → Except StoreError Store} {l : List α} {s s' : Store},
      (∀ s s', ∀ a ∈ l, f s a = .ok s' → b.Parented s → b.Parented s') → l.foldlM f s = .ok s' →
        b.Parented s → b.Parented s' := by
    intro α f l s s' hf hrun
    exact foldlM_rel_of_mem (R := fun s s' => b.Parented s → b.Parented s') (fun _ h => h)
      (fun hab hbc h => hbc (hab h)) hf hrun
  have hrun : KeepsRecords s (b.run.elim s (upsertRun s clock)) := by
    cases b.run with
    | none => exact KeepsRecords.refl s
    | some run => exact upsertRun_keepsRecords s clock run
  have hs₁ : b.Parented s₁ := (hs.keeps hrun).keeps
    (foldlM_rel KeepsRecords.refl KeepsRecords.trans (fun _ _ _ => insertStage_keepsRecords) h₁)
  have hs₂ : b.Parented s₂ := by
    refine hloop (fun s s' q hq h hs => ?_) h₂ hs₁
    exact ⟨insertQuality_wellRecorded hs.wellRecorded
      (hs.run_of (hb.qualityResult q (Option.mem_toList.1 hq))) h,
      (insertQuality_recording h).isSome_run _ hs.run⟩
  have hs₃ : b.Parented s₃ := by
    refine hloop (fun s s' e he h hs => ?_) h₃ hs₂
    exact ⟨insertLineage_wellRecorded hs.wellRecorded (hs.run_of (hb.lineageEdges e he)) h,
      (insertLineage_growth h).recording.isSome_run _ hs.run⟩
  have hs₄ : b.Parented s₄ := by
    refine hloop (fun s s' r hr h hs => ?_) h₄ hs₃
    exact ⟨insertResource_wellRecorded hs.wellRecorded (hs.run_of (hb.resources r hr)) h,
      (insertResource_growth h).recording.isSome_run _ hs.run⟩
  have hs₅ : b.Parented s₅ := by
    refine hloop (fun s s' c hc h hs => ?_) h₅ hs₄
    exact ⟨insertCatalogChange_wellRecorded hs.wellRecorded
      (hs.run_of (hb.catalogChange c (Option.mem_toList.1 hc))) h,
      (insertCatalogChange_growth h).recording.isSome_run _ hs.run⟩
  refine hloop (fun s s' a ha h hs => ?_) h₆ hs₅
  exact ⟨insertArtifact_wellRecorded hs.wellRecorded (hs.run_of (hb.artifacts a ha)) h,
    (insertArtifact_growth h).recording.isSome_run _ hs.run⟩

end EventBundle

theorem appendEvent_wellRecorded {s s' : Store} {b : EventBundle} {inserted : Bool} (hs : WellRecorded s)
    (h : appendEvent s clock b = .ok (s', inserted)) : WellRecorded s' := by
  obtain ⟨hvalid, -, -, p, hparent, hfits, hcases⟩ := appendEvent_cases h
  have hkeeps : KeepsRecords s p := by
    apply (ensureParent_recording hparent).toGrowth.keepsRecords
    rw [b.ensureParent_frame hparent]
  rcases hcases with ⟨-, -, rfl⟩ | ⟨-, -, hderived⟩
  · exact hs.keeps hkeeps
  · have hrun : (p.runs.find (b.event.projectId, b.event.runId)).isSome = true := by
      rcases b.ensureParent_cases hparent with ⟨hrun, rfl⟩ | ⟨-, run, -, rfl⟩
      · exact hrun
      · have hself := KeyedTable.find_insertOrIgnore_self s.runs (b.placeholder clock run)
        exact Option.isSome_iff_exists.2 ⟨_, hself⟩
    have hevent : KeepsRecords p (withEvent p b.event) :=
      (withEvent_recording hfits).toGrowth.keepsRecords rfl
    have hstart : b.Parented p := ⟨hs.keeps hkeeps, hrun⟩
    exact (EventBundle.insertDerived_parented (EventBundle.withinRun_of_validateInputs hvalid)
      (hstart.keeps hevent) hderived).wellRecorded

/-! ### The calls -/

theorem exec_wellRecorded {s s' : Store} {c : Call} (hs : WellRecorded s) (h : exec s c = .ok s') :
    WellRecorded s' := by
  cases c with
  | appendPipelineRun clock run =>
    obtain ⟨rfl, -⟩ := commit_eq_ok.1 h
    exact hs.keeps (upsertRun_keepsRecords s clock run)
  | appendEvent clock b =>
    obtain ⟨⟨t, inserted⟩, ht, rfl⟩ := map_eq_ok.1 h
    exact appendEvent_wellRecorded hs ht
  | reconcileObservation clock scan q =>
    obtain ⟨⟨t, r⟩, ht, rfl⟩ := map_eq_ok.1 h
    exact hs.keeps (reconcile_keepsRecords ht)
  | appendStage stage =>
    obtain ⟨-, hinsert, -⟩ := insertion_eq_ok.1 h
    exact hs.keeps (insertStage_keepsRecords hinsert)
  | appendResource r =>
    obtain ⟨hrun, hinsert, -⟩ := insertion_eq_ok.1 h
    exact insertResource_wellRecorded hs hrun hinsert
  | appendLineageEdge e =>
    obtain ⟨hrun, hinsert, -⟩ := insertion_eq_ok.1 h
    exact insertLineage_wellRecorded hs hrun hinsert
  | appendQualityResult q =>
    obtain ⟨hrun, hinsert, -⟩ := insertion_eq_ok.1 h
    exact insertQuality_wellRecorded hs hrun hinsert
  | appendCatalogChange change =>
    obtain ⟨hrun, hinsert, -⟩ := insertion_eq_ok.1 h
    exact insertCatalogChange_wellRecorded hs hrun hinsert
  | appendArtifact a =>
    obtain ⟨hrun, hinsert, -⟩ := insertion_eq_ok.1 h
    exact insertArtifact_wellRecorded hs hrun hinsert

/-- Every stored record was written under its identifier in a run that exists. -/
theorem reachable_wellRecorded {s : Store} (h : ReachableStore s) : WellRecorded s := by
  refine h.invariant wellRecorded_empty ?_
  intro s c hs
  exact step_of_exec (P := fun s s' => WellRecorded s → WellRecorded s') (fun _ h => h)
    (fun _ _ _ hexec hs => exec_wellRecorded hs hexec) s c hs

end Phlo.RunEvidence
