import Phlo.Library.StateView
import Phlo.RunEvidence.Store.Effects

/-!
# The store as some projects see it

`Store.restrict q` keeps the rows of the projects that satisfy `q`.  A write for such a project does
on the restricted store what it does on the whole one, and a write for another project does not show.
-/

namespace Phlo.RunEvidence

open Phlo.Library

/-- The rows of the projects that satisfy `q`. -/
def Store.restrict (s : Store) (q : String → Bool) : Store where
  runs := s.runs.restrict fun k => q k.1
  events := s.events.restrict fun k => q k.1
  stages := s.stages.restrict fun k => q k.1
  resources := s.resources.restrict fun k => q k.1
  lineageEdges := s.lineageEdges.restrict fun k => q k.1
  catalogChanges := s.catalogChanges.restrict fun k => q k.1
  qualityResults := s.qualityResults.restrict fun k => q k.1
  artifacts := s.artifacts.restrict fun k => q k.1
  decisions := s.decisions.restrict fun k => q k.1

variable {q : String → Bool} {s : Store} {projectId runId stageId : String}

/-! ### Reads of a project inside -/

theorem lockRun_restrict (hq : q projectId = true) :
    lockRun (s.restrict q) projectId runId = lockRun s projectId runId := by
  have hfind : (s.restrict q).runs.find (projectId, runId) = s.runs.find (projectId, runId) :=
    KeyedTable.find_restrict s.runs hq
  unfold lockRun
  rw [hfind]

theorem validateExistingStageAttempt_restrict (hq : q projectId = true) {attempt : ℕ}
    {mismatch : String → StoreError} :
    validateExistingStageAttempt (s.restrict q) projectId runId stageId attempt mismatch =
      validateExistingStageAttempt s projectId runId stageId attempt mismatch := by
  have hfind : (s.restrict q).stages.find (projectId, runId, stageId) =
      s.stages.find (projectId, runId, stageId) := KeyedTable.find_restrict s.stages hq
  unfold validateExistingStageAttempt
  rw [hfind]

theorem eventAttempts_restrict (hq : q projectId = true) : eventAttempts (s.restrict q) projectId runId stageId =
      eventAttempts s projectId runId stageId := by
  apply congrArg (List.map EventRow.attempt)
  apply KeyedTable.filter_restrict
  intro row hrow
  simp only [Bool.and_eq_true, beq_iff_eq] at hrow
  show q row.projectId = true
  rw [hrow.1.1]
  exact hq

theorem qualityAttempts_restrict (hq : q projectId = true) : qualityAttempts (s.restrict q) projectId runId stageId =
      qualityAttempts s projectId runId stageId := by
  apply congrArg (List.map QualityResultRow.attempt)
  apply KeyedTable.filter_restrict
  intro row hrow
  simp only [Bool.and_eq_true, beq_iff_eq] at hrow
  show q row.projectId = true
  rw [hrow.1.1]
  exact hq

variable {stage : RunStage}

theorem validateStageWriteReferences_restrict (hq : q stage.projectId = true) :
    validateStageWriteReferences (s.restrict q) stage = validateStageWriteReferences s stage := by
  unfold validateStageWriteReferences
  rw [validateExistingStageAttempt_restrict hq, eventAttempts_restrict hq, qualityAttempts_restrict hq]

/-! ### Writes for a project inside -/

theorem insertEvent_restrict {event : RunEvent} (hq : q event.projectId = true) : insertEvent (s.restrict q) event =
      (insertEvent s event).map fun p => (p.1.restrict q, p.2) := by
  have hinsert : (s.restrict q).events.insertOrIgnore (eventRow event) =
      ((s.events.insertOrIgnore (eventRow event)).1.restrict fun k => q k.1,
        (s.events.insertOrIgnore (eventRow event)).2) :=
    KeyedTable.insertOrIgnore_restrict s.events hq
  refine check_view rfl fun _ _ => check_view rfl fun _ _ => ?_
  dsimp only
  rw [hinsert]
  obtain ⟨events, inserted⟩ := s.events.insertOrIgnore (eventRow event)
  have hfind : (events.restrict fun k => q k.1).find (eventRow event).key =
      events.find (eventRow event).key := KeyedTable.find_restrict events hq
  simp only [hfind]
  refine check_view rfl fun _ _ => check_view rfl fun _ _ => check_view ?_ fun _ _ => rfl
  cases event.stageId with
  | none => rfl
  | some stageId =>
    exact validateExistingStageAttempt_restrict (s := { s with events := events }) hq

theorem insertStage_restrict (hq : q stage.projectId = true) :
    insertStage (s.restrict q) stage = (insertStage s stage).map fun t => t.restrict q := by
  have hinsert : (s.restrict q).stages.insertOrIgnore (stageRow stage) =
      ((s.stages.insertOrIgnore (stageRow stage)).1.restrict fun k => q k.1,
        (s.stages.insertOrIgnore (stageRow stage)).2) :=
    KeyedTable.insertOrIgnore_restrict s.stages hq
  refine check_view rfl fun _ _ => check_view (validateStageWriteReferences_restrict hq) fun _ _ => ?_
  dsimp only
  rw [hinsert]
  obtain ⟨stages, inserted⟩ := s.stages.insertOrIgnore (stageRow stage)
  have hfind : (stages.restrict fun k => q k.1).find (stageRow stage).key =
      stages.find (stageRow stage).key := KeyedTable.find_restrict stages hq
  have hupdate : (stages.restrict fun k => q k.1).update (stageRow stage).key (updateStage stage)
      (updateStage_key stage) =
        (stages.update (stageRow stage).key (updateStage stage) (updateStage_key stage)).restrict
          fun k => q k.1 := KeyedTable.update_restrict stages _
  simp only [hfind, hupdate]
  cases inserted with
  | true => rfl
  | false => exact check_view rfl fun _ _ => rfl

theorem insertImmutable_restrict {α : Type} {key : α → String × String × String}
    {checksum : α → Sha256} {table : String} (t : KeyedTable key) {row : α} (hq : q (key row).1 = true) :
    insertImmutable checksum table (t.restrict fun k => q k.1) row =
      (insertImmutable checksum table t row).map fun t => t.restrict fun k => q k.1 := by
  unfold insertImmutable
  rw [KeyedTable.insertOrIgnore_restrict t hq]
  obtain ⟨u, inserted⟩ := t.insertOrIgnore row
  have hfind : (u.restrict fun k => q k.1).find (key row) = u.find (key row) :=
    KeyedTable.find_restrict u hq
  cases inserted with
  | true => rfl
  | false =>
    simp only [hfind]
    exact check_view rfl fun _ _ => rfl

theorem insertResource_restrict {r : RunResource} (hq : q r.projectId = true) :
    insertResource (s.restrict q) r = (insertResource s r).map fun t => t.restrict q :=
  check_view rfl fun _ _ => bind_view (insertImmutable_restrict s.resources hq) fun _ _ => rfl

theorem insertLineage_restrict {e : RunLineageEdge} (hq : q e.projectId = true) :
    insertLineage (s.restrict q) e = (insertLineage s e).map fun t => t.restrict q :=
  check_view rfl fun _ _ => bind_view (insertImmutable_restrict s.lineageEdges hq) fun _ _ => rfl

theorem insertCatalogChange_restrict {c : RunCatalogChange} (hq : q c.projectId = true) :
    insertCatalogChange (s.restrict q) c = (insertCatalogChange s c).map fun t => t.restrict q :=
  check_view rfl fun _ _ => bind_view (insertImmutable_restrict s.catalogChanges hq) fun _ _ => rfl

theorem insertArtifact_restrict {a : RunArtifact} (hq : q a.projectId = true) :
    insertArtifact (s.restrict q) a = (insertArtifact s a).map fun t => t.restrict q :=
  check_view rfl fun _ _ => bind_view (insertImmutable_restrict s.artifacts hq) fun _ _ => rfl

theorem insertQuality_restrict {r : RunQualityResult} (hq : q r.projectId = true) :
    insertQuality (s.restrict q) r = (insertQuality s r).map fun t => t.restrict q := by
  refine check_view rfl fun _ _ => check_view ?_ fun _ _ =>
    bind_view (insertImmutable_restrict s.qualityResults hq) fun _ _ => rfl
  cases r.stageId with
  | none => rfl
  | some stageId => exact validateExistingStageAttempt_restrict hq

theorem upsertRun_restrict {run : PipelineRun} (clock : Clock) (hq : q run.projectId = true) :
    upsertRun (s.restrict q) clock run = (upsertRun s clock run).restrict q := by
  have hupsert : (s.restrict q).runs.upsert (runRow clock run) (mergeRun clock (runRow clock run))
      (mergeRun_key clock (runRow clock run)) =
        (s.runs.upsert (runRow clock run) (mergeRun clock (runRow clock run))
          (mergeRun_key clock (runRow clock run))).restrict fun k => q k.1 :=
    KeyedTable.upsert_restrict s.runs hq
  unfold upsertRun
  simp only [hupsert]
  rfl

/-! ### Writes for a project outside -/

variable {t : Store}

theorem restrict_insertEvent {event : RunEvent} {inserted : Bool} (hq : q event.projectId = false)
    (h : insertEvent s event = .ok (t, inserted)) : t.restrict q = s.restrict q := by
  obtain ⟨-, rfl, -⟩ := insertEvent_eq_ok.1 h
  have hevents : (s.events.insertOrIgnore (eventRow event)).1.restrict (fun k => q k.1) =
      s.events.restrict fun k => q k.1 := KeyedTable.restrict_insertOrIgnore s.events hq
  simp only [Store.restrict, withEvent, hevents]

theorem restrict_insertStage (hq : q stage.projectId = false) (h : insertStage s stage = .ok t) :
    t.restrict q = s.restrict q := by
  obtain ⟨-, rfl⟩ := insertStage_eq_ok.1 h
  have hstages : (s.stages.upsert (stageRow stage) (updateStage stage)
      (updateStage_key stage)).restrict (fun k => q k.1) = s.stages.restrict fun k => q k.1 :=
    KeyedTable.restrict_upsert s.stages hq
  simp only [Store.restrict, withStage, hstages]

theorem restrict_insertImmutable {α : Type} {key : α → String × String × String}
    {checksum : α → Sha256} {table : String} {t t' : KeyedTable key} {row : α}
    (hq : q (key row).1 = false) (h : insertImmutable checksum table t row = .ok t') :
    (t'.restrict fun k => q k.1) = t.restrict fun k => q k.1 := by
  obtain ⟨rfl, -⟩ := insertImmutable_eq_ok.1 h
  exact KeyedTable.restrict_insertOrIgnore t hq

theorem restrict_insertResource {r : RunResource} (hq : q r.projectId = false) (h : insertResource s r = .ok t) :
    t.restrict q = s.restrict q := by
  simp only [insertResource, bind_eq_ok] at h
  obtain ⟨-, -, resources, hinsert, hresult⟩ := h
  cases hresult
  simp only [Store.restrict, restrict_insertImmutable (q := q) hq hinsert]

theorem restrict_insertLineage {e : RunLineageEdge} (hq : q e.projectId = false) (h : insertLineage s e = .ok t) :
    t.restrict q = s.restrict q := by
  simp only [insertLineage, bind_eq_ok] at h
  obtain ⟨-, -, edges, hinsert, hresult⟩ := h
  cases hresult
  simp only [Store.restrict, restrict_insertImmutable (q := q) hq hinsert]

theorem restrict_insertCatalogChange {c : RunCatalogChange} (hq : q c.projectId = false)
    (h : insertCatalogChange s c = .ok t) : t.restrict q = s.restrict q := by
  simp only [insertCatalogChange, bind_eq_ok] at h
  obtain ⟨-, -, changes, hinsert, hresult⟩ := h
  cases hresult
  simp only [Store.restrict, restrict_insertImmutable (q := q) hq hinsert]

theorem restrict_insertArtifact {a : RunArtifact} (hq : q a.projectId = false) (h : insertArtifact s a = .ok t) :
    t.restrict q = s.restrict q := by
  simp only [insertArtifact, bind_eq_ok] at h
  obtain ⟨-, -, artifacts, hinsert, hresult⟩ := h
  cases hresult
  simp only [Store.restrict, restrict_insertImmutable (q := q) hq hinsert]

theorem restrict_insertQuality {r : RunQualityResult} (hq : q r.projectId = false) (h : insertQuality s r = .ok t) :
    t.restrict q = s.restrict q := by
  simp only [insertQuality, bind_eq_ok] at h
  obtain ⟨-, -, -, -, results, hinsert, hresult⟩ := h
  cases hresult
  simp only [Store.restrict, restrict_insertImmutable (q := q) hq hinsert]

theorem restrict_upsertRun (clock : Clock) {run : PipelineRun} (hq : q run.projectId = false) :
    (upsertRun s clock run).restrict q = s.restrict q := by
  have hruns : (s.runs.upsert (runRow clock run) (mergeRun clock (runRow clock run))
      (mergeRun_key clock (runRow clock run))).restrict (fun k => q k.1) =
        s.runs.restrict fun k => q k.1 := KeyedTable.restrict_upsert s.runs hq
  simp only [Store.restrict, upsertRun, hruns]

/-! ### Event bundles -/

namespace EventBundle

/-- Every record of the bundle belongs to the project of its event. -/
structure WithinProject (b : EventBundle) : Prop where
  run : ∀ r ∈ b.run, r.projectId = b.event.projectId
  stage : ∀ r ∈ b.stage, r.projectId = b.event.projectId
  qualityResult : ∀ r ∈ b.qualityResult, r.projectId = b.event.projectId
  lineageEdges : ∀ r ∈ b.lineageEdges, r.projectId = b.event.projectId
  resources : ∀ r ∈ b.resources, r.projectId = b.event.projectId
  catalogChange : ∀ r ∈ b.catalogChange, r.projectId = b.event.projectId
  artifacts : ∀ r ∈ b.artifacts, r.projectId = b.event.projectId

variable {b : EventBundle}

theorem project_of_validateObject {label : String} {attempt : ℕ} {objectId : Option String} {u : Unit}
    (h : b.validateObject label projectId runId attempt objectId = .ok u) : projectId = b.event.projectId := by
  simp only [validateObject, bind_eq_ok, require_eq_ok] at h
  obtain ⟨-, hsame, -⟩ := h
  exact hsame.1

theorem withinProject_of_validateInputs {u : Unit} (h : b.validateInputs = .ok u) : b.WithinProject := by
  simp only [validateInputs, bind_eq_ok, optionForM_eq_ok, listForM_eq_ok] at h
  obtain ⟨-, -, -, -, -, -, -, -, -, hrun, -, hstage, -, hquality, -, -, -, hedges, -, hresources, -,
    hchange, hartifacts⟩ := h
  exact ⟨fun r hr => project_of_validateObject (hrun r hr),
    fun r hr => project_of_validateObject (hstage r hr),
    fun r hr => project_of_validateObject (hquality r hr),
    fun r hr => project_of_validateObject (hedges r hr),
    fun r hr => project_of_validateObject (hresources r hr),
    fun r hr => project_of_validateObject (hchange r hr),
    fun r hr => project_of_validateObject (hartifacts r hr)⟩

theorem validateStageReferences_restrict (hb : b.WithinProject) (hq : q b.event.projectId = true) :
    b.validateStageReferences (s.restrict q) = b.validateStageReferences s := by
  unfold validateStageReferences
  have hnamed : (fun stageId => validateExistingStageAttempt (s.restrict q) b.event.projectId
      b.event.runId stageId b.event.attempt .stageAttempt) = fun stageId =>
        validateExistingStageAttempt s b.event.projectId b.event.runId stageId b.event.attempt
          .stageAttempt := by
    funext stageId
    exact validateExistingStageAttempt_restrict hq
  rw [hnamed]
  cases hstage : b.stage with
  | none => rfl
  | some stage =>
    have hproject : q stage.projectId = true := by
      rw [hb.stage stage hstage]
      exact hq
    show (_ >>= fun _ => validateStageWriteReferences (s.restrict q) stage) = _
    rw [validateStageWriteReferences_restrict hproject]
    rfl

theorem ensureParent_restrict (clock : Clock) (hq : q b.event.projectId = true) :
    b.ensureParent (s.restrict q) clock = (b.ensureParent s clock).map fun t => t.restrict q := by
  have hfind : (s.restrict q).runs.find (b.event.projectId, b.event.runId) =
      s.runs.find (b.event.projectId, b.event.runId) := KeyedTable.find_restrict s.runs hq
  unfold ensureParent
  rw [hfind]
  cases s.runs.find (b.event.projectId, b.event.runId) with
  | some row => rfl
  | none =>
    cases b.run with
    | none => rfl
    | some run =>
      have hinsert : (s.restrict q).runs.insertOrIgnore (b.placeholder clock run) =
          ((s.runs.insertOrIgnore (b.placeholder clock run)).1.restrict fun k => q k.1,
            (s.runs.insertOrIgnore (b.placeholder clock run)).2) :=
        KeyedTable.insertOrIgnore_restrict s.runs hq
      have hruns := congrArg Prod.fst hinsert
      exact congrArg (fun runs => Except.ok { s.restrict q with runs := runs }) hruns

theorem restrict_ensureParent {clock : Clock} (hq : q b.event.projectId = false) (h : b.ensureParent s clock = .ok t) :
    t.restrict q = s.restrict q := by
  rcases b.ensureParent_cases h with ⟨-, rfl⟩ | ⟨-, run, -, rfl⟩
  · rfl
  · have hruns : (s.runs.insertOrIgnore (b.placeholder clock run)).1.restrict (fun k => q k.1) =
        s.runs.restrict fun k => q k.1 := KeyedTable.restrict_insertOrIgnore s.runs hq
    simp only [Store.restrict, hruns]

theorem insertDerived_restrict (clock : Clock) (hb : b.WithinProject) (hq : q b.event.projectId = true) :
    b.insertDerived (s.restrict q) clock = (b.insertDerived s clock).map fun t => t.restrict q := by
  have hinside : ∀ {project : String}, project = b.event.projectId → q project = true := by
    rintro _ rfl
    exact hq
  have hrun : b.run.elim (s.restrict q) (upsertRun (s.restrict q) clock) =
      (b.run.elim s (upsertRun s clock)).restrict q := by
    cases hcase : b.run with
    | none => rfl
    | some run => exact upsertRun_restrict clock (hinside (hb.run run hcase))
  unfold insertDerived
  rw [hrun]
  refine bind_view (foldlM_view (fun t r hr =>
    insertStage_restrict (hinside (hb.stage r (Option.mem_toList.1 hr)))) _) fun t _ => ?_
  refine bind_view (foldlM_view (fun t r hr =>
    insertQuality_restrict (hinside (hb.qualityResult r (Option.mem_toList.1 hr)))) _) fun t _ => ?_
  refine bind_view (foldlM_view (fun t r hr =>
    insertLineage_restrict (hinside (hb.lineageEdges r hr))) _) fun t _ => ?_
  refine bind_view (foldlM_view (fun t r hr =>
    insertResource_restrict (hinside (hb.resources r hr))) _) fun t _ => ?_
  refine bind_view (foldlM_view (fun t r hr =>
    insertCatalogChange_restrict (hinside (hb.catalogChange r (Option.mem_toList.1 hr)))) _)
      fun t _ => ?_
  exact foldlM_view (fun t r hr => insertArtifact_restrict (hinside (hb.artifacts r hr))) _

theorem restrict_insertDerived {clock : Clock} (hb : b.WithinProject) (hq : q b.event.projectId = false)
    (h : b.insertDerived s clock = .ok t) : t.restrict q = s.restrict q := by
  have houtside : ∀ {project : String}, project = b.event.projectId → q project = false := by
    rintro _ rfl
    exact hq
  have hrun : (b.run.elim s (upsertRun s clock)).restrict q = s.restrict q := by
    cases hcase : b.run with
    | none => rfl
    | some run => exact restrict_upsertRun clock (houtside (hb.run run hcase))
  have hloop : ∀ {α : Type} {f : Store → α → Except StoreError Store} {l : List α} {s t : Store},
      (∀ s t, ∀ a ∈ l, f s a = .ok t → t.restrict q = s.restrict q) → l.foldlM f s = .ok t →
        t.restrict q = s.restrict q := by
    intro α f l s t hf hl
    exact foldlM_rel_of_mem (R := fun s t => t.restrict q = s.restrict q) (fun _ => rfl)
      (by intro a b c hab hbc; exact Eq.trans hbc hab) hf hl
  simp only [insertDerived, bind_eq_ok] at h
  obtain ⟨s₁, hstage, s₂, hquality, s₃, hedges, s₄, hresources, s₅, hchange, hartifacts⟩ := h
  calc t.restrict q = s₅.restrict q :=
        hloop (fun _ _ r hr => restrict_insertArtifact (houtside (hb.artifacts r hr))) hartifacts
    _ = s₄.restrict q := hloop (fun _ _ r hr =>
        restrict_insertCatalogChange (houtside (hb.catalogChange r (Option.mem_toList.1 hr)))) hchange
    _ = s₃.restrict q :=
        hloop (fun _ _ r hr => restrict_insertResource (houtside (hb.resources r hr))) hresources
    _ = s₂.restrict q :=
        hloop (fun _ _ r hr => restrict_insertLineage (houtside (hb.lineageEdges r hr))) hedges
    _ = s₁.restrict q := hloop (fun _ _ r hr =>
        restrict_insertQuality (houtside (hb.qualityResult r (Option.mem_toList.1 hr)))) hquality
    _ = (b.run.elim s (upsertRun s clock)).restrict q := hloop (fun _ _ r hr =>
        restrict_insertStage (houtside (hb.stage r (Option.mem_toList.1 hr)))) hstage
    _ = s.restrict q := hrun

end EventBundle

/-! ### Commits -/

theorem referencesExist_restrict {row : QualityResultRow} (hq : q row.projectId = true) :
    (s.restrict q).referencesExist row = s.referencesExist row := by
  have hstages : ∀ stageId, (s.restrict q).stages.find (row.projectId, row.runId, stageId) =
      s.stages.find (row.projectId, row.runId, stageId) := fun _ =>
    KeyedTable.find_restrict s.stages hq
  have hartifacts : ∀ artifactId, (s.restrict q).artifacts.find (row.projectId, row.runId, artifactId) =
      s.artifacts.find (row.projectId, row.runId, artifactId) := fun _ =>
    KeyedTable.find_restrict s.artifacts hq
  simp only [Store.referencesExist, hstages, hartifacts]

/-- A commit of the restricted store checks what the commit of the whole one checks, as long as the
rows outside are those of a store whose foreign keys hold. -/
theorem commit_restrict (hs : s.qualityResults.rows.all s.referencesExist = true)
    (hout : t.restrict (fun p => !q p) = s.restrict fun p => !q p) :
    commit (t.restrict q) = (commit t).map fun t => t.restrict q := by
  have houtside : ∀ row ∈ t.qualityResults.rows, q row.projectId = false → t.referencesExist row = true := by
    intro row hrow hproject
    have hnot : (!q row.projectId) = true := by rw [hproject]; rfl
    have hmem : row ∈ (t.restrict fun p => !q p).qualityResults.rows :=
      (KeyedTable.mem_restrict _ _ _).2 ⟨hrow, hnot⟩
    rw [hout] at hmem
    have hstored : row ∈ s.qualityResults.rows := ((KeyedTable.mem_restrict _ _ _).1 hmem).1
    rw [← referencesExist_restrict (q := fun p => !q p) hnot, hout,
      referencesExist_restrict (q := fun p => !q p) hnot]
    exact List.all_eq_true.1 hs row hstored
  have hall : ((t.restrict q).qualityResults.rows.all (t.restrict q).referencesExist = true) =
      (t.qualityResults.rows.all t.referencesExist = true) := by
    rw [eq_iff_iff, List.all_eq_true, List.all_eq_true]
    constructor
    · intro h row hrow
      cases hproject : q row.projectId with
      | false => exact houtside row hrow hproject
      | true =>
        rw [← referencesExist_restrict hproject]
        exact h row ((KeyedTable.mem_restrict _ _ _).2 ⟨hrow, hproject⟩)
    · intro h row hrow
      obtain ⟨hmem, hproject⟩ := (KeyedTable.mem_restrict _ _ _).1 hrow
      rw [referencesExist_restrict hproject]
      exact h row hmem
  unfold commit
  simp only [hall]
  exact check_view rfl fun _ _ => rfl

end Phlo.RunEvidence
