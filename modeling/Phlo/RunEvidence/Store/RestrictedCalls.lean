import Phlo.RunEvidence.Evaluation
import Phlo.RunEvidence.Store.Restricted
import Phlo.RunEvidence.Store.RunRow

/-!
# The calls of the store, as some projects see them

`append_event` and `reconcile_observation` on a restricted store: for a project inside they do what they
do on the whole store, and for a project outside the restricted store stays what it is.
-/

namespace Phlo.RunEvidence

open Phlo.Library

variable {q : String → Bool} {s t : Store}

/-! ### `append_event` -/

theorem appendEvent_frame {clock : Clock} {b : EventBundle} {inserted : Bool}
    (hq : q b.event.projectId = false) (h : appendEvent s clock b = .ok (t, inserted)) :
    t.restrict q = s.restrict q := by
  obtain ⟨hvalid, -, -, p, hparent, -, hcases⟩ := appendEvent_cases h
  have hp : p.restrict q = s.restrict q := EventBundle.restrict_ensureParent hq hparent
  rcases hcases with ⟨-, -, rfl⟩ | ⟨-, -, hderived⟩
  · exact hp
  · have hevents : (p.events.insertOrIgnore (eventRow b.event)).1.restrict (fun k => q k.1) =
        p.events.restrict fun k => q k.1 := KeyedTable.restrict_insertOrIgnore p.events hq
    have hevent : (withEvent p b.event).restrict q = p.restrict q := by
      simp only [Store.restrict, withEvent, hevents]
    exact (EventBundle.restrict_insertDerived (EventBundle.withinProject_of_validateInputs hvalid) hq
      hderived).trans (hevent.trans hp)

/-- A bundle on the restricted store, where the rows outside are those of `s`. -/
theorem appendEvent_restrict {clock : Clock} {b : EventBundle} (hq : q b.event.projectId = true)
    (hs : s.qualityResults.rows.all s.referencesExist = true) : appendEvent (s.restrict q) clock b =
      (appendEvent s clock b).map fun p => (p.1.restrict q, p.2) := by
  have houtside : (fun p => !q p) b.event.projectId = false := by
    show (!q b.event.projectId) = false
    rw [hq]
    rfl
  have hfind : (s.restrict q).events.find b.eventKey = s.events.find b.eventKey :=
    KeyedTable.find_restrict s.events hq
  unfold appendEvent
  refine check_view rfl fun _ hvalid => ?_
  have hb := EventBundle.withinProject_of_validateInputs hvalid
  rw [hfind]
  split
  · refine bind_view (insertEvent_restrict hq) fun p hp => ?_
    have hout := restrict_insertEvent (q := fun p => !q p) houtside hp
    exact bind_view (commit_restrict hs hout) fun _ _ => rfl
  · refine check_view (EventBundle.validateStageReferences_restrict hb hq) fun _ _ => ?_
    refine bind_view (EventBundle.ensureParent_restrict clock hq) fun parent hparent => ?_
    refine check_view (lockRun_restrict hq) fun _ _ => ?_
    refine check_view (EventBundle.validateStageReferences_restrict hb hq) fun _ _ => ?_
    have hfindParent : (parent.restrict q).events.find b.eventKey = parent.events.find b.eventKey :=
      KeyedTable.find_restrict parent.events hq
    have hparentOut := EventBundle.restrict_ensureParent (q := fun p => !q p) houtside hparent
    simp only [hfindParent]
    refine bind_view (insertEvent_restrict hq) fun p hp => ?_
    have hout := (restrict_insertEvent (q := fun p => !q p) houtside hp).trans hparentOut
    obtain ⟨u, inserted⟩ := p
    by_cases hnew : (!(parent.events.find b.eventKey).isSome && inserted) = true
    · simp only [hnew, if_true]
      refine bind_view (EventBundle.insertDerived_restrict clock hb hq) fun v hv => ?_
      have hderived := (EventBundle.restrict_insertDerived (q := fun p => !q p) hb houtside hv).trans hout
      exact bind_view (commit_restrict hs hderived) fun _ _ => rfl
    · simp only [hnew, Bool.false_eq_true, if_false]
      show (commit (u.restrict q) >>= fun v => pure (v, false)) =
        Except.map _ (commit u >>= fun v => pure (v, false))
      exact bind_view (commit_restrict hs hout) fun _ _ => rfl

/-! ### Ingesting an observation -/

section Reconcile

variable {clock : Clock} {scan : Scan} {request : ReconcileRequest} {o : RunObservation}

theorem ingestObservation_restrict (hq : q o.projectId = true) : ingestObservation (s.restrict q) clock o =
      (ingestObservation s clock o).map fun p => (p.1.restrict q, p.2) := by
  have hfind : (s.restrict q).runs.find (o.projectId, o.runId) = s.runs.find (o.projectId, o.runId) :=
    KeyedTable.find_restrict s.runs hq
  unfold ingestObservation
  cases o.lookupOutcome with
  | present =>
    have hrun : upsertRun (s.restrict q) clock (observedRun o) =
        (upsertRun s clock (observedRun o)).restrict q := upsertRun_restrict clock hq
    exact congrArg (fun u => Except.ok (u, o)) hrun
  | absent =>
    simp only [hfind]
    cases s.runs.find (o.projectId, o.runId) with
    | none => rfl
    | some row => rfl

theorem ingestObservation_frame {o' : RunObservation} (hq : q o.projectId = false)
    (h : ingestObservation s clock o = .ok (t, o')) : t.restrict q = s.restrict q := by
  unfold ingestObservation at h
  cases hl : o.lookupOutcome with
  | present =>
    rw [hl] at h
    cases h
    show (upsertRun s clock (observedRun o)).restrict q = s.restrict q
    exact restrict_upsertRun clock hq
  | absent =>
    rw [hl] at h
    cases hrow : s.runs.find (o.projectId, o.runId) with
    | none =>
      simp only [hrow] at h
      cases h
    | some row =>
      simp only [hrow] at h
      cases h
      rfl

theorem insertObservedEvent_restrict {event : RunEvent} (hq : q o.projectId = true) :
    insertObservedEvent o (s.restrict q) event = (insertObservedEvent o s event).map fun u => u.restrict q := by
  refine check_view rfl fun _ hsame => check_view rfl fun _ _ => ?_
  have hproject : event.projectId = o.projectId := (require_eq_ok.1 hsame).1
  exact bind_view (insertEvent_restrict (by rw [hproject]; exact hq)) fun _ _ => rfl

theorem insertObservedStage_restrict {stage : RunStage} (hq : q o.projectId = true) :
    insertObservedStage o (s.restrict q) stage = (insertObservedStage o s stage).map fun u => u.restrict q := by
  refine check_view rfl fun _ hsame => check_view rfl fun _ _ => ?_
  have hproject : stage.projectId = o.projectId := (require_eq_ok.1 hsame).1
  exact insertStage_restrict (by rw [hproject]; exact hq)

theorem insertObservationRecords_restrict (hq : q o.projectId = true) : insertObservationRecords (s.restrict q) o =
      (insertObservationRecords s o).map fun u => u.restrict q := by
  unfold insertObservationRecords
  cases o.lookupOutcome with
  | absent => rfl
  | present =>
    exact bind_view (foldlM_view (fun _ _ _ => insertObservedEvent_restrict hq) s) fun u _ =>
      foldlM_view (fun _ _ _ => insertObservedStage_restrict hq) u

theorem insertObservationRecords_frame (hq : q o.projectId = false)
    (h : insertObservationRecords s o = .ok t) : t.restrict q = s.restrict q := by
  have hevent : ∀ (s t : Store) (event : RunEvent), insertObservedEvent o s event = .ok t →
      t.restrict q = s.restrict q := by
    intro s t event h
    simp only [insertObservedEvent, bind_eq_ok, require_eq_ok] at h
    obtain ⟨-, ⟨hproject, -⟩, -, -, ⟨u, inserted⟩, hinsert, hresult⟩ := h
    cases hresult
    exact restrict_insertEvent (by rw [hproject]; exact hq) hinsert
  have hstage : ∀ (s t : Store) (stage : RunStage), insertObservedStage o s stage = .ok t →
      t.restrict q = s.restrict q := by
    intro s t stage h
    simp only [insertObservedStage, bind_eq_ok, require_eq_ok] at h
    obtain ⟨-, ⟨hproject, -⟩, -, -, hinsert⟩ := h
    exact restrict_insertStage (by rw [hproject]; exact hq) hinsert
  unfold insertObservationRecords at h
  cases hl : o.lookupOutcome with
  | absent =>
    rw [hl] at h
    cases h
    rfl
  | present =>
    rw [hl] at h
    simp only [bind_eq_ok] at h
    obtain ⟨u, hevents, hstages⟩ := h
    have htrans : ∀ {a b c : Store}, b.restrict q = a.restrict q → c.restrict q = b.restrict q →
        c.restrict q = a.restrict q := fun hab hbc => hbc.trans hab
    have hfirst : u.restrict q = s.restrict q :=
      foldlM_rel (R := fun s t => t.restrict q = s.restrict q) (fun _ => rfl) htrans
        (fun u event v hv => hevent u v event hv) hevents
    have hsecond : t.restrict q = u.restrict q :=
      foldlM_rel (R := fun s t => t.restrict q = s.restrict q) (fun _ => rfl) htrans
        (fun u stage v hv => hstage u v stage hv) hstages
    exact hsecond.trans hfirst

/-! ### Reading the evidence -/

theorem selectRun_restrict {α κ : Type} {key : α → κ} {order : RowOrder α} (u : KeyedTable key)
    (inside : κ → Bool) {projectId runId : α → String} (h : ∀ a, projectId a = o.projectId → inside (key a) = true) :
    selectRun order projectId runId o (u.restrict inside).rows = selectRun order projectId runId o u.rows := by
  apply congrArg order.apply
  apply KeyedTable.filter_restrict
  intro a ha
  simp only [Bool.and_eq_true, beq_iff_eq] at ha
  exact h a ha.1

theorem selectAttempt_restrict {α κ : Type} {key : α → κ} {order : RowOrder α} (u : KeyedTable key)
    (inside : κ → Bool) {projectId runId : α → String} {attempt : α → ℕ}
    (h : ∀ a, projectId a = o.projectId → inside (key a) = true) :
    selectAttempt order projectId runId attempt o (u.restrict inside).rows =
      selectAttempt order projectId runId attempt o u.rows := by
  apply congrArg order.apply
  apply KeyedTable.filter_restrict
  intro a ha
  simp only [Bool.and_eq_true, beq_iff_eq] at ha
  exact h a ha.1.1

theorem readEvidence_restrict (hq : q o.projectId = true) :
    readEvidence (s.restrict q) scan request o = readEvidence s scan request o := by
  have hinside : ∀ {project : String}, project = o.projectId → q project = true := by
    intro project hproject
    rw [hproject]
    exact hq
  simp only [readEvidence, Store.restrict]
  rw [selectAttempt_restrict s.resources _ fun _ => hinside,
    selectAttempt_restrict s.catalogChanges _ fun _ => hinside,
    selectAttempt_restrict s.qualityResults _ fun _ => hinside,
    selectAttempt_restrict s.artifacts _ fun _ => hinside,
    selectRun_restrict s.events _ fun _ => hinside, selectRun_restrict s.stages _ fun _ => hinside]

def Ingested.restrict (i : Ingested) (q : String → Bool) : Ingested :=
  { i with store := i.store.restrict q }

theorem ingest_restrict (hq : q request.observation.projectId = true) : ingest (s.restrict q) clock scan request =
      (ingest s clock scan request).map fun i => i.restrict q := by
  unfold ingest
  refine bind_view (ingestObservation_restrict hq) fun p hp => ?_
  obtain ⟨u, o⟩ := p
  have hproject : q o.projectId = true := by
    rw [(ingestObservation_ids hp).1]
    exact hq
  refine check_view (lockRun_restrict hproject) fun _ _ => ?_
  refine bind_view (insertObservationRecords_restrict hproject) fun v _ => ?_
  refine check_view (readEvidence_restrict hproject) fun evidence _ => ?_
  have hfind : (v.restrict q).runs.find (o.projectId, o.runId) = v.runs.find (o.projectId, o.runId) :=
    KeyedTable.find_restrict v.runs hproject
  simp only [hfind]
  cases v.runs.find (o.projectId, o.runId) with
  | none => rfl
  | some current => rfl

theorem ingest_frame {i : Ingested} (hq : q request.observation.projectId = false)
    (h : ingest s clock scan request = .ok i) : i.store.restrict q = s.restrict q := by
  obtain ⟨s₁, hingest, -, hrecords, -⟩ := ingest_eq_ok.1 h
  have hproject : q i.observation.projectId = false := by
    rw [(ingestObservation_ids hingest).1]
    exact hq
  exact (insertObservationRecords_frame hproject hrecords).trans (ingestObservation_frame hq hingest)

/-! ### Storing and applying the decision -/

variable {d : ReconciliationDecision}

theorem insertReconciliationDecision_restrict (hq : q d.projectId = true) :
    insertReconciliationDecision (s.restrict q) d =
      (insertReconciliationDecision s d).map fun p => (p.1.restrict q, p.2) := by
  have hinsert : (s.restrict q).decisions.insertOrIgnore (decisionRow d) =
      ((s.decisions.insertOrIgnore (decisionRow d)).1.restrict fun k => q k.1,
        (s.decisions.insertOrIgnore (decisionRow d)).2) :=
    KeyedTable.insertOrIgnore_restrict s.decisions hq
  unfold insertReconciliationDecision
  dsimp only
  rw [hinsert]
  obtain ⟨decisions, inserted⟩ := s.decisions.insertOrIgnore (decisionRow d)
  have hfind : (decisions.restrict fun k => q k.1).find (decisionRow d).key =
      decisions.find (decisionRow d).key := KeyedTable.find_restrict decisions hq
  cases inserted with
  | true => rfl
  | false =>
    simp only [hfind]
    exact check_view rfl fun _ _ => rfl

theorem restrict_withDecision (hq : q d.projectId = false) : (withDecision s d).restrict q = s.restrict q := by
  have hdecisions : (s.decisions.insertOrIgnore (decisionRow d)).1.restrict (fun k => q k.1) =
      s.decisions.restrict fun k => q k.1 := KeyedTable.restrict_insertOrIgnore s.decisions hq
  simp only [Store.restrict, withDecision, hdecisions]

theorem updateRuns_restrict {k : String × String} {f : PipelineRunRow → PipelineRunRow}
    {hf : ∀ row, (f row).key = row.key} :
    ({ s.restrict q with runs := (s.restrict q).runs.update k f hf } : Store) =
      Store.restrict { s with runs := s.runs.update k f hf } q := by
  have hruns : (s.restrict q).runs.update k f hf =
      (s.runs.update k f hf).restrict fun k => q k.1 := KeyedTable.update_restrict s.runs k
  rw [hruns]
  rfl

theorem restrict_updateRuns {k : String × String} {f : PipelineRunRow → PipelineRunRow}
    {hf : ∀ row, (f row).key = row.key} (hq : q k.1 = false) :
    Store.restrict { s with runs := s.runs.update k f hf } q = s.restrict q := by
  have hruns : (s.runs.update k f hf).restrict (fun k => q k.1) = s.runs.restrict fun k => q k.1 :=
    KeyedTable.restrict_update s.runs hq
  simp only [Store.restrict, hruns]

theorem applyDecision_restrict {current : PipelineRunRow} :
    applyDecision (s.restrict q) clock current o d = (applyDecision s clock current o d).restrict q := by
  unfold applyDecision
  cases o.lookupOutcome with
  | absent => exact updateRuns_restrict
  | present =>
    show (if _ then _ else _) = Store.restrict (if _ then _ else _) q
    split
    · exact updateRuns_restrict
    · rfl

theorem restrict_applyDecision {current : PipelineRunRow} (hq : q o.projectId = false) :
    (applyDecision s clock current o d).restrict q = s.restrict q := by
  unfold applyDecision
  cases o.lookupOutcome with
  | absent => exact restrict_updateRuns hq
  | present =>
    show Store.restrict (if _ then _ else _) q = _
    split
    · exact restrict_updateRuns hq
    · rfl

/-! ### `reconcile_observation` -/

theorem decision_project {i : Ingested} (h : ingest s clock scan request = .ok i)
    (hd : evaluateReconciliation i.evidence = .ok d) : d.projectId = request.observation.projectId ∧
      i.observation.projectId = request.observation.projectId := by
  obtain ⟨s₁, hingest, -, -, hread, -⟩ := ingest_eq_ok.1 h
  have hids := (ingestObservation_ids hingest).1
  obtain ⟨-, rfl⟩ := (ReconciliationInput.evaluate_ok_iff i.evidence d).1 hd
  refine ⟨?_, hids⟩
  show i.evidence.observation.projectId = _
  rw [(readEvidence_evaluates hread).observation, hids]

theorem reconcile_frame {r : ReconciliationDecision} (hq : q request.observation.projectId = false)
    (h : reconcileObservation s clock scan request = .ok (t, r)) : t.restrict q = s.restrict q := by
  obtain ⟨i, d, hi, hd, -, hcases⟩ := reconcile_eq_ok.1 h
  obtain ⟨hdecision, hobservation⟩ := decision_project hi hd
  have hstore : i.store.restrict q = s.restrict q := ingest_frame hq hi
  rw [← hstore]
  rcases hcases with ⟨-, -, rfl⟩ | ⟨stored, -, -, -, rfl⟩
  · rw [restrict_applyDecision (by rw [hobservation]; exact hq),
      restrict_withDecision (by rw [hdecision]; exact hq)]
  · unfold restored
    cases s.runs.find (i.observation.projectId, i.observation.runId) with
    | none => rfl
    | some row => exact restrict_updateRuns (by rw [hobservation]; exact hq)

theorem reconcile_restrict (hq : q request.observation.projectId = true)
    (hs : s.qualityResults.rows.all s.referencesExist = true) :
    reconcileObservation (s.restrict q) clock scan request =
      (reconcileObservation s clock scan request).map fun p => (p.1.restrict q, p.2) := by
  have houtside : (fun p => !q p) request.observation.projectId = false := by
    show (!q request.observation.projectId) = false
    rw [hq]
    rfl
  have hbefore : (s.restrict q).runs.find (request.observation.projectId, request.observation.runId) =
      s.runs.find (request.observation.projectId, request.observation.runId) :=
    KeyedTable.find_restrict s.runs hq
  unfold reconcileObservation
  simp only [hbefore]
  refine bind_view (ingest_restrict hq) fun i hi => check_view rfl fun d hd => ?_
  obtain ⟨hdecision, hobservation⟩ := decision_project hi (mapError_eq_ok.1 hd)
  refine bind_view (insertReconciliationDecision_restrict (by rw [hdecision]; exact hq))
    fun p hp => ?_
  obtain ⟨u, r, inserted⟩ := p
  -- what the rows outside are after the decision is stored
  have hstored : u.restrict (fun p => !q p) = s.restrict fun p => !q p := by
    rw [← ingest_frame (q := fun p => !q p) houtside hi]
    rcases insertReconciliationDecision_eq_ok.1 hp with ⟨-, rfl, -, -⟩ | ⟨stored, -, -, rfl, -, -⟩
    · exact restrict_withDecision (q := fun p => !q p) (by rw [hdecision]; exact houtside)
    · rfl
  have hoff : (fun p => !q p) i.observation.projectId = false := by
    rw [hobservation]
    exact houtside
  cases inserted with
  | true =>
    simp only [if_true]
    show (commit (applyDecision (u.restrict q) clock i.current i.observation r) >>= _) = _
    rw [applyDecision_restrict]
    exact bind_view (commit_restrict hs ((restrict_applyDecision (q := fun p => !q p) hoff).trans
      hstored)) fun _ _ => rfl
  | false =>
    simp only [Bool.false_eq_true, if_false]
    cases s.runs.find (request.observation.projectId, request.observation.runId) with
    | none => exact bind_view (commit_restrict hs hstored) fun _ _ => rfl
    | some row =>
      have hrestore : restoreUpdatedAt (u.restrict q) i.observation.projectId i.observation.runId
          row.updatedAt.canonical = (restoreUpdatedAt u i.observation.projectId i.observation.runId
            row.updatedAt.canonical).restrict q := updateRuns_restrict
      show (commit (restoreUpdatedAt (u.restrict q) i.observation.projectId i.observation.runId
        row.updatedAt.canonical) >>= _) = _
      rw [hrestore]
      exact bind_view (commit_restrict hs ((restrict_updateRuns (q := fun p => !q p) hoff).trans
        hstored)) fun _ _ => rfl

end Reconcile

end Phlo.RunEvidence
