import Phlo.RunEvidence.RunReads
import Phlo.RunEvidence.StageCoherence
import Phlo.RunEvidence.Store.RestrictedCalls

/-!
# Projects do not see each other

`Store.only P` is the store with the rows of project `P` alone.

* `execute_only`, `read_only` — a call or a read for `P` does on `Store.only P` what it does on the
  whole store, the surrogate keys of events apart;
* `projects_isolated` — so two stores that agree on `P` cannot be told apart by `P`, and a call for `P`
  leaves every other project as it was.
-/

namespace Phlo.RunEvidence

open Phlo.Library

/-! ### Calls with what they return -/

def Call.projectId : Call → String
  | .appendPipelineRun _ run => run.projectId
  | .appendEvent _ bundle => bundle.event.projectId
  | .appendStage stage => stage.projectId
  | .appendResource resource => resource.projectId
  | .appendLineageEdge edge => edge.projectId
  | .appendQualityResult result => result.projectId
  | .appendCatalogChange change => change.projectId
  | .appendArtifact artifact => artifact.projectId
  | .reconcileObservation _ _ request => request.observation.projectId

/-- What a call returns. -/
inductive Outcome where
  | none
  | inserted (flag : Bool)
  | decided (decision : ReconciliationDecision)

def execute (s : Store) : Call → Except StoreError (Store × Outcome)
  | .appendEvent clock bundle =>
    (appendEvent s clock bundle).map fun p => (p.1, .inserted p.2)
  | .reconcileObservation clock scan request =>
    (reconcileObservation s clock scan request).map fun p => (p.1, .decided p.2)
  | c => (exec s c).map fun t => (t, .none)

theorem map_done (x : Except StoreError Store) : x = (x.map fun t => (t, Outcome.none)).map Prod.fst := by
  cases x with
  | error e => rfl
  | ok t => rfl

theorem exec_eq_execute (s : Store) (c : Call) : exec s c = (execute s c).map Prod.fst := by
  cases c with
  | appendEvent clock bundle =>
    exact (map_map (appendEvent s clock bundle) (fun p => (p.1, Outcome.inserted p.2)) Prod.fst).symm
  | reconcileObservation clock scan request =>
    exact (map_map (reconcileObservation s clock scan request) (fun p => (p.1, Outcome.decided p.2))
      Prod.fst).symm
  | _ => exact map_done _

/-! ### A project's part of the store -/

def Store.only (s : Store) (projectId : String) : Store := s.restrict (· == projectId)

variable {c : Call}

theorem execute_restrict {s : Store} {q : String → Bool} (hs : Integral s) (hq : q c.projectId = true) :
    execute (s.restrict q) c = (execute s c).map fun p => (p.1.restrict q, p.2) := by
  have houtside : (fun p => !q p) c.projectId = false := by
    show (!q c.projectId) = false
    rw [hq]
    rfl
  have hdone : ∀ x x' : Except StoreError Store, x' = (x.map fun t => t.restrict q) →
      (x'.map fun t => (t, Outcome.none)) =
        (x.map fun t => (t, Outcome.none)).map fun p => (p.1.restrict q, p.2) := by
    rintro x _ rfl
    rw [map_map, map_map]
  cases c with
  | appendEvent clock bundle =>
    show (appendEvent _ _ _).map _ = ((appendEvent _ _ _).map _).map _
    rw [appendEvent_restrict hq hs, map_map, map_map]
  | reconcileObservation clock scan request =>
    show (reconcileObservation _ _ _ _).map _ = ((reconcileObservation _ _ _ _).map _).map _
    rw [reconcile_restrict hq hs, map_map, map_map]
  | appendPipelineRun clock run =>
    apply hdone
    show commit (upsertRun (s.restrict q) clock run) = _
    rw [upsertRun_restrict clock hq]
    exact commit_restrict hs (restrict_upsertRun (q := fun p => !q p) clock houtside)
  | appendStage stage =>
    exact hdone _ _ (check_view (lockRun_restrict hq) fun _ _ => bind_view (insertStage_restrict hq)
      fun t ht => commit_restrict hs (restrict_insertStage (q := fun p => !q p) houtside ht))
  | appendResource resource =>
    exact hdone _ _ (check_view (lockRun_restrict hq) fun _ _ => bind_view (insertResource_restrict hq)
      fun t ht => commit_restrict hs (restrict_insertResource (q := fun p => !q p) houtside ht))
  | appendLineageEdge edge =>
    exact hdone _ _ (check_view (lockRun_restrict hq) fun _ _ => bind_view (insertLineage_restrict hq)
      fun t ht => commit_restrict hs (restrict_insertLineage (q := fun p => !q p) houtside ht))
  | appendQualityResult result =>
    exact hdone _ _ (check_view (lockRun_restrict hq) fun _ _ => bind_view (insertQuality_restrict hq)
      fun t ht => commit_restrict hs (restrict_insertQuality (q := fun p => !q p) houtside ht))
  | appendCatalogChange change =>
    exact hdone _ _ (check_view (lockRun_restrict hq) fun _ _ =>
      bind_view (insertCatalogChange_restrict hq) fun t ht =>
        commit_restrict hs (restrict_insertCatalogChange (q := fun p => !q p) houtside ht))
  | appendArtifact artifact =>
    exact hdone _ _ (check_view (lockRun_restrict hq) fun _ _ => bind_view (insertArtifact_restrict hq)
      fun t ht => commit_restrict hs (restrict_insertArtifact (q := fun p => !q p) houtside ht))

theorem exec_frame {s t : Store} {q : String → Bool} (hq : q c.projectId = false) (h : exec s c = .ok t) :
    t.restrict q = s.restrict q := by
  cases c with
  | appendEvent clock bundle =>
    obtain ⟨⟨u, inserted⟩, hu, rfl⟩ := map_eq_ok.1 h
    exact appendEvent_frame hq hu
  | reconcileObservation clock scan request =>
    obtain ⟨⟨u, r⟩, hu, rfl⟩ := map_eq_ok.1 h
    exact reconcile_frame hq hu
  | appendPipelineRun clock run =>
    obtain ⟨rfl, -⟩ := commit_eq_ok.1 h
    exact restrict_upsertRun clock hq
  | appendStage stage =>
    obtain ⟨-, hu, -⟩ := insertion_eq_ok.1 h
    exact restrict_insertStage hq hu
  | appendResource resource =>
    obtain ⟨-, hu, -⟩ := insertion_eq_ok.1 h
    exact restrict_insertResource hq hu
  | appendLineageEdge edge =>
    obtain ⟨-, hu, -⟩ := insertion_eq_ok.1 h
    exact restrict_insertLineage hq hu
  | appendQualityResult result =>
    obtain ⟨-, hu, -⟩ := insertion_eq_ok.1 h
    exact restrict_insertQuality hq hu
  | appendCatalogChange change =>
    obtain ⟨-, hu, -⟩ := insertion_eq_ok.1 h
    exact restrict_insertCatalogChange hq hu
  | appendArtifact artifact =>
    obtain ⟨-, hu, -⟩ := insertion_eq_ok.1 h
    exact restrict_insertArtifact hq hu

theorem step_frame {s : Store} {q : String → Bool} (hq : q c.projectId = false) :
    (step s c).restrict q = s.restrict q := by
  cases hexec : exec s c with
  | error e => rw [step_of_error hexec]
  | ok t =>
    rw [step_of_ok hexec]
    exact exec_frame hq hexec

/-! ### Reads -/

def ReadCall.projectId : ReadCall → String
  | .list _ projectId _ _ => projectId
  | .countEvents projectId _ => projectId
  | .listReconciliationDecisions projectId _ => projectId
  | .readRunAttempt projectId _ _ => projectId

def EventRecord.withoutId (event : EventRecord) : EventRecord := { event with id := 0 }

def ReadResult.withoutIds : ReadResult → ReadResult
  | .events rows => .events (rows.map EventRecord.withoutId)
  | .report r => .report { r with events := r.events.map EventRecord.withoutId }
  | result => result

section Reads

variable {s : Store} {scope : RunScope} {q : String → Bool}

theorem selectRows_restrict {α κ ι : Type} [LinearOrder κ] {key : α → ι} {projectId runId : α → String}
    {attempt : α → ℕ} {order : α → κ} {read : α → Except StoreError α} (u : KeyedTable key)
    (inside : ι → Bool) (h : ∀ a, projectId a = scope.projectId → inside (key a) = true) :
    selectRows scope projectId runId attempt order read (u.restrict inside).rows =
      selectRows scope projectId runId attempt order read u.rows := by
  have hrows : (u.restrict inside).rows.filter
      (fun row => scope.selects (projectId row) (runId row) (attempt row)) =
        u.rows.filter fun row => scope.selects (projectId row) (runId row) (attempt row) := by
    apply KeyedTable.filter_restrict
    intro a ha
    simp only [RunScope.selects, Bool.and_eq_true, beq_iff_eq] at ha
    exact h a ha.1.1
  unfold selectRows
  rw [hrows]

theorem selectEvents_withoutId (s : Store) (scope : RunScope) :
    (selectEvents s scope).map (List.map EventRecord.withoutId) =
      (selectRows scope EventRow.projectId EventRow.runId EventRow.attempt EventRow.order EventRow.read
        s.events.rows).map (List.map (EventRecord.mk 0)) := by
  have hrows : s.eventRecords.map EventRecord.row = s.events.rows := by
    show (s.events.rows.zipIdx.map _).map _ = _
    rw [List.map_map]
    exact List.zipIdx_map_fst 0 s.events.rows
  have hread : ∀ event : EventRecord, event.row.read = event.read.map EventRecord.row := by
    intro event
    show _ = (event.row.read >>= _).map _
    cases event.row.read with
    | error e => rfl
    | ok row => rfl
  have hselected : selectRows scope EventRow.projectId EventRow.runId EventRow.attempt EventRow.order
      EventRow.read s.events.rows = (selectEvents s scope).map (List.map EventRecord.row) := by
    unfold selectEvents selectRows
    rw [← mapM_map hread, map_sortBy EventRow.order EventRecord.row, ← hrows, List.filter_map]
    rfl
  rw [hselected, map_map]
  congr 1
  funext events
  rw [List.map_map]
  rfl

theorem selectEvents_restrict (hq : q scope.projectId = true) :
    (selectEvents (s.restrict q) scope).map (List.map EventRecord.withoutId) =
      (selectEvents s scope).map (List.map EventRecord.withoutId) := by
  rw [selectEvents_withoutId, selectEvents_withoutId]
  congr 1
  exact selectRows_restrict s.events _ fun row hrow => by
    show q row.projectId = true
    rw [hrow]
    exact hq

theorem selectRunRow_restrict (hq : q scope.projectId = true) :
    selectRunRow (s.restrict q) scope = selectRunRow s scope := by
  have hrows : (s.restrict q).runs.rows.filter
      (fun row => scope.selects row.projectId row.runId row.attempt) =
        s.runs.rows.filter fun row => scope.selects row.projectId row.runId row.attempt := by
    apply KeyedTable.filter_restrict
    intro row hrow
    simp only [RunScope.selects, Bool.and_eq_true, beq_iff_eq] at hrow
    show q row.projectId = true
    rw [hrow.1.1]
    exact hq
  unfold selectRunRow
  rw [hrows]

/-- The tables without surrogate keys read the same on the restricted store. -/
structure SameTables (s t : Store) (scope : RunScope) : Prop where
  run : selectRunRow s scope = selectRunRow t scope
  stages : selectStages s scope = selectStages t scope
  resources : selectResources s scope = selectResources t scope
  lineageEdges : selectLineageEdges s scope = selectLineageEdges t scope
  qualityResults : selectQualityResults s scope = selectQualityResults t scope
  catalogChanges : selectCatalogChanges s scope = selectCatalogChanges t scope
  artifacts : selectArtifacts s scope = selectArtifacts t scope
  decisions : ∀ hex, selectDecisions s scope hex = selectDecisions t scope hex

theorem sameTables_restrict (hq : q scope.projectId = true) : SameTables (s.restrict q) s scope := by
  have hinside : ∀ {project : String}, project = scope.projectId → q project = true := by
    intro project hproject
    rw [hproject]
    exact hq
  exact
    { run := selectRunRow_restrict hq
      stages := selectRows_restrict s.stages _ fun _ => hinside
      resources := selectRows_restrict s.resources _ fun _ => hinside
      lineageEdges := selectRows_restrict s.lineageEdges _ fun _ => hinside
      qualityResults := selectRows_restrict s.qualityResults _ fun _ => hinside
      catalogChanges := selectRows_restrict s.catalogChanges _ fun _ => hinside
      artifacts := selectRows_restrict s.artifacts _ fun _ => hinside
      decisions := fun hex => selectRows_restrict s.decisions _ fun _ => hinside }

theorem readListing_restrict (hq : q scope.projectId = true) (table : Listing) :
    (readListing (s.restrict q) scope table).map ReadResult.withoutIds =
      (readListing s scope table).map ReadResult.withoutIds := by
  have htables : SameTables (s.restrict q) s scope := sameTables_restrict hq
  have hevents : (selectEvents (s.restrict q) scope).map (List.map EventRecord.withoutId) =
      (selectEvents s scope).map (List.map EventRecord.withoutId) := selectEvents_restrict hq
  cases table with
  | getRun => exact congrArg (fun run => (Except.ok (ReadResult.run run)).map _) htables.run
  | listEvents =>
    show ((selectEvents _ _).map ReadResult.events).map _ = ((selectEvents _ _).map _).map _
    rw [map_map, map_map]
    have hresult := congrArg (Except.map ReadResult.events) hevents
    rw [map_map, map_map] at hresult
    exact hresult
  | listStages => exact congrArg (fun x => (Except.map ReadResult.stages x).map _) htables.stages
  | listResources => exact congrArg (fun x => (Except.map ReadResult.resources x).map _) htables.resources
  | listLineageEdges =>
    exact congrArg (fun x => (Except.map ReadResult.lineageEdges x).map _) htables.lineageEdges
  | listQualityResults =>
    exact congrArg (fun x => (Except.map ReadResult.qualityResults x).map _) htables.qualityResults
  | listCatalogChanges =>
    exact congrArg (fun x => (Except.map ReadResult.catalogChanges x).map _) htables.catalogChanges
  | listArtifacts => exact congrArg (fun x => (Except.map ReadResult.artifacts x).map _) htables.artifacts

theorem bind_events {α : Type} {x y : Except StoreError (List EventRecord)}
    {f : List EventRecord → Except StoreError α}
    (hxy : x.map (List.map EventRecord.withoutId) = y.map (List.map EventRecord.withoutId))
    (hf : ∀ events events' : List EventRecord,
      events.map EventRecord.withoutId = events'.map EventRecord.withoutId → f events = f events') :
    x >>= f = y >>= f := by
  cases x with
  | error e =>
    cases y with
    | error e' =>
      have he : e = e' := Except.error.inj hxy
      rw [he]
    | ok events' => cases hxy
  | ok events =>
    cases y with
    | error e' => cases hxy
    | ok events' => exact hf events events' (Except.ok.inj hxy)

theorem map_pure {α β : Type} (a : α) (f : α → β) : (pure a : Except StoreError α).map f = pure (f a) := rfl

theorem read_restrict (hex : Sha256 → String) {c : ReadCall} (hq : q c.projectId = true) :
    (read hex (s.restrict q) c).map ReadResult.withoutIds = (read hex s c).map ReadResult.withoutIds := by
  cases c with
  | list table projectId runId attempt =>
    simp only [read, map_bind]
    congr 1
    funext attempt
    exact readListing_restrict hq table
  | countEvents projectId runId =>
    have hrows : ((s.restrict q).events.rows.filter fun row =>
        row.projectId == projectId && row.runId == runId) =
          s.events.rows.filter fun row => row.projectId == projectId && row.runId == runId := by
      apply KeyedTable.filter_restrict
      intro row hrow
      simp only [Bool.and_eq_true, beq_iff_eq] at hrow
      show q row.projectId = true
      rw [hrow.1]
      exact hq
    simp only [read, hrows]
  | listReconciliationDecisions projectId runId =>
    have htables : SameTables (s.restrict q) s { projectId, runId } := sameTables_restrict hq
    simp only [read, htables.decisions]
  | readRunAttempt projectId runId attempt =>
    simp only [read, readRunAttempt, map_bind]
    congr 1
    funext n
    have htables : SameTables (s.restrict q) s { projectId, runId, attempt := some n } :=
      sameTables_restrict hq
    have hevents : (selectEvents (s.restrict q) { projectId, runId, attempt := some n }).map
        (List.map EventRecord.withoutId) = (selectEvents s { projectId, runId, attempt := some n }).map
          (List.map EventRecord.withoutId) := selectEvents_restrict hq
    simp only [htables.run, htables.stages, htables.resources, htables.lineageEdges,
      htables.qualityResults, htables.catalogChanges, htables.artifacts, htables.decisions]
    refine bind_events hevents fun events events' hsame => ?_
    have hreport : ∀ run stages resources lineage quality changes artifacts decisions,
        ReadResult.withoutIds (.report ⟨run, events, stages, resources, lineage, quality, changes,
          artifacts, decisions⟩) = ReadResult.withoutIds (.report ⟨run, events', stages, resources,
            lineage, quality, changes, artifacts, decisions⟩) := by
      intro run stages resources lineage quality changes artifacts decisions
      simp only [ReadResult.withoutIds, hsame]
    simp only [map_pure, hreport]

end Reads

/-! ### Isolation -/

/-- A call of a project on two stores that agree on the project: it returns or raises the same, and
the stores agree again. -/
theorem execute_agrees {s t : Store} (hs : Integral s) (ht : Integral t)
    (h : s.only c.projectId = t.only c.projectId) : (execute s c).map (fun p => (p.1.only c.projectId, p.2)) =
      (execute t c).map fun p => (p.1.only c.projectId, p.2) := by
  have hq : (fun p => p == c.projectId) c.projectId = true := beq_self_eq_true c.projectId
  have hleft := execute_restrict (q := fun p => p == c.projectId) hs hq
  have hright := execute_restrict (q := fun p => p == c.projectId) ht hq
  calc (execute s c).map (fun p => (p.1.only c.projectId, p.2))
      = execute (s.only c.projectId) c := hleft.symm
    _ = execute (t.only c.projectId) c := by rw [h]
    _ = (execute t c).map fun p => (p.1.only c.projectId, p.2) := hright

theorem step_agrees {s t : Store} (hs : Integral s) (ht : Integral t) (h : s.only c.projectId = t.only c.projectId) :
    (step s c).only c.projectId = (step t c).only c.projectId := by
  have hsame := execute_agrees hs ht h
  unfold step
  rw [exec_eq_execute, exec_eq_execute]
  cases hx : execute s c with
  | error e =>
    cases hy : execute t c with
    | error e' => exact h
    | ok p => rw [hx, hy] at hsame; cases hsame
  | ok p =>
    cases hy : execute t c with
    | error e' => rw [hx, hy] at hsame; cases hsame
    | ok p' =>
      rw [hx, hy] at hsame
      exact congrArg Prod.fst (Except.ok.inj hsame)

/-- Calls and reads of a project: on two stores that agree on it they return the same, the surrogate
keys of events apart, and leave stores that agree again; no other project is touched. -/
theorem projects_isolated {projectId : String} {s t : Store} (hs : Integral s) (ht : Integral t)
    (h : s.only projectId = t.only projectId) : (∀ c : Call, c.projectId = projectId →
      (execute s c).map Prod.snd = (execute t c).map Prod.snd ∧
        (step s c).only projectId = (step t c).only projectId ∧
        ∀ other, other ≠ projectId → (step s c).only other = s.only other) ∧
      ∀ (hex : Sha256 → String) (c : ReadCall), c.projectId = projectId →
        (read hex s c).map ReadResult.withoutIds = (read hex t c).map ReadResult.withoutIds := by
  constructor
  · intro c hc
    subst hc
    refine ⟨?_, step_agrees hs ht h, ?_⟩
    · have hsame := congrArg (Except.map Prod.snd) (execute_agrees hs ht h)
      rw [map_map, map_map] at hsame
      exact hsame
    · intro other hother
      exact step_frame (q := fun p => p == other) (beq_false_of_ne hother.symm)
  · intro hex c hc
    subst hc
    have hq : (fun p => p == c.projectId) c.projectId = true := beq_self_eq_true c.projectId
    have hleft := read_restrict (s := s) (q := fun p => p == c.projectId) hex hq
    have hright := read_restrict (s := t) (q := fun p => p == c.projectId) hex hq
    calc (read hex s c).map ReadResult.withoutIds
        = (read hex (s.only c.projectId) c).map ReadResult.withoutIds := hleft.symm
      _ = (read hex (t.only c.projectId) c).map ReadResult.withoutIds := by rw [h]
      _ = (read hex t c).map ReadResult.withoutIds := hright

/-! ### The surrogate keys -/

def startedIn (projectId : String) : Call :=
  .appendPipelineRun ⟨⟨0, some 0⟩, ⟨0, some 0⟩⟩ { projectId, runId := "r" }

def eventIn (projectId : String) : Call :=
  .appendEvent ⟨⟨0, some 0⟩, ⟨0, some 0⟩⟩
    { event := { projectId, runId := "r", eventId := "e", eventType := "t", producer := "w" } }

/-- A store with a run of `p`, and one in which another project has the same run and an event. -/
def aloneAndShared : Store × Store :=
  (finish step Store.empty [startedIn "p"],
    finish step Store.empty [startedIn "p", startedIn "q", eventIn "q"])

theorem aloneAndShared_agree : aloneAndShared.1.only "p" = aloneAndShared.2.only "p" := by
  have hfirst : (step aloneAndShared.1 (startedIn "q")).only "p" = aloneAndShared.1.only "p" :=
    step_frame (q := fun p => p == "p") (by decide)
  have hsecond : aloneAndShared.2.only "p" = (step aloneAndShared.1 (startedIn "q")).only "p" :=
    step_frame (q := fun p => p == "p") (by decide)
  exact (hsecond.trans hfirst).symm

theorem aloneAndShared_reachable : ReachableStore aloneAndShared.1 ∧ ReachableStore aloneAndShared.2 :=
  ⟨Reachable.init.finish _, Reachable.init.finish _⟩

theorem projects_isolated_twins : let s := aloneAndShared.1
    let t := aloneAndShared.2
    (execute s (eventIn "p")).map Prod.snd = (execute t (eventIn "p")).map Prod.snd ∧
      (step t (eventIn "p")).only "q" = t.only "q" := by
  have hs : Integral aloneAndShared.1 := reachable_integral aloneAndShared_reachable.1
  have ht : Integral aloneAndShared.2 := reachable_integral aloneAndShared_reachable.2
  exact ⟨((projects_isolated hs ht aloneAndShared_agree).1 (eventIn "p") rfl).1,
    ((projects_isolated ht hs aloneAndShared_agree.symm).1 (eventIn "p") rfl).2.2 "q" (by decide)⟩

def Store.eventsOf (s : Store) (projectId : String) : List EventRecord :=
  s.eventRecords.filter fun event => event.row.projectId == projectId

/-- The surrogate keys depend on the other projects: two stores may agree on every row of a project and
no longer do so after one call. -/
theorem event_ids_leak : ¬ ∀ (projectId : String) (s t : Store) (c : Call), ReachableStore s → ReachableStore t →
      c.projectId = projectId → s.only projectId = t.only projectId → s.eventsOf projectId = t.eventsOf projectId →
        (step s c).eventsOf projectId = (step t c).eventsOf projectId := by
  intro hagree
  have hnone : ∀ events : List EventRecord, events.length = 0 → events = [] := fun _ =>
    List.eq_nil_of_length_eq_zero
  have hs : aloneAndShared.1.eventsOf "p" = [] := hnone _ (by decide +kernel)
  have ht : aloneAndShared.2.eventsOf "p" = [] := hnone _ (by decide +kernel)
  have hafter := hagree "p" aloneAndShared.1 aloneAndShared.2 (eventIn "p") aloneAndShared_reachable.1
    aloneAndShared_reachable.2 rfl aloneAndShared_agree (hs.trans ht.symm)
  have hids := congrArg (List.map EventRecord.id) hafter
  have hleft : ((step aloneAndShared.1 (eventIn "p")).eventsOf "p").map EventRecord.id = [1] := by
    decide +kernel
  have hright : ((step aloneAndShared.2 (eventIn "p")).eventsOf "p").map EventRecord.id = [2] := by
    decide +kernel
  rw [hleft, hright] at hids
  exact absurd hids (by decide)

end Phlo.RunEvidence
