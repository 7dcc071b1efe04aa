import Phlo.RunEvidence.Store.Recording

/-!
# What holds in every reachable store

* `reachable_coherent` — an event or quality row that names a stored stage has its attempt;
* `reachable_integral` — the deferred foreign keys of the quality table hold;
* `referring_rows_share_stage_attempt` — the first one on the rows, whichever was written first.
-/

namespace Phlo.RunEvidence

open Phlo.Library

theorem reachable_coherent {s : Store} (h : ReachableStore s) : Coherent s := by
  refine h.invariant coherent_empty ?_
  intro s c hs
  exact step_of_exec (P := fun s s' => Coherent s → Coherent s') (fun _ h => h)
    (fun _ _ _ hexec => exec_coherent hexec) s c hs

/-- The deferred foreign keys of the quality table hold. -/
def Integral (s : Store) : Prop := s.qualityResults.rows.all s.referencesExist = true

theorem integral_empty : Integral Store.empty := rfl

theorem exec_integral {s s' : Store} {c : Call} (h : exec s c = .ok s') : Integral s' := by
  cases c with
  | appendPipelineRun clock run =>
    obtain ⟨rfl, hall⟩ := commit_eq_ok.1 h
    exact hall
  | appendEvent clock b =>
    obtain ⟨⟨t, inserted⟩, ht, rfl⟩ := map_eq_ok.1 h
    exact (appendEvent_cases ht).2.2.1
  | reconcileObservation clock scan q =>
    obtain ⟨⟨t, r⟩, ht, rfl⟩ := map_eq_ok.1 h
    obtain ⟨i, d, -, -, hall, -⟩ := reconcile_eq_ok.1 ht
    exact hall
  | appendStage _ | appendResource _ | appendLineageEdge _ | appendQualityResult _ | appendCatalogChange _
  | appendArtifact _ =>
    exact (insertion_eq_ok.1 h).2.2

theorem reachable_integral {s : Store} (h : ReachableStore s) : Integral s := by
  refine h.invariant integral_empty ?_
  intro s c hs
  exact step_of_exec (P := fun s s' => Integral s → Integral s') (fun _ h => h)
    (fun _ _ _ hexec _ => exec_integral hexec) s c hs

/-- **Stage/attempt coherence.**  In every reachable store, an event or quality row that names a
stored stage of its run carries the attempt of that stage. -/
theorem referring_rows_share_stage_attempt {s : Store} (h : ReachableStore s) :
    (∀ event ∈ s.events.rows, ∀ stage ∈ s.stages.rows, stage.projectId = event.projectId →
        stage.runId = event.runId → event.stageId = some stage.stageId → event.attempt = stage.attempt) ∧
      ∀ quality ∈ s.qualityResults.rows, ∀ stage ∈ s.stages.rows,
        stage.projectId = quality.projectId → stage.runId = quality.runId →
        quality.stageId = some stage.stageId → quality.attempt = stage.attempt := by
  have hs := reachable_coherent h
  refine ⟨?_, ?_⟩
  · intro event hevent stage hstage hproject hrun hid
    have hfind : s.stages.find (event.projectId, event.runId, stage.stageId) = some stage := by
      rw [← hproject, ← hrun]
      exact KeyedTable.find_of_mem hstage
    exact (hs.events event hevent stage.stageId hid stage hfind).symm
  · intro quality hquality stage hstage hproject hrun hid
    have hfind : s.stages.find (quality.projectId, quality.runId, stage.stageId) = some stage := by
      rw [← hproject, ← hrun]
      exact KeyedTable.find_of_mem hstage
    exact (hs.qualityResults quality hquality stage.stageId hid stage hfind).symm

def eventBeforeStage : List Call :=
  [.appendPipelineRun ⟨⟨0, some 0⟩, ⟨0, some 0⟩⟩ { projectId := "p", runId := "r" },
    .appendEvent ⟨⟨0, some 0⟩, ⟨0, some 0⟩⟩ { event :=
      { projectId := "p", runId := "r", eventId := "e", eventType := "t", producer := "w",
        stageId := some "g" } },
    .appendStage { projectId := "p", runId := "r", stageId := "g" }]

theorem referring_rows_share_stage_attempt_recorded : let s := finish step Store.empty eventBeforeStage
    s.stages.rows.length = 1 ∧
      ∀ event ∈ s.events.rows, ∀ stage ∈ s.stages.rows, stage.projectId = event.projectId →
        stage.runId = event.runId → event.stageId = some stage.stageId →
        event.attempt = stage.attempt :=
  ⟨by decide +kernel, (referring_rows_share_stage_attempt (Reachable.init.finish _)).1⟩

end Phlo.RunEvidence
