import Phlo.Library.Transition
import Phlo.RunEvidence.Store.Reconcile

/-!
# The store as a transition system

A `Call` is one public method of the store with its arguments and the clocks it reads; `exec` runs
it as one transaction and `step` is what the store looks like afterwards: a refused call is rolled
back.  `ReachableStore` are the stores some sequence of calls leads to from an empty database.
-/

namespace Phlo.RunEvidence

open Phlo.Library

inductive Call where
  | appendPipelineRun (clock : Clock) (run : PipelineRun)
  | appendEvent (clock : Clock) (bundle : EventBundle)
  | appendStage (stage : RunStage)
  | appendResource (resource : RunResource)
  | appendLineageEdge (edge : RunLineageEdge)
  | appendQualityResult (result : RunQualityResult)
  | appendCatalogChange (change : RunCatalogChange)
  | appendArtifact (artifact : RunArtifact)
  | reconcileObservation (clock : Clock) (scan : Scan) (request : ReconcileRequest)

def exec (s : Store) : Call → Except StoreError Store
  | .appendPipelineRun clock run => appendPipelineRun s clock run
  | .appendEvent clock bundle => (appendEvent s clock bundle).map Prod.fst
  | .appendStage stage => appendStage s stage
  | .appendResource resource => appendResource s resource
  | .appendLineageEdge edge => appendLineageEdge s edge
  | .appendQualityResult result => appendQualityResult s result
  | .appendCatalogChange change => appendCatalogChange s change
  | .appendArtifact artifact => appendArtifact s artifact
  | .reconcileObservation clock scan request =>
    (reconcileObservation s clock scan request).map Prod.fst

/-- The store after a call: a refused call leaves it alone. -/
def step (s : Store) (c : Call) : Store :=
  match exec s c with
  | .ok s' => s'
  | .error _ => s

abbrev ReachableStore : Store → Prop := Reachable step Store.empty

theorem step_of_ok {s s' : Store} {c : Call} (h : exec s c = .ok s') : step s c = s' := by
  rw [step, h]

theorem step_of_error {s : Store} {c : Call} {e : StoreError} (h : exec s c = .error e) : step s c = s := by
  rw [step, h]

/-- What every committed call keeps, every step keeps. -/
theorem step_of_exec {P : Store → Store → Prop} (hrefl : ∀ s, P s s)
    (h : ∀ s c s', exec s c = .ok s' → P s s') (s : Store) (c : Call) : P s (step s c) := by
  cases hc : exec s c with
  | error e =>
    rw [step_of_error hc]
    exact hrefl s
  | ok s' =>
    rw [step_of_ok hc]
    exact h s c s' hc

end Phlo.RunEvidence
