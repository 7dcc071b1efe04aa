import Phlo.RunEvidence.DecisionLog
import Phlo.RunEvidence.SettledRow
import Phlo.RunEvidence.Store.Redelivered

/-!
# Reconciling an observation twice

A call with the same observation, at a later time, that is evaluated to the same decision should return
the stored decision and change nothing.  Its events and stages are there already; its decision is
stored, with the checksum it requires when the gaps are the same; what may change is the run row, which
is upserted but not updated with the decision again.

* `sameStore_restored_iff` — when it leaves the store as it was.
-/

namespace Phlo.RunEvidence

open Phlo.Library

/-! ### The second call -/

/-- The stores hold the same rows, the timestamps of run rows compared as instants. -/
structure SameStore (s s' : Store) : Prop where
  runs : ∀ k, (s'.runs.find k).map PipelineRunRow.asInstants =
    (s.runs.find k).map PipelineRunRow.asInstants
  events : s'.events = s.events
  stages : s'.stages = s.stages
  resources : s'.resources = s.resources
  lineageEdges : s'.lineageEdges = s.lineageEdges
  catalogChanges : s'.catalogChanges = s.catalogChanges
  qualityResults : s'.qualityResults = s.qualityResults
  artifacts : s'.artifacts = s.artifacts
  decisions : s'.decisions = s.decisions

def ReconcileRequest.repeated (q : ReconcileRequest) (now : Timestamp) : ReconcileRequest :=
  { q with now := now }

theorem reconcile_stored {s s₁ : Store} {clock : Clock} {scan : Scan} {q : ReconcileRequest}
    {r : ReconciliationDecision} {i : Ingested} (hs : Evaluated s)
    (h : reconcileObservation s clock scan q = .ok (s₁, r)) (hi : ingest s clock scan q = .ok i) :
    (decisionRow r).key = (decisionRow i.evidence.decision).key ∧
      ∃ stored, storedDecision s₁ r = some stored ∧ stored.Agrees i.evidence := by
  obtain ⟨i', d, hi', hd, -, hcases⟩ := reconcile_eq_ok.1 h
  obtain rfl := Except.ok.inj (hi.symm.trans hi')
  obtain ⟨-, rfl⟩ := (i.evidence.evaluate_ok_iff d).1 hd
  rcases hcases with ⟨hnew, rfl, rfl⟩ | ⟨stored, hold, hchecksum, rfl, rfl⟩
  · refine ⟨rfl, decisionRow i.evidence.decision, ?_, rfl, rfl⟩
    rw [storedDecision, applyDecision_frame]
    show ((i.store.decisions.insertOrIgnore _).1).find _ = _
    rw [KeyedTable.find_insertOrIgnore_self]
    rw [storedDecision] at hnew
    rw [hnew]
    rfl
  · have hfound : i.store.decisions.find (decisionRow i.evidence.decision).key = some stored := hold
    have hevaluated : Evaluated i.store := by
      intro row hrow
      rw [(ingest_recording hi).sameDecisions] at hrow
      exact hs row hrow
    have hkey := KeyedTable.key_of_find hfound
    refine ⟨(decisionFromRow_key stored).trans hkey, stored, ?_, ?_⟩
    · rw [storedDecision, restored_frame, decisionFromRow_key, hkey]
      exact hfound
    · exact (stored_checksum_iff hevaluated hold).1 hchecksum

section Again

variable {s s₁ : Store} {clock clock' : Clock} {scan scan' : Scan} {q : ReconcileRequest}
  {t : Timestamp} {r : ReconciliationDecision} {i i' : Ingested}

/-- What the second call does to the tables, if it finds the decision: the run row is merged and
given its update time back. -/
theorem sameStore_restored_iff (hp : q.observation.lookupOutcome = .present)
    (hi : ingest s clock scan q = .ok i) (h : reconcileObservation s clock scan q = .ok (s₁, r))
    (hi' : ingest s₁ clock' scan' (q.repeated t) = .ok i') : SameStore s₁ (restored s₁ i') ↔
      ∀ row, s₁.runs.find q.observation.key = some row → row.Settled q.observation := by
  obtain ⟨row, hrow, hholds⟩ := reconcile_holds h hp
  have hstore := ingest_again_store hp hi h hi' rfl
  have hobs : i'.observation = q.observation := (ingest_present hi' hp).1
  have hself : (restored s₁ i').runs.find q.observation.key =
      some
      { mergeRun clock' (runRow clock' (observedRun q.observation)) row with
        updatedAt := row.updatedAt.canonical } := by
    have hmerged : i'.store.runs.find i'.observation.key =
        some (mergeRun clock' (runRow clock' (observedRun q.observation)) row) := by
      rw [hstore, hobs]
      refine (upsertRun_find_self s₁ clock' (observedRun q.observation)).trans ?_
      rw [show s₁.runs.find ((observedRun q.observation).projectId,
        (observedRun q.observation).runId) = some row from hrow]
      rfl
    have hrestored := restored_find_self hmerged (s := s₁)
    rw [hobs, replayedRow, hrow] at hrestored
    exact hrestored
  have hother : ∀ k, k ≠ q.observation.key → (restored s₁ i').runs.find k = s₁.runs.find k := by
    intro k hk
    rw [restored_find_of_ne s₁ i' (by rw [hobs]; exact hk), hstore]
    exact upsertRun_find_of_ne s₁ clock' hk
  have hsettled : (∀ row', s₁.runs.find q.observation.key = some row' → row'.Settled q.observation) ↔
      row.Settled q.observation := by
    constructor
    · intro hall
      exact hall row hrow
    · intro hrowSettled row' hrow'
      obtain rfl := Option.some.inj (hrow.symm.trans hrow')
      exact hrowSettled
  rw [hsettled, ← asInstants_mergeRun_iff clock' clock' hholds]
  constructor
  · intro hsame
    have hruns := hsame.runs q.observation.key
    rw [hself, hrow] at hruns
    exact Option.some.inj hruns
  · intro hsame
    rw [restored_frame, hstore]
    refine ⟨fun k => ?_, rfl, rfl, rfl, rfl, rfl, rfl, rfl, rfl⟩
    by_cases hk : k = q.observation.key
    · subst hk
      show ((restored s₁ i').runs.find q.observation.key).map _ = _
      rw [hself, hrow]
      exact congrArg some hsame
    · show ((restored s₁ i').runs.find k).map _ = _
      rw [hother k hk]

/-- The second call finds the decision of the first, and returns it when the gaps are the same. -/
theorem reconcile_again_iff (hs : ReachableStore s) (hp : q.observation.lookupOutcome = .present)
    (hi : ingest s clock scan q = .ok i) (h : reconcileObservation s clock scan q = .ok (s₁, r))
    (hi' : ingest s₁ clock' scan' (q.repeated t) = .ok i') {d : ReconciliationDecision}
    (hd : evaluateReconciliation i'.evidence = .ok d) (hid : d.decisionId = r.decisionId)
    (s₂ : Store) (r₂ : ReconciliationDecision) : reconcileObservation s₁ clock' scan' (q.repeated t) = .ok (s₂, r₂) ↔
      i.evidence.missing.map redactText = i'.evidence.missing.map redactText ∧
        s₂ = restored s₁ i' ∧ ∃ stored, storedDecision s₁ r = some stored ∧ r₂ = decisionFromRow stored := by
  obtain ⟨-, rfl⟩ := (i'.evidence.evaluate_ok_iff d).1 hd
  obtain ⟨hkey, stored, hstored, hagrees⟩ := reconcile_stored (reachable_evaluated hs) h hi
  have hstore := ingest_again_store hp hi h hi' rfl
  have heval : Evaluates q q.observation i.evidence := by
    obtain ⟨i₀, hi₀, heval, -⟩ := reconcile_present h hp
    obtain rfl := Except.ok.inj (hi.symm.trans hi₀)
    exact heval
  have heval' : Evaluates (q.repeated t) q.observation i'.evidence := by
    obtain ⟨-, -, -, -, hread, -⟩ := ingest_eq_ok.1 hi'
    have hread' := readEvidence_evaluates hread
    rw [(ingest_present hi' hp).1] at hread'
    exact hread'
  have hfound : storedDecision i'.store i'.evidence.decision = some stored := by
    have hproject : i'.evidence.decision.projectId = i.evidence.decision.projectId := by
      show i'.evidence.observation.projectId = i.evidence.observation.projectId
      rw [heval'.observation, heval.observation]
    have hkey' : (decisionRow i'.evidence.decision).key = (decisionRow r).key := by
      rw [decisionRow_key, decisionRow_key] at hkey
      rw [decisionRow_key, decisionRow_key, hid, hproject, ← (Prod.mk.inj hkey).1]
    rw [storedDecision, hstore, hkey']
    exact hstored
  have hchecksum : stored.recordChecksum = (decisionRow i'.evidence.decision).recordChecksum ↔
      i.evidence.missing.map redactText = i'.evidence.missing.map redactText := by
    have hevaluated : Evaluated i'.store := by
      have hexec : exec s (.reconcileObservation clock scan q) = .ok s₁ :=
        map_eq_ok.2 ⟨(s₁, r), h, rfl⟩
      have hfirst : Evaluated s₁ := exec_evaluated hexec (reachable_evaluated hs)
      rw [hstore]
      exact hfirst
    have hstale : i.evidence.staleSeconds = i'.evidence.staleSeconds := by
      rw [ReconciliationInput.staleSeconds, ReconciliationInput.staleSeconds, heval.staleAfter,
        heval'.staleAfter]
      rfl
    rw [stored_checksum_iff hevaluated hfound, DecisionRow.Agrees, hagrees.1, hagrees.2]
    exact ⟨fun hgaps => hgaps.2, fun hgaps => ⟨hstale, hgaps⟩⟩
  constructor
  · intro hagain
    obtain ⟨i₀, d, hi₀, hd₀, -, hcases⟩ := reconcile_eq_ok.1 hagain
    obtain rfl := Except.ok.inj (hi'.symm.trans hi₀)
    obtain rfl := Except.ok.inj (hd.symm.trans hd₀)
    rcases hcases with ⟨hnew, -⟩ | ⟨stored', hold, hsame, rfl, rfl⟩
    · rw [hfound] at hnew
      cases hnew
    · obtain rfl := Option.some.inj (hfound.symm.trans hold)
      exact ⟨hchecksum.1 hsame, rfl, stored, hstored, rfl⟩
  · rintro ⟨hgaps, rfl, stored', hstored', rfl⟩
    obtain rfl := Option.some.inj (hstored.symm.trans hstored')
    refine reconcile_eq_ok.2 ⟨i', _, hi', hd, ?_, Or.inr ⟨stored, hfound, hchecksum.2 hgaps, rfl, rfl⟩⟩
    rw [restored_frame, hstore]
    obtain ⟨-, -, -, -, hall, -⟩ := reconcile_eq_ok.1 h
    exact hall

end Again

/-! ### The second evaluation -/

/-- What is read depends on the tables of the evidence, and on the time of the call in one place. -/
theorem readEvidence_repeated {s s' : Store} {scan : Scan} {q : ReconcileRequest} {o : RunObservation}
    {x : ReconciliationInput} (h : readEvidence s scan q o = .ok x)
    (hs' : s' = { s with runs := s'.runs, decisions := s'.decisions }) (t : Timestamp) :
    readEvidence s' scan (q.repeated t) o = .ok { x with now := t } := by
  rw [hs']
  simp only [readEvidence, bind_eq_ok] at h ⊢
  obtain ⟨resources, hresources, catalogChanges, hcatalog, qualityResults, hquality, artifacts,
    hartifacts, events, hevents, stages, hstages, h⟩ := h
  cases h
  exact ⟨resources, hresources, catalogChanges, hcatalog, qualityResults, hquality, artifacts,
    hartifacts, events, hevents, stages, hstages, rfl⟩

/-- Read in the same order, the second evaluation is the first one at another time. -/
theorem evidence_repeated {s s₁ : Store} {clock clock' : Clock} {scan : Scan} {q : ReconcileRequest}
    {t : Timestamp} {r : ReconciliationDecision} {i i' : Ingested}
    (hp : q.observation.lookupOutcome = .present) (hi : ingest s clock scan q = .ok i)
    (h : reconcileObservation s clock scan q = .ok (s₁, r))
    (hi' : ingest s₁ clock' scan (q.repeated t) = .ok i') :
    i'.evidence = { i.evidence with now := t } := by
  have hstore := ingest_again_store hp hi h hi' rfl
  have htables := reconcile_tables h hi
  have hstore' : i'.store = { i.store with runs := i'.store.runs, decisions := i'.store.decisions } := by
    rw [hstore, htables]
    rfl
  obtain ⟨-, -, -, -, hread, -⟩ := ingest_eq_ok.1 hi
  obtain ⟨-, -, -, -, hread', -⟩ := ingest_eq_ok.1 hi'
  rw [(ingest_present hi hp).1] at hread
  rw [(ingest_present hi' hp).1] at hread'
  exact Except.ok.inj (hread'.symm.trans (readEvidence_repeated hread hstore' t))

/-! ### Both calls -/

section Repeated

variable {s s₁ : Store} {clock clock' : Clock} {scan scan' : Scan} {q : ReconcileRequest}
  {t : Timestamp} {r d : ReconciliationDecision} {i i' : Ingested}

end Repeated

/-! ### A run that is reconciled twice in a row -/

def bareRequest (status : Option RunStatus) : ReconcileRequest where
  observation := { projectId := "p", runId := "r", status }
  profile := { profileId := "f", version := "1" }
  now := ⟨0, some 0⟩

/-- What is read for the second of two calls on an empty store. -/
def bareTwice (status : Option RunStatus) : Except StoreError Ingested := do
  let clock : Clock := ⟨⟨0, some 0⟩, ⟨0, some 0⟩⟩
  let (s, _) ← reconcileObservation Store.empty clock {} (bareRequest status)
  ingest s clock {} ((bareRequest status).repeated ⟨0, some 0⟩)

theorem bareTwice_ok (status : Option RunStatus) (h : status = none ∨ status = some .success) :
    (bareTwice status).isOk = true := by
  rcases h with rfl | rfl
  · decide +kernel
  · decide +kernel

theorem bareRequest_twice (status : Option RunStatus) (hok : status = none ∨ status = some .success) :
    ∃ s r i i', ingest Store.empty ⟨⟨0, some 0⟩, ⟨0, some 0⟩⟩ {} (bareRequest status) = .ok i ∧
      reconcileObservation Store.empty ⟨⟨0, some 0⟩, ⟨0, some 0⟩⟩ {} (bareRequest status) = .ok (s, r) ∧
      ingest s ⟨⟨0, some 0⟩, ⟨0, some 0⟩⟩ {} ((bareRequest status).repeated ⟨0, some 0⟩) = .ok i' ∧
      i'.evidence = i.evidence ∧ evaluateReconciliation i'.evidence = .ok i'.evidence.decision ∧
      i'.evidence.decision.decisionId = r.decisionId := by
  have htwice := bareTwice_ok status hok
  cases h' : bareTwice status with
  | error e =>
    rw [h'] at htwice
    cases htwice
  | ok i' =>
    simp only [bareTwice, bind_eq_ok] at h'
    obtain ⟨⟨s, r⟩, h, hi'⟩ := h'
    obtain ⟨i, hi, heval, hadmissible, -⟩ := reconcile_present h rfl
    have hnow : (⟨0, some 0⟩ : Timestamp) = i.evidence.now := heval.now.symm
    have hevidence : i'.evidence = i.evidence := by
      rw [evidence_repeated rfl hi h hi', hnow]
    have hkey := (reconcile_stored evaluated_empty h hi).1
    rw [decisionRow_key, decisionRow_key] at hkey
    refine ⟨s, r, i, i', hi, h, hi', hevidence, ?_, ?_⟩
    · rw [hevidence]
      exact (i.evidence.evaluate_ok_iff _).2 ⟨hadmissible, rfl⟩
    · rw [hevidence]
      exact (Prod.mk.inj hkey).2.symm

end Phlo.RunEvidence
