import Phlo.RunEvidence.EvidenceDigest
import Phlo.RunEvidence.Store.RunRow

/-!
# The decision log

A decision is stored under its identity, and storing one again requires the same record checksum.  The
identity covers `sorted(set(missing))` and no stale seconds, the record checksum the list itself and
the stale seconds; everything else that the record checksum covers follows from the identity.

* `reachable_evaluated` — every stored decision is the row of an evaluation.
-/

namespace Phlo.RunEvidence

open Phlo.Library

/-! ### What the record checksum covers -/

theorem canonical_decisionPayload (d : ReconciliationDecision) : (decisionPayload d).map canonicalField =
      [("decision_id", d.decisionId.json), ("project_id", .str (redactText d.projectId)),
        ("run_id", .str (redactText d.runId)), ("attempt", .int d.attempt),
        ("profile_id", .str (redactText d.profileId)), ("profile_version", .str (redactText d.profileVersion)),
        ("status", .str d.status.value), ("evidence_completeness", .str d.evidenceCompleteness.value),
        ("reason", .str (redactText d.reason)), ("missing_evidence", .ofTexts (d.missingEvidence.map redactText)),
        ("evidence_checksum", d.evidenceChecksum.json), ("source", .str (redactText d.source)),
        ("heartbeat_at", .ofInstant d.heartbeatAt), ("stale_after_seconds", .ofInt d.staleAfterSeconds),
        ("observed_event_count", .int d.observedEventCount), ("finished_at", .ofInstant d.finishedAt)] := by
  simp (disch := decide +kernel) only [decisionPayload, List.map_cons, List.map_nil, canonicalField,
    canonicalValue_plain, canonicalJson_str, canonicalJson_int, canonicalJson_ofInstant,
    canonicalJson_ofInt, canonicalJson_ofTexts, Sha256.json, canonicalJson_digest,
    RunStatus.redactText_value, EvidenceCompleteness.redactText_value]

theorem decisionPayload_keys (d : ReconciliationDecision) : (decisionPayload d).map Prod.fst =
      ["decision_id", "project_id", "run_id", "attempt", "profile_id", "profile_version", "status",
        "evidence_completeness", "reason", "missing_evidence", "evidence_checksum", "source",
        "heartbeat_at", "stale_after_seconds", "observed_event_count", "finished_at"] := rfl

theorem sameGaps_of_checksum {d e : ReconciliationDecision}
    (h : (decisionRow d).recordChecksum = (decisionRow e).recordChecksum) :
    d.staleAfterSeconds = e.staleAfterSeconds ∧
      d.missingEvidence.map redactText = e.missingEvidence.map redactText := by
  have hkeys : (decisionPayload d).map Prod.fst = (decisionPayload e).map Prod.fst := by
    rw [decisionPayload_keys, decisionPayload_keys]
  have hnodup : ((decisionPayload d).map Prod.fst).Nodup := by
    rw [decisionPayload_keys]
    decide
  have hfields := (canonicalJson_obj_inj hkeys hnodup).1 ((payloadChecksum_inj _ _).1 h)
  rw [canonical_decisionPayload, canonical_decisionPayload] at hfields
  have hmissing := congrArg (fun fields : Dict => fields.lookup "missing_evidence") hfields
  have hstale := congrArg (fun fields : Dict => fields.lookup "stale_after_seconds") hfields
  exact ⟨Json.ofInt_injective (Option.some.inj hstale),
    Json.ofTexts_injective (Option.some.inj hmissing)⟩

namespace ReconciliationInput

variable {x y : ReconciliationInput}

/-- Two evaluations agree in what the record checksum covers and the identity does not: the stale
seconds, and the gaps with their order and multiplicity. -/
structure SameGaps (x y : ReconciliationInput) : Prop where
  staleSeconds : x.staleSeconds = y.staleSeconds
  missing : x.missing.map redactText = y.missing.map redactText

theorem completeness_of_sameDigest (h : SameDigest x y) : x.outcome.completeness = y.outcome.completeness := by
  have hdegraded : x.isDegraded = y.isDegraded := by
    rw [isDegraded, isDegraded, h.explicitState]
  have hempty : x.missing.isEmpty = y.missing.isEmpty := by
    rw [Bool.eq_iff_iff, List.isEmpty_iff, List.isEmpty_iff]
    have hnil := congrArg (fun l : List String => l = []) h.missing
    simpa only [List.map_eq_nil_iff, sortedSet_eq_nil, eq_iff_iff] using hnil
  rw [outcome_completeness, outcome_completeness, h.providerStatus, hdegraded, h.explicitState, hempty]

/-- The number of observed events follows from the identity. -/
theorem eventCount_of_sameDigest (h : SameDigest x y) : x.attemptEvents.length = y.attemptEvents.length := by
  have hlength := congrArg List.length h.events
  simpa [sortedEvents, (sortBy_perm _ _).length_eq] using hlength

/-- **Identity and content.**  Two evaluations with one decision identity have one record checksum
exactly when they agree in the stale seconds and the gaps. -/
theorem recordChecksum_eq_iff (h : x.decisionId = y.decisionId) :
    (decisionRow x.decision).recordChecksum = (decisionRow y.decision).recordChecksum ↔ SameGaps x y := by
  constructor
  · intro hsame
    obtain ⟨hstale, hmissing⟩ := sameGaps_of_checksum hsame
    exact ⟨hstale, hmissing⟩
  · intro hgaps
    have hdigest := (decisionId_eq_iff x y).1 h
    have hchecksum := (evidenceChecksum_eq_iff x y).2 hdigest
    show payloadChecksum _ = payloadChecksum _
    rw [payloadChecksum_inj, canonicalJson_obj, canonicalJson_obj, canonical_decisionPayload,
      canonical_decisionPayload]
    simp only [decision, h, hchecksum, hdigest.projectId, hdigest.runId, hdigest.attempt,
      hdigest.profileId, hdigest.profileVersion, hdigest.status, completeness_of_sameDigest hdigest,
      hdigest.reason, hgaps.missing, hdigest.source, hdigest.heartbeatAt, hgaps.staleSeconds,
      eventCount_of_sameDigest hdigest, hdigest.finishedAt]

end ReconciliationInput

/-! ### Stored decisions -/

def Evaluated (s : Store) : Prop :=
  ∀ row ∈ s.decisions.rows, ∃ x : ReconciliationInput, row = decisionRow x.decision

theorem evaluated_empty : Evaluated Store.empty := by
  intro row hrow
  cases hrow

theorem exec_evaluated {s s' : Store} {c : Call} (h : exec s c = .ok s') (hs : Evaluated s) : Evaluated s' := by
  rcases exec_cases h with hrec | ⟨clock, scan, q, r, -, hrec⟩
  · intro row hrow
    rw [hrec.sameDecisions] at hrow
    exact hs row hrow
  · obtain ⟨i, d, hi, hd, -, hcases⟩ := reconcile_eq_ok.1 hrec
    obtain ⟨-, rfl⟩ := (i.evidence.evaluate_ok_iff d).1 hd
    have hi' : Evaluated i.store := by
      intro row hrow
      rw [(ingest_recording hi).sameDecisions] at hrow
      exact hs row hrow
    rcases hcases with ⟨-, -, rfl⟩ | ⟨stored, -, -, -, rfl⟩
    · rw [applyDecision_frame]
      intro row hrow
      rcases (KeyedTable.mem_insertOrIgnore _ _ _).1 hrow with hrow | ⟨-, rfl⟩
      · exact hi' row hrow
      · exact ⟨i.evidence, rfl⟩
    · rw [restored_frame]
      exact hi'

theorem reachable_evaluated {s : Store} (h : ReachableStore s) : Evaluated s := by
  refine h.invariant evaluated_empty ?_
  intro s c hs
  exact step_of_exec (P := fun s s' => Evaluated s → Evaluated s') (fun _ h => h)
    (fun _ _ _ hexec => exec_evaluated hexec) s c hs

def DecisionRow.Agrees (stored : DecisionRow) (x : ReconciliationInput) : Prop :=
  stored.staleAfterSeconds = x.staleSeconds ∧ stored.missingEvidence = x.missing.map redactText

theorem stored_checksum_iff {s : Store} (hs : Evaluated s) {x : ReconciliationInput}
    {stored : DecisionRow} (h : storedDecision s x.decision = some stored) :
    stored.recordChecksum = (decisionRow x.decision).recordChecksum ↔ stored.Agrees x := by
  have hfound : s.decisions.find (decisionRow x.decision).key = some stored := h
  obtain ⟨y, rfl⟩ := hs stored (KeyedTable.mem_of_find hfound)
  have hkey := KeyedTable.key_of_find hfound
  rw [decisionRow_key, decisionRow_key] at hkey
  have hid : y.decisionId = x.decisionId := (Prod.mk.inj hkey).2
  rw [ReconciliationInput.recordChecksum_eq_iff hid]
  constructor
  · intro hgaps
    exact ⟨hgaps.staleSeconds, hgaps.missing⟩
  · intro hagrees
    exact ⟨hagrees.1, hagrees.2⟩

namespace ReconciliationInput

variable (x : ReconciliationInput)

/-- The same evaluation under another stale policy. -/
def withStale (staleAfter : Option ℤ) : ReconciliationInput := { x with staleAfter := staleAfter }

theorem missing_withStale (staleAfter : Option ℤ) : (x.withStale staleAfter).missing = x.missing :=
  rfl

theorem outcome_withStale (staleAfter : Option ℤ) (ht : x.observation.status.any RunStatus.isTerminal = true) :
    (x.withStale staleAfter).outcome = x.outcome := by
  rw [← x.status_terminal] at ht
  obtain ⟨status, hs, hterminal⟩ := (Option.any_eq_true _ _).1 ht
  have hs' : (x.withStale staleAfter).status = some status := hs
  simp only [outcome, hs, hs', resolveRunOutcome, hterminal, Bool.not_true, Bool.false_and,
    Bool.false_eq_true, if_false]
  rfl

/-- Neither does its identity. -/
theorem decisionId_withStale (staleAfter : Option ℤ) (ht : x.observation.status.any RunStatus.isTerminal = true) :
    (x.withStale staleAfter).decisionId = x.decisionId := by
  have houtcome := x.outcome_withStale staleAfter ht
  rw [decisionId_eq_iff]
  exact
    { projectId := rfl, runId := rfl, attempt := rfl, status := by rw [houtcome]
      providerStatus := rfl, startedAt := rfl, finishedAt := rfl, heartbeatAt := rfl, events := rfl
      stages := rfl, source := rfl, pipelineName := rfl, provider := rfl, providerRunId := rfl
      explicitState := rfl, missing := rfl, timingPolicy := rfl, profileId := rfl
      profileVersion := rfl, reason := by rw [houtcome] }

end ReconciliationInput

def endedRun : ReconciliationInput where
  observation := { projectId := "p", runId := "r", status := some .success }
  profile := { profileId := "f", version := "1" }
  now := ⟨0, some 0⟩

theorem evaluate_endedRun (staleAfter : Option ℤ) : evaluateReconciliation (endedRun.withStale staleAfter) =
      .ok (endedRun.withStale staleAfter).decision := rfl

end Phlo.RunEvidence
