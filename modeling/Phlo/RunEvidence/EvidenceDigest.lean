import Phlo.RunEvidence.Evaluation

/-!
# What a decision identity covers

The evidence checksum digests the canonical form of `evidencePayload`, after redaction.
`SameDigest x y` lists, field by field, what two evaluations must share for their digests to be one.
The record rows are not in the list: they stand under the key `records`, which redaction takes for
row data.

* `evidenceChecksum_eq_iff`, `decisionId_eq_iff` — two evaluations have one checksum, and one
  decision identity, exactly when they agree on that list.
-/

namespace Phlo.RunEvidence

open Phlo.Library

/-- What the evidence checksum tells apart. -/
structure SameDigest (x y : ReconciliationInput) : Prop where
  projectId : redactText x.observation.projectId = redactText y.observation.projectId
  runId : redactText x.observation.runId = redactText y.observation.runId
  attempt : x.observation.attempt = y.observation.attempt
  status : x.outcome.status = y.outcome.status
  providerStatus : x.observation.status = y.observation.status
  startedAt : x.observation.startedAt = y.observation.startedAt
  finishedAt : x.observation.finishedAt = y.observation.finishedAt
  heartbeatAt : x.observation.heartbeatAt = y.observation.heartbeatAt
  events : (x.sortedEvents.map ReconciliationInput.eventEvidence).map canonicalJson =
    (y.sortedEvents.map ReconciliationInput.eventEvidence).map canonicalJson
  stages : (x.sortedStages.map ReconciliationInput.stageEvidence).map canonicalJson =
    (y.sortedStages.map ReconciliationInput.stageEvidence).map canonicalJson
  source : redactText x.observation.source = redactText y.observation.source
  pipelineName : text x.observation.pipelineName = text y.observation.pipelineName
  provider : text x.observation.provider = text y.observation.provider
  providerRunId : text x.observation.providerRunId = text y.observation.providerRunId
  explicitState : x.explicitState = y.explicitState
  missing : (sortedSet x.missing).map redactText = (sortedSet y.missing).map redactText
  timingPolicy : totalSeconds x.clockSkew = totalSeconds y.clockSkew
  profileId : redactText x.profile.profileId = redactText y.profile.profileId
  profileVersion : redactText x.profile.version = redactText y.profile.version
  reason : redactText x.outcome.reason = redactText y.outcome.reason

theorem text_map_value (s : Option RunStatus) : text (s.map RunStatus.value) = s.map RunStatus.value := by
  cases s with
  | none => rfl
  | some s => exact congrArg some (RunStatus.redactText_value s)

theorem text_map_completeness (s : Option EvidenceCompleteness) :
    text (s.map EvidenceCompleteness.value) = s.map EvidenceCompleteness.value := by
  cases s with
  | none => rfl
  | some s => exact congrArg some (EvidenceCompleteness.redactText_value s)

namespace ReconciliationInput

variable (x y : ReconciliationInput)

theorem canonical_evidencePayload : x.evidencePayload.map canonicalField =
      [("project_id", .str (redactText x.observation.projectId)), ("run_id", .str (redactText x.observation.runId)),
        ("attempt", .int x.observation.attempt), ("status", .str x.outcome.status.value),
        ("provider_status", .ofText (x.observation.status.map RunStatus.value)),
        ("started_at", .ofInstant x.observation.startedAt), ("finished_at", .ofInstant x.observation.finishedAt),
        ("heartbeat_at", .ofInstant x.observation.heartbeatAt),
        ("events", .arr ((x.sortedEvents.map eventEvidence).map canonicalJson)),
        ("stages", .arr ((x.sortedStages.map stageEvidence).map canonicalJson)), ("records", .str "<redacted>"),
        ("source", .str (redactText x.observation.source)),
        ("pipeline_name", .ofText (text x.observation.pipelineName)),
        ("provider", .ofText (text x.observation.provider)),
        ("provider_run_id", .ofText (text x.observation.providerRunId)),
        ("evidence_state", .ofText (x.explicitState.map EvidenceCompleteness.value)),
        ("missing_evidence", .ofTexts ((sortedSet x.missing).map redactText)),
        ("timing_policy_seconds", .int (totalSeconds x.clockSkew)),
        ("profile", .ofTexts [redactText x.profile.profileId, redactText x.profile.version]),
        ("reason", .str (redactText x.outcome.reason))] := by
  simp (disch := decide +kernel) only [evidencePayload, List.map_cons, List.map_nil, canonicalField,
    canonicalValue_plain, canonicalValue_rowData, canonicalJson_str, canonicalJson_int,
    canonicalJson_ofText, canonicalJson_ofInstant, canonicalJson_ofTexts, canonicalJson_arr,
    text_map_value, text_map_completeness, RunStatus.redactText_value]

theorem evidencePayload_keys : x.evidencePayload.map Prod.fst =
      ["project_id", "run_id", "attempt", "status", "provider_status", "started_at", "finished_at",
        "heartbeat_at", "events", "stages", "records", "source", "pipeline_name", "provider",
        "provider_run_id", "evidence_state", "missing_evidence", "timing_policy_seconds", "profile", "reason"] := rfl

theorem evidenceChecksum_eq_iff : x.evidenceChecksum = y.evidenceChecksum ↔ SameDigest x y := by
  have hkeys : x.evidencePayload.map Prod.fst = y.evidencePayload.map Prod.fst := by
    rw [evidencePayload_keys, evidencePayload_keys]
  have hnodup : (x.evidencePayload.map Prod.fst).Nodup := by
    rw [evidencePayload_keys]
    decide
  rw [evidenceChecksum, evidenceChecksum, payloadChecksum_inj, canonicalJson_obj_inj hkeys hnodup,
    canonical_evidencePayload, canonical_evidencePayload]
  have hstatus : Function.Injective (Option.map RunStatus.value) :=
    Option.map_injective RunStatus.value_injective
  have hstate : Function.Injective (Option.map EvidenceCompleteness.value) :=
    Option.map_injective EvidenceCompleteness.value_injective
  constructor
  · intro h
    simp only [List.cons.injEq, Prod.mk.injEq, true_and, and_true, Json.str.injEq, Json.int.injEq,
      Json.arr.injEq, Json.ofText_injective.eq_iff, Json.ofInstant_injective.eq_iff,
      Json.ofTexts_injective.eq_iff, RunStatus.value_injective.eq_iff, hstatus.eq_iff,
      hstate.eq_iff, Int.natCast_inj] at h
    obtain ⟨hproject, hrun, hattempt, houtcome, hprovider, hstarted, hfinished, hheartbeat, hevents,
      hstages, hsource, hname, hby, hid, hexplicit, hmissing, hpolicy, ⟨hprofile, hversion⟩,
      hreason⟩ := h
    exact ⟨hproject, hrun, hattempt, houtcome, hprovider, hstarted, hfinished, hheartbeat, hevents,
      hstages, hsource, hname, hby, hid, hexplicit, hmissing, hpolicy, hprofile, hversion, hreason⟩
  · intro h
    rw [h.projectId, h.runId, h.attempt, h.status, h.providerStatus, h.startedAt, h.finishedAt,
      h.heartbeatAt, h.events, h.stages, h.source, h.pipelineName, h.provider, h.providerRunId,
      h.explicitState, h.missing, h.timingPolicy, h.profileId, h.profileVersion, h.reason]

theorem canonical_identityPayload : x.identityPayload.map canonicalField =
      [("project_id", .str (redactText x.observation.projectId)), ("run_id", .str (redactText x.observation.runId)),
        ("attempt", .int x.observation.attempt), ("profile_id", .str (redactText x.profile.profileId)),
        ("profile_version", .str (redactText x.profile.version)),
        ("evidence_checksum", x.evidenceChecksum.json)] := by
  simp (disch := decide +kernel) only [identityPayload, List.map_cons, List.map_nil, canonicalField,
    canonicalValue_plain, canonicalJson_str, canonicalJson_int, Sha256.json, canonicalJson_digest]

theorem identityPayload_keys : x.identityPayload.map Prod.fst =
      ["project_id", "run_id", "attempt", "profile_id", "profile_version", "evidence_checksum"] :=
  rfl

/-- The decision identity tells apart what the evidence checksum does, and no more. -/
theorem decisionId_eq_iff : x.decisionId = y.decisionId ↔ SameDigest x y := by
  have hkeys : x.identityPayload.map Prod.fst = y.identityPayload.map Prod.fst := by
    rw [identityPayload_keys, identityPayload_keys]
  have hnodup : (x.identityPayload.map Prod.fst).Nodup := by
    rw [identityPayload_keys]
    decide
  rw [decisionId, decisionId, payloadChecksum_inj, canonicalJson_obj_inj hkeys hnodup,
    canonical_identityPayload, canonical_identityPayload]
  constructor
  · intro h
    simp only [List.cons.injEq, Prod.mk.injEq, true_and, and_true, Sha256.json,
      Json.digest.injEq] at h
    exact (evidenceChecksum_eq_iff x y).1 (Sha256.ext h.2.2.2.2.2)
  · intro h
    rw [h.projectId, h.runId, h.attempt, h.profileId, h.profileVersion,
      (evidenceChecksum_eq_iff x y).2 h]

end ReconciliationInput

end Phlo.RunEvidence
