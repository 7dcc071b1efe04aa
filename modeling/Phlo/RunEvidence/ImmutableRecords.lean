import Phlo.RunEvidence.RecordChecksums
import Phlo.RunEvidence.RecordOrigins

/-!
# Evidence records are immutable

Appending a record whose identity is stored is a comparison of checksums and never a write.  It should
accept the record exactly when a fresh insert of it would write the stored row, and otherwise report the
conflict; the theorems say when it does.

* `append_of_stored` — the outcome of such an append, for all five families;
* `changed_role_hidden` — two roles that redact to one text are one record to the store.
-/

namespace Phlo.RunEvidence

open Phlo.Library

/-! ### The five families -/

/-- A record of an immutable family. -/
inductive EvidenceRecord where
  | resource (r : RunResource)
  | lineageEdge (e : RunLineageEdge)
  | qualityResult (q : RunQualityResult)
  | catalogChange (c : RunCatalogChange)
  | artifact (a : RunArtifact)

/-- A row of an immutable table. -/
inductive EvidenceRow where
  | resource (row : ResourceRow)
  | lineageEdge (row : LineageEdgeRow)
  | qualityResult (row : QualityResultRow)
  | catalogChange (row : CatalogChangeRow)
  | artifact (row : ArtifactRow)

namespace EvidenceRow

def recordChecksum : EvidenceRow → Sha256
  | resource row => row.recordChecksum
  | lineageEdge row => row.recordChecksum
  | qualityResult row => row.recordChecksum
  | catalogChange row => row.recordChecksum
  | artifact row => row.recordChecksum

def columns : EvidenceRow → EvidenceRow
  | resource row => resource row.columns
  | lineageEdge row => lineageEdge row.columns
  | qualityResult row => qualityResult row.columns
  | catalogChange row => catalogChange row.columns
  | artifact row => artifact row.columns

/-- The columns that are stored as they were given, although their digest is of the redacted text. -/
def unredacted : EvidenceRow → List (Option String)
  | resource row => [some row.resourceKind, some row.role]
  | qualityResult row => [row.stageId]
  | lineageEdge _ | catalogChange _ | artifact _ => []

end EvidenceRow

theorem ResourceRow.eq_of_columns {a b : ResourceRow} (hcolumns : a.columns = b.columns)
    (hchecksum : a.recordChecksum = b.recordChecksum) (hkind : a.resourceKind = b.resourceKind)
    (hrole : a.role = b.role) : a = b := by
  cases a
  cases b
  simp only [columns, mk.injEq] at hcolumns hchecksum hkind hrole ⊢
  simp only [hcolumns, hchecksum, hkind, hrole, and_self]

theorem LineageEdgeRow.eq_of_columns {a b : LineageEdgeRow} (hcolumns : a.columns = b.columns)
    (hchecksum : a.recordChecksum = b.recordChecksum) : a = b := by
  cases a
  cases b
  simp only [columns, mk.injEq] at hcolumns hchecksum ⊢
  simp only [hcolumns, hchecksum, and_self]

theorem QualityResultRow.eq_of_columns {a b : QualityResultRow} (hcolumns : a.columns = b.columns)
    (hchecksum : a.recordChecksum = b.recordChecksum) (hstage : a.stageId = b.stageId) : a = b := by
  cases a
  cases b
  simp only [columns, mk.injEq] at hcolumns hchecksum hstage ⊢
  simp only [hcolumns, hchecksum, hstage, and_self]

theorem CatalogChangeRow.eq_of_columns {a b : CatalogChangeRow} (hcolumns : a.columns = b.columns)
    (hchecksum : a.recordChecksum = b.recordChecksum) : a = b := by
  cases a
  cases b
  simp only [columns, mk.injEq] at hcolumns hchecksum ⊢
  simp only [hcolumns, hchecksum, and_self]

theorem ArtifactRow.eq_of_columns {a b : ArtifactRow} (hcolumns : a.columns = b.columns)
    (hchecksum : a.recordChecksum = b.recordChecksum) : a = b := by
  cases a
  cases b
  simp only [columns, mk.injEq] at hcolumns hchecksum ⊢
  simp only [hcolumns, hchecksum, and_self]

theorem EvidenceRow.eq_iff (a b : EvidenceRow) :
    a = b ↔ a.recordChecksum = b.recordChecksum ∧ a.columns = b.columns ∧ a.unredacted = b.unredacted := by
  constructor
  · intro h
    rw [h]
    exact ⟨rfl, rfl, rfl⟩
  · intro h
    obtain ⟨hchecksum, hcolumns, hunredacted⟩ := h
    cases a with
    | resource a =>
      cases b with
      | resource b =>
        simp only [unredacted, List.cons.injEq, Option.some.injEq, and_true] at hunredacted
        simp only [columns, resource.injEq] at hcolumns
        rw [ResourceRow.eq_of_columns hcolumns hchecksum hunredacted.1 hunredacted.2]
      | _ => simp only [columns, reduceCtorEq] at hcolumns
    | lineageEdge a =>
      cases b with
      | lineageEdge b =>
        simp only [columns, lineageEdge.injEq] at hcolumns
        rw [LineageEdgeRow.eq_of_columns hcolumns hchecksum]
      | _ => simp only [columns, reduceCtorEq] at hcolumns
    | qualityResult a =>
      cases b with
      | qualityResult b =>
        simp only [unredacted, List.cons.injEq, and_true] at hunredacted
        simp only [columns, qualityResult.injEq] at hcolumns
        rw [QualityResultRow.eq_of_columns hcolumns hchecksum hunredacted]
      | _ => simp only [columns, reduceCtorEq] at hcolumns
    | catalogChange a =>
      cases b with
      | catalogChange b =>
        simp only [columns, catalogChange.injEq] at hcolumns
        rw [CatalogChangeRow.eq_of_columns hcolumns hchecksum]
      | _ => simp only [columns, reduceCtorEq] at hcolumns
    | artifact a =>
      cases b with
      | artifact b =>
        simp only [columns, artifact.injEq] at hcolumns
        rw [ArtifactRow.eq_of_columns hcolumns hchecksum]
      | _ => simp only [columns, reduceCtorEq] at hcolumns


namespace EvidenceRecord

def append : EvidenceRecord → Call
  | resource r => .appendResource r
  | lineageEdge e => .appendLineageEdge e
  | qualityResult q => .appendQualityResult q
  | catalogChange c => .appendCatalogChange c
  | artifact a => .appendArtifact a

def row : EvidenceRecord → EvidenceRow
  | resource r => .resource (resourceRow r)
  | lineageEdge e => .lineageEdge (lineageEdgeRow e)
  | qualityResult q => .qualityResult (qualityResultRow q)
  | catalogChange c => .catalogChange (catalogChangeRow c)
  | artifact a => .artifact (artifactRow a)

def stored (s : Store) : EvidenceRecord → Option EvidenceRow
  | resource r => (s.resources.find (resourceRow r).key).map .resource
  | lineageEdge e => (s.lineageEdges.find (lineageEdgeRow e).key).map .lineageEdge
  | qualityResult q => (s.qualityResults.find (qualityResultRow q).key).map .qualityResult
  | catalogChange c => (s.catalogChanges.find (catalogChangeRow c).key).map .catalogChange
  | artifact a => (s.artifacts.find (artifactRow a).key).map .artifact

def StageFits (s : Store) : EvidenceRecord → Prop
  | qualityResult q => ∀ stageId ∈ q.stageId, StageAgrees s q.projectId q.runId stageId q.attempt
  | resource _ | lineageEdge _ | catalogChange _ | artifact _ => True

/-- What appending a record leads to when its identity is stored as `row`. -/
structure Comparison (s : Store) (x : EvidenceRecord) (row : EvidenceRow) : Prop where
  digest : row.recordChecksum = x.row.recordChecksum ↔ x.row.columns = row.columns
  same : x.StageFits s → row.recordChecksum = x.row.recordChecksum → exec s x.append = .ok s
  different : x.StageFits s → row.recordChecksum ≠ x.row.recordChecksum →
    ∃ m, exec s x.append = .error (.idempotencyConflict m)
  otherAttempt : ¬ x.StageFits s → ∃ m, exec s x.append = .error (.stageAttempt m)

end EvidenceRecord

theorem insertImmutable_of_find {α : Type} {key : α → String × String × String}
    {checksum : α → Sha256} {table : String} {t : KeyedTable key} {row stored : α}
    (h : t.find (key row) = some stored) : insertImmutable checksum table t row =
      if checksum stored = checksum row then .ok t else .error (.idempotencyConflict
        s!"{table} {(key row).1}/{(key row).2.2} was replayed with different evidence") := by
  unfold insertImmutable
  simp only [KeyedTable.insertOrIgnore_of_find h, Bool.false_eq_true, if_false, h, Option.any_some,
    decide_eq_true_eq]
  by_cases hchecksum : checksum stored = checksum row
  · rw [if_pos hchecksum, (require_eq_ok (u := ())).2 hchecksum]
    rfl
  · rw [if_neg hchecksum]
    unfold require
    rw [if_neg hchecksum]
    rfl

variable {s : Store} {row : EvidenceRow} {x : EvidenceRecord}

/-- A write under a taken key is accepted or refused by the checksum alone, and changes nothing. -/
theorem appendImmutable_of_find (hintegral : Integral s) {projectId runId id : String}
    (hadmitted : Admitted s.runs projectId runId id) {α : Type} {key : α → String × String × String}
    (checksum : α → Sha256) (name table : String) {t : KeyedTable key} {row stored : α}
    (h : t.find (key row) = some stored) (put : KeyedTable key → Store) (hput : put t = s) :
    let write : Except StoreError Store := do
      lockRun s projectId runId
      let s ← (do
        requireId name id
        let t ← insertImmutable checksum table t row
        return put t)
      commit s
    (checksum stored = checksum row → write = .ok s) ∧
      (checksum stored ≠ checksum row → ∃ m, write = .error (.idempotencyConflict m)) := by
  have hcommit : commit s = .ok s := commit_eq_ok.2 ⟨rfl, hintegral⟩
  intro write
  have hwrite : write = (do
      let t ← insertImmutable checksum table t row
      commit (put t)) := by
    show (lockRun s projectId runId >>= fun _ => (requireId name id >>= fun _ => _) >>= fun s =>
      commit s) = _
    rw [(lockRun_eq_ok (u := ())).2 hadmitted.run, (requireId_eq_ok (u := ())).2 hadmitted.recordId]
    cases insertImmutable checksum table t row <;> rfl
  rw [hwrite, insertImmutable_of_find h]
  refine ⟨?_, ?_⟩
  · intro hchecksum
    rw [if_pos hchecksum]
    show commit (put t) = .ok s
    rw [hput, hcommit]
  · intro hchecksum
    rw [if_neg hchecksum]
    exact ⟨_, rfl⟩

theorem Admitted.of_key {runs : KeyedTable PipelineRunRow.key} {k k' : String × String × String}
    (h : Admitted runs k.1 k.2.1 k.2.2) (hk : k = k') : Admitted runs k'.1 k'.2.1 k'.2.2 := by
  rw [← hk]
  exact h

theorem appendQualityResult_of_fits {q : RunQualityResult}
    (h : (EvidenceRecord.qualityResult q).StageFits s) :
    appendQualityResult s q = (do
      lockRun s q.projectId q.runId
      let s ← (do
        requireId "quality_result_id" q.qualityResultId
        let qualityResults ← insertImmutable QualityResultRow.recordChecksum "run_quality_result"
          s.qualityResults (qualityResultRow q)
        return { s with qualityResults })
      commit s) := by
  have hstage : (q.stageId.forM fun stageId => validateExistingStageAttempt s q.projectId q.runId
      stageId q.attempt .stageAttempt) = .ok () :=
    optionForM_eq_ok.2 fun stageId hid => validateExistingStageAttempt_eq_ok.2 (h stageId hid)
  unfold appendQualityResult insertQuality
  rw [hstage]
  rfl

theorem appendQualityResult_otherAttempt {q : RunQualityResult}
    (hadmitted : Admitted s.runs q.projectId q.runId q.qualityResultId)
    (h : ¬ (EvidenceRecord.qualityResult q).StageFits s) :
    ∃ m, appendQualityResult s q = .error (.stageAttempt m) := by
  obtain ⟨stageId, hid, row, hrow, hattempt⟩ : ∃ stageId ∈ q.stageId, ∃ row,
      s.stages.find (q.projectId, q.runId, stageId) = some row ∧ row.attempt ≠ q.attempt := by
    simpa [EvidenceRecord.StageFits, StageAgrees] using h
  obtain ⟨m, hstage⟩ : ∃ m, (q.stageId.forM fun stageId => validateExistingStageAttempt s q.projectId
      q.runId stageId q.attempt .stageAttempt) = .error (.stageAttempt m) := by
    rw [Option.mem_def.1 hid]
    show ∃ m, validateExistingStageAttempt s q.projectId q.runId stageId q.attempt .stageAttempt = _
    unfold validateExistingStageAttempt require
    rw [hrow]
    exact ⟨_, if_neg hattempt⟩
  unfold appendQualityResult insertQuality
  rw [hstage, (lockRun_eq_ok (u := ())).2 hadmitted.run,
    (requireId_eq_ok (u := ())).2 hadmitted.recordId]
  exact ⟨m, rfl⟩

/-- **An append under a stored identity** is decided by the checksums, which compare the digested
columns; a quality result is first held against the stage it names. -/
theorem append_of_stored (hs : ReachableStore s) (hstored : x.stored s = some row) : x.Comparison s row := by
  have hrows := reachable_wellRecorded hs
  have hintegral := reachable_integral hs
  cases x with
  | resource r =>
    obtain ⟨a, hfind, rfl⟩ := Option.map_eq_some_iff.1 hstored
    have hkey := KeyedTable.key_of_find hfind
    obtain ⟨r', hadmitted, rfl⟩ := hrows.resources a (KeyedTable.mem_of_find hfind)
    obtain ⟨hsame, hdifferent⟩ := appendImmutable_of_find hintegral (hadmitted.of_key hkey)
      ResourceRow.recordChecksum "resource_id" "run_resource" hfind
      (fun resources => { s with resources }) rfl
    refine ⟨?_, fun _ => hsame, fun _ => hdifferent, fun h => absurd trivial h⟩
    show (resourceRow r').recordChecksum = (resourceRow r).recordChecksum ↔
      EvidenceRow.resource _ = EvidenceRow.resource _
    rw [resource_checksum_iff hkey, EvidenceRow.resource.injEq, eq_comm]
  | lineageEdge e =>
    obtain ⟨a, hfind, rfl⟩ := Option.map_eq_some_iff.1 hstored
    have hkey := KeyedTable.key_of_find hfind
    obtain ⟨e', hadmitted, rfl⟩ := hrows.lineageEdges a (KeyedTable.mem_of_find hfind)
    obtain ⟨hsame, hdifferent⟩ := appendImmutable_of_find hintegral (hadmitted.of_key hkey)
      LineageEdgeRow.recordChecksum "lineage_edge_id" "run_lineage_edge" hfind
      (fun lineageEdges => { s with lineageEdges }) rfl
    refine ⟨?_, fun _ => hsame, fun _ => hdifferent, fun h => absurd trivial h⟩
    show (lineageEdgeRow e').recordChecksum = (lineageEdgeRow e).recordChecksum ↔
      EvidenceRow.lineageEdge _ = EvidenceRow.lineageEdge _
    rw [lineage_checksum_iff hkey, EvidenceRow.lineageEdge.injEq, eq_comm]
  | qualityResult q =>
    obtain ⟨a, hfind, rfl⟩ := Option.map_eq_some_iff.1 hstored
    have hkey := KeyedTable.key_of_find hfind
    obtain ⟨q', hadmitted, rfl⟩ := hrows.qualityResults a (KeyedTable.mem_of_find hfind)
    have hadmitted := hadmitted.of_key hkey
    obtain ⟨hsame, hdifferent⟩ := appendImmutable_of_find hintegral hadmitted
      QualityResultRow.recordChecksum "quality_result_id" "run_quality_result" hfind
      (fun qualityResults => { s with qualityResults }) rfl
    refine ⟨?_, ?_, ?_, appendQualityResult_otherAttempt hadmitted⟩
    · show (qualityResultRow q').recordChecksum = (qualityResultRow q).recordChecksum ↔
        EvidenceRow.qualityResult _ = EvidenceRow.qualityResult _
      rw [quality_checksum_iff hkey, EvidenceRow.qualityResult.injEq, eq_comm]
    · intro hfits
      show _ → appendQualityResult s q = _
      rw [appendQualityResult_of_fits hfits]
      exact hsame
    · intro hfits
      show _ → ∃ m, appendQualityResult s q = _
      rw [appendQualityResult_of_fits hfits]
      exact hdifferent
  | catalogChange c =>
    obtain ⟨a, hfind, rfl⟩ := Option.map_eq_some_iff.1 hstored
    have hkey := KeyedTable.key_of_find hfind
    obtain ⟨c', hadmitted, rfl⟩ := hrows.catalogChanges a (KeyedTable.mem_of_find hfind)
    obtain ⟨hsame, hdifferent⟩ := appendImmutable_of_find hintegral (hadmitted.of_key hkey)
      CatalogChangeRow.recordChecksum "catalog_change_id" "run_catalog_change" hfind
      (fun catalogChanges => { s with catalogChanges }) rfl
    refine ⟨?_, fun _ => hsame, fun _ => hdifferent, fun h => absurd trivial h⟩
    show (catalogChangeRow c').recordChecksum = (catalogChangeRow c).recordChecksum ↔
      EvidenceRow.catalogChange _ = EvidenceRow.catalogChange _
    rw [catalog_checksum_iff hkey, EvidenceRow.catalogChange.injEq, eq_comm]
  | artifact a =>
    obtain ⟨b, hfind, rfl⟩ := Option.map_eq_some_iff.1 hstored
    have hkey := KeyedTable.key_of_find hfind
    obtain ⟨a', hadmitted, rfl⟩ := hrows.artifacts b (KeyedTable.mem_of_find hfind)
    obtain ⟨hsame, hdifferent⟩ := appendImmutable_of_find hintegral (hadmitted.of_key hkey)
      ArtifactRow.recordChecksum "artifact_id" "run_artifact" hfind
      (fun artifacts => { s with artifacts }) rfl
    refine ⟨?_, fun _ => hsame, fun _ => hdifferent, fun h => absurd trivial h⟩
    show (artifactRow a').recordChecksum = (artifactRow a).recordChecksum ↔
      EvidenceRow.artifact _ = EvidenceRow.artifact _
    rw [artifact_checksum_iff hkey, EvidenceRow.artifact.injEq, eq_comm]

/-! ### Exact conflicts -/

/-- Conflicts are exact: the record is accepted when a fresh insert of it would write the stored row and
reported as a conflict otherwise, and the stored row stays. -/
structure ConflictsExact (s : Store) (x : EvidenceRecord) (row : EvidenceRow) : Prop where
  accepted : (∃ s', exec s x.append = .ok s') ↔ x.row = row
  refused : x.row ≠ row → ∃ m, exec s x.append = .error (.idempotencyConflict m)
  kept : x.stored (step s x.append) = some row

/-- The rows differ in a column that is stored as it was given, and agree in all columns once that one
is redacted. -/
def EvidenceRow.Masked (new old : EvidenceRow) : Prop :=
  new.columns = old.columns ∧ new.unredacted ≠ old.unredacted

/-- Neither an accepted nor a refused duplicate changes the store. -/
theorem EvidenceRecord.Comparison.step_eq (h : x.Comparison s row) : step s x.append = s := by
  by_cases hfits : x.StageFits s
  · by_cases hchecksum : row.recordChecksum = x.row.recordChecksum
    · exact step_of_ok (h.same hfits hchecksum)
    · obtain ⟨m, hm⟩ := h.different hfits hchecksum
      exact step_of_error hm
  · obtain ⟨m, hm⟩ := h.otherAttempt hfits
    exact step_of_error hm

theorem EvidenceRecord.Comparison.accepted_iff (h : x.Comparison s row) (hfits : x.StageFits s) :
    (∃ s', exec s x.append = .ok s') ↔ x.row.columns = row.columns := by
  rw [← h.digest]
  by_cases hchecksum : row.recordChecksum = x.row.recordChecksum
  · exact iff_of_true ⟨s, h.same hfits hchecksum⟩ hchecksum
  · obtain ⟨m, hm⟩ := h.different hfits hchecksum
    refine iff_of_false ?_ hchecksum
    intro hok
    obtain ⟨s', hs'⟩ := hok
    rw [hm] at hs'
    cases hs'

/-- **Immutable evidence.**  In every reachable store, appending a record whose identity is stored
behaves exactly as a comparison of rows, unless the two rows differ in a column that is stored
unredacted and agree once it is redacted, or the record is a quality result whose stage is stored with
another attempt. -/
theorem conflicts_exact_iff {s : Store} (hs : ReachableStore s) {x : EvidenceRecord} {row : EvidenceRow}
    (hstored : x.stored s = some row) : ConflictsExact s x row ↔ ¬ EvidenceRow.Masked x.row row ∧ x.StageFits s := by
  have h := append_of_stored hs hstored
  have hrow : x.row = row ↔ x.row.columns = row.columns ∧ x.row.unredacted = row.unredacted := by
    rw [EvidenceRow.eq_iff, eq_comm, h.digest, ← and_assoc, and_self]
  constructor
  · intro hexact
    have hfits : x.StageFits s := by
      by_contra hfits
      obtain ⟨m, hm⟩ := h.otherAttempt hfits
      have hne : x.row ≠ row := by
        intro heq
        obtain ⟨s', hs'⟩ := hexact.accepted.2 heq
        rw [hm] at hs'
        cases hs'
      obtain ⟨m', hm'⟩ := hexact.refused hne
      rw [hm] at hm'
      cases hm'
    refine ⟨?_, hfits⟩
    intro hmasked
    have heq := hexact.accepted.1 ((h.accepted_iff hfits).2 hmasked.1)
    exact hmasked.2 (hrow.1 heq).2
  · intro hcondition
    obtain ⟨hmasked, hfits⟩ := hcondition
    have hcolumns : x.row = row ↔ x.row.columns = row.columns := by
      rw [hrow]
      refine ⟨And.left, fun hcolumns => ⟨hcolumns, ?_⟩⟩
      by_contra hne
      exact hmasked ⟨hcolumns, hne⟩
    refine ⟨?_, ?_, ?_⟩
    · rw [h.accepted_iff hfits, hcolumns]
    · intro hne
      refine h.different hfits ?_
      rwa [h.digest.ne, ← hcolumns.ne]
    · rw [h.step_eq]
      exact hstored

/-- The resource `x` of run `r`, in the given role. -/
def inRole (role : String) : EvidenceRecord :=
  .resource { resourceId := "x", projectId := "p", runId := "r", resourceKind := "table", role := role }

/-- A run with one resource. -/
def recordedRole (role : String) : Store :=
  finish step Store.empty [.appendPipelineRun ⟨⟨0, some 0⟩, ⟨0, some 0⟩⟩ { projectId := "p", runId := "r" },
    (inRole role).append]

theorem conflicts_exact_iff_recorded :
    ConflictsExact (recordedRole "input") (inRole "output") (inRole "input").row := by
  refine (conflicts_exact_iff (Reachable.init.finish _) rfl).2 ⟨?_, trivial⟩
  intro hmasked
  have hrole := congrArg ResourceRow.role (EvidenceRow.resource.inj hmasked.1)
  exact absurd hrole (by decide +kernel)

/-- The roles `token=a` and `token=b` are one role to the checksum, so the second is accepted although
the stored row keeps the first. -/
theorem changed_role_hidden :
    ¬ ∀ s x row, ReachableStore s → EvidenceRecord.stored s x = some row → ConflictsExact s x row := by
  intro hclaim
  have hreachable : ReachableStore (recordedRole "token=a") := Reachable.init.finish _
  have hstored : (inRole "token=b").stored (recordedRole "token=a") =
      some (inRole "token=a").row := rfl
  have hexact := hclaim _ _ _ hreachable hstored
  have hcolumns : (inRole "token=b").row.columns = (inRole "token=a").row.columns := by
    have hrole : redactText "token=b" = redactText "token=a" := by decide +kernel
    simp only [inRole, EvidenceRecord.row, EvidenceRow.columns, ResourceRow.columns, resourceRow, hrole]
  have haccepted := ((append_of_stored hreachable hstored).accepted_iff trivial).2 hcolumns
  have hrow := EvidenceRow.resource.inj (hexact.accepted.1 haccepted)
  exact absurd (congrArg ResourceRow.role hrow) (by decide +kernel)

end Phlo.RunEvidence
