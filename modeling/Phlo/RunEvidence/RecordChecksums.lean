import Phlo.RunEvidence.Store.Records

/-!
# What the record checksums tell apart

Each of the five immutable families digests a payload of its own, in which some fields are left out when
they are empty.  `columns` is a row without its checksum, with the columns that are stored as they were
given (`resource_kind` and `role` of a resource, `stage_id` of a quality result) redacted like the rest.

* `resource_checksum_iff`, ... — two records of one run have one checksum exactly when the columns of
  their rows are the same: leaving fields out never makes different records look alike, and the only
  columns a checksum does not cover as they are stored are the ones stored unredacted.
-/

namespace Phlo.RunEvidence

open Phlo.Library

/-! ### Objects with optional fields -/

def optionalFields (name : String) (v : Option Json) : Dict := (v.map fun v => (name, v)).toList

/-- The keys of an object are among `keys`, in their order. -/
def KeysWithin (fields : Dict) (keys : List String) : Prop := (fields.map Prod.fst).Sublist keys

theorem KeysWithin.append {fields : Dict} {keys : List String} (h : KeysWithin fields keys)
    (name : String) (v : Option Json) : KeysWithin (fields ++ optionalFields name v) (keys ++ [name]) := by
  unfold KeysWithin
  rw [List.map_append]
  refine List.Sublist.append h ?_
  cases v with
  | none => exact List.nil_sublist _
  | some v => exact List.Sublist.refl _

theorem map_canonicalField_optional (name : String) (v : Option Json) :
    (optionalFields name v).map canonicalField = optionalFields name (v.map (canonicalValue name)) := by
  cases v with
  | none => rfl
  | some v => rfl

theorem sortBy_optional_inj (name : String) (v w : Option Json) :
    sortBy Prod.fst (optionalFields name v) = sortBy Prod.fst (optionalFields name w) ↔ v = w := by
  cases v with
  | none => cases w <;> simp [optionalFields, sortBy]
  | some v => cases w <;> simp [optionalFields, sortBy]

theorem canonical_optional_iff {fs gs : Dict} {keys : List String} {name : String} {v w : Option Json}
    (hfs : KeysWithin fs keys) (hgs : KeysWithin gs keys) (hn : (keys ++ [name]).Nodup) :
    canonicalJson (.obj (fs ++ optionalFields name v)) = canonicalJson (.obj (gs ++ optionalFields name w)) ↔
      canonicalJson (.obj fs) = canonicalJson (.obj gs) ∧
        v.map (canonicalValue name) = w.map (canonicalValue name) := by
  have hname : name ∉ keys := fun h => by
    have hdisjoint := (List.nodup_append.1 hn).2.2
    exact hdisjoint name h name (List.mem_singleton_self name) rfl
  have hother : ∀ {hs : Dict}, KeysWithin hs keys → ∀ f ∈ hs.map canonicalField, (f.1 != name) = true := by
    intro hs hwithin f hf
    have hkey : f.1 ∈ hs.map Prod.fst := by
      rw [← map_fst_canonicalField]
      exact List.mem_map_of_mem hf
    exact bne_iff_ne.2 fun h => hname (h ▸ hwithin.subset hkey)
  have hown : ∀ v : Option Json, ∀ f ∈ optionalFields name v, (f.1 != name) = false := by
    intro v f hf
    obtain ⟨x, -, rfl⟩ := Option.map_eq_some_iff.1 (Option.mem_toList.1 hf)
    exact bne_self_eq_false name
  have hnodup : ∀ {hs : Dict} (v : Option Json), KeysWithin hs keys →
      ((hs.map canonicalField ++ optionalFields name (v.map (canonicalValue name))).map Prod.fst).Nodup := by
    intro hs v hwithin
    rw [← map_canonicalField_optional, ← List.map_append, map_fst_canonicalField]
    exact hn.sublist (hwithin.append name v)
  rw [canonicalJson_obj, canonicalJson_obj, canonicalJson_obj, canonicalJson_obj, List.map_append,
    List.map_append, map_canonicalField_optional, map_canonicalField_optional, Json.obj.injEq,
    Json.obj.injEq, sortBy_append_inj Prod.fst (hother hfs) (hother hgs) (hown _) (hown _) (hnodup v hfs)
      (hnodup w hgs), sortBy_optional_inj]

/-! ### Optional values -/

/-- The value of a field that is left out when it is null or an empty object. -/
def nonEmpty (v : Json) : Option Json := if v = .null ∨ v = .obj [] then none else some v

theorem optionalField_eq (name : String) (v : Json) : optionalField name v = optionalFields name (nonEmpty v) := by
  unfold optionalField nonEmpty
  by_cases h : v = .null ∨ v = .obj []
  · rw [if_pos h, if_pos h]
    rfl
  · rw [if_neg h, if_neg h]
    rfl

theorem nonEmpty_ofText (a : Option String) : nonEmpty (.ofText a) = a.map Json.str := by
  cases a with
  | none => rfl
  | some a => rfl

section Optional

variable {name : String} (h : isPlainKey name = true)

include h

theorem optional_text_iff (a b : Option String) :
    (a.map Json.str).map (canonicalValue name) = (b.map Json.str).map (canonicalValue name) ↔ text a = text b := by
  have hvalue : ∀ a : Option String, (a.map Json.str).map (canonicalValue name) = (text a).map Json.str := by
    intro a
    cases a with
    | none => rfl
    | some a =>
      show some (canonicalValue name (.str a)) = _
      rw [canonicalValue_plain h, canonicalJson_str]
      rfl
  have hinjective : Function.Injective Json.str := fun _ _ h => Json.str.inj h
  rw [hvalue, hvalue, (Option.map_injective hinjective).eq_iff]

theorem optional_dict_iff (a b : Dict) :
    (nonEmpty (.obj a)).map (canonicalValue name) = (nonEmpty (.obj b)).map (canonicalValue name) ↔
      canonicalJson (.obj a) = canonicalJson (.obj b) := by
  have hnil : ∀ a : Dict, canonicalJson (.obj a) = .obj [] ↔ a = [] := by
    intro a
    rw [canonicalJson_obj, Json.obj.injEq, ← List.length_eq_zero_iff, length_sortBy, List.length_map,
      List.length_eq_zero_iff]
  have hvalue : ∀ a : Dict, (nonEmpty (.obj a)).map (canonicalValue name) =
      if canonicalJson (.obj a) = .obj [] then none else some (canonicalJson (.obj a)) := by
    intro a
    unfold nonEmpty
    by_cases ha : a = []
    · rw [if_pos ((hnil a).2 ha), if_pos (Or.inr (congrArg Json.obj ha))]
      rfl
    · rw [if_neg fun h => ha ((hnil a).1 h), if_neg (by simpa using ha)]
      exact congrArg some (canonicalValue_plain h _)
  rw [hvalue, hvalue]
  by_cases ha : canonicalJson (.obj a) = .obj []
  · by_cases hb : canonicalJson (.obj b) = .obj []
    · simp [ha, hb]
    · simp [ha, hb, Ne.symm hb]
  · by_cases hb : canonicalJson (.obj b) = .obj []
    · simp [ha, hb]
    · simp [ha, hb]

theorem optional_ref (r : Option ResourceRef) :
    (r.map ResourceRef.asDict).map (canonicalValue name) = resourceIdentity r := by
  cases r with
  | none => rfl
  | some r => exact congrArg some (canonicalValue_plain h _)

theorem optional_refJson (r : Option ResourceRef) :
    (nonEmpty (refJson r)).map (canonicalValue name) = resourceIdentity r := by
  cases r with
  | none => rfl
  | some r => exact congrArg some (canonicalValue_plain h _)

end Optional

/-! ### Resources -/

def ResourceRow.columns (row : ResourceRow) : ResourceRow :=
  { row with
    resourceKind := redactText row.resourceKind
    role := redactText row.role
    recordChecksum := ⟨.null⟩ }

def resourceKeys : List String :=
  ["project_id", "run_id", "resource_kind", "role", "normalized_identity", "uri", "table_name",
    "catalog", "ref_name", "schema_hash", "watermark", "record_count", "byte_count", "staged_objects",
    "snapshot_before", "snapshot_after", "attempt"]

def resourceFields (r : RunResource) : Dict :=
  [("project_id", .str r.projectId), ("run_id", .str r.runId),
    ("resource_kind", .str r.resourceKind), ("role", .str r.role),
    ("normalized_identity", .ofText r.normalizedIdentity), ("uri", .ofText r.uri),
    ("table_name", .ofText r.tableName), ("catalog", .ofText r.catalog),
    ("ref_name", .ofText r.refName), ("schema_hash", .ofText r.schemaHash),
    ("watermark", .ofText r.watermark), ("record_count", .ofInt r.recordCount),
    ("byte_count", .ofInt r.byteCount), ("staged_objects", .arr r.stagedObjects),
    ("snapshot_before", .ofText r.snapshotBefore), ("snapshot_after", .ofText r.snapshotAfter),
    ("attempt", .int r.attempt)]

theorem resourceChecksumPayload_eq (r : RunResource) : resourceChecksumPayload r = resourceFields r ++
      optionalFields "schema_hash_before" (r.schemaHashBefore.map Json.str) ++
      optionalFields "schema_hash_after" (r.schemaHashAfter.map Json.str) ++
      optionalFields "metadata" (nonEmpty (.obj r.metadata)) ++
      optionalFields "resource_ref" (nonEmpty (refJson r.resourceRef)) := by
  rw [← nonEmpty_ofText, ← nonEmpty_ofText]
  simp only [← optionalField_eq]
  rfl

theorem resource_checksum_iff {r r' : RunResource} (hkey : (resourceRow r).key = (resourceRow r').key) :
    (resourceRow r).recordChecksum = (resourceRow r').recordChecksum ↔
      (resourceRow r).columns = (resourceRow r').columns := by
  have hkeys : ∀ r, KeysWithin (resourceFields r) resourceKeys := fun r => List.Sublist.refl _
  have hone := fun r => (hkeys r).append "schema_hash_before" (r.schemaHashBefore.map Json.str)
  have htwo := fun r => (hone r).append "schema_hash_after" (r.schemaHashAfter.map Json.str)
  have hthree := fun r => (htwo r).append "metadata" (nonEmpty (.obj r.metadata))
  simp only [ResourceRow.key, resourceRow, Prod.mk.injEq] at hkey
  obtain ⟨hproject, hrun, hid⟩ := hkey
  show payloadChecksum _ = payloadChecksum _ ↔ _
  rw [payloadChecksum_inj, resourceChecksumPayload_eq, resourceChecksumPayload_eq,
    canonical_optional_iff (hthree r) (hthree r') (by decide),
    canonical_optional_iff (htwo r) (htwo r') (by decide),
    canonical_optional_iff (hone r) (hone r') (by decide),
    canonical_optional_iff (hkeys r) (hkeys r') (by decide),
    canonical_plain_iff resourceKeys rfl rfl (by decide)
      (all_plain_of_chars (by decide +kernel)),
    optional_text_iff (by decide +kernel), optional_text_iff (by decide +kernel),
    optional_dict_iff (by decide +kernel), optional_refJson (by decide +kernel),
    optional_refJson (by decide +kernel)]
  simp only [resourceFields, List.map_cons, List.map_nil, canonicalJson_str, canonicalJson_int,
    canonicalJson_ofText, canonicalJson_ofInt, List.cons.injEq, Prod.mk.injEq, true_and, and_true,
    Json.str.injEq, Json.int.injEq, Json.ofText_injective.eq_iff, Json.ofInt_injective.eq_iff,
    Int.natCast_inj, ResourceRow.columns, resourceRow, ResourceRow.mk.injEq, hproject, hrun, hid]
  constructor
  · intro h
    simp only [h, and_self]
  · intro h
    simp only [h, and_self]

/-! ### Lineage edges -/

def LineageEdgeRow.columns (row : LineageEdgeRow) : LineageEdgeRow :=
  { row with recordChecksum := ⟨.null⟩ }

def lineageKeys : List String :=
  ["project_id", "run_id", "source", "target", "column_mapping", "origin", "derivation", "confidence"]

def lineageFields (e : RunLineageEdge) : Dict :=
  [("project_id", .str e.projectId), ("run_id", .str e.runId), ("source", .str e.source),
    ("target", .str e.target), ("column_mapping", .obj e.columnMapping), ("origin", .str e.origin),
    ("derivation", .str e.derivation), ("confidence", e.confidence.elim .null .float)]

def lineageAttempt (e : RunLineageEdge) : Option Json :=
  if e.attempt = 1 then none else some (.int e.attempt)

theorem lineageChecksumPayload_eq (e : RunLineageEdge) :
    lineageChecksumPayload e = lineageFields e ++ optionalFields "attempt" (lineageAttempt e) ++
      optionalFields "source_resource_ref" (e.sourceResourceRef.map ResourceRef.asDict) ++
      optionalFields "target_resource_ref" (e.targetResourceRef.map ResourceRef.asDict) := by
  have hattempt : optionalFields "attempt" (lineageAttempt e) =
      if e.attempt = 1 then [] else [("attempt", .int e.attempt)] := by
    unfold lineageAttempt
    by_cases h : e.attempt = 1
    · rw [if_pos h, if_pos h]
      rfl
    · rw [if_neg h, if_neg h]
      rfl
  have href : ∀ (name : String) (r : Option ResourceRef),
      optionalFields name (r.map ResourceRef.asDict) = (r.map fun r => (name, r.asDict)).toList := by
    intro name r
    cases r with
    | none => rfl
    | some r => rfl
  rw [hattempt, href, href]
  rfl

theorem lineageAttempt_iff (e e' : RunLineageEdge) :
    (lineageAttempt e).map (canonicalValue "attempt") = (lineageAttempt e').map (canonicalValue "attempt") ↔
      e.attempt = e'.attempt := by
  have hvalue : ∀ e, (lineageAttempt e).map (canonicalValue "attempt") = lineageAttempt e := by
    intro e
    unfold lineageAttempt
    by_cases h : e.attempt = 1
    · rw [if_pos h]
      rfl
    · rw [if_neg h]
      exact congrArg some (canonicalValue_plain (by decide +kernel) _)
  rw [hvalue, hvalue]
  unfold lineageAttempt
  by_cases h : e.attempt = 1
  · by_cases h' : e'.attempt = 1
    · simp [h, h']
    · simp [h, h', Ne.symm h']
  · by_cases h' : e'.attempt = 1
    · simp [h, h']
    · simp [h, h', Int.natCast_inj]

theorem confidence_iff (a b : Option String) :
    canonicalJson (a.elim .null .float) = canonicalJson (b.elim .null .float) ↔ a = b := by
  have hfloat : ∀ c : String, canonicalJson (.float c) = .float c := fun _ => rfl
  cases a with
  | none => cases b <;> simp [hfloat]
  | some a => cases b <;> simp [hfloat]

theorem lineage_checksum_iff {e e' : RunLineageEdge} (hkey : (lineageEdgeRow e).key = (lineageEdgeRow e').key) :
    (lineageEdgeRow e).recordChecksum = (lineageEdgeRow e').recordChecksum ↔
      (lineageEdgeRow e).columns = (lineageEdgeRow e').columns := by
  have hkeys : ∀ e, KeysWithin (lineageFields e) lineageKeys := fun e => List.Sublist.refl _
  have hone := fun e => (hkeys e).append "attempt" (lineageAttempt e)
  have htwo := fun e =>
    (hone e).append "source_resource_ref" (e.sourceResourceRef.map ResourceRef.asDict)
  simp only [LineageEdgeRow.key, lineageEdgeRow, Prod.mk.injEq] at hkey
  obtain ⟨hproject, hrun, hid⟩ := hkey
  show payloadChecksum _ = payloadChecksum _ ↔ _
  rw [payloadChecksum_inj, lineageChecksumPayload_eq, lineageChecksumPayload_eq,
    canonical_optional_iff (htwo e) (htwo e') (by decide),
    canonical_optional_iff (hone e) (hone e') (by decide),
    canonical_optional_iff (hkeys e) (hkeys e') (by decide),
    canonical_plain_iff lineageKeys rfl rfl (by decide)
      (all_plain_of_chars (by decide +kernel)), lineageAttempt_iff,
    optional_ref (by decide +kernel), optional_ref (by decide +kernel), optional_ref (by decide +kernel),
    optional_ref (by decide +kernel)]
  simp only [lineageFields, List.map_cons, List.map_nil, canonicalJson_str, List.cons.injEq,
    Prod.mk.injEq, true_and, and_true, Json.str.injEq, confidence_iff, LineageEdgeRow.columns,
    lineageEdgeRow, LineageEdgeRow.mk.injEq, hproject, hrun, hid]
  constructor
  · intro h
    simp only [h, and_self]
  · intro h
    simp only [h, and_self]

/-! ### Quality results -/

def QualityResultRow.columns (row : QualityResultRow) : QualityResultRow :=
  { row with stageId := text row.stageId, recordChecksum := ⟨.null⟩ }

def qualityKeys : List String :=
  ["project_id", "run_id", "check_id", "asset", "stage_id", "severity", "blocking", "passed",
    "evaluated_count", "failed_count", "failure_artifact_id", "metadata", "attempt"]

def qualityFields (q : RunQualityResult) : Dict :=
  [("project_id", .str q.projectId), ("run_id", .str q.runId), ("check_id", .str q.checkId),
    ("asset", .ofText q.asset), ("stage_id", .ofText q.stageId), ("severity", .ofText q.severity),
    ("blocking", .bool q.blocking), ("passed", .bool q.passed),
    ("evaluated_count", .ofInt q.evaluatedCount), ("failed_count", .ofInt q.failedCount),
    ("failure_artifact_id", .ofText q.failureArtifactId), ("metadata", .obj q.metadata),
    ("attempt", .int q.attempt)]

theorem qualityChecksumPayload_eq (q : RunQualityResult) : qualityChecksumPayload q = qualityFields q ++
      optionalFields "resource_ref" (q.resourceRef.map ResourceRef.asDict) := by
  cases h : q.resourceRef with
  | none => simp only [qualityChecksumPayload, h]; rfl
  | some r => simp only [qualityChecksumPayload, h]; rfl

theorem canonicalJson_bool (b : Bool) : canonicalJson (.bool b) = .bool b := rfl

theorem quality_checksum_iff {q q' : RunQualityResult} (hkey : (qualityResultRow q).key = (qualityResultRow q').key) :
    (qualityResultRow q).recordChecksum = (qualityResultRow q').recordChecksum ↔
      (qualityResultRow q).columns = (qualityResultRow q').columns := by
  have hkeys : ∀ q, KeysWithin (qualityFields q) qualityKeys := fun q => List.Sublist.refl _
  simp only [QualityResultRow.key, qualityResultRow, Prod.mk.injEq] at hkey
  obtain ⟨hproject, hrun, hid⟩ := hkey
  show payloadChecksum _ = payloadChecksum _ ↔ _
  rw [payloadChecksum_inj, qualityChecksumPayload_eq, qualityChecksumPayload_eq,
    canonical_optional_iff (hkeys q) (hkeys q') (by decide),
    canonical_plain_iff qualityKeys rfl rfl (by decide)
      (all_plain_of_chars (by decide +kernel)),
    optional_ref (by decide +kernel), optional_ref (by decide +kernel)]
  simp only [qualityFields, List.map_cons, List.map_nil, canonicalJson_str, canonicalJson_int,
    canonicalJson_bool, canonicalJson_ofText, canonicalJson_ofInt, List.cons.injEq, Prod.mk.injEq,
    true_and, and_true, Json.str.injEq, Json.int.injEq, Json.bool.injEq, Json.ofText_injective.eq_iff,
    Json.ofInt_injective.eq_iff, Int.natCast_inj, QualityResultRow.columns, qualityResultRow,
    QualityResultRow.mk.injEq, hproject, hrun, hid]
  constructor
  · intro h
    simp only [h, and_self]
  · intro h
    simp only [h, and_self]

/-! ### Catalog changes -/

def CatalogChangeRow.columns (row : CatalogChangeRow) : CatalogChangeRow :=
  { row with recordChecksum := ⟨.null⟩ }

def catalogKeys : List String :=
  ["project_id", "run_id", "operation", "catalog_ref", "content_key", "source_hash", "target_hash",
    "commit_hash", "commit_message", "merge_outcome", "snapshot_before", "snapshot_after", "metadata",
    "attempt"]

def catalogFields (c : RunCatalogChange) : Dict :=
  [("project_id", .str c.projectId), ("run_id", .str c.runId), ("operation", .str c.operation),
    ("catalog_ref", .ofText c.catalogRef), ("content_key", .ofText c.contentKey),
    ("source_hash", .ofText c.sourceHash), ("target_hash", .ofText c.targetHash),
    ("commit_hash", .ofText c.commitHash), ("commit_message", .ofText c.commitMessage),
    ("merge_outcome", .ofText c.mergeOutcome), ("snapshot_before", .ofText c.snapshotBefore),
    ("snapshot_after", .ofText c.snapshotAfter), ("metadata", .obj c.metadata),
    ("attempt", .int c.attempt)]

theorem catalogChecksumPayload_eq (c : RunCatalogChange) : catalogChecksumPayload c = catalogFields c ++
      optionalFields "quality_decision_id" (c.qualityDecisionId.map Json.str) ++
      optionalFields "resource_ref" (c.resourceRef.map ResourceRef.asDict) := by
  cases hid : c.qualityDecisionId with
  | none =>
    cases h : c.resourceRef with
    | none => simp only [catalogChecksumPayload, h, hid]; rfl
    | some r => simp only [catalogChecksumPayload, h, hid]; rfl
  | some id =>
    cases h : c.resourceRef with
    | none => simp only [catalogChecksumPayload, h, hid]; rfl
    | some r => simp only [catalogChecksumPayload, h, hid]; rfl

theorem catalog_checksum_iff {c c' : RunCatalogChange} (hkey : (catalogChangeRow c).key = (catalogChangeRow c').key) :
    (catalogChangeRow c).recordChecksum = (catalogChangeRow c').recordChecksum ↔
      (catalogChangeRow c).columns = (catalogChangeRow c').columns := by
  have hkeys : ∀ c, KeysWithin (catalogFields c) catalogKeys := fun c => List.Sublist.refl _
  have hone := fun c => (hkeys c).append "quality_decision_id" (c.qualityDecisionId.map Json.str)
  simp only [CatalogChangeRow.key, catalogChangeRow, Prod.mk.injEq] at hkey
  obtain ⟨hproject, hrun, hid⟩ := hkey
  show payloadChecksum _ = payloadChecksum _ ↔ _
  rw [payloadChecksum_inj, catalogChecksumPayload_eq, catalogChecksumPayload_eq,
    canonical_optional_iff (hone c) (hone c') (by decide),
    canonical_optional_iff (hkeys c) (hkeys c') (by decide),
    canonical_plain_iff catalogKeys rfl rfl (by decide)
      (all_plain_of_chars (by decide +kernel)),
    optional_text_iff (by decide +kernel), optional_ref (by decide +kernel),
    optional_ref (by decide +kernel)]
  simp only [catalogFields, List.map_cons, List.map_nil, canonicalJson_str, canonicalJson_int,
    canonicalJson_ofText, List.cons.injEq, Prod.mk.injEq, true_and, and_true, Json.str.injEq,
    Json.int.injEq, Json.ofText_injective.eq_iff, Int.natCast_inj, CatalogChangeRow.columns,
    catalogChangeRow, CatalogChangeRow.mk.injEq, hproject, hrun, hid]
  constructor
  · intro h
    simp only [h, and_self]
  · intro h
    simp only [h, and_self]

/-! ### Artifacts -/

def ArtifactRow.columns (row : ArtifactRow) : ArtifactRow := { row with recordChecksum := ⟨.null⟩ }

def artifactKeys : List String :=
  ["project_id", "run_id", "artifact_kind", "uri", "content_type", "checksum", "retention_class",
    "expires_at", "legal_hold", "status", "attempt"]

def artifactFields (a : RunArtifact) : Dict :=
  [("project_id", .str a.projectId), ("run_id", .str a.runId),
    ("artifact_kind", .str a.artifactKind), ("uri", .ofText a.uri),
    ("content_type", .ofText a.contentType), ("checksum", .ofText a.checksum),
    ("retention_class", .ofText a.retentionClass), ("expires_at", .ofInstant a.expiresAt),
    ("legal_hold", .bool a.legalHold), ("status", .str a.status.value),
    ("attempt", .int a.attempt)]

theorem artifactChecksumPayload_eq (a : RunArtifact) : artifactChecksumPayload a = artifactFields a ++
      optionalFields "resource_ref" (a.resourceRef.map ResourceRef.asDict) := by
  cases h : a.resourceRef with
  | none => simp only [artifactChecksumPayload, h]; rfl
  | some r => simp only [artifactChecksumPayload, h]; rfl

theorem artifact_checksum_iff {a a' : RunArtifact} (hkey : (artifactRow a).key = (artifactRow a').key) :
    (artifactRow a).recordChecksum = (artifactRow a').recordChecksum ↔
      (artifactRow a).columns = (artifactRow a').columns := by
  have hkeys : ∀ a, KeysWithin (artifactFields a) artifactKeys := fun a => List.Sublist.refl _
  simp only [ArtifactRow.key, artifactRow, Prod.mk.injEq] at hkey
  obtain ⟨hproject, hrun, hid⟩ := hkey
  show payloadChecksum _ = payloadChecksum _ ↔ _
  rw [payloadChecksum_inj, artifactChecksumPayload_eq, artifactChecksumPayload_eq,
    canonical_optional_iff (hkeys a) (hkeys a') (by decide),
    canonical_plain_iff artifactKeys rfl rfl (by decide)
      (all_plain_of_chars (by decide +kernel)),
    optional_ref (by decide +kernel), optional_ref (by decide +kernel)]
  simp only [artifactFields, List.map_cons, List.map_nil, canonicalJson_str, canonicalJson_int,
    canonicalJson_bool, canonicalJson_ofText, canonicalJson_ofInstant, List.cons.injEq, Prod.mk.injEq,
    true_and, and_true, Json.str.injEq, Json.int.injEq, Json.bool.injEq, Json.ofText_injective.eq_iff,
    Json.ofInstant_injective.eq_iff, Int.natCast_inj, EvidenceCompleteness.redactText_value,
    EvidenceCompleteness.value_injective.eq_iff, ArtifactRow.columns, artifactRow, ArtifactRow.mk.injEq,
    hproject, hrun, hid]
  constructor
  · intro h
    simp only [h, and_self]
  · intro h
    simp only [h, and_self]

end Phlo.RunEvidence
