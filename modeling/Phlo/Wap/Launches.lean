import Phlo.Wap.Reports

/-!
# What the sensors ask of a run

A run that was launched for write-audit-publish carries its report, its launch manifest and its quality
evidence.  The sensors act only on a run whose tags, report and manifest say the same.

* `verifyWapLaunchManifest`, `checkWapRunContext` — the checks of a run before anything is done with it;
* `allChecksPassed`, `qualityEvidence` — what the checks of its assets said;
* `emitWapObservation` — the evidence a sensor leaves.
-/

namespace Phlo.Wap

open Phlo.Library Phlo.RunEvidence

/-- The settings of the process a sensor runs in. -/
structure WapConfig where
  /-- `get_settings().phlo_project` -/
  project : Option String
  /-- `load_wap_config().strategy` -/
  strategy : String
  /-- the query engine keeps a catalog for each ref -/
  hasQueryCatalogs : Bool := false
  /-- `DEFAULT_RETENTION_HOURS` -/
  retentionHours : ℕ := 24

def WAP_STRATEGY_BRANCH : String := "branch"

def WAP_STRATEGY_SNAPSHOT : String := "snapshot"

/-! ### Evidence of a sensor -/

def recordUncorrelatedGap (id branch : String) (missing : List String) (reason : String) : Sensor Unit := do
  let _ ← writeWapReport id (some .incomplete)
    [("branch", .str branch), ("observation_scope", .str "uncorrelated_maintenance"),
      ("evidence_completeness", .str "incomplete"), ("missing_evidence", .arr (missing.map .str)),
      ("maintenance_observation", .obj [("operation", .str "cleanup"), ("reason", .str reason)])]
  pure ()

/-- `_project_id_for_run` -/
def projectIdForRun (config : WapConfig) (run : Run) : Option String :=
  (resolveProjectIdentity run.tags config.project).projectId

/-- `_attempt_for_run` -/
def attemptForRun (run : Run) : Option ℕ := attemptFromTags run.tags

/-- `_emit_wap_observation` -/
def emitWapObservation (config : WapConfig) (observation : Observation) : Sensor Unit :=
  let run := observation.run
  if logicalRunId run = "" then pure ()
  else
    match nonEmpty (projectIdForRun config run), attemptForRun run with
    | some _, some _ => outside (.emitObservation observation)
    | project, attempt =>
      let error := (resolveProjectIdentity run.tags config.project).error.getD "project_id"
      recordUncorrelatedGap (logicalRunId run) observation.catalogRef
        ((if project.isNone then [error] else []) ++ if attempt.isNone then ["attempt"] else [])
        "missing_run_correlation"

/-! ### The launch -/

/-- `expected_tags`, if the run has them. -/
def expectedTags (config : WapConfig) (run : Run) (branchName : String) : Option (List (String × String)) :=
  match nonEmpty (projectIdForRun config run), attemptForRun run with
  | some projectId, some attempt =>
    let optional (key : String) := ((run.tags.get key).map fun value => (key, value)).toList
    let expected := [(WAP_RUN_ID_TAG, logicalRunId run), (WAP_BRANCH_TAG, branchName), (WAP_REF_TAG, branchName),
      (WAP_PROJECT_ID_TAG, projectId), (WAP_ATTEMPT_TAG, toString attempt)] ++
      ((nonEmpty (run.tags.get WAP_CATALOG_SYSTEM_TAG)).map fun value => (WAP_CATALOG_SYSTEM_TAG, value)).toList ++
      optional "environment" ++ optional WAP_BINDING_TAG
    if logicalRunId run ≠ "" ∧ run.runId ≠ "" ∧ ∀ item ∈ expected, run.tags.get item.1 = some item.2 then
      some expected
    else none
  | _, _ => none

/-- `re.fullmatch(r"[0-9a-f]{64}", checksum)` -/
def isDigest (checksum : String) : Bool :=
  let chars := checksum.toList
  chars.length = 64 && chars.all fun c => c.isDigit || ('a' ≤ c && c ≤ 'f')

def readWapLaunchManifest (id checksum : String) : Sensor (Option Report) :=
  if isDigest checksum then outside (.launchManifest id checksum) else pure none

/-- The facts of a launch: where the branch and its target stood. -/
structure LaunchHashes where
  source : JsonValue
  targetBefore : JsonValue

def launchHashes (id : String) (manifest binding : Report) : Sensor (Option (Report × LaunchHashes)) :=
  match manifest.get "launch_source_hash", manifest.get "launch_target_hash_before" with
  | none, none => do
    let hashes : LaunchHashes :=
      ⟨(binding.get "source_hash").getD .null, (binding.get "target_hash_before").getD .null⟩
    let written ← writeWapReport id none
      [("launch_source_hash", hashes.source), ("launch_target_hash_before", hashes.targetBefore)]
    if written then do
      let manifest ← readWapReport id
      pure (manifest.map fun manifest => (manifest, hashes))
    else pure none
  | some source, some targetBefore => pure (some (manifest, ⟨source, targetBefore⟩))
  | _, _ => pure none

/-- `context` of a binding: nothing or an object, else the binding is not used. -/
def bindingContext (binding : Report) : Option (Option Fields) :=
  match binding.get "context" with
  | none | some .null => some none
  | some (.obj []) => some none
  | some (.obj fields) => some (some fields)
  | some _ => none

def expectedBinding (id dagsterRunId branchName : String) (tags : List (String × String)) (hashes : LaunchHashes)
    (context : Option Fields) : JsonValue :=
  let target : JsonValue := match context with
    | some fields => (fields.lookup "target_ref").getD .null
    | none => .str "main"
  .obj ([("schema_version", .str (if context.isSome then "phlo.wap_launch_manifest.v2"
      else "phlo.wap_launch_manifest.v1")),
    ("logical_run_id", .str id), ("dagster_run_id", .str dagsterRunId), ("branch", .str branchName),
    ("tags", .obj (tags.map fun item => (item.1, .str item.2))), ("source_hash", hashes.source),
    ("target_branch", target), ("target_hash_before", hashes.targetBefore)] ++
    (context.map fun fields => ("context", .obj fields)).toList)

def isBound (run : Run) (branchName : String) (tags : List (String × String)) (manifest binding : Report)
    (hashes : LaunchHashes) (context : Option Fields) : Bool :=
  manifest.text? "run_id" = some (logicalRunId run) &&
  manifest.text? "branch" = some branchName &&
  manifest.text? "dagster_run_id" = some run.runId &&
  (manifest.get "launch_tags").any (sameJson (.obj (tags.map fun item => (item.1, .str item.2)))) &&
  context.all (fun fields => (manifest.get "context").any (sameJson (.obj fields))) &&
  sameJson (.obj binding.items) (expectedBinding (logicalRunId run) run.runId branchName tags hashes context)

def verifyBinding (run : Run) (branchName : String) (tags : List (String × String)) (manifest binding : Report) :
    Sensor (Option (String × Report)) := do
  let found ← launchHashes (logicalRunId run) manifest binding
  match found, bindingContext binding with
  | some (manifest, hashes), some context =>
    if isBound run branchName tags manifest binding hashes context then
      pure (some (logicalRunId run, manifest))
    else pure none
  | _, _ => pure none

def bindingOf (id : String) (manifest : Report) : Sensor (Option Report) :=
  match nonEmpty (manifest.text? "launch_manifest_checksum") with
  | some checksum => readWapLaunchManifest id checksum
  | none => pure none

def verifyWapLaunchManifest (config : WapConfig) (run : Run) (branchName : String) :
    Sensor (Option (String × Report)) :=
  match expectedTags config run branchName with
  | none => pure none
  | some tags => do
    let manifest ← readWapReport (logicalRunId run)
    match manifest with
    | none => pure none
    | some manifest => do
      let binding ← bindingOf (logicalRunId run) manifest
      match binding with
      | none => pure none
      | some binding => verifyBinding run branchName tags manifest binding

def validateContext (run : Run) (verified : String × Report) : Sensor Bool := do
  let binding ← bindingOf verified.1 verified.2
  let error ← outside (.validateContext run (binding.getD .empty))
  match error with
  | some text => do
    let _ ← writeWapReport verified.1 (some .promotionBlocked)
      [("failure_reason", .str "wap_launch_context_invalid"), ("context_error", .str text)]
    pure false
  | none => pure true

def checkWapRunContext (config : WapConfig) (run : Run) (branchName : String) : Sensor Bool := do
  let verified ← verifyWapLaunchManifest config run branchName
  match verified with
  | none => pure false
  | some verified => validateContext run verified

/-- `binding["context"]["target_ref"]`, if there is one. -/
def targetRef (binding : Report) : Option String :=
  match bindingContext binding with
  | some (some fields) =>
    match fields.lookup "target_ref" with
    | some (.str target) => some target
    | _ => none
  | _ => none

/-- `_publication_target` -/
def publicationTarget (run : Run) : Sensor String := do
  let report ← readWapReport (logicalRunId run)
  let binding ← bindingOf (logicalRunId run) (report.getD .empty)
  match binding.bind targetRef with
  | some target => pure target
  | none => throw .raised

/-! ### Quality -/

/-- `_severity_label` -/
def severityLabel (severity : String) : String :=
  if severity = "" then "error" else String.ofList (severity.toList.map Char.toLower)

/-- `_check_is_blocking` -/
def checkIsBlocking (severity : String) : Bool := severityLabel severity ∉ ["warn", "warning"]

/-- `_all_checks_passed` -/
def allChecksPassed (runId : String) : Sensor Bool := do
  let records ← attempted (.checkRecords runId)
  match records with
  | none => pure false
  | some records => pure (records.all fun record => record.passed || severityLabel record.severity = "warn")

def sameChecks (left right : List CheckRecord) : Bool :=
  left.map (fun c => (c.eventId, c.passed, c.severity)) = right.map (fun c => (c.eventId, c.passed, c.severity)) &&
    (left.zip right).all fun pair =>
      sameJson ((pair.1.candidate.map JsonValue.obj).getD .null) ((pair.2.candidate.map JsonValue.obj).getD .null)

def persistAggregateQualityDecision (projectId runId : String) (attempt : ℕ) (checks : List CheckRecord) :
    Sensor (Option String) :=
  if checks.any fun check => (nonEmpty check.eventId).isNone then pure none
  else do
    let passed := checks.all fun check => check.passed || !checkIsBlocking check.severity
    let results ← attempted (.qualityResults projectId runId attempt passed checks)
    let decision := (results.getD []).find? fun result =>
      result.checkId = "wap.aggregate" && result.passed = passed && sameChecks result.checks checks
    pure (decision.map QualityResult.qualityResultId)

/-- `_quality_evidence`: the identity of the durable decision. -/
def qualityEvidence (config : WapConfig) (run : Run) : Sensor (Option String) :=
  if hasReportPath run.runId then do
    let report ← onReports (.read run.runId)
    if report.any fun report => report.text? "run_id" ≠ some run.runId then pure none
    else do
      let checks ← attempted (.checkRecords run.runId)
      match checks, nonEmpty (projectIdForRun config run), attemptForRun run with
      | some checks, some projectId, some attempt =>
        persistAggregateQualityDecision projectId (logicalRunId run) attempt checks
      | _, _, _ => pure none
  else throw .raised

end Phlo.Wap
