import Phlo.Wap.Launches

/-!
# The promotion sensor

`wap_auto_promotion_sensor` goes through the runs that have ended.  A run whose launch verifies, whose checks
passed and whose quality decision is durable is published: under the branch strategy its branch is merged into
the target ref, under the snapshot strategy its candidates are released.  Intent, receipt, cleanup and the end are
written to the report one after the other, so that a later tick goes on where an earlier one stopped.

* `promoteTerminalRun` — what the sensor does with one run;
* `wapAutoPromotionSensor` — one tick.
-/

namespace Phlo.Wap

open Phlo.Library

/-- How many runs were promoted and how many were blocked. -/
abbrev Tally := ℕ × ℕ

/-- `_branch_hash` -/
def branchHash (name : String) : Sensor (Option String) := do
  let hash ← attempted (.branchHash name)
  pure (nonEmpty (hash.getD none))

/-- `_release_revision` -/
def releaseRevision : Sensor ℤ := do
  let revision ← attempted .releaseRevision
  pure (revision.getD (-1))

def cleanupOwnedCandidates (branchName : String) : Sensor Bool :=
  if isOwnedWapBranch branchName then do
    let aborted ← attempted (.abortCandidates branchName)
    pure (aborted.getD false)
  else pure false

def cleanupOwnedWapBranch (config : WapConfig) (branchName : String) (expectedHash : Option String) : Sensor Bool :=
  if isOwnedWapBranch branchName then do
    let current ← onlyIf expectedHash.isSome (branchHash branchName) none
    if expectedHash.isSome ∧ current ≠ expectedHash then pure false
    else do
      let dropped ← onlyIf config.hasQueryCatalogs (attempted (.dropRefQueryCatalog branchName)) (some ())
      match dropped with
      | none => pure false
      | some () => do
        let deleted ← attempted (.deleteBranch branchName expectedHash)
        pure (deleted.getD false)
  else pure false

/-! ### The end -/

/-- What is published of a run. -/
structure Publication where
  sourceHash : Option String
  targetHashBefore : Option String
  targetHashAfter : Option String
  sourceDeleted : Bool

def Publication.fields (p : Publication) (branchName target : String) : Fields :=
  [("merge_state", .str "merged"), ("branch", .str branchName), ("source_hash", textOrNull p.sourceHash),
    ("target_branch", .str target), ("target_hash_before", textOrNull p.targetHashBefore),
    ("target_hash_after", textOrNull p.targetHashAfter)]

/-- What `_finalize_wap_promotion` does after the terminal report. -/
def acknowledgePromotion (config : WapConfig) (run : Run) (branchName catalogRef : String) (p : Publication) :
    Sensor Bool := do
  outside (.addRunTag run.runId "phlo/wap_promoted" "true")
  let decision ← qualityEvidence config run
  emitWapObservation config
    { run := run, status := "success", runStatus := some "success", operation := "promotion"
      catalogRef := catalogRef, sourceHash := p.sourceHash, targetHash := p.targetHashAfter
      mergeOutcome := some "promoted", qualityDecisionId := decision }
  emitWapObservation config
    { run := run, status := if p.sourceDeleted then "success" else "incomplete", runStatus := some "success"
      operation := "cleanup", catalogRef := branchName, sourceHash := p.sourceHash
      mergeOutcome := some (if p.sourceDeleted then "deleted" else "failed") }
  pure true

def finalizeWapPromotion (config : WapConfig) (run : Run) (branchName catalogRef : String) (p : Publication) :
    Sensor Bool := do
  let target ← publicationTarget run
  let written ← writeWapReport (logicalRunId run) (some .promoted)
    (p.fields branchName target ++ [("source_deleted", .bool p.sourceDeleted)])
  if written then acknowledgePromotion config run branchName catalogRef p else pure false

/-! ### Snapshots -/

/-- `_release_resolved_for_run` of the tables of some candidates. -/
def releasesResolved (releaseId : String) : List CandidateSnapshot → Sensor Bool
  | [] => pure true
  | candidate :: candidates => do
    let release ← attempted (.resolveRelease candidate.tableName)
    if release.getD none = some releaseId then releasesResolved releaseId candidates else pure false

def releaseResolvedForRun (branchName releaseId : String) : Sensor Bool := do
  let candidates ← attempted (.listCandidates branchName)
  match candidates.getD [] with
  | [] => pure false
  | candidate :: candidates => releasesResolved releaseId (candidate :: candidates)

def candidateRows (candidates : List CandidateSnapshot) : JsonValue :=
  .arr (candidates.map fun c => .obj [("table", .str c.tableName), ("snapshot_id", .str c.snapshotId)])

def candidateSnapshots (candidates : List CandidateSnapshot) : Option String :=
  nonEmpty (some (",".intercalate (sortBy id (candidates.map CandidateSnapshot.snapshotId))))

def revisionText (revision : ℤ) : Option String := if revision ≥ 0 then some (toString revision) else none

/-- `int(launch_revision)`, or -1. -/
def launchRevision (report : Option Report) : ℤ :=
  match (report.bind fun report => report.text? "launch_target_hash_before").bind intFromText with
  | some revision => revision
  | none => -1

def settleCandidates (run : Run) (branchName : String) (prior : Option Report) (p : Publication) :
    Sensor (Option Publication) := do
  let deleted ← onlyIf (¬prior.any (Report.flag · "source_deleted")) (cleanupOwnedCandidates branchName) true
  let written ← writeWapReport (logicalRunId run) (some .promotionPending)
    (p.fields branchName "main" ++ [("source_deleted", .bool deleted)])
  if deleted ∧ written then pure (some { p with sourceDeleted := true }) else pure none

def releaseCandidates (config : WapConfig) (run : Run) (branchName : String) (prior : Option Report)
    (revision : ℤ) (candidates : List CandidateSnapshot) (decision : Option String) :
    Sensor (Option Publication) := do
  let sourceHash := candidateSnapshots candidates
  let before := revisionText revision
  let facts : Fields := [("branch", .str branchName), ("source_hash", textOrNull sourceHash),
    ("target_branch", .str "main"), ("target_hash_before", textOrNull before)]
  if launchRevision prior < 0 ∨ launchRevision prior ≠ revision then do
    let _ ← writeWapReport (logicalRunId run) (some .promotionFailed)
      [("branch", .str branchName), ("failure_reason", .str "release_pointer_conflict")]
    pure none
  else do
    let intended ← writeWapReport (logicalRunId run) (some .promotionPending)
      (("merge_state", .str "merge_started") :: facts ++ [("candidates", candidateRows candidates)])
    if intended then do
      let answer ← attempted (.promoteCandidates branchName (logicalRunId run) (launchRevision prior))
      match answer with
      | some (.reviewRequired message) => do
        let _ ← writeWapReport (logicalRunId run) (some .promotionBlocked)
          [("merge_state", .str "review_required"), ("branch", .str branchName),
            ("failure_reason", .str "independent_gold_review_required"), ("review_required", .bool true),
            ("review_message", .str message)]
        pure none
      | some (.published true) => do
        let after ← releaseRevision
        let received ← writeWapReport (logicalRunId run) (some .promotionPending)
          (("merge_state", .str "merged") :: facts ++ [("target_hash_after", .str (toString after)),
            ("release_id", .str (logicalRunId run)), ("candidates", candidateRows candidates)])
        if received then
          settleCandidates run branchName prior ⟨sourceHash, before, some (toString after), false⟩
        else pure none
      | _ => do
        let _ ← writeWapReport (logicalRunId run) (some .promotionFailed)
          (facts ++ [("failure_reason", .str "release_promotion_failed")])
        emitWapObservation config
          { run := run, status := "failed", runStatus := some "success", operation := "promotion"
            catalogRef := "main", sourceHash := sourceHash, targetHash := before
            mergeOutcome := some "failed", qualityDecisionId := decision }
        pure none
    else pure none

def recordReleaseConflict (config : WapConfig) (run : Run) (branchName : String) (prior : Option Report)
    (sourceHash decision : Option String) : Sensor (Option Publication) := do
  let before := prior.bind fun report => report.text? "target_hash_before"
  let _ ← writeWapReport (logicalRunId run) (some .promotionFailed)
    [("branch", .str branchName), ("source_hash", textOrNull sourceHash), ("target_branch", .str "main"),
      ("target_hash_before", textOrNull before), ("failure_reason", .str "release_pointer_conflict")]
  emitWapObservation config
    { run := run, status := "failed", runStatus := some "success", operation := "promotion", catalogRef := "main"
      sourceHash := sourceHash, targetHash := before, mergeOutcome := some "failed", qualityDecisionId := decision }
  pure none

/-- `prior_report.get("merge_state") == state` -/
def inMergeState (prior : Option Report) (state : String) : Bool :=
  prior.any fun report => report.text? "merge_state" = some state

def advanceSnapshotPromotion (config : WapConfig) (run : Run) (branchName : String) (prior : Option Report)
    (decision : Option String) : Sensor (Option Publication) := do
  let revision ← releaseRevision
  let listed ← attempted (.listCandidates branchName)
  let candidates := listed.getD []
  let before := revisionText revision
  let moved := inMergeState prior "merge_started" = true ∧
    (prior.bind fun report => report.text? "target_hash_before") ≠ before
  let resolved ← onlyIf moved (releaseResolvedForRun branchName (logicalRunId run)) false
  if inMergeState prior "merged" = true ∨ resolved = true then do
    let after ← releaseRevision
    settleCandidates run branchName prior ⟨candidateSnapshots candidates, before, some (toString after), false⟩
  else if moved then recordReleaseConflict config run branchName prior (candidateSnapshots candidates) decision
  else releaseCandidates config run branchName prior revision candidates decision

/-! ### Branches -/

def reconcilePromotedWapRun (config : WapConfig) (run : Run) : Sensor Bool :=
  if run.runId = "" ∨ nonEmpty (projectIdForRun config run) = none then pure false
  else do
    let reconciled ← attempted (.reconcile run)
    pure reconciled.isSome

def branchIsGone (name : String) : Sensor Bool := do
  let hash ← branchHash name
  pure hash.isNone

/-- `_finish_branch_promotion`, from the receipt on. -/
def settleBranch (config : WapConfig) (run : Run) (branchName target : String) (prior : Option Report)
    (alreadyMerged : Bool) (p : Publication) : Sensor Bool := do
  let marked := prior.any (Report.flag · "source_deleted")
  -- a branch that is gone has been deleted
  let gone ← onlyIf (alreadyMerged ∧ ¬marked) (branchIsGone branchName) marked
  let deleted ← onlyIf (¬gone) (cleanupOwnedWapBranch config branchName p.sourceHash) true
  let written ← writeWapReport (logicalRunId run) (some .promotionPending)
    (p.fields branchName target ++ [("source_deleted", .bool deleted)])
  if deleted ∧ written then do
    let reconciled ← reconcilePromotedWapRun config run
    if reconciled then
      finalizeWapPromotion config run branchName target { p with sourceDeleted := true }
    else pure false
  else pure false

def finishBranchPromotion (config : WapConfig) (run : Run) (branchName : String) (prior : Option Report)
    (sourceHash targetHashBefore : Option String) (alreadyMerged : Bool) : Sensor Bool := do
  let target ← publicationTarget run
  let after := if alreadyMerged then prior.bind fun report => report.text? "target_hash_after" else sourceHash
  let p : Publication := ⟨sourceHash, targetHashBefore, after, false⟩
  let received ← onlyIf (¬alreadyMerged)
    (writeWapReport (logicalRunId run) (some .promotionPending) (p.fields branchName target)) true
  if received then settleBranch config run branchName target prior alreadyMerged p else pure false

def unboundChecks (branchName : String) (sourceHash : Option String) (checks : List CheckRecord) : Option String :=
  let named (check : CheckRecord) (key : String) : Bool :=
    match (check.candidate.getD []).lookup key with
    | some (.str text) => text ≠ ""
    | _ => false
  if checks = [] ∨ checks.any fun check => !named check "hash" || !named check "ref" then
    some "audit_candidate_binding_missing"
  else if checks.any fun check => !sameJson (.obj (check.candidate.getD []))
      (.obj [("ref", .str branchName), ("hash", textOrNull sourceHash)]) then
    some "audit_candidate_changed"
  else none

/-- The launch asks for checks that name their candidate. -/
def requiresBoundChecks (prior : Option Report) : Bool :=
  match prior.bind fun report => report.get "context" with
  | some (.obj fields) =>
    match fields.lookup "require_candidate_bound_checks" with
    | some (.bool required) => required
    | _ => false
  | _ => false

def boundCheckFailure (run : Run) (branchName : String) (prior : Option Report) (sourceHash : Option String) :
    Sensor (Option String) :=
  if requiresBoundChecks prior then do
    let checks ← attempted (.checkRecords run.runId)
    pure (unboundChecks branchName sourceHash (checks.getD []))
  else pure none

/-- The merge was refused. -/
def recordMergeFailure (config : WapConfig) (run : Run) (branchName target : String)
    (sourceHash targetHashBefore : Option String) : Sensor Unit := do
  let _ ← writeWapReport (logicalRunId run) (some .promotionFailed)
    [("merge_state", .str "merge_failed"), ("branch", .str branchName), ("source_hash", textOrNull sourceHash),
      ("target_branch", .str target), ("target_hash_before", textOrNull targetHashBefore),
      ("failure_reason", .str "merge_branch_returned_false")]
  let decision ← qualityEvidence config run
  emitWapObservation config
    { run := run, status := "failed", runStatus := some "success", operation := "promotion", catalogRef := target
      sourceHash := sourceHash, targetHash := targetHashBefore, mergeOutcome := some "failed"
      qualityDecisionId := decision }

def mergeWithIntent (config : WapConfig) (run : Run) (branchName target : String) (prior : Option Report)
    (message sourceHash targetHashBefore : Option String) : Sensor Tally := do
  let intended ← writeWapReport (logicalRunId run) (some .promotionPending)
    [("merge_state", .str "merge_started"), ("branch", .str branchName), ("source_hash", textOrNull sourceHash),
      ("target_branch", .str target), ("target_hash_before", textOrNull targetHashBefore),
      ("publication_method", .str "ref_fast_forward"), ("publication_reason", textOrNull message)]
  if intended then do
    let answer ← outside (.mergeBranch branchName target message targetHashBefore sourceHash)
    match answer with
    | .reviewRequired text => do
      let _ ← writeWapReport (logicalRunId run) (some .promotionBlocked)
        [("merge_state", .str "review_required"), ("branch", .str branchName),
          ("failure_reason", .str "independent_gold_review_required"), ("review_required", .bool true),
          ("review_message", .str text)]
      pure (0, 1)
    | .published true => do
      let promoted ← finishBranchPromotion config run branchName prior sourceHash targetHashBefore false
      pure (if promoted then 1 else 0, 0)
    | .published false => do
      recordMergeFailure config run branchName target sourceHash targetHashBefore
      pure (0, 0)
  else pure (0, 0)

def blockRun (run : Run) (fields : Fields) : Sensor Tally := do
  let _ ← writeWapReport (logicalRunId run) (some .promotionBlocked) fields
  pure (0, 1)

def mergeFreshBranch (config : WapConfig) (run : Run) (branchName target : String) (prior : Option Report)
    (message sourceHash targetHashBefore : Option String) : Sensor Tally := do
  let expectedHash := nonEmpty (prior.bind fun report => report.text? "launch_target_hash_before")
  if sourceHash = none ∨ targetHashBefore = none then do
    let _ ← writeWapReport (logicalRunId run) (some .promotionPending)
      [("failure_reason", .str "catalog_hash_unavailable")]
    pure (0, 0)
  else if expectedHash = none ∨ targetHashBefore ≠ expectedHash then
    blockRun run [("failure_reason", .str "target_hash_drift")]
  else do
    let failure ← boundCheckFailure run branchName prior sourceHash
    match failure with
    | some reason =>
      blockRun run
        [("branch", .str branchName), ("source_hash", textOrNull sourceHash), ("failure_reason", .str reason)]
    | none => mergeWithIntent config run branchName target prior message sourceHash targetHashBefore

/-- `_promote_branch` -/
def promoteBranch (config : WapConfig) (run : Run) (branchName : String) (prior : Option Report)
    (message : Option String) : Sensor Tally := do
  let target ← publicationTarget run
  let sourceHash ← branchHash branchName
  let targetHashBefore ← branchHash target
  if inMergeState prior "merged" then do
    let recorded (key : String) := nonEmpty (prior.bind fun report => report.text? key)
    let promoted ← finishBranchPromotion config run branchName prior ((recorded "source_hash").or sourceHash)
      ((recorded "target_hash_before").or targetHashBefore) true
    pure (if promoted then 1 else 0, 0)
  else if inMergeState prior "merge_started" then do
    -- whether the merge has happened is not known
    let _ ← writeWapReport (logicalRunId run) (some .promotionPending)
      [("failure_reason", .str "merge_outcome_unknown")]
    pure (0, 0)
  else mergeFreshBranch config run branchName target prior message sourceHash targetHashBefore

/-! ### One run -/

def advancePromotion (config : WapConfig) (run : Run) (branchName reportStrategy : String) (prior : Option Report)
    (decision message : Option String) : Sensor Tally :=
  if reportStrategy = WAP_STRATEGY_SNAPSHOT then do
    let advance ← advanceSnapshotPromotion config run branchName prior decision
    match advance with
    | none => pure (0, 0)
    | some publication => do
      let promoted ← finalizeWapPromotion config run branchName ("release:" ++ logicalRunId run) publication
      pure (if promoted then 1 else 0, 0)
  else promoteBranch config run branchName prior message

/-- `_promotion_review_policy` of the automatic merge reason. -/
def promotionReason (governance : Governance) (id : String) : Option String :=
  if governance.requireMergeReason then
    some ("Publish validated WAP run " ++ id ++ ": all required quality checks passed.")
  else none

def promoteValidatedRun (config : WapConfig) (run : Run) (branchName reportStrategy : String)
    (decision : Option String) : Sensor Tally := do
  let prior ← readWapReport (logicalRunId run)
  if inMergeState prior "merged" then advancePromotion config run branchName reportStrategy prior decision none
  else do
    let governance ← outside .operationalSettings
    match governance with
    | none =>
      blockRun run [("branch", .str branchName), ("failure_reason", .str "governance_settings_unavailable")]
    | some governance =>
      if governance.secondGoldReviewer then
        blockRun run [("branch", .str branchName), ("failure_reason", .str "independent_gold_review_required"),
          ("review_required", .bool true), ("settings_revision", .int governance.settingsRevision),
          ("review_message", .str ("Automatic promotion cannot prove non-gold content. " ++
            "Retain the branch and use an operator-reviewed promotion process."))]
      else
        advancePromotion config run branchName reportStrategy prior decision
          (promotionReason governance (logicalRunId run))

def currentHashes (branchName target : String) : Sensor Fields := do
  let source ← branchHash branchName
  let before ← branchHash target
  pure [("source_hash", textOrNull source), ("target_hash_before", textOrNull before)]

/-- A run without the evidence or the checks it needs. -/
def rejectQuality (config : WapConfig) (run : Run) (branchName target reason status outcome : String)
    (decision : Option String) : Sensor Tally := do
  let hashes ← onlyIf (reason = "asset_checks_failed") (currentHashes branchName target) []
  let _ ← writeWapReport (logicalRunId run) (some .promotionBlocked)
    (("branch", .str branchName) :: ("target_branch", .str target) :: ("failure_reason", .str reason) :: hashes)
  let source ← branchHash branchName
  let before ← branchHash target
  emitWapObservation config
    { run := run, status := status, runStatus := some "success", operation := "promotion", catalogRef := target
      sourceHash := source, targetHash := before, mergeOutcome := some outcome, qualityDecisionId := decision }
  pure (0, 1)

def promoteSucceededRun (config : WapConfig) (run : Run) (branchName target reportStrategy : String) :
    Sensor Tally := do
  let passed ← allChecksPassed run.runId
  let decision ← qualityEvidence config run
  match decision with
  | none =>
    rejectQuality config run branchName target "quality_evidence_unavailable" "incomplete"
      "skipped_quality_evidence_unavailable" none
  | some decision =>
    if passed then promoteValidatedRun config run branchName reportStrategy (some decision)
    else
      rejectQuality config run branchName target "asset_checks_failed" "rejected" "rejected_quality" (some decision)

/-- `_promote_terminal_run` of a run whose manifest has been verified. -/
def promoteVerifiedRun (config : WapConfig) (run : Run) (branchName : String) (manifest : String × Report) :
    Sensor Tally := do
  let valid ← checkWapRunContext config run branchName
  if valid then do
    let target ← publicationTarget run
    let reportStrategy := (manifest.2.text? "strategy").getD WAP_STRATEGY_BRANCH
    if reportStrategy ≠ config.strategy then do
      let _ ← writeWapReport manifest.1 (some .promotionBlocked)
        [("branch", .str branchName), ("failure_reason", .str "wap_strategy_mismatch")]
      pure (0, 1)
    else
      match run.status with
      | .failure | .canceled => do
        let status : WapStatus := if run.status = .failure then .failed else .cancelled
        let written ← writeWapReport (logicalRunId run) (some status)
          [("branch", .str branchName), ("dagster_run_id", .str run.runId),
            ("failure_reason", .str ("dagster_run_" ++ status.text))]
        pure (0, if written then 1 else 0)
      | _ => promoteSucceededRun config run branchName target reportStrategy
  else pure (0, 1)

/-- `_promote_terminal_run` -/
def promoteTerminalRun (config : WapConfig) (run : Run) : Sensor Tally :=
  match nonEmpty (run.tags.get WAP_BRANCH_TAG) with
  | none => pure (0, 0)
  | some branchName =>
    if isOwnedWapBranch branchName = false then pure (0, 0)
    else if (nonEmpty (run.tags.get "phlo/wap_promoted")).isSome then pure (0, 0)
    else do
      onReports (.turn (logicalRunId run))
      let manifest ← verifyWapLaunchManifest config run branchName
      match manifest with
      | none =>
        if logicalRunId run = "" then pure (0, 1)
        else blockRun run [("branch", .str branchName),
          ("failure_reason", .str "launch_manifest_or_immutable_tags_invalid")]
      | some manifest => promoteVerifiedRun config run branchName manifest

/-! ### One tick -/

def isTerminalAfter (cutoff : ℤ) (run : Run) : Bool :=
  (run.status = .success || run.status = .failure || run.status = .canceled) && cutoff < run.updated

/-- `wap_auto_promotion_sensor` with the time its cursor names; its new cursor. -/
def wapAutoPromotionSensor (config : WapConfig) (cursor : Option ℤ) : Sensor ℤ := do
  let evaluationTime ← outside .now
  let cutoff := match cursor with
    | some time => time - 5 * 60 * 1000000
    | none => evaluationTime - 60 * 60 * 1000000
  let runs ← outside .runs
  -- a run that raises is left for a later tick
  Raising.each (runs.filter (isTerminalAfter cutoff)) fun run => do
    let _ ← Raising.attempt (promoteTerminalRun config run)
    pure ()
  pure evaluationTime

end Phlo.Wap
