import Phlo.Wap.PromotionSensor

/-!
# The cleanup sensors

`wap_branch_cleanup_sensor` goes through the branches that are older than the retention period,
`wap_candidate_cleanup_sensor` through the reports of the snapshot strategy that were not updated for so long.
Each looks for the one run behind it, and removes the branch or the candidates.

* `cleanupBranch`, `cleanupCandidates` — what the sensors do with one branch and with one report.
-/

namespace Phlo.Wap

open Phlo.Library

def branchRunId (name : String) : String :=
  String.ofList (name.toList.drop OWNED_WAP_BRANCH_PREFIX.length)

def cleanupRun (id : String) (run : Run) : Run := { run with runId := id }

/-- `get_runs` with the tag of a logical run, and of these the ones with the branch. -/
def exactMatches (id branchName : String) : Sensor (List Run) := do
  let runs ← outside .runs
  pure (runs.filter fun run =>
    run.tags.get WAP_RUN_ID_TAG = some id && run.tags.get WAP_BRANCH_TAG = some branchName)

def recordCleanup (config : WapConfig) (id branchName incomplete : String) (run : Run) (runStatus : String)
    (hash : Option String) (complete : Bool) : Sensor Unit := do
  let _ ← writeWapReport id (some (if complete then .cleanupComplete else .cleanupIncomplete))
    [("branch", .str branchName), ("cleanup_complete", .bool complete),
      ("failure_reason", if complete then .null else .str incomplete)]
  if complete then
    emitWapObservation config
      { run := cleanupRun id run, status := "success", runStatus := some runStatus, operation := "cleanup"
        catalogRef := branchName, sourceHash := hash, mergeOutcome := some "deleted" }
  else pure ()

/-! ### Branches -/

def recordAmbiguity (id branchName : String) (runs : List Run) : Sensor Unit :=
  let several (key : String) : Bool := 1 < (runs.map fun run => run.tags.get key).dedup.length
  if several WAP_PROJECT_ID_TAG || several WAP_ATTEMPT_TAG then
    recordUncorrelatedGap id branchName ["project_id", "attempt"] "cleanup_correlation_conflict"
  else recordUncorrelatedGap id branchName ["run_status"] "cleanup_ambiguous_tagged_runs"

def removeBranch (config : WapConfig) (branch : Branch) (id : String) (run : Run) (runStatus : String) :
    Sensor Unit := do
  let report ← readWapReport id
  if report.any (Report.flag · "review_required") then pure ()
  else if inMergeState report "merge_started" then pure ()
  else do
    let expected := if inMergeState report "merged" then report.bind fun report => report.text? "source_hash" else none
    let complete ← cleanupOwnedWapBranch config branch.name expected
    recordCleanup config id branch.name "branch_cleanup_incomplete" run runStatus branch.hash complete

def cleanupMatchedBranch (config : WapConfig) (branch : Branch) (id : String) (run : Run) : Sensor Unit := do
  let valid ← checkWapRunContext config run branch.name
  if valid then
    match run.status.normalized with
    | none => recordUncorrelatedGap id branch.name ["run_status"] "cleanup_run_active"
    | some runStatus =>
      match nonEmpty (projectIdForRun config (cleanupRun id run)), attemptForRun (cleanupRun id run) with
      | some _, some _ => removeBranch config branch id run runStatus
      | project, attempt =>
        recordUncorrelatedGap id branch.name
          ((if project.isNone then ["project_id"] else []) ++ if attempt.isNone then ["attempt"] else [])
          "cleanup_report_missing_correlation"
  else pure ()

/-- What `wap_branch_cleanup_sensor` does with a branch. -/
def cleanupBranch (config : WapConfig) (branch : Branch) : Sensor Unit := do
  let id := branchRunId branch.name
  onReports (.turn id)
  let runs ← exactMatches id branch.name
  match runs with
  | [] => recordUncorrelatedGap id branch.name ["run_status"] "cleanup_no_exact_tagged_run"
  | [run] => cleanupMatchedBranch config branch id run
  | runs => recordAmbiguity id branch.name runs

/-- `datetime.now(timezone.utc) - timedelta(hours=DEFAULT_RETENTION_HOURS)` -/
def retentionCutoff (config : WapConfig) (now : ℤ) : ℤ := now - config.retentionHours * 3600000000

def isStaleBranch (cutoff : ℤ) (branch : Branch) : Bool :=
  isOwnedWapBranch branch.name && branch.createdAt.any (· ≤ cutoff)

def wapBranchCleanupSensor (config : WapConfig) : Sensor Unit := do
  let now ← outside .now
  let branches ← outside .listBranches
  Raising.each (branches.filter (isStaleBranch (retentionCutoff config now))) (cleanupBranch config)

/-! ### Candidates -/

def cleanupMatchedCandidates (config : WapConfig) (branchName id : String) (run : Run) : Sensor Unit := do
  let valid ← checkWapRunContext config run branchName
  if valid then
    match run.status.normalized with
    | none => pure ()
    | some runStatus => do
      let complete ← cleanupOwnedCandidates branchName
      recordCleanup config id branchName "candidate_cleanup_incomplete" run runStatus none complete
  else pure ()

/-- A report of the snapshot strategy that was not updated since the cutoff: its branch and its run. -/
def staleReport (cutoff : ℤ) (report : Report) : Option (String × String) :=
  if report.text? "strategy" = some WAP_STRATEGY_SNAPSHOT ∧ report.flag "review_required" = false ∧
      ((report.text? "updated_at").bind fromIsoformat).any (· ≤ cutoff) then
    match nonEmpty (report.text? "branch"), nonEmpty (report.text? "run_id") with
    | some branchName, some id => some (branchName, id)
    | _, _ => none
  else none

/-- What `wap_candidate_cleanup_sensor` does with a report. -/
def cleanupCandidates (config : WapConfig) (branchName id : String) : Sensor Unit := do
  onReports (.turn id)
  let runs ← exactMatches id branchName
  match runs with
  | [run] => cleanupMatchedCandidates config branchName id run
  | _ => recordUncorrelatedGap id branchName ["run_status"] "cleanup_ambiguous_or_missing_tagged_run"

def wapCandidateCleanupSensor (config : WapConfig) : Sensor Unit := do
  let now ← outside .now
  let reports ← onReports .files
  Raising.each (reports.filterMap (staleReport (retentionCutoff config now))) fun stale =>
    cleanupCandidates config stale.1 stale.2

end Phlo.Wap
