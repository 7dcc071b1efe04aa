import Mathlib
import Phlo.Library.JsonFields
import Phlo.Library.OrderedDict

/-!
# Plans of snapshot expiry and of orphan-file cleanup

A dry run of `expire_snapshots` or `cleanup_orphan_files` reads a table and returns a plan with a token; a
run in execute mode builds the plan of the table it finds and goes on only if the token it is given is the
token of that plan.  A token is the digest of the plan without the fields in `reserved`, at every depth.

* `retentionMetadata`, `orphanRetentionMetadata` — the plans;
* `retentionExecuteRefusal`, `validateRetentionExecute` — the checks of execute mode, in their order;
* `expireSnapshots`, `cleanupOrphanFiles` — the operations, up to the call of the executor.
-/

namespace Phlo.Maintenance

open Phlo.Library

/-! ### Tables -/

structure DataFile where
  filePath : String
  fileSizeInBytes : Option ℤ

structure Manifest where
  manifestPath : String
  entries : List DataFile

/-- A snapshot; its manifests may be unreadable. -/
structure Snapshot where
  snapshotId : ℤ
  timestampMs : ℤ
  operation : Option String
  summary : OrderedDict String String
  manifests : Option (List Manifest)

/-- A loaded table.  `refs` are the named refs that are enumerated, `refsListed` tells that none was left
out by a failure. -/
structure TableState where
  snapshots : List Snapshot
  currentSnapshot : Option Snapshot
  refs : List (String × Option ℤ)
  refsListed : Bool
  location : String

namespace Snapshot

def dataFiles (s : Snapshot) : Option (List DataFile) := s.manifests.map fun ms => ms.flatMap (·.entries)

end Snapshot

namespace TableState

def currentSnapshotId (table : TableState) : Option ℤ := table.currentSnapshot.map Snapshot.snapshotId

def newestFirst (table : TableState) : List Snapshot := sortBy (fun s => -s.timestampMs) table.snapshots

def snapshotRefs (table : TableState) : OrderedDict String ℤ :=
  OrderedDict.ofList (table.refs.filterMap fun ref => ref.2.map fun id => (ref.1, id))

/-- File count and total size of the current snapshot: the parts of `get_table_stats` that plans show. -/
def stats (table : TableState) : Option (ℕ × ℤ) :=
  match table.currentSnapshot with
  | none => some (0, 0)
  | some s => do
    let files ← s.dataFiles
    let sizes ← files.mapM DataFile.fileSizeInBytes
    return (files.length, sizes.sum)

end TableState

/-! ### Surroundings -/

/-- An object of a storage listing; times are microseconds. -/
structure InventoryObject where
  identity : String
  sizeBytes : Option ℤ
  modifiedAt : Option ℤ
  checksumOrVersion : Option String

structure ObjectInventory where
  prefixUri : String
  objects : List InventoryObject
  pageCount : ℤ
  continuationExhausted : Bool
  complete : Bool
  digest : Option String
  failure : Option String

/-- What the operations use of the machine they run on. -/
structure Host where
  sha256 : String → String
  /-- `round(seconds, 3)` of microseconds -/
  roundedSeconds : ℤ → FloatText
  isoformat : ℤ → String
  /-- the listing of a location, for a cutoff -/
  inventoryOwnedPrefix : String → ℤ → ObjectInventory
  storagePathKey : String → String

/-- The readings of the clock during one call. -/
structure Moment where
  cutoffAt : ℤ
  /-- when the age of a snapshot is taken -/
  agedAt : ℤ → ℤ
  observedAt : ℤ

/-- A resource: its default ref, and whether `main` is protected. -/
structure IcebergResource where
  ref : String
  protectMain : Bool

/-- `int | str` -/
inductive SnapshotToken where
  | int (n : ℤ)
  | str (s : String)

/-- The arguments of a call. -/
structure Arguments where
  tableName : String
  overrideRef : Option String
  catalog : Option String
  dryRun : Bool
  retentionHours : ℤ
  retainLast : ℤ
  minimumRetentionHours : ℤ
  expectedSnapshotId : Option SnapshotToken
  confirmationToken : Option String
  maxAffectedObjects : Option ℤ
  maxAffectedBytes : Option ℤ
  hasExecutor : Bool

inductive Operation where
  | expireSnapshots
  | cleanupOrphanFiles
  deriving DecidableEq

def Operation.value : Operation → String
  | .expireSnapshots => "expire_snapshots"
  | .cleanupOrphanFiles => "cleanup_orphan_files"

def safeMinRetentionHours : ℤ := 7 * 24

/-- Truth of an optional string: it is there and not empty. -/
def given (s : Option String) : Bool := s.any (· ≠ "")

/-- `override_ref or self.ref` -/
def IcebergResource.branch (resource : IcebergResource) (args : Arguments) : String :=
  if given args.overrideRef then args.overrideRef.getD "" else resource.ref

/-! ### Texts -/

def isIdentifierStart (c : Char) : Bool := c.isAlpha || c == '_'

def isIdentifierRest (c : Char) : Bool := c.isAlphanum || c == '_'

/-- `[A-Za-z_][A-Za-z0-9_]*` -/
def isCompactionIdentifier : List Char → Bool
  | [] => false
  | c :: cs => isIdentifierStart c && cs.all isIdentifierRest

/-- `_validate_compaction_table_name` accepts the name. -/
def validTableName (name : String) : Bool :=
  match name.toList.splitOn '.' with
  | [namespacePart, tablePart] => isCompactionIdentifier namespacePart && isCompactionIdentifier tablePart
  | _ => false

def retentionThreshold (hours : ℤ) : String :=
  if hours % 24 = 0 then (hours / 24).repr ++ "d" else hours.repr ++ "h"

def isBlank (c : Char) : Bool := c == ' ' || c == '\t' || c == '\n' || c == '\r' || c.toNat == 11 || c.toNat == 12

/-- The number that digits with single underscores between them stand for. -/
def readDigits (value : ℕ) : List Char → Option ℕ
  | [] => some value
  | '_' :: c :: cs => if c.isDigit then readDigits (value * 10 + (c.toNat - 48)) cs else none
  | c :: cs => if c.isDigit then readDigits (value * 10 + (c.toNat - 48)) cs else none

def readNatural : List Char → Option ℕ
  | [] => none
  | c :: cs => if c.isDigit then readDigits (c.toNat - 48) cs else none

/-- `int(text)` of a text in ASCII -/
def parseInt (s : String) : Option ℤ :=
  match ((s.toList.dropWhile isBlank).reverse.dropWhile isBlank).reverse with
  | '-' :: cs => (readNatural cs).map fun n => -(n : ℤ)
  | '+' :: cs => (readNatural cs).map Int.ofNat
  | cs => (readNatural cs).map Int.ofNat

/-- `int(expected_snapshot_id)` -/
def SnapshotToken.toInt : SnapshotToken → Option ℤ
  | .int n => some n
  | .str s => parseInt s

/-! ### Tokens -/

def optionalText : Option String → JsonValue
  | some s => .str s
  | none => .null

def optionalInt : Option ℤ → JsonValue
  | some n => .int n
  | none => .null

/-- The fields that do not enter a token. -/
def reserved : List String := ["plan_token", "observed_at_ms", "age_seconds", "retention_cutoff", "trino_boundary"]

/-- The compact separators of the source leave out the blanks of this text and change nothing else. -/
def maintenancePlanToken (host : Host) (plan : List (String × JsonValue)) : String :=
  host.sha256 (JsonValue.prune reserved (.obj plan)).dumps

/-! ### Snapshot expiry -/

/-- `int(moment.timestamp() * 1000)` -/
def millis (micros : ℤ) : ℤ := micros / 1000

def hoursInMicros (hours : ℤ) : ℤ := hours * 3600000000

/-- Ids that no plan offers for expiry: targets of refs, the current snapshot, and the newest ones. -/
def protectedIds (table : TableState) (retainLast : ℤ) : List ℤ :=
  table.snapshotRefs.values ++ table.currentSnapshotId.toList ++
    (table.newestFirst.take (max retainLast 1).toNat).map Snapshot.snapshotId

/-- The snapshots that are old enough to expire, and not protected. -/
def dueSnapshots (table : TableState) (retentionHours retainLast : ℤ) (moment : Moment) : List Snapshot :=
  table.newestFirst.filter fun s =>
    s.timestampMs < millis (moment.cutoffAt - hoursInMicros retentionHours) ∧
      s.snapshotId ∉ protectedIds table retainLast

def summaryFields (summary : OrderedDict String String) : List (String × JsonValue) :=
  summary.items.map fun entry => (entry.1, .str entry.2)

def refFields (refs : OrderedDict String ℤ) : List (String × JsonValue) :=
  refs.items.map fun ref => (ref.1, .int ref.2)

def candidateEntry (host : Host) (moment : Moment) (s : Snapshot) : JsonValue :=
  .obj [
    ("snapshot_id", .int s.snapshotId),
    ("timestamp_ms", .int s.timestampMs),
    ("age_seconds", .float (host.roundedSeconds (max 0 (moment.agedAt s.snapshotId - s.timestampMs * 1000)))),
    ("operation", optionalText s.operation),
    ("summary", .obj (summaryFields s.summary))]

/-- Size of the data files that no snapshot but the candidates has, unless it cannot be found out. -/
def affectedBytes (table : TableState) (candidateIds : List ℤ) : Option ℤ :=
  if candidateIds = [] then some 0 else do
    let files ← table.newestFirst.mapM fun s => s.dataFiles.map fun files => (s.snapshotId, files)
    let candidatePaths : OrderedDict String (Option ℤ) :=
      OrderedDict.ofList ((files.filter fun f => f.1 ∈ candidateIds).flatMap fun f =>
        f.2.map fun file => (file.filePath, file.fileSizeInBytes))
    let retainedPaths := (files.filter fun f => f.1 ∉ candidateIds).flatMap fun f => f.2.map DataFile.filePath
    let sizes ← (candidatePaths.items.filter fun item => item.1 ∉ retainedPaths).mapM Prod.snd
    return sizes.sum

/-- What the checks of execute mode read in a plan, and the plan. -/
structure Plan where
  fields : List (String × JsonValue)
  beforeSnapshotId : Option ℤ
  affectedObjects : ℕ
  affectedBytes : Option ℤ
  refsAvailable : Bool
  scanUnavailable : Bool
  hasCandidateSnapshots : Bool
  planToken : String

/-- The plan before its token is added. -/
def expiryFields (host : Host) (table : TableState) (moment : Moment) (branch : String) (args : Arguments)
    (stats : ℕ × ℤ) : List (String × JsonValue) :=
  let due := dueSnapshots table args.retentionHours args.retainLast moment
  let candidateIds := due.map Snapshot.snapshotId
  let affected := affectedBytes table candidateIds
  let unavailable := if affected = none then [JsonValue.str "affected_bytes"] else []
  [
    ("operation", .str "expire_snapshots"),
    ("table_name", .str args.tableName),
    ("ref", .str branch),
    ("catalog", optionalText args.catalog),
    ("retention_hours", .int args.retentionHours),
    ("retention_threshold", .str (retentionThreshold args.retentionHours)),
    ("minimum_safe_retention_hours", .int safeMinRetentionHours),
    ("retain_last", .int args.retainLast),
    ("count_retention", .str (if args.retainLast > 1 then "requested_provider_479_plus" else "not_requested")),
    ("provider_version", .null),
    ("before_snapshot_id", optionalInt table.currentSnapshotId),
    ("snapshot_count", .int table.newestFirst.length),
    ("file_count", .int stats.1),
    ("total_size_bytes", .int stats.2),
    ("candidate_snapshots", .arr (due.map (candidateEntry host moment))),
    ("retained_snapshot_ids", .arr ((table.newestFirst.filter fun s => s.snapshotId ∉ candidateIds).map
      fun s => .int s.snapshotId)),
    ("protected_snapshot_ids", .arr ((sortedSet (protectedIds table args.retainLast)).map .int)),
    ("table_snapshot_refs", .obj (refFields table.snapshotRefs)),
    ("table_snapshot_ref_evidence", .str (if table.refsListed then "available" else "unavailable")),
    ("nessie_ref_evidence", .str "unavailable"),
    ("affected_objects", .int due.length),
    ("affected_objects_scope", .str "candidate_snapshots_only"),
    ("affected_bytes", optionalInt affected),
    ("affected_bytes_scope", .str "observed_unreferenced_data_files_only; evidence_not_deletion_ceiling"),
    ("limits_scope", .str "candidate_snapshot_count_only; provider_metadata_and_data_files_excluded"),
    ("limits_enforced", .bool false),
    ("deletion_surface", .str "provider_threshold_not_bound"),
    ("unavailable_fields", .arr (unavailable ++ [.str "provider_version"])),
    ("max_affected_objects", optionalInt args.maxAffectedObjects),
    ("max_affected_bytes", optionalInt args.maxAffectedBytes),
    ("snapshot_guard", .str "provider_preflight_non_atomic"),
    ("trino_boundary", .str "pending"),
    ("execution_support", .str "guarded_non_atomic_threshold_execution"),
    ("retain_last_guarantee", .str "provider_unsupported_not_enforced"),
    ("observed_at_ms", .int (millis moment.observedAt))]

/-- `_retention_metadata`; it fails where the table cannot be read. -/
def retentionMetadata (host : Host) (table : TableState) (moment : Moment) (branch : String)
    (args : Arguments) : Option Plan :=
  table.stats.map fun stats =>
    let due := dueSnapshots table args.retentionHours args.retainLast moment
    let fields := expiryFields host table moment branch args stats
    { fields, beforeSnapshotId := table.currentSnapshotId, affectedObjects := due.length,
      affectedBytes := affectedBytes table (due.map Snapshot.snapshotId), refsAvailable := table.refsListed,
      scanUnavailable := false, hasCandidateSnapshots := !due.isEmpty,
      planToken := maintenancePlanToken host fields }

/-! ### Orphan files -/

def orphanObjects (host : Host) (referenced : List String) (inventory : ObjectInventory) (cutoff : ℤ) :
    List InventoryObject :=
  inventory.objects.filter fun object =>
    host.storagePathKey object.identity ∉ referenced.map host.storagePathKey ∧
      object.modifiedAt.any (· < cutoff)

def orphanEntry (host : Host) (observedAt : ℤ) (object : InventoryObject) : JsonValue :=
  .obj [
    ("path", .str object.identity),
    ("mtime", optionalText (object.modifiedAt.map host.isoformat)),
    ("age_seconds", .float (host.roundedSeconds (observedAt - object.modifiedAt.getD 0))),
    ("size_bytes", optionalInt object.sizeBytes),
    ("checksum_or_version", optionalText object.checksumOrVersion)]

def orphanRetentionMetadata (host : Host) (table : TableState) (moment : Moment) (branch : String)
    (args : Arguments) : Option Plan := do
  let (fileCount, totalSizeBytes) ← table.stats
  let manifests ← table.snapshots.mapM Snapshot.manifests
  let referenced := manifests.flatten.flatMap fun m => m.manifestPath :: m.entries.map DataFile.filePath
  let cutoff := moment.observedAt - hoursInMicros args.retentionHours
  let inventory := host.inventoryOwnedPrefix (table.location ++ "/data") cutoff
  let orphans := if inventory.complete then orphanObjects host referenced inventory cutoff else []
  let undated := inventory.objects.any fun object =>
    decide (host.storagePathKey object.identity ∉ referenced.map host.storagePathKey) && object.modifiedAt.isNone
  let affected := (orphans.mapM InventoryObject.sizeBytes).map List.sum
  let unavailable :=
    (if inventory.complete then (if undated then ["candidate_age"] else [])
      else ["candidate_listing: " ++ (if given inventory.failure then inventory.failure.getD "" else "incomplete")])
    ++ (if affected = none then ["affected_bytes"] else [])
  let scanStatus := if inventory.complete then "available" else "unavailable"
  let fields : List (String × JsonValue) := [
    ("operation", .str "cleanup_orphan_files"),
    ("table_name", .str args.tableName),
    ("ref", .str branch),
    ("catalog", optionalText args.catalog),
    ("retention_hours", .int args.retentionHours),
    ("retention_threshold", .str (retentionThreshold args.retentionHours)),
    ("minimum_safe_retention_hours", .int safeMinRetentionHours),
    ("before_snapshot_id", optionalInt table.currentSnapshotId),
    ("snapshot_count", .int table.snapshots.length),
    ("file_count", .int fileCount),
    ("total_size_bytes", .int totalSizeBytes),
    ("candidate_files", .arr (orphans.map (orphanEntry host moment.observedAt))),
    ("retained_file_count", .int fileCount),
    ("retained_bytes", .int totalSizeBytes),
    ("protected_snapshot_ids",
      .arr ((sortedSet (table.currentSnapshotId.toList ++ table.snapshotRefs.values)).map .int)),
    ("table_snapshot_refs", .obj (refFields table.snapshotRefs)),
    ("table_snapshot_ref_evidence", .str (if table.refsListed then "available" else "unavailable")),
    ("nessie_ref_evidence", .str "unavailable"),
    ("scan_status", .str scanStatus),
    ("inventory", .obj [
      ("prefix", .str inventory.prefixUri),
      ("complete", .bool inventory.complete),
      ("page_count", .int inventory.pageCount),
      ("continuation_exhausted", .bool inventory.continuationExhausted),
      ("digest", optionalText inventory.digest),
      ("retention_cutoff", .str (host.isoformat cutoff)),
      ("failure", optionalText inventory.failure)]),
    ("affected_objects", .int orphans.length),
    ("affected_bytes", optionalInt affected),
    ("limits_scope", .str "candidate_orphan_files; provider_internal_metadata_not_counted"),
    ("limits_enforced", .bool false),
    ("deletion_surface", .str "provider_threshold_not_bound"),
    ("max_affected_objects", optionalInt args.maxAffectedObjects),
    ("max_affected_bytes", optionalInt args.maxAffectedBytes),
    ("snapshot_guard", .str "fresh_table_metadata_only"),
    ("trino_boundary", .str "pending"),
    ("execution_support", .str "unsupported_without_bound_deletion_set"),
    ("observed_at_ms", .int (millis moment.observedAt)),
    ("unavailable_fields", .arr ((sortedSet unavailable).map .str))]
  return {
    fields, beforeSnapshotId := table.currentSnapshotId, affectedObjects := orphans.length,
    affectedBytes := affected, refsAvailable := table.refsListed, scanUnavailable := !inventory.complete,
    hasCandidateSnapshots := false, planToken := maintenancePlanToken host fields }

/-! ### Execute mode -/

def retentionLimitRefusal (plan : Plan) : Option ℤ → Option ℤ → Option (String × String)
  | some maxObjects, some maxBytes =>
    if maxObjects < 0 ∨ maxBytes < 0 then
      some ("invalid_safety_limit", "Safety limits must be non-negative.")
    else if (plan.affectedObjects : ℤ) > maxObjects then
      some ("affected_object_limit_exceeded", "The plan exceeds max_affected_objects; obtain a narrower plan.")
    else if plan.affectedBytes = none ∧ plan.affectedObjects ≠ 0 then
      some ("affected_bytes_unavailable", "The provider cannot prove the affected bytes safely.")
    else if plan.affectedBytes.getD 0 > maxBytes then
      some ("affected_byte_limit_exceeded", "The plan exceeds max_affected_bytes; obtain a narrower plan.")
    else none
  | _, _ => some ("safety_limits_required", "Execute mode requires finite object and byte limits.")

def retentionExecuteRefusal (operation : Operation) (plan : Plan) (args : Arguments) : Option (String × String) :=
  if !given args.catalog then
    some ("catalog_required", "Execute mode requires an explicit catalog.")
  else match args.expectedSnapshotId with
  | none => some ("snapshot_precondition_required", "Execute mode requires the snapshot observed by the plan.")
  | some expectedSnapshotId =>
    if !given args.confirmationToken ∨ args.confirmationToken ≠ some plan.planToken then
      some ("plan_token_invalid", "Confirmation token does not match this exact current plan.")
    else match retentionLimitRefusal plan args.maxAffectedObjects args.maxAffectedBytes with
    | some refusal => some refusal
    | none =>
      if !plan.refsAvailable then
        some ("table_snapshot_ref_evidence_unavailable",
          "Table snapshot-reference evidence is unavailable; deletion is refused.")
      else if plan.scanUnavailable then
        some ("orphan_scan_unavailable", "The orphan scan did not complete; deletion is refused.")
      else match expectedSnapshotId.toInt with
      | none => some ("invalid_snapshot_precondition", "expected_snapshot_id must be an integer.")
      | some expected =>
        if some expected ≠ plan.beforeSnapshotId then
          some ("concurrent_change_detected", "The table changed after planning; obtain a fresh dry-run.")
        else if operation ≠ .expireSnapshots then
          some ("bounded_execution_unsupported",
            "The Trino retention procedure accepts only a threshold and cannot bind " ++
            "the provider deletion surface to this exact candidate and byte plan.")
        else none

/-- The arguments `executor.expire_snapshots_table` is called with. -/
structure Submission where
  tableName : String
  ref : String
  expectedRevision : ℤ
  retentionHours : ℤ
  retainLast : ℤ

/-- How a call ends; `submitted` is the call of the executor. -/
inductive Outcome where
  | raised (error : String)
  | failed (code : String)
  | blocked (code message : String) (retrySafe : Bool) (planToken : String)
  | planned (planToken : String)
  | noop (planToken : String)
  | submitted (submission : Submission) (planToken : String)

def Outcome.planToken : Outcome → Option String
  | .raised _ | .failed _ => none
  | .blocked _ _ _ planToken | .planned planToken | .noop planToken | .submitted _ planToken => some planToken

/-- The call of the executor, if it is reached. -/
def Outcome.submission : Outcome → Option Submission
  | .submitted submission _ => some submission
  | _ => none

def validateRetentionExecute (operation : Operation) (branch : String) (plan : Plan) (args : Arguments) : Outcome :=
  match retentionExecuteRefusal operation plan args with
  | some (code, message) => .blocked code message (code ≠ "bounded_execution_unsupported") plan.planToken
  | none =>
    if !plan.hasCandidateSnapshots then .noop plan.planToken
    else if !args.hasExecutor then
      .blocked "maintenance_executor_required"
        "Snapshot expiry execute mode requires a ref-aware maintenance executor." true plan.planToken
    else
      .submitted {
        tableName := args.tableName, ref := branch,
        expectedRevision := (args.expectedSnapshotId.bind SnapshotToken.toInt).getD 0,
        retentionHours := args.retentionHours, retainLast := args.retainLast } plan.planToken

/-- Raised before the table is read: writes to protected `main`, and names that are not `namespace.table`. -/
def validateCall (resource : IcebergResource) (args : Arguments) : Option String :=
  if !args.dryRun && resource.branch args == "main" && resource.protectMain then
    some "Direct writes to main are protected; write to a branch and use a signed merge."
  else if !validTableName args.tableName then
    some ("Compaction table_name must be a namespace.table identifier containing only " ++
      "letters, numbers, and underscores.")
  else none

def floorMessage : String := "Retention cannot be weakened below the safe production floor."

def floorFields (operation : Operation) (branch : String) (args : Arguments) : List (String × JsonValue) :=
  [
    ("operation", .str operation.value),
    ("table_name", .str args.tableName),
    ("ref", .str branch),
    ("catalog", optionalText args.catalog),
    ("retention_hours", .int args.retentionHours),
    ("minimum_safe_retention_hours", .int (max args.minimumRetentionHours safeMinRetentionHours))] ++
  (if operation = .expireSnapshots then [("retain_last", .int args.retainLast)] else []) ++
  [("unavailable_fields", .arr [])]

/-- `expire_snapshots`; the table is `none` where it cannot be loaded. -/
def expireSnapshots (host : Host) (resource : IcebergResource) (table : Option TableState) (moment : Moment)
    (args : Arguments) : Outcome :=
  match validateCall resource args with
  | some error => .raised error
  | none =>
    if args.retentionHours < max args.minimumRetentionHours safeMinRetentionHours ∨ args.retainLast < 1 then
      .blocked "retention_floor_violation" floorMessage true
        (maintenancePlanToken host (floorFields .expireSnapshots (resource.branch args) args))
    else match table.bind fun t => retentionMetadata host t moment (resource.branch args) args with
    | none => .failed "table_metadata_unavailable"
    | some plan =>
      if args.dryRun then
        if plan.hasCandidateSnapshots then .planned plan.planToken else .noop plan.planToken
      else validateRetentionExecute .expireSnapshots (resource.branch args) plan args

/-- `cleanup_orphan_files` -/
def cleanupOrphanFiles (host : Host) (resource : IcebergResource) (table : Option TableState) (moment : Moment)
    (args : Arguments) : Outcome :=
  match validateCall resource args with
  | some error => .raised error
  | none =>
    if args.retentionHours < max args.minimumRetentionHours safeMinRetentionHours then
      .blocked "retention_floor_violation" floorMessage true
        (maintenancePlanToken host (floorFields .cleanupOrphanFiles (resource.branch args) args))
    else match table.bind fun t => orphanRetentionMetadata host t moment (resource.branch args) args with
    | none => .failed "orphan_scan_unavailable"
    | some plan =>
      if plan.scanUnavailable then
        .blocked "orphan_scan_unavailable"
          ("The orphan discovery scan is unavailable; no complete candidate set " ++
            "is available for this operation.") true plan.planToken
      else if args.dryRun then
        if plan.affectedObjects = 0 then .noop plan.planToken else .planned plan.planToken
      else validateRetentionExecute .cleanupOrphanFiles (resource.branch args) plan args

def Operation.run : Operation → Host → IcebergResource → Option TableState → Moment → Arguments → Outcome
  | .expireSnapshots => Phlo.Maintenance.expireSnapshots
  | .cleanupOrphanFiles => Phlo.Maintenance.cleanupOrphanFiles

end Phlo.Maintenance
