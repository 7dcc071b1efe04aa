import Phlo.Library.KeyedSort
import Phlo.Library.LockedClients
import Phlo.Promotion.CandidateRows
import Phlo.Promotion.Ledger

/-!
# The snapshot promotion catalog

The processes of the catalog, stage by stage: each read of the ledger or of a table, each commit and each
append is one step.  A promotion holds the publication lock from its first read to its end, the other
processes need it for their append.

* `Warehouse` — the ledger and the tables, with main and the candidate branches;
* `promoteTurn`, `abortTurn`, `pruneTurn`, `createTurn`, `mergeTurn` — the steps;
* `catalog` — the processes as clients that share the warehouse.
-/

namespace Phlo.Promotion

open Phlo.Library
open Phlo.Iceberg (Row)

/-! ### Names -/

def CANDIDATE_REF_PREFIX : String := "phlo-wap-"

/-- `candidate_ref_for_run` -/
def candidateRefForRun (runId : String) : String :=
  CANDIDATE_REF_PREFIX ++ String.ofList (runId.toList.map fun c => if c = '/' then '_' else c)

/-- `text.removeprefix(start)`, where the text starts so. -/
def removeStart (start text : String) : Option String :=
  if start.toList.isPrefixOf text.toList then some (String.ofList (text.toList.drop start.length)) else none

/-- `run_id_from_namespace` -/
def runIdFromNamespace (namespaceName : String) : String :=
  ((removeStart "pipeline-run-" namespaceName).or (removeStart "phlo_candidates__" namespaceName)).getD
    namespaceName

def namespaceOfRun (runId : String) : String := "pipeline-run-" ++ runId

/-! ### Tables -/

/-- A snapshot, with the two properties a release writes into its summary. -/
structure Snapshot where
  id : ℕ
  rows : List Row
  releaseId : Option String := none
  candidateSnapshotId : Option ℕ := none

structure IcebergTable where
  current : Option Snapshot
  /-- the branches and their tips -/
  refs : OrderedDict String Snapshot

structure Warehouse where
  ledger : Ledger
  tables : String → Option IcebergTable
  /-- the ids from here on are not taken -/
  nextSnapshot : ℕ

namespace Warehouse

def branch (w : Warehouse) (tableName ref : String) : Option Snapshot :=
  (w.tables tableName).bind fun table => table.refs.get ref

def main (w : Warehouse) (tableName : String) : Option Snapshot :=
  (w.tables tableName).bind IcebergTable.current

def setTable (w : Warehouse) (tableName : String) (table : IcebergTable) : Warehouse :=
  { w with tables := Function.update w.tables tableName (some table) }

def append (w : Warehouse) (rows : Ledger) : Warehouse := { w with ledger := w.ledger ++ rows }

/-- `create_branch`: refused if somebody else has created the branch. -/
def createBranch (w : Warehouse) (tableName ref : String) (snapshot : Snapshot) : Option Warehouse :=
  match w.tables tableName with
  | none => none
  | some table =>
    if (table.refs.get ref).isSome then none
    else some (w.setTable tableName { table with refs := table.refs.set ref snapshot })

/-- `append(branch=ref)`: refused if the tip is not the one that was read. -/
def appendToBranch (w : Warehouse) (tableName ref : String) (tip : ℕ) (rows : List Row) : Option Warehouse :=
  match w.tables tableName with
  | none => none
  | some table =>
    match table.refs.get ref with
    | none => none
    | some snapshot =>
      if snapshot.id = tip then
        some ({ w with nextSnapshot := w.nextSnapshot + 1 }.setTable tableName
          { table with refs := table.refs.set ref ⟨w.nextSnapshot, snapshot.rows ++ rows, none, none⟩ })
      else none

/-- `overwrite`: refused if main is not what was read; the rows and the properties of the new snapshot. -/
def overwrite (w : Warehouse) (tableName : String) (current : Option ℕ) (rows : List Row)
    (releaseId : String) (candidate : ℕ) : Option Warehouse :=
  match w.tables tableName with
  | none => none
  | some table =>
    if table.current.map Snapshot.id = current then
      some ({ w with nextSnapshot := w.nextSnapshot + 1 }.setTable tableName
        { table with current := some ⟨w.nextSnapshot, rows, some releaseId, some candidate⟩ })
    else none

/-- `remove_branch` -/
def removeBranch (w : Warehouse) (tableName ref : String) : Warehouse :=
  match w.tables tableName with
  | none => w
  | some table => w.setTable tableName { table with refs := table.refs.erase ref }

end Warehouse

/-! ### Calls and answers -/

structure PromoteCall where
  namespaceName : String
  releaseId : String
  expectedRevision : Option ℤ := none
  tables : Option (List String) := none
  deriving DecidableEq

def PromoteCall.runId (call : PromoteCall) : String := runIdFromNamespace call.namespaceName

inductive Call where
  | create (tableName runId : String)
  | merge (tableName runId : String) (rows : List Record) (uniqueKey : List String)
  | promote (call : PromoteCall)
  | abort (namespaceName : String)
  | prune (olderThan : ℤ)

structure CandidateSnapshot where
  tableName : String
  snapshotId : ℕ
  runId : String
  namespaceName : String
  createdAt : ℤ
  releaseRevision : Option ℕ

inductive PromotionError where
  /-- the catalog or the ledger did not answer -/
  | unavailable
  | noSuchTable (tableName : String)
  | nothingToStage (tableName : String)
  | noLedgerBaseline (ref : String)
  | commitFailed
  | notListed
  | notOpen (ref tableName : String)
  | unhashable
  | independentReviewRequired
  | pointerMoved (expected : ℤ) (current : ℕ)
  | interruptedPromotion
  | staleRevision
  | branchMissing (ref : String)
  | mainChanged (tableName : String)
  | candidatesChanged
  | ledgerChanged
  | noSnapshot (tableName : String)

inductive Outcome where
  | candidate (snapshot : CandidateSnapshot)
  | merged (appended duplicatesDropped : ℕ) (snapshotId : Option ℕ)
  | released (records : List ReleaseRecord)
  | aborted (done : Bool)
  | pruned (namespaces : List String)
  | raised (error : PromotionError)

/-- What a step finds: the clock, whether the catalog fails to answer, and the review setting. -/
structure Found where
  now : ℤ := 0
  fault : Bool := false
  secondGoldReviewer : Bool := false

/-! ### Creating a candidate -/

inductive CreateStage where
  | start
  | reopen
  | revision
  | load (revision : ℕ)
  | branch (revision : ℕ) (snapshot : Snapshot)
  | record (revision : ℕ) (snapshot : Snapshot)

/-- `create_candidate` -/
def createTurn (free : Bool) (found : Found) (w : Warehouse) (tableName runId : String) :
    CreateStage → Turn Warehouse CreateStage Outcome
  | .start =>
    if (w.ledger.openCandidateRows runId).any fun row => row.tableName = tableName then .go w .reopen
    else .go w .revision
  | .reopen =>
    -- the first candidate of the table that `list_candidates` gives
    match (w.ledger.openCandidateRows runId).find? fun row => row.tableName = tableName with
    | none => .finish w (.raised .notListed)
    | some row =>
      let tip := if found.fault then none else (w.branch tableName (candidateRefForRun runId)).map Snapshot.id
      .finish w (.candidate
        { tableName := tableName
          snapshotId := tip.getD row.snapshotId
          runId := runId
          namespaceName := namespaceOfRun runId
          createdAt := row.recordedAt
          releaseRevision := row.revision })
  | .revision => .go w (.load w.ledger.currentRevision)
  | .load revision =>
    match w.tables tableName with
    | none => .finish w (.raised (.noSuchTable tableName))
    | some table =>
      match table.current with
      | none => .finish w (.raised (.nothingToStage tableName))
      | some snapshot =>
        if (table.refs.get (candidateRefForRun runId)).isSome then
          .finish w (.raised (.noLedgerBaseline (candidateRefForRun runId)))
        else .go w (.branch revision snapshot)
  | .branch revision snapshot =>
    match w.createBranch tableName (candidateRefForRun runId) snapshot with
    | none => .finish w (.raised .commitFailed)
    | some w' => .go w' (.record revision snapshot)
  | .record revision snapshot =>
    if free then
      .finish (w.append (candidateEntries [⟨tableName, snapshot.id, some revision, runId, .opened, found.now⟩]))
        (.candidate
          { tableName := tableName
            snapshotId := snapshot.id
            runId := runId
            namespaceName := namespaceOfRun runId
            createdAt := found.now
            releaseRevision := some revision })
    else .wait

/-! ### Merging rows into a candidate -/

inductive MergeStage where
  | load
  | commit (tip : ℕ) (fresh : List Record)

/-- `merge_rows_into_candidate` -/
def mergeTurn (w : Warehouse) (tableName runId : String) (rows : List Record) (uniqueKey : List String) :
    MergeStage → Turn Warehouse MergeStage Outcome
  | .load =>
    if rows = [] then .finish w (.merged 0 0 none)
    else
      match w.tables tableName with
      | none => .finish w (.raised (.noSuchTable tableName))
      | some table =>
        match table.refs.get (candidateRefForRun runId) with
        | none => .finish w (.raised (.notOpen (candidateRefForRun runId) tableName))
        | some tip =>
          if rows.any fun row => (keyOf uniqueKey row).any fun value => !hashable value then
            .finish w (.raised .unhashable)
          else
            let fresh := freshRecords tip.rows uniqueKey rows
            if fresh = [] then .finish w (.merged 0 rows.length (some tip.id)) else .go w (.commit tip.id fresh)
  | .commit tip fresh =>
    match w.appendToBranch tableName (candidateRefForRun runId) tip (fromPylist fresh) with
    | none => .finish w (.raised .commitFailed)
    | some w' => .finish w' (.merged fresh.length (rows.length - fresh.length) (some w.nextSnapshot))

/-! ### Promoting -/

/-- What a promotion has read and decided. -/
structure Attempt where
  current : ℕ
  pending : List PromotionRow
  promotedAt : ℤ
  /-- the version of the ledger that was read -/
  version : ℕ

/-- A candidate that has been validated. -/
structure Prepared where
  row : CandidateRow
  /-- main when the table was opened -/
  current : Option Snapshot
  tip : Snapshot
  alreadyWritten : Bool

inductive PromoteStage where
  | enter
  | read
  | prepare (p : Attempt) (todo : List CandidateRow) (prepared : List Prepared)
  | intend (p : Attempt) (prepared : List Prepared)
  | reread (p : Attempt) (prepared : List Prepared)
  | write (p : Attempt) (todo : List Prepared) (records : List ReleaseRecord)
  | cleanup (todo records : List ReleaseRecord)

def PromoteCall.selected (call : PromoteCall) (rows : Ledger) : List CandidateRow :=
  (rows.openCandidateRows call.runId).filter fun row => Ledger.selects call.tables row.tableName

def PromoteCall.ref (call : PromoteCall) : String := candidateRefForRun call.runId

/-- `_promote_candidates`, up to the validation of the branches. -/
def promoteRead (now : ℤ) (w : Warehouse) (call : PromoteCall) : Turn Warehouse PromoteStage Outcome :=
  let rows := w.ledger
  let current := rows.currentRevision
  let released := rows.released call.releaseId call.runId call.tables
  let pending := rows.pendingPromotions
  let selected := call.selected rows
  if call.expectedRevision.any fun expected => expected ≠ (current : ℤ) then
    .finish w (.raised (.pointerMoved (call.expectedRevision.getD 0) current))
  else if released ≠ [] then .finish w (.released released)
  else if pending.any fun row => row.releaseId ≠ call.releaseId || row.runId ≠ call.runId then
    .finish w (.raised .interruptedPromotion)
  else if selected = [] then .finish w (.released [])
  else if selected.any fun row => row.revision ≠ some current then .finish w (.raised .staleRevision)
  else .go w (.prepare ⟨current, pending, now, rows.length⟩ selected [])

/-- One round of `_prepare_candidates`. -/
def prepareOne (w : Warehouse) (call : PromoteCall) (row : CandidateRow) : Except PromotionError Prepared :=
  match w.tables row.tableName with
  | none => .error (.noSuchTable row.tableName)
  | some table =>
    match table.refs.get call.ref with
    | none => .error (.branchMissing call.ref)
    | some tip =>
      let alreadyWritten := (table.current.bind Snapshot.releaseId) = some call.releaseId ∧
        (table.current.bind Snapshot.candidateSnapshotId) = some tip.id
      if ¬alreadyWritten ∧ table.current.map Snapshot.id ≠ some row.snapshotId then
        .error (.mainChanged row.tableName)
      else .ok ⟨row, table.current, tip, alreadyWritten⟩

/-- `{(table_name, snapshot_id), ...}` on both sides are the same set. -/
def sameCandidates (pending : List PromotionRow) (prepared : List Prepared) : Bool :=
  (pending.all fun row => prepared.any fun e =>
    e.row.tableName = row.tableName && e.tip.id = row.snapshotId) &&
  prepared.all fun e => pending.any fun row =>
    e.row.tableName = row.tableName && e.tip.id = row.snapshotId

/-- What is recorded before main is written. -/
def intentRows (call : PromoteCall) (p : Attempt) (prepared : List Prepared) : List PromotionRow :=
  prepared.map fun e => ⟨e.row.tableName, e.tip.id, call.releaseId, p.current, call.runId, p.promotedAt⟩

def stateRow (call : PromoteCall) (p : Attempt) : StateRow :=
  ⟨call.releaseId, p.current + 1, call.runId, p.promotedAt⟩

def releaseRecord (call : PromoteCall) (p : Attempt) (e : Prepared) (snapshotId : ℕ) : ReleaseRecord :=
  ⟨e.row.tableName, snapshotId, call.releaseId, p.current + 1, p.promotedAt, call.runId⟩

/-- One table is written, unless a promotion that was interrupted has done so. -/
def writeOne (w : Warehouse) (call : PromoteCall) (p : Attempt) (e : Prepared) :
    Except PromotionError (Warehouse × ReleaseRecord) :=
  if e.alreadyWritten then
    match e.current with
    | none => .error (.noSnapshot e.row.tableName)
    | some snapshot => .ok (w, releaseRecord call p e snapshot.id)
  else
    match w.overwrite e.row.tableName (e.current.map Snapshot.id) e.tip.rows call.releaseId e.tip.id with
    | none => .error .commitFailed
    | some w' => .ok (w', releaseRecord call p e w.nextSnapshot)

/-- `promote_candidates` -/
def promoteTurn (free : Bool) (found : Found) (w : Warehouse) (call : PromoteCall) :
    PromoteStage → Turn Warehouse PromoteStage Outcome
  | .enter =>
    if !free then .wait
    else if found.secondGoldReviewer then .finish w (.raised .independentReviewRequired)
    else .go w .read
  | .read => promoteRead found.now w call
  | .prepare p (row :: todo) prepared =>
    match prepareOne w call row with
    | .error e => .finish w (.raised e)
    | .ok e => .go w (.prepare p todo (prepared ++ [e]))
  | .prepare p [] prepared =>
    if p.pending = [] then .go w (.intend p prepared)
    else if sameCandidates p.pending prepared then .go w (.write p prepared [])
    else .finish w (.raised .candidatesChanged)
  | .intend p prepared =>
    -- `append_if_unchanged`
    if w.ledger.length = p.version then
      .go (w.append (intents (intentRows call p prepared))) (.reread p prepared)
    else .finish w (.raised .ledgerChanged)
  | .reread p prepared => .go w (.write { p with version := w.ledger.length } prepared [])
  | .write p (e :: todo) records =>
    match writeOne w call p e with
    | .error error => .finish w (.raised error)
    | .ok (w', record) => .go w' (.write p todo (records ++ [record]))
  | .write p [] records =>
    if w.ledger.length = p.version then
      .go (w.append (receipts records (stateRow call p))) (.cleanup records records)
    else .finish w (.raised .ledgerChanged)
  | .cleanup (record :: todo) records =>
    .go (if found.fault then w else w.removeBranch record.tableName call.ref) (.cleanup todo records)
  | .cleanup [] records => .finish w (.released records)

/-! ### Aborting -/

inductive AbortStage where
  | check
  | list
  | remove (todo rows : List CandidateRow)
  | record (rows : List CandidateRow)

def closed (status : CandidateStatus) (now : ℤ) (rows : List CandidateRow) : List CandidateRow :=
  rows.map fun row => { row with revision := none, status := status, recordedAt := now }

/-- `abort_candidates` -/
def abortTurn (free : Bool) (found : Found) (w : Warehouse) (runId : String) :
    AbortStage → Turn Warehouse AbortStage Outcome
  | .check =>
    if w.ledger.pendingPromotions.any fun row => row.runId = runId then .finish w (.aborted false)
    else .go w .list
  | .list =>
    let rows := w.ledger.openCandidateRows runId
    .go w (.remove rows rows)
  | .remove (row :: todo) rows =>
    if found.fault || (w.tables row.tableName).isNone then .finish w (.aborted false)
    else .go (w.removeBranch row.tableName (candidateRefForRun runId)) (.remove todo rows)
  | .remove [] rows => if rows = [] then .finish w (.aborted true) else .go w (.record rows)
  | .record rows =>
    if free then .finish (w.append (candidateEntries (closed .aborted found.now rows))) (.aborted true)
    else .wait

/-! ### Pruning -/

inductive PruneStage where
  | start
  | check (runs pruned : List String)
  | list (runId : String) (runs pruned : List String)
  | remove (runId : String) (todo expired : List CandidateRow) (failed : Bool) (runs pruned : List String)
  | record (runId : String) (expired : List CandidateRow) (runs pruned : List String)

/-- `prune_candidates` -/
def pruneTurn (free : Bool) (found : Found) (w : Warehouse) (olderThan : ℤ) :
    PruneStage → Turn Warehouse PruneStage Outcome
  | .start =>
    let runs := (w.ledger.candidates.map CandidateRow.runId).filter fun runId => runId ≠ ""
    .go w (.check (sortedSet runs) [])
  | .check [] pruned => .finish w (.pruned pruned)
  | .check (runId :: runs) pruned =>
    if w.ledger.pendingPromotions.any fun row => row.runId = runId then .go w (.check runs pruned)
    else .go w (.list runId runs pruned)
  | .list runId runs pruned =>
    let expired := (w.ledger.openCandidateRows runId).filter fun row => row.recordedAt < olderThan
    if expired = [] then .go w (.check runs pruned) else .go w (.remove runId expired expired false runs pruned)
  | .remove runId (row :: todo) expired failed runs pruned =>
    if found.fault || (w.tables row.tableName).isNone then
      .go w (.remove runId todo expired true runs pruned)
    else
      .go (w.removeBranch row.tableName (candidateRefForRun runId))
        (.remove runId todo expired failed runs pruned)
  | .remove runId [] expired failed runs pruned =>
    if failed then .go w (.check runs pruned) else .go w (.record runId expired runs pruned)
  | .record runId expired runs pruned =>
    if free then
      .go (w.append (candidateEntries (closed .pruned found.now expired)))
        (.check runs (pruned ++ [namespaceOfRun runId]))
    else .wait

/-! ### The processes -/

inductive Process where
  | create (tableName runId : String) (stage : CreateStage)
  | merge (tableName runId : String) (rows : List Record) (uniqueKey : List String) (stage : MergeStage)
  | promote (call : PromoteCall) (stage : PromoteStage)
  | abort (namespaceName : String) (stage : AbortStage)
  | prune (olderThan : ℤ) (stage : PruneStage)

namespace Process

def start : Call → Process
  | .create tableName runId => create tableName runId .start
  | .merge tableName runId rows uniqueKey => merge tableName runId rows uniqueKey .load
  | .promote call => promote call .enter
  | .abort namespaceName => abort namespaceName .check
  | .prune olderThan => prune olderThan .start

def call : Process → Call
  | create tableName runId _ => .create tableName runId
  | merge tableName runId rows uniqueKey _ => .merge tableName runId rows uniqueKey
  | promote call _ => .promote call
  | abort namespaceName _ => .abort namespaceName
  | prune olderThan _ => .prune olderThan

/-- A promotion has the publication lock from its first read on. -/
def holds : Process → Bool
  | promote _ .enter => false
  | promote _ _ => true
  | _ => false

/-- The stages that go on when the catalog fails to answer. -/
def catches : Process → Bool
  | create _ _ .reopen => true
  | promote _ (.cleanup _ _) => true
  | abort _ (.remove _ _) => true
  | prune _ (.remove ..) => true
  | _ => false

/-- A step where the catalog answers, or where the stage goes on without the answer. -/
def proceed (free : Bool) (found : Found) (w : Warehouse) : Process → Turn Warehouse Process Outcome
  | create tableName runId stage =>
    (createTurn free found w tableName runId stage).map (create tableName runId)
  | merge tableName runId rows uniqueKey stage =>
    (mergeTurn w tableName runId rows uniqueKey stage).map (merge tableName runId rows uniqueKey)
  | promote call stage => (promoteTurn free found w call stage).map (promote call)
  | abort namespaceName stage =>
    (abortTurn free found w (runIdFromNamespace namespaceName) stage).map (abort namespaceName)
  | prune olderThan stage => (pruneTurn free found w olderThan stage).map (prune olderThan)

def turn (free : Bool) (found : Found) (w : Warehouse) (p : Process) : Turn Warehouse Process Outcome :=
  if found.fault && !p.catches then .finish w (.raised .unavailable) else p.proceed free found w

end Process

def catalog : Machine Warehouse Process Call Outcome Found where
  start := Process.start
  call := Process.call
  holds := Process.holds
  turn := Process.turn

abbrev CatalogSite (ι : Type) := Site ι Warehouse Process Call Outcome

abbrev CatalogMove (ι : Type) := Move ι Call Found

end Phlo.Promotion
