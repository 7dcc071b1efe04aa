import Mathlib.Data.List.Nodup
import Phlo.Dataset.Models
import Phlo.Library.Interleaving

/-!
# The Dataset state store

`MemoryDatasetStateStore`: records by id, committed actions by record id and action id, the audit log,
the workflow configuration and the committed migrations.  Every method runs under the store's lock, so
what a transition calls is one operation of `DatasetOp`; asking the injected policy and evidence sources is
an operation too.  An overlay import is one step of the world (`World.importOverlay`).

A record is stored as its read model and rebuilt from it, which gives the record back: here the record
itself is stored.  `World.writes` counts the writes of a record; nothing reads it.
-/

namespace Phlo.Dataset

open Phlo.Library
open Phlo.RunEvidence (Dict)

/-! ### The store -/

inductive StoreWriteStatus where
  | committed | replayed | actionConflict | preconditionFailed
  deriving DecidableEq, Repr

def StoreWriteStatus.value : StoreWriteStatus → String
  | committed => "committed"
  | replayed => "replayed"
  | actionConflict => "action_conflict"
  | preconditionFailed => "precondition_failed"

structure StoreWrite where
  recordId : String
  expectedState : Option String
  nextRecord : DatasetStateRecord

/-- The writes of one compare-and-set; there is at least one. -/
structure WriteBatch where
  before : List StoreWrite := []
  last : StoreWrite

def WriteBatch.writes (batch : WriteBatch) : List StoreWrite := batch.before ++ [batch.last]

structure StoreWriteResult where
  status : StoreWriteStatus
  records : List DatasetStateRecord := []
  committedFingerprint : Option Fingerprint := none
  detail : String := ""

structure CommittedAction where
  actionId : String
  resourceId : String
  action : String
  fingerprint : Fingerprint
  outcomeStatus : String
  afterState : Option String := none

structure CommittedMigration where
  fingerprint : String
  recordIds : List String
  actor : Option String := none
  scope : Option String := none

structure Store where
  records : String → Option DatasetStateRecord
  actions : String → String → Option CommittedAction
  audit : List TransitionAuditEvent
  config : Dict
  migrations : String → Option CommittedMigration

def Store.empty : Store := ⟨fun _ => none, fun _ _ => none, [], [], fun _ => none⟩

namespace Store

variable (s : Store)

/-- `_state_of(...)`, or open for a record that does not exist -/
def stateOf (recordId : String) : String :=
  (s.records recordId).elim workflowStateOpen DatasetStateRecord.currentState

/-- `load` -/
def load (datasetId : String) : Option DatasetStateRecord := s.records datasetId

/-- `committed_action` -/
def committedAction (datasetId actionId : String) : Option CommittedAction := s.actions datasetId actionId

/-- `append_audit` -/
def appendAudit (event : TransitionAuditEvent) : Store := { s with audit := s.audit ++ [event] }

def put (write : StoreWrite) : Store :=
  { s with records := Function.update s.records write.recordId (some write.nextRecord) }

/-- The first write of a batch whose record is not in the expected state. -/
def moved (batch : WriteBatch) : Option StoreWrite :=
  batch.writes.find? fun write => some (s.stateOf write.recordId) != write.expectedState

def actionEntry (batch : WriteBatch) (actionId action : String) (fingerprint : Fingerprint) :
    CommittedAction where
  actionId := actionId
  resourceId := batch.last.recordId
  action := action
  fingerprint := fingerprint
  outcomeStatus := StoreWriteStatus.committed.value
  afterState := some batch.last.nextRecord.currentState

def commit (batch : WriteBatch) (actionId action : String) (fingerprint : Fingerprint) : Store :=
  let written := batch.writes.foldl put s
  { written with
    actions := Function.update written.actions batch.last.recordId
      (Function.update (written.actions batch.last.recordId) actionId
        (some (actionEntry batch actionId action fingerprint))) }

/-- `compare_and_set` -/
def compareAndSet (batch : WriteBatch) (actionId action : String) (fingerprint : Fingerprint) :
    Store × StoreWriteResult :=
  match s.actions batch.last.recordId actionId with
  | some committed =>
    if committed.fingerprint = fingerprint then
      (s, { status := .replayed
            records := batch.writes.filterMap fun write => s.records write.recordId
            committedFingerprint := some committed.fingerprint
            detail := "Transition already committed; replaying the stored outcome." })
    else
      (s, { status := .actionConflict
            detail := "action_id " ++ quoted actionId ++
              " was already committed with a different request." })
  | none =>
    match s.moved batch with
    | some write =>
      (s, { status := .preconditionFailed
            detail := write.recordId ++ " moved from " ++ write.expectedState.elim "None" quoted ++
              " to " ++ quoted (s.stateOf write.recordId) })
    | none =>
      (s.commit batch actionId action fingerprint,
        { status := .committed
          records := batch.writes.map StoreWrite.nextRecord
          committedFingerprint := some fingerprint
          detail := quoted action ++ " committed for " ++ batch.last.recordId ++ "." })

def migrationAudit (imported : List DatasetStateRecord) (actionId : String)
    (actor scope : Option String) : TransitionAuditEvent where
  actor := actor
  scope := scope
  actionId := actionId
  resourceId := "overlay"
  action := "migrate-overlay"
  beforeState := none
  afterState := some "imported"
  outcome := "committed"
  detail := "Imported " ++ toString imported.length ++ " legacy overlay record(s)."

def putRecords (imported : List DatasetStateRecord) : Store :=
  imported.foldl (fun s record => s.put ⟨record.datasetId.text, none, record⟩) s

/-- `commit_migration` -/
def commitMigration (imported : List DatasetStateRecord) (config : Dict) (actionId fingerprint : String)
    (actor scope : Option String) : Store × StoreWriteResult :=
  match s.migrations actionId with
  | some committed =>
    if committed.fingerprint = fingerprint then
      (s, { status := .replayed
            records := committed.recordIds.filterMap s.records
            detail := "Overlay migration already committed; replaying the stored result." })
    else
      (s, { status := .actionConflict
            detail := "Migration action_id " ++ quoted actionId ++
              " was committed with a different plan." })
  | none =>
    match imported.find? fun record => (s.records record.datasetId.text).isSome with
    | some record =>
      (s, { status := .actionConflict
            detail := record.datasetId.text ++ " already exists in the durable store; " ++
              "refusing to overwrite it during overlay migration." })
    | none =>
      ({ s.putRecords imported with
          config := config
          migrations := Function.update s.migrations actionId
            (some { fingerprint := fingerprint
                    recordIds := imported.map fun record => record.datasetId.text
                    actor := actor
                    scope := scope })
          audit := s.audit ++ [migrationAudit imported actionId actor scope] },
        { status := .committed
          records := imported
          detail := "Imported " ++ toString imported.length ++ " legacy overlay record(s)." })

end Store

/-! ### The shared world -/

/-- The store, the verdicts that policy and evidence give at present, and the number of writes of each
record so far. -/
structure World where
  store : Store
  verdict : String → String → PolicyVerdict
  writes : String → ℕ

def World.initial (verdict : String → String → PolicyVerdict) : World := ⟨Store.empty, verdict, fun _ => 0⟩

/-- What a transition calls. -/
inductive DatasetOp : Type → Type
  | load (datasetId : String) : DatasetOp (Option DatasetStateRecord)
  | committedAction (datasetId actionId : String) : DatasetOp (Option CommittedAction)
  | readiness (datasetId action : String) : DatasetOp PolicyVerdict
  | compareAndSet (batch : WriteBatch) (actionId action : String) (fingerprint : Fingerprint) :
      DatasetOp StoreWriteResult
  | appendAudit (event : TransitionAuditEvent) : DatasetOp Unit

def World.counted (w : World) (ids : List String) (r : Store × StoreWriteResult) : World × StoreWriteResult :=
  ({ w with
      store := r.1
      writes := if r.2.status = .committed then fun k => w.writes k + ids.count k else w.writes }, r.2)

def DatasetOp.exec : {β : Type} → DatasetOp β → World → World × β
  | _, .load datasetId, w => (w, w.store.load datasetId)
  | _, .committedAction datasetId actionId, w => (w, w.store.committedAction datasetId actionId)
  | _, .readiness datasetId action, w => (w, w.verdict datasetId action)
  | _, .compareAndSet batch actionId action fingerprint, w =>
    w.counted (batch.writes.map StoreWrite.recordId)
      (w.store.compareAndSet batch actionId action fingerprint)
  | _, .appendAudit event, w => ({ w with store := w.store.appendAudit event }, ())

def semantics : Semantics DatasetOp World := ⟨DatasetOp.exec⟩

@[simp] theorem exec_load (datasetId : String) (w : World) :
    semantics.exec (.load datasetId) w = (w, w.store.records datasetId) := rfl

@[simp] theorem exec_committedAction (datasetId actionId : String) (w : World) :
    semantics.exec (.committedAction datasetId actionId) w = (w, w.store.actions datasetId actionId) :=
  rfl

@[simp] theorem exec_readiness (datasetId action : String) (w : World) :
    semantics.exec (.readiness datasetId action) w = (w, w.verdict datasetId action) := rfl

/-- Policy and evidence change on their own. -/
def VerdictsChange (w w' : World) : Prop := ∃ verdict, w' = { w with verdict := verdict }

def World.importOverlay (w : World) (imported : List DatasetStateRecord) (config : Dict)
    (actionId fingerprint : String) (actor scope : Option String) : World :=
  (w.counted (imported.map fun record => record.datasetId.text)
    (w.store.commitMigration imported config actionId fingerprint actor scope)).1

/-- Policy and evidence change, or an overlay of the kind is imported. -/
def WorldChanges (Imports : List DatasetStateRecord → Prop) (w w' : World) : Prop :=
  VerdictsChange w w' ∨ ∃ imported config actionId fingerprint actor scope, Imports imported ∧
    w' = w.importOverlay imported config actionId fingerprint actor scope

/-! ### What the operations do -/

section

variable {s : Store} {batch : WriteBatch} {actionId action : String} {fingerprint : Fingerprint}

/-- Every outcome of a compare-and-set: it commits, or it changes nothing. -/
theorem compareAndSet_cases (s : Store) (batch : WriteBatch) (actionId action : String) (fingerprint : Fingerprint) :
    ((s.compareAndSet batch actionId action fingerprint).2.status = .committed ∧
      s.actions batch.last.recordId actionId = none ∧ s.moved batch = none ∧
      (s.compareAndSet batch actionId action fingerprint).1 = s.commit batch actionId action fingerprint ∧
      (s.compareAndSet batch actionId action fingerprint).2.records = batch.writes.map StoreWrite.nextRecord) ∨
    ((s.compareAndSet batch actionId action fingerprint).2.status ≠ .committed ∧
      (s.compareAndSet batch actionId action fingerprint).1 = s) := by
  unfold Store.compareAndSet
  cases hcommitted : s.actions batch.last.recordId actionId with
  | some committed =>
    dsimp only
    split
    · exact Or.inr ⟨by simp, rfl⟩
    · exact Or.inr ⟨by simp, rfl⟩
  | none =>
    cases hmoved : s.moved batch with
    | some write => exact Or.inr ⟨by simp, rfl⟩
    | none => exact Or.inl ⟨rfl, rfl, rfl, rfl, rfl⟩

theorem expected_of_moved (h : s.moved batch = none) :
    ∀ write ∈ batch.writes, write.expectedState = some (s.stateOf write.recordId) := by
  intro write hwrite
  have hne := List.find?_eq_none.1 h write hwrite
  simp only [bne_iff_ne, ne_eq, not_not] at hne
  exact hne.symm

theorem foldl_put_actions (ws : List StoreWrite) (s : Store) : (ws.foldl Store.put s).actions = s.actions := by
  induction ws generalizing s with
  | nil => rfl
  | cons w ws ih => rw [List.foldl_cons, ih]; rfl

variable {ws : List StoreWrite}

theorem foldl_put_records_of_notMem {k : String} (h : ∀ w ∈ ws, w.recordId ≠ k) (s : Store) :
    (ws.foldl Store.put s).records k = s.records k := by
  induction ws generalizing s with
  | nil => rfl
  | cons w ws ih =>
    rw [List.foldl_cons, ih fun w' hw' => h w' (List.mem_cons_of_mem _ hw')]
    exact Function.update_of_ne (h w List.mem_cons_self).symm _ _

theorem foldl_put_of_mem {k : String} (hk : k ∈ ws.map StoreWrite.recordId) (s : Store) :
    ∃ w ∈ ws, w.recordId = k ∧ (ws.foldl Store.put s).records k = some w.nextRecord := by
  induction ws generalizing s with
  | nil => cases hk
  | cons w ws ih =>
    rw [List.foldl_cons]
    by_cases hrest : k ∈ ws.map StoreWrite.recordId
    · obtain ⟨w', hw', hid, hstored⟩ := ih hrest (s.put w)
      exact ⟨w', List.mem_cons_of_mem _ hw', hid, hstored⟩
    · rw [List.map_cons, List.mem_cons, or_iff_left hrest] at hk
      subst hk
      refine ⟨w, List.mem_cons_self, rfl, ?_⟩
      rw [foldl_put_records_of_notMem fun v hv heq =>
        hrest (List.mem_map.2 ⟨v, hv, heq⟩)]
      exact Function.update_self _ _ _

theorem foldl_put_records (hnodup : (ws.map StoreWrite.recordId).Nodup) {w : StoreWrite} (hw : w ∈ ws) (s : Store) :
    (ws.foldl Store.put s).records w.recordId = some w.nextRecord := by
  obtain ⟨w', hw', hid, hstored⟩ := foldl_put_of_mem (List.mem_map_of_mem hw) s
  rw [hstored, List.inj_on_of_nodup_map hnodup hw' hw hid]

@[simp] theorem commit_records :
    (s.commit batch actionId action fingerprint).records = (batch.writes.foldl Store.put s).records := rfl

theorem commit_actions (k a : String) : (s.commit batch actionId action fingerprint).actions k a =
      if k = batch.last.recordId ∧ a = actionId then some (Store.actionEntry batch actionId action fingerprint)
      else s.actions k a := by
  rw [Store.commit]
  dsimp only
  rw [foldl_put_actions]
  by_cases hk : k = batch.last.recordId
  · subst hk
    rw [Function.update_self]
    by_cases ha : a = actionId
    · subst ha
      rw [Function.update_self, if_pos ⟨rfl, rfl⟩]
    · rw [Function.update_of_ne ha, if_neg fun h => ha h.2]
  · rw [Function.update_of_ne hk, if_neg fun h => hk h.1]

def importWrites (imported : List DatasetStateRecord) : List StoreWrite :=
  imported.map fun record => ⟨record.datasetId.text, none, record⟩

theorem putRecords_eq (imported : List DatasetStateRecord) :
    s.putRecords imported = (importWrites imported).foldl Store.put s := by
  rw [Store.putRecords, importWrites, List.foldl_map]

/-- Every outcome of an import: it commits records that do not exist yet, or it changes nothing. -/
theorem commitMigration_cases (s : Store) (imported : List DatasetStateRecord) (config : Dict)
    (actionId fingerprint : String) (actor scope : Option String) :
    ((s.commitMigration imported config actionId fingerprint actor scope).2.status = .committed ∧
      (∀ record ∈ imported, s.records record.datasetId.text = none) ∧
      (s.commitMigration imported config actionId fingerprint actor scope).1.records =
        ((importWrites imported).foldl Store.put s).records ∧
      (s.commitMigration imported config actionId fingerprint actor scope).1.actions = s.actions) ∨
    ((s.commitMigration imported config actionId fingerprint actor scope).2.status ≠ .committed ∧
      (s.commitMigration imported config actionId fingerprint actor scope).1 = s) := by
  unfold Store.commitMigration
  cases hcommitted : s.migrations actionId with
  | some committed =>
    dsimp only
    split
    · exact Or.inr ⟨by simp, rfl⟩
    · exact Or.inr ⟨by simp, rfl⟩
  | none =>
    cases hfind : imported.find? fun record => (s.records record.datasetId.text).isSome with
    | some record => exact Or.inr ⟨by simp, rfl⟩
    | none =>
      refine Or.inl ⟨rfl, fun record hrecord => ?_, ?_, ?_⟩
      · have hnot := List.find?_eq_none.1 hfind record hrecord
        exact Option.not_isSome_iff_eq_none.1 hnot
      · dsimp only
        rw [putRecords_eq]
      · dsimp only
        rw [putRecords_eq, foldl_put_actions]

end

end Phlo.Dataset
