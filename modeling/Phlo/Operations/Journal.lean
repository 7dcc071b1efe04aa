import Phlo.Library.Interleaving
import Phlo.Library.OrderedDict
import Phlo.RunEvidence.Json

/-!
# The operation journal

`FileOperationJournalStore` keeps one record per operation in a file of a directory; each of its calls
runs under a lock on the directory, so it is one operation of `JournalOp`.  The functions of the journal
are programs that make one such call.

A file is named after its operation id.  Which characters count as alphanumeric, and the digest that
distinguishes lossy names, are left open (`FileNaming`).
-/

namespace Phlo.Operations

open Phlo.Library Phlo.Library.Program
open Phlo.RunEvidence (Dict Json)

/-! ### Entries -/

inductive OperationJournalState where
  | claimed | submitted | succeeded | failed | unknown
  deriving DecidableEq, Repr

/-- The states in which an operation holds its target: `active_order`. -/
def OperationJournalState.active : OperationJournalState → Bool
  | claimed | submitted | unknown => true
  | succeeded | failed => false

structure OperationJournalError where
  code : String
  identifiers : List String := []
  deriving DecidableEq

structure OperationJournalEntry where
  operationId : String
  subject : String
  action : String
  target : String
  planToken : String
  state : OperationJournalState
  claimExpiry : String := ""
  result : Option Dict := none
  observationTime : String := ""

def truthy : Json → Bool
  | .null => false
  | .bool b => b
  | .int n => n != 0
  | .float text => text != "0.0" && text != "-0.0"
  | .str s => s != ""
  | .instant _ => true
  | .digest _ => true
  | .arr items => !items.isEmpty
  | .obj fields => !fields.isEmpty

/-! ### The store -/

/-- What the name of a file depends on: `isalnum` and the first eight digits of a SHA-256 digest. -/
structure FileNaming where
  isalnum : Char → Bool
  digest : String → String

/-- `_safe_name` -/
def FileNaming.safeName (naming : FileNaming) (operationId : String) : String :=
  let safe := String.ofList (operationId.toList.map fun ch =>
    if naming.isalnum ch || ['.', '_', '-'].contains ch then ch else '_')
  if safe ≠ operationId then safe ++ "__" ++ naming.digest operationId else safe

/-- `FileOperationJournalStore`: the records in the directory, by the names of their files. -/
structure JournalStore where
  files : OrderedDict String OperationJournalEntry

namespace JournalStore

def empty : JournalStore := ⟨.empty⟩

variable (naming : FileNaming) (s : JournalStore)

def entry (operationId : String) : Option OperationJournalEntry :=
  s.files.get (naming.safeName operationId)

def held (action target : String) : Bool :=
  s.files.values.any fun record =>
    record.action == action && record.target == target && record.state.active

/-- `_write_atomic` -/
def write (entry : OperationJournalEntry) : JournalStore :=
  ⟨s.files.set (naming.safeName entry.operationId) entry⟩

/-- `claim` -/
def claim (entry : OperationJournalEntry) : JournalStore × Bool :=
  if (s.entry naming entry.operationId).isSome then (s, false)
  else if s.held entry.action entry.target then (s, false)
  else (s.write naming entry, true)

/-- `transition` -/
def transition (operationId : String) (state : OperationJournalState) (result : Option Dict) : JournalStore × Bool :=
  match s.entry naming operationId with
  | none => (s, false)
  | some record =>
    (⟨s.files.set (naming.safeName operationId) { record with state := state, result := result }⟩, true)

end JournalStore

/-- The calls of a journal store; each is atomic. -/
inductive JournalOp : Type → Type
  | claim (entry : OperationJournalEntry) : JournalOp Bool
  | transition (operationId : String) (state : OperationJournalState) (result : Option Dict) :
      JournalOp Bool
  | read (operationId : String) : JournalOp (Option OperationJournalEntry)

def JournalOp.exec (naming : FileNaming) :
    {β : Type} → JournalOp β → JournalStore → JournalStore × β
  | _, .claim entry, s => s.claim naming entry
  | _, .transition operationId state result, s => s.transition naming operationId state result
  | _, .read operationId, s => (s, s.entry naming operationId)

def journalSemantics (naming : FileNaming) : Semantics JournalOp JournalStore :=
  ⟨JournalOp.exec naming⟩

/-! ### The functions of the journal -/

/-- What a function of the journal returns or raises. -/
abbrev Journaled (α : Type) := Except OperationJournalError α

/-- `claim_operation` -/
def claimOperation (operationId subject action target planToken : String) :
    Program JournalOp (Journaled OperationJournalEntry) := do
  let entry : OperationJournalEntry :=
    { operationId, subject, action, target, planToken, state := .claimed }
  let claimed ← perform (.claim entry)
  return if claimed then .ok entry else .error ⟨"conflicting_claim", [operationId, action, target]⟩

def transitionOrRaise (operationId : String) (state : OperationJournalState) (result : Option Dict) :
    Program JournalOp (Journaled Unit) := do
  let known ← perform (.transition operationId state result)
  return if known then .ok () else .error ⟨"unknown_operation", [operationId]⟩

/-- `SUCCEEDED if result.get("accepted") else FAILED` -/
def stateOfResult (result : Dict) : OperationJournalState :=
  if truthy ((result.lookup "accepted").getD .null) then .succeeded else .failed

/-- `mark_submitted` -/
def markSubmitted (operationId : String) : Program JournalOp (Journaled Unit) :=
  transitionOrRaise operationId .submitted none

/-- `complete_operation` -/
def completeOperation (operationId : String) (result : Dict) : Program JournalOp (Journaled Unit) :=
  transitionOrRaise operationId (stateOfResult result) (some result)

/-- `mark_unknown` -/
def markUnknown (operationId : String) : Program JournalOp (Journaled Unit) :=
  transitionOrRaise operationId .unknown none

/-- `reconcile_unknown` -/
def reconcileUnknown (operationId : String) (result : Dict) : Program JournalOp (Journaled Unit) :=
  transitionOrRaise operationId (stateOfResult result) (some result)

/-- `read_or_replay` -/
def readOrReplay (operationId : String) : Program JournalOp (Journaled (Option Dict)) := do
  let entry ← perform (.read operationId)
  return match entry with
    | none => .ok none
    | some entry =>
      if entry.state = .unknown then .error ⟨"unknown_outcome_blocks_replay", [operationId]⟩
      else .ok entry.result

/-! ### What the calls do -/

section

variable {naming : FileNaming} {s : JournalStore}

theorem stateOfResult_not_active (result : Dict) : (stateOfResult result).active = false := by
  unfold stateOfResult
  split
  · rfl
  · rfl

theorem claim_cases (naming : FileNaming) (s : JournalStore) (entry : OperationJournalEntry) :
    (s.entry naming entry.operationId = none ∧ s.held entry.action entry.target = false ∧
      s.claim naming entry = (s.write naming entry, true)) ∨ s.claim naming entry = (s, false) := by
  unfold JournalStore.claim
  split
  · exact Or.inr rfl
  next hfile =>
    split
    · exact Or.inr rfl
    next hheld =>
      exact Or.inl ⟨Option.not_isSome_iff_eq_none.1 hfile, Bool.eq_false_iff.2 hheld, rfl⟩

theorem transition_cases (naming : FileNaming) (s : JournalStore) (operationId : String)
    (state : OperationJournalState) (result : Option Dict) :
    (∃ record, s.entry naming operationId = some record ∧
      s.transition naming operationId state result =
        (⟨s.files.set (naming.safeName operationId) { record with state := state, result := result }⟩,
          true)) ∨
    (s.entry naming operationId = none ∧
      s.transition naming operationId state result = (s, false)) := by
  unfold JournalStore.transition
  cases hentry : s.entry naming operationId with
  | none => exact Or.inr ⟨rfl, rfl⟩
  | some record => exact Or.inl ⟨record, rfl, rfl⟩

/-- Nobody holds a target whose entries are all at their end. -/
theorem held_eq_false {action target : String} :
    s.held action target = false ↔ ∀ name record, s.files.get name = some record →
      record.action = action → record.target = target → record.state.active = false := by
  rw [JournalStore.held, List.any_eq_false]
  constructor
  · intro h name record hget haction htarget
    have hno := h record (OrderedDict.mem_values.2 ⟨name, hget⟩)
    rw [haction, htarget, beq_self_eq_true, beq_self_eq_true, Bool.true_and, Bool.true_and] at hno
    exact Bool.eq_false_iff.2 hno
  · intro h record hrecord
    obtain ⟨name, hget⟩ := OrderedDict.mem_values.1 hrecord
    intro hheld
    simp only [Bool.and_eq_true, beq_iff_eq] at hheld
    rw [h name record hget hheld.1.1 hheld.1.2] at hheld
    exact Bool.false_ne_true hheld.2

end

end Phlo.Operations
