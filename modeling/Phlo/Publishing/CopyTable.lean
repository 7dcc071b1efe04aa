import Phlo.Library.FaultyConnection
import Phlo.Library.OrderedDict

/-!
# Copying a table into Postgres

`copyTable` describes the source table, replaces the target table by an empty one, commits, reads the
source in batches and inserts each, and commits again.  The calls are numbered: 0 describes, 1 drops, 2
creates, 3 commits, 4 selects, then a fetch and an insert for each batch, the fetch that finds no more
rows, and the last commit.

* `copyTable_committed` — what is committed when the copy has ended, wherever it has ended.
-/

namespace Phlo.Publishing

open Phlo.Library

/-! ### Tables -/

/-- A column of the source: its name, its type in Postgres, and the expression that selects it. -/
structure Column where
  name : String
  pgType : String
  expr : String
  deriving DecidableEq

structure SourceTable (Row : Type) where
  columns : List Column
  rows : List Row

/-- A table in Postgres: the names and types of its columns, and its rows. -/
structure Table (Row : Type) where
  columns : List (String × String)
  rows : List Row
  deriving DecidableEq

abbrev Database (Row : Type) := OrderedDict (String × String) (Table Row)

section

variable {Row : Type}

/-- `DROP TABLE IF EXISTS` -/
def dropTable (target : String × String) (db : Database Row) : Database Row := db.erase target

/-- `CREATE TABLE` -/
def createTable (target : String × String) (columns : List Column) (db : Database Row) : Database Row :=
  db.set target ⟨columns.map fun column => (column.name, column.pgType), []⟩

/-- `INSERT INTO … VALUES` -/
def insertRows (target : String × String) (rows : List Row) (db : Database Row) : Database Row :=
  match db.get target with
  | none => db
  | some table => db.set target { table with rows := table.rows ++ rows }

/-- What `fetchmany` delivers, call by call, until it delivers nothing. -/
def batches (batchSize : ℕ) (rows : List Row) : List (List Row) :=
  if _h : rows.take batchSize = [] then []
  else rows.take batchSize :: batches batchSize (rows.drop batchSize)
termination_by rows.length
decreasing_by
  rw [List.take_eq_nil_iff, not_or] at _h
  have hlength := List.length_pos_iff.2 _h.2
  rw [List.length_drop]
  omega

theorem flatten_batches {batchSize : ℕ} (h : 0 < batchSize) (rows : List Row) :
    (batches batchSize rows).flatten = rows := by
  induction rows using batches.induct batchSize with
  | case1 rows hnil =>
    rw [batches, dif_pos hnil]
    exact ((List.take_eq_nil_iff.1 hnil).resolve_left (by omega)).symm
  | case2 rows hnil ih =>
    rw [batches, dif_neg hnil, List.flatten_cons, ih, List.take_append_drop]

theorem batches_zero (rows : List Row) : batches 0 rows = [] := by
  rw [batches, dif_pos (List.take_zero)]

/-! ### The procedure -/

inductive PublishError
  /-- `Unable to introspect Trino table '<name>'` -/
  | introspection
  deriving DecidableEq

variable (fate : ℕ → Fate)

def readTrino : Procedure (Database Row) PublishError Unit := callOver fate id

def execute (f : Database Row → Database Row) : Procedure (Database Row) PublishError Unit :=
  callOver fate (Transactional.execute f)

def commit : Procedure (Database Row) PublishError Unit := callOver fate Transactional.commit

/-- `_describe_trino_table`, which finds at least one column or raises. -/
def describe (source : SourceTable Row) : Procedure (Database Row) PublishError (List Column) := do
  readTrino fate
  if source.columns = [] then throw (.inl .introspection) else return source.columns

/-- The loop over the batches, with the number of rows copied so far. -/
def copyBatches (target : String × String) :
    List (List Row) → ℕ → Procedure (Database Row) PublishError ℕ
  | [], rowCount => do
    readTrino fate
    return rowCount
  | rows :: rest, rowCount => do
    readTrino fate
    execute fate (insertRows target rows)
    copyBatches target rest (rowCount + rows.length)

/-- `_copy_table` -/
def copyTable (source : SourceTable Row) (target : String × String) (batchSize : ℤ) :
    Procedure (Database Row) PublishError (ℕ × ℕ) := do
  let columns ← describe fate source
  execute fate (dropTable target)
  execute fate (createTable target columns)
  commit fate
  readTrino fate
  let rowCount ← copyBatches fate target (batches batchSize.toNat source.rows) 0
  commit fate
  return (rowCount, columns.length)

/-- What is committed when the copy has ended; the open transaction is gone then. -/
def committedAfter (source : SourceTable Row) (target : String × String) (batchSize : ℤ) (db : Database Row) :
    Database Row :=
  (copyTable fate source target batchSize ⟨.idle db, 0⟩).2.store.committed

/-! ### What is committed -/

def emptied (source : SourceTable Row) (target : String × String) (db : Database Row) : Database Row :=
  createTable target source.columns (dropTable target db)

def copied (source : SourceTable Row) : Table Row :=
  ⟨source.columns.map fun column => (column.name, column.pgType), source.rows⟩

def lastCommit (source : SourceTable Row) (batchSize : ℤ) : ℕ :=
  6 + 2 * (batches batchSize.toNat source.rows).length

def Empties (source : SourceTable Row) : Prop :=
  source.columns ≠ [] ∧ (∀ i < 3, fate i = .answered) ∧ fate 3 ≠ .refused

def Completes (source : SourceTable Row) (batchSize : ℤ) : Prop :=
  source.columns ≠ [] ∧ (∀ i < lastCommit source batchSize, fate i = .answered) ∧
    fate (lastCommit source batchSize) ≠ .refused

variable {fate} {source : SourceTable Row} {target : String × String} {batchSize : ℤ} {db : Database Row}

@[simp] theorem get_emptied (source : SourceTable Row) (target : String × String) (db : Database Row) :
    (emptied source target db).get target =
      some ⟨source.columns.map fun column => (column.name, column.pgType), []⟩ := by
  rw [emptied, createTable, OrderedDict.get_set, if_pos rfl]

theorem get_foldl_insertRows (target : String × String) (parts : List (List Row)) {db : Database Row}
    {table : Table Row} (h : db.get target = some table) :
    (parts.foldl (fun db rows => insertRows target rows db) db).get target =
      some { table with rows := table.rows ++ parts.flatten } := by
  induction parts generalizing db table with
  | nil => simpa using h
  | cons rows parts ih =>
    have hnext : (insertRows target rows db).get target = some { table with rows := table.rows ++ rows } := by
      rw [insertRows, h]
      dsimp only
      rw [OrderedDict.get_set, if_pos rfl]
    rw [List.foldl_cons, ih hnext, List.flatten_cons, List.append_assoc]

theorem copyBatches_answered (target : String × String) (parts : List (List Row)) (rowCount n : ℕ)
    (store : Transactional (Database Row)) (h : ∀ i < 2 * parts.length + 1, fate (n + i) = .answered) :
    ∃ count, copyBatches fate target parts rowCount ⟨store, n⟩ = (.ok count,
      ⟨⟨store.committed, parts.foldl (fun db rows => insertRows target rows db) store.working⟩,
        n + (2 * parts.length + 1)⟩) := by
  induction parts generalizing rowCount n store with
  | nil =>
    rw [copyBatches, readTrino, run_bind_answered (h 0 (by omega))]
    exact ⟨rowCount, rfl⟩
  | cons rows parts ih =>
    rw [List.length_cons] at h ⊢
    obtain ⟨count, hrest⟩ := ih (rowCount + rows.length) (n + 1 + 1) (store.execute (insertRows target rows))
      fun i hi => by
        rw [show n + 1 + 1 + i = n + (i + 2) by omega]
        exact h (i + 2) (by omega)
    refine ⟨count, ?_⟩
    rw [copyBatches, readTrino, run_bind_answered (h 0 (by omega)), execute,
      run_bind_answered (h 1 (by omega))]
    show copyBatches fate target parts _ ⟨store.execute (insertRows target rows), n + 1 + 1⟩ = _
    rw [hrest, show n + 1 + 1 + (2 * parts.length + 1) = n + (2 * (parts.length + 1) + 1) by omega]
    rfl

theorem copyBatches_broken (target : String × String) (parts : List (List Row)) (rowCount n : ℕ)
    (store : Transactional (Database Row)) (h : ∃ i < 2 * parts.length + 1, fate (n + i) ≠ .answered) :
    ∃ e s, copyBatches fate target parts rowCount ⟨store, n⟩ = (.error e, s) ∧
      s.store.committed = store.committed := by
  induction parts generalizing rowCount n store with
  | nil =>
    obtain ⟨i, hi, hbroken⟩ := h
    have hzero : i = 0 := by
      rw [List.length_nil] at hi
      omega
    subst hzero
    rw [copyBatches, readTrino, run_bind_broken hbroken]
    exact ⟨_, _, rfl, by simp⟩
  | cons rows parts ih =>
    by_cases hfetch : fate n = .answered
    · by_cases hinsert : fate (n + 1) = .answered
      · have hrest : ∃ i < 2 * parts.length + 1, fate (n + 1 + 1 + i) ≠ .answered := by
          obtain ⟨i, hi, hbroken⟩ := h
          rw [List.length_cons] at hi
          have htwo : 2 ≤ i := by
            by_contra hless
            have hcases : i = 0 ∨ i = 1 := by omega
            rcases hcases with rfl | rfl
            · exact hbroken hfetch
            · exact hbroken hinsert
          refine ⟨i - 2, by omega, ?_⟩
          rw [show n + 1 + 1 + (i - 2) = n + i by omega]
          exact hbroken
        obtain ⟨e, s, hrun, hcommitted⟩ :=
          ih (rowCount + rows.length) (n + 1 + 1) (store.execute (insertRows target rows)) hrest
        refine ⟨e, s, ?_, hcommitted⟩
        rw [copyBatches, readTrino, run_bind_answered hfetch, execute, run_bind_answered hinsert]
        exact hrun
      · rw [copyBatches, readTrino, run_bind_answered hfetch, execute, run_bind_broken hinsert]
        refine ⟨_, _, rfl, ?_⟩
        show (if fate (n + 1) = .refused then _ else _ : Transactional (Database Row)).committed = _
        split <;> rfl
    · rw [copyBatches, readTrino, run_bind_broken hfetch]
      refine ⟨_, _, rfl, ?_⟩
      show (if fate n = .refused then _ else _ : Transactional (Database Row)).committed = _
      split <;> rfl

def fill (fate : ℕ → Fate) (source : SourceTable Row) (target : String × String) (batchSize : ℤ) :
    Procedure (Database Row) PublishError (ℕ × ℕ) := do
  readTrino fate
  let rowCount ← copyBatches fate target (batches batchSize.toNat source.rows) 0
  commit fate
  return (rowCount, source.columns.length)

theorem copyTable_eq (hcolumns : source.columns ≠ []) :
    copyTable fate source target batchSize = (do
      readTrino fate
      execute fate (dropTable target)
      execute fate (createTable target source.columns)
      commit fate
      fill fate source target batchSize) := by
  unfold copyTable describe fill
  rw [if_neg hcolumns]
  simp only [bind_assoc, pure_bind]

theorem committedAfter_of_columns_nil (hcolumns : source.columns = []) :
    committedAfter fate source target batchSize db = db := by
  unfold committedAfter copyTable describe
  rw [if_pos hcolumns, bind_assoc]
  by_cases h : fate 0 = .answered
  · rw [readTrino, run_bind_answered h]
    rfl
  · exact committed_of_broken (s := ⟨.idle db, 0⟩) h fun _ => rfl

/-- Until the first commit has an effect the database is as it was. -/
theorem committedAfter_of_not_empties (h : ¬ Empties fate source) :
    committedAfter fate source target batchSize db = db := by
  by_cases hcolumns : source.columns = []
  · exact committedAfter_of_columns_nil hcolumns
  unfold committedAfter
  rw [copyTable_eq hcolumns]
  by_cases h₀ : fate 0 = .answered
  · rw [readTrino, run_bind_answered h₀]
    by_cases h₁ : fate 1 = .answered
    · rw [execute, run_bind_answered h₁]
      by_cases h₂ : fate 2 = .answered
      · rw [execute, run_bind_answered h₂]
        have h₃ : fate 3 = .refused := by
          by_contra hne
          refine h ⟨hcolumns, fun i hi => ?_, hne⟩
          have hcases : i = 0 ∨ i = 1 ∨ i = 2 := by omega
          rcases hcases with rfl | rfl | rfl
          · exact h₀
          · exact h₁
          · exact h₂
        rw [commit, run_bind_broken (by rw [h₃]; decide)]
        show (if fate 3 = .refused then _ else _ : Transactional (Database Row)).committed = _
        rw [if_pos h₃]
        rfl
      · exact committed_of_broken (s := ⟨_, 2⟩) h₂ fun _ => rfl
    · exact committed_of_broken (s := ⟨_, 1⟩) h₁ fun _ => rfl
  · exact committed_of_broken (s := ⟨.idle db, 0⟩) h₀ fun _ => rfl

theorem run_of_empties (h : Empties fate source) : copyTable fate source target batchSize ⟨.idle db, 0⟩ =
      (commit fate >>= fun _ => fill fate source target batchSize) ⟨⟨db, emptied source target db⟩, 3⟩ := by
  obtain ⟨hcolumns, hanswered, -⟩ := h
  rw [copyTable_eq hcolumns, readTrino, run_bind_answered (hanswered 0 (by omega)), execute,
    run_bind_answered (hanswered 1 (by omega)), execute, run_bind_answered (hanswered 2 (by omega))]
  rfl

theorem run_fill (h : fate 4 = .answered) (store : Transactional (Database Row)) :
    fill fate source target batchSize ⟨store, 4⟩ =
      (copyBatches fate target (batches batchSize.toNat source.rows) 0 >>= fun rowCount =>
        commit fate >>= fun _ => pure (rowCount, source.columns.length)) ⟨store, 5⟩ := by
  unfold fill
  rw [readTrino, run_bind_answered h]
  rfl

theorem committedAfter_of_not_completes (h : Empties fate source) (hnot : ¬ Completes fate source batchSize) :
    committedAfter fate source target batchSize db = emptied source target db := by
  unfold committedAfter
  rw [run_of_empties h]
  by_cases h₃ : fate 3 = .answered
  swap
  · rw [commit, run_bind_broken h₃]
    show (if fate 3 = .refused then _ else _ : Transactional (Database Row)).committed = _
    rw [if_neg h.2.2]
    rfl
  rw [commit, run_bind_answered h₃]
  show (fill fate source target batchSize ⟨Transactional.idle (emptied source target db), 4⟩).2.store.committed = _
  by_cases h₄ : fate 4 = .answered
  swap
  · exact committed_of_broken (s := ⟨Transactional.idle (emptied source target db), 4⟩) h₄ fun _ => rfl
  rw [run_fill h₄]
  by_cases hloop : ∃ i < 2 * (batches batchSize.toNat source.rows).length + 1, fate (5 + i) ≠ .answered
  · obtain ⟨e, s, hrun, hcommitted⟩ := copyBatches_broken target _ 0 5 (.idle (emptied source target db)) hloop
    rw [run_bind_error hrun]
    exact hcommitted
  · have hall : ∀ i < 2 * (batches batchSize.toNat source.rows).length + 1, fate (5 + i) = .answered := by
      intro i hi
      by_contra hne
      exact hloop ⟨i, hi, hne⟩
    obtain ⟨count, hrun⟩ := copyBatches_answered target _ 0 5 (.idle (emptied source target db)) hall
    have hlast : fate (lastCommit source batchSize) = .refused := by
      by_contra hne
      refine hnot ⟨h.1, fun i hi => ?_, hne⟩
      unfold lastCommit at hi
      by_cases hsmall : i < 5
      · have hcases : i = 3 ∨ i = 4 ∨ i < 3 := by omega
        rcases hcases with rfl | rfl | hlt
        · exact h₃
        · exact h₄
        · exact h.2.1 i hlt
      · rw [show i = 5 + (i - 5) by omega]
        exact hall (i - 5) (by omega)
    have hnumber : 5 + (2 * (batches batchSize.toNat source.rows).length + 1) = lastCommit source batchSize := by
      unfold lastCommit
      omega
    rw [hnumber] at hrun
    rw [run_bind_ok hrun, commit, run_bind_broken (by rw [hlast]; decide)]
    show (if fate (lastCommit source batchSize) = .refused then _ else _ : Transactional (Database Row)).committed = _
    rw [if_pos hlast]
    rfl

theorem get_committedAfter_of_completes (target : String × String) (db : Database Row)
    (h : Completes fate source batchSize) : (committedAfter fate source target batchSize db).get target =
      some ⟨(copied source).columns, (batches batchSize.toNat source.rows).flatten⟩ := by
  obtain ⟨hcolumns, hanswered, hlast⟩ := h
  have hsix : 6 ≤ lastCommit source batchSize := by
    unfold lastCommit
    omega
  have hempties : Empties fate source := by
    refine ⟨hcolumns, fun i hi => hanswered i (by omega), ?_⟩
    rw [hanswered 3 (by omega)]
    decide
  unfold committedAfter
  rw [run_of_empties hempties, commit, run_bind_answered (hanswered 3 (by omega))]
  show OrderedDict.get (fill fate source target batchSize
    ⟨Transactional.idle (emptied source target db), 4⟩).2.store.committed target = _
  obtain ⟨count, hrun⟩ := copyBatches_answered target (batches batchSize.toNat source.rows) 0 5
    (.idle (emptied source target db)) fun i hi => hanswered (5 + i) (by
      unfold lastCommit
      omega)
  have hnumber : 5 + (2 * (batches batchSize.toNat source.rows).length + 1) = lastCommit source batchSize := by
    unfold lastCommit
    omega
  rw [hnumber] at hrun
  have hcommitted := get_foldl_insertRows target (batches batchSize.toNat source.rows)
    (get_emptied source target db)
  rw [List.nil_append] at hcommitted
  rw [run_fill (hanswered 4 (by omega)), run_bind_ok hrun]
  refine Eq.trans ?_ hcommitted
  by_cases hanswer : fate (lastCommit source batchSize) = .answered
  · rw [commit, run_bind_answered hanswer]
    rfl
  · rw [commit, run_bind_broken hanswer]
    show OrderedDict.get (if fate (lastCommit source batchSize) = .refused then _ else _ :
      Transactional (Database Row)).committed target = _
    rw [if_neg hlast]
    rfl

/-! ### An interrupted copy -/

def CopyIntact (fate : ℕ → Fate) (source : SourceTable Row) (target : String × String) (batchSize : ℤ)
    (db : Database Row) : Prop :=
  (committedAfter fate source target batchSize db).get target = db.get target ∨
    (committedAfter fate source target batchSize db).get target = some (copied source)

/-- **When a copy leaves the published table intact.**  Between the two commits the target is empty, whatever
happens; that is as good as before only if it was so before, or if there is nothing to copy. -/
theorem copy_intact_iff (fate : ℕ → Fate) (source : SourceTable Row) (target : String × String) (batchSize : ℤ)
    (db : Database Row) : CopyIntact fate source target batchSize db ↔
      ¬ Empties fate source ∨ (Completes fate source batchSize ∧ 0 < batchSize) ∨ source.rows = [] ∨
        db.get target = some ⟨(copied source).columns, []⟩ := by
  by_cases hempties : Empties fate source
  swap
  · exact iff_of_true (.inl (by rw [committedAfter_of_not_empties hempties])) (.inl hempties)
  have hempty : (copied source) = ⟨(copied source).columns, []⟩ ↔ source.rows = [] := by
    constructor
    · intro h
      exact congrArg Table.rows h
    · intro h
      unfold copied
      rw [h]
  have hiff : (some ⟨(copied source).columns, []⟩ = db.get target ∨
      some ⟨(copied source).columns, []⟩ = some (copied source)) ↔
      source.rows = [] ∨ db.get target = some ⟨(copied source).columns, []⟩ := by
    rw [Option.some_inj, eq_comm (b := copied source), hempty, or_comm,
      eq_comm (a := some (⟨(copied source).columns, []⟩ : Table Row))]
  by_cases hcompletes : Completes fate source batchSize
  · have hget := get_committedAfter_of_completes target db hcompletes
    by_cases hpositive : 0 < batchSize
    · rw [flatten_batches (by omega)] at hget
      exact iff_of_true (.inr hget) (.inr (.inl ⟨hcompletes, hpositive⟩))
    · rw [show batchSize.toNat = 0 by omega, batches_zero, List.flatten_nil] at hget
      unfold CopyIntact
      rw [hget, hiff]
      simp [hempties, hpositive]
  · have hget : (committedAfter fate source target batchSize db).get target = some ⟨(copied source).columns, []⟩ := by
      rw [committedAfter_of_not_completes hempties hcompletes]
      exact get_emptied source target db
    unfold CopyIntact
    rw [hget, hiff]
    simp [hempties, hcompletes]

end

/-- A published table with one row, and a new version of it with another. -/
def publishedOrders : Database ℕ := .ofList [(("marts", "orders"), ⟨[("id", "bigint")], [1]⟩)]

def newOrders : SourceTable ℕ := ⟨[⟨"id", "bigint", "\"id\""⟩], [2]⟩

def fetchFails (n : ℕ) : Fate := if n = 5 then .refused else .answered

theorem published_table_emptied : publishedOrders.get ("marts", "orders") = some ⟨[("id", "bigint")], [1]⟩ ∧
    (committedAfter fetchFails newOrders ("marts", "orders") 10000 publishedOrders).get ("marts", "orders") =
      some ⟨[("id", "bigint")], []⟩ ∧
    ¬ CopyIntact fetchFails newOrders ("marts", "orders") 10000 publishedOrders := by
  have hempties : Empties fetchFails newOrders := by
    refine ⟨by decide, fun i hi => if_neg (by omega), by decide⟩
  have hnot : ¬ Completes fetchFails newOrders 10000 := by
    intro h
    have hfetch := h.2.1 5 (by unfold lastCommit; omega)
    exact absurd hfetch (by decide)
  have hget : (committedAfter fetchFails newOrders ("marts", "orders") 10000 publishedOrders).get
      ("marts", "orders") = some ⟨[("id", "bigint")], []⟩ := by
    rw [committedAfter_of_not_completes hempties hnot]
    exact get_emptied newOrders _ _
  refine ⟨by decide, hget, ?_⟩
  unfold CopyIntact
  rw [hget]
  decide

end Phlo.Publishing
