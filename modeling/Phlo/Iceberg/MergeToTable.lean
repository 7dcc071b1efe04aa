import Mathlib
import Phlo.Iceberg.Deduplication
import Phlo.Iceberg.History

/-!
# Merges

`merge_to_table`: a batch is deduplicated, the rows of its keys are deleted from the table and the batch is
appended, in one transaction.  The merges of a table come one after the other.

* `mergeToTable` — the function;
* `Upserts` — what a merge is to do: replace the rows of the keys of its batch, one row for each key, whatever
  the order of the batch, and once and for all.
-/

namespace Phlo.Iceberg

open Phlo.Library

variable {Ω : Type} [LinearOrder Ω]

/-! ### The merge -/

/-- What a merge finds besides its arguments. -/
structure MergeSetting (Ω : Type) [LinearOrder Ω] where
  rules : ArrowRules
  order : ValueOrder Ω
  /-- A set of values with NaN in it selects the rows with NaN. -/
  nanMatches : Bool
  /-- `get_operational_settings().protect_main` -/
  protectMain : Bool

structure MergeCall where
  tableName : String
  uniqueKey : String
  ref : String := "main"
  schemaPolicy : SchemaPolicy := .strict
  deduplication : Bool := true
  deduplicationMethod : Option String := none
  deduplicationOrderBy : Option String := none

/-- `deduplication_method or "last"` -/
def MergeCall.effectiveMethod (call : MergeCall) : String :=
  match call.deduplicationMethod with
  | none | some "" => "last"
  | some method => method

structure MergeCounts where
  rowsDeleted : ℕ
  rowsInserted : ℕ
  deriving DecidableEq

/-- `_require_direct_write` -/
def requireDirectWrite (protectMain : Bool) (ref : String) : Except MergeError Unit :=
  require (¬(ref = "main" ∧ protectMain = true)) (.plain ⟨.permissionError,
    "Direct writes to main are protected; write to a branch and use a signed merge."⟩)

/-- `_MergeKeyPredicate(term=Reference(unique_key), values=set(keys))` on a value of the key column. -/
def selects (nanMatches : Bool) (keys : List Value) (value : Value) : Bool :=
  value ∈ keys && value ≠ .null && (value ≠ nanKey || nanMatches)

/-- `writer.delete(predicate)` -/
def TableState.delete (st : TableState) (selected : Row → Bool) : TableState :=
  { st with
    rows := st.rows.filter fun row => !selected row
    within := fun row hrow => st.within row (List.mem_of_mem_filter hrow)
    snapshot := fun h => by rw [st.snapshot h, List.filter_nil] }

def TableState.deleteKeys (st : TableState) (nanMatches : Bool) (uniqueKey : String) (keys : List Value) :
    TableState :=
  if keys = [] then st else st.delete fun row => selects nanMatches keys (row uniqueKey)

/-- `_write_arrow_table` for a merge: the table after it, and how many keys were deleted. -/
def writeArrowTable (setting : MergeSetting Ω) (st : TableState) (arrowTable : ArrowTable) (tableName : String)
    (schemaPolicy : SchemaPolicy) (uniqueKey : String) : Except MergeError (TableState × ℕ) := do
  let prepared ← (prepareArrowWrite setting.rules st.columns st.lastColumnId arrowTable tableName
    schemaPolicy).mapError .plain
  require (uniqueKey ∈ prepared.aligned.columnNames) (.keyError uniqueKey)
  let keys := (prepared.aligned.rows.map fun row => row uniqueKey).eraseDups
  let deleted := st.deleteKeys setting.nanMatches uniqueKey keys
  return (deleted.apply ⟨prepared.added, [], prepared.aligned.rows⟩, keys.length)

def MergeCall.deduplicated (call : MergeCall) (order : ValueOrder Ω) (batch : ArrowTable) :
    Except MergeError ArrowTable :=
  if call.deduplication then
    (deduplicateArrowByUniqueKey order batch call.uniqueKey call.effectiveMethod call.deduplicationOrderBy).map
      Prod.fst
  else .ok batch

/-- `merge_to_table` -/
def mergeToTable (setting : MergeSetting Ω) (call : MergeCall) (batch : ArrowTable) (st : TableState) :
    Except MergeError (TableState × MergeCounts) := do
  requireDirectWrite setting.protectMain call.ref
  requirePlain (call.uniqueKey ∈ batch.columnNames) ("Unique key '" ++ call.uniqueKey ++
    "' not found in data. Available columns: " ++ reprNames batch.columnNames)
  -- the entire batch is validated, with the rows that are going to be removed
  let _ ← (prepareArrowWrite setting.rules st.columns st.lastColumnId batch call.tableName
    call.schemaPolicy).mapError .plain
  let arrowTable ← call.deduplicated setting.order batch
  let written ← writeArrowTable setting st arrowTable call.tableName call.schemaPolicy call.uniqueKey
  return (written.1, ⟨written.2, arrowTable.rows.length⟩)

/-! ### What a merge leaves -/

section

variable {setting : MergeSetting Ω} {call : MergeCall} {batch : ArrowTable} {st st' : TableState}

/-- The steps of a merge before it writes. -/
structure Merging (setting : MergeSetting Ω) (call : MergeCall) (batch : ArrowTable) (st : TableState)
    (prepared : Prepared) (kept : List Row) : Prop where
  direct : ¬(call.ref = "main" ∧ setting.protectMain = true)
  key : call.uniqueKey ∈ batch.columnNames
  prepares : prepareArrowWrite setting.rules st.columns st.lastColumnId batch call.tableName call.schemaPolicy =
    .ok prepared
  keeps : ∃ removed, deduplicateArrowByUniqueKey setting.order batch call.uniqueKey call.effectiveMethod
    call.deduplicationOrderBy = .ok (⟨batch.fields, kept⟩, removed)
  column : call.uniqueKey ∈ prepared.aligned.columnNames

/-- The table after a merge of some rows. -/
structure Leaves (setting : MergeSetting Ω) (call : MergeCall) (batch : ArrowTable) (st : TableState)
    (prepared : Prepared) (kept : List Row) (st' : TableState) : Prop where
  columns : st'.columns = st.columns ++ prepared.added
  rows : st'.rows = replaceKeys (selects setting.nanMatches (kept.map fun row => row call.uniqueKey))
    (fun row => row call.uniqueKey) st.rows (kept.map (batch.laidOut st'.columnNames))

theorem mem_of_selects {nanMatches : Bool} {keys : List Value} {value : Value}
    (h : selects nanMatches keys value = true) : value ∈ keys := by
  rw [selects, Bool.and_eq_true, Bool.and_eq_true, decide_eq_true_eq] at h
  exact h.1.1

theorem selects_eq_true {nanMatches : Bool} {keys : List Value} {value : Value} (hmem : value ∈ keys)
    (hnull : value ≠ .null) (hnan : value = nanKey → nanMatches = true) : selects nanMatches keys value = true := by
  rw [selects, decide_eq_true hmem, decide_eq_true hnull, Bool.and_true, Bool.true_and, Bool.or_eq_true,
    decide_eq_true_eq]
  by_cases hvalue : value = nanKey
  · exact .inr (hnan hvalue)
  · exact .inl hvalue

theorem selects_congr (nanMatches : Bool) {keys keys' : List Value} (h : ∀ value, value ∈ keys ↔ value ∈ keys') :
    selects nanMatches keys = selects nanMatches keys' := by
  funext value
  simp only [selects, h value]

theorem rows_deleteKeys (st : TableState) (nanMatches : Bool) (uniqueKey : String) (values : List Value) :
    (st.deleteKeys nanMatches uniqueKey values.eraseDups).rows =
      st.rows.filter fun row => !selects nanMatches values (row uniqueKey) := by
  have hsame : selects nanMatches values.eraseDups = selects nanMatches values :=
    selects_congr nanMatches fun value => List.mem_eraseDups
  rw [TableState.deleteKeys]
  split
  next hnone =>
    rw [← hsame, hnone]
    exact (List.filter_eq_self.2 fun _ _ => rfl).symm
  · rw [hsame]
    rfl

theorem columns_deleteKeys (st : TableState) (nanMatches : Bool) (uniqueKey : String) (keys : List Value) :
    (st.deleteKeys nanMatches uniqueKey keys).columns = st.columns := by
  rw [TableState.deleteKeys]
  split <;> rfl

variable {uniqueKey : String} {order : ValueOrder Ω} {orderBy : Option String}

theorem laidOut_key {names : List String} (hkey : uniqueKey ∈ batch.columnNames) (hcolumn : uniqueKey ∈ names)
    (row : Row) : batch.laidOut names row uniqueKey = row uniqueKey := by
  rw [ArrowTable.laidOut, Row.restrict_of_mem _ hcolumn, Row.restrict_of_mem _ hkey]

theorem map_laidOut_key {names : List String} (hkey : uniqueKey ∈ batch.columnNames) (hcolumn : uniqueKey ∈ names)
    (rows : List Row) :
    (rows.map (batch.laidOut names)).map (fun row => row uniqueKey) = rows.map fun row => row uniqueKey := by
  rw [List.map_map]
  exact List.map_congr_left fun row _ => laidOut_key hkey hcolumn row

theorem aligned_of_prepared (batch : ArrowTable) (kept : List Row) {prepared : Prepared}
    (h : prepareArrowWrite setting.rules st.columns st.lastColumnId ⟨batch.fields, kept⟩ call.tableName
      call.schemaPolicy = .ok prepared) :
    prepared.aligned.columnNames = (st.columns ++ prepared.added).map (fun column => column.field.name) ∧
      prepared.aligned.rows = kept.map (batch.laidOut prepared.aligned.columnNames) := by
  have haligned := prepareArrowWrite_rows h
  have hnames : prepared.aligned.columnNames = ((st.columns ++ prepared.added).map Column.field).map Field.name :=
    congrArg ArrowTable.columnNames haligned
  constructor
  · rw [hnames, List.map_map]
    rfl
  · rw [hnames]
    exact congrArg ArrowTable.rows haligned

theorem leaves_write {prepared : Prepared} {kept : List Row}
    (hprepared : prepareArrowWrite setting.rules st.columns st.lastColumnId ⟨batch.fields, kept⟩ call.tableName
      call.schemaPolicy = .ok prepared)
    (hkey : call.uniqueKey ∈ batch.columnNames) (hcolumn : call.uniqueKey ∈ prepared.aligned.columnNames) :
    ∃ written, writeArrowTable setting st ⟨batch.fields, kept⟩ call.tableName call.schemaPolicy call.uniqueKey =
      .ok written ∧ Leaves setting call batch st prepared kept written.1 := by
  obtain ⟨hnames, hrows⟩ := aligned_of_prepared batch kept hprepared
  refine ⟨_, bind_eq_ok.2 ⟨prepared, mapError_eq_ok.2 hprepared, bind_eq_ok.2
    ⟨(), require_eq_ok.2 hcolumn, rfl⟩⟩, ?_, ?_⟩
  · dsimp only [TableState.apply]
    rw [columns_deleteKeys]
  · dsimp only [TableState.apply, Change.appended, Change.columnNames, TableState.columnNames]
    rw [rows_deleteKeys, columns_deleteKeys, ← List.map_append, ← hnames, hrows,
      map_laidOut_key hkey hcolumn, replaceKeys]
    refine congrArg (_ ++ ·) ((List.map_congr_left fun row hrow => ?_).trans (List.map_id _))
    obtain ⟨row', _, hlaid⟩ := List.mem_map.1 hrow
    rw [← hlaid]
    exact Row.restrict_restrict _ _

theorem deduplicated_eq_ok_iff {kept : ArrowTable} (hdedup : call.deduplication = true) :
    call.deduplicated order batch = .ok kept ↔ ∃ removed, deduplicateArrowByUniqueKey order batch call.uniqueKey
      call.effectiveMethod call.deduplicationOrderBy = .ok (kept, removed) := by
  rw [MergeCall.deduplicated, if_pos hdedup, map_eq_ok]
  constructor
  · intro ⟨result, hresult, hkept⟩
    exact ⟨result.2, by rw [hresult, ← hkept]⟩
  · intro ⟨removed, hresult⟩
    exact ⟨_, hresult, rfl⟩

theorem merge_of_merging (hrules : setting.rules.ElementwiseCasts) (hdedup : call.deduplication = true)
    {prepared : Prepared} {kept : List Row} (h : Merging setting call batch st prepared kept)
    (hsubset : kept ⊆ batch.rows) : ∃ result, mergeToTable setting call batch st = .ok result ∧
      Leaves setting call batch st prepared kept result.1 := by
  have hkept := prepareArrowWrite_of_subset hrules
    (show (⟨batch.fields, kept⟩ : ArrowTable).fields = batch.fields from rfl) hsubset h.prepares
  have ⟨written, hwritten, hcolumns, hrows⟩ := leaves_write hkept h.key h.column
  refine ⟨_, bind_eq_ok.2 ⟨(), require_eq_ok.2 h.direct, bind_eq_ok.2 ⟨(), require_eq_ok.2 h.key, bind_eq_ok.2
    ⟨prepared, mapError_eq_ok.2 h.prepares, bind_eq_ok.2 ⟨_, (deduplicated_eq_ok_iff hdedup).2 h.keeps,
      bind_eq_ok.2 ⟨written, hwritten, rfl⟩⟩⟩⟩⟩, hcolumns, hrows⟩

theorem merging_of_merge (hrules : setting.rules.ElementwiseCasts) (hdedup : call.deduplication = true)
    (horders : call.effectiveMethod = "last" → setting.order.Orders call.deduplicationOrderBy batch.rows)
    {counts : MergeCounts} (h : mergeToTable setting call batch st = .ok (st', counts)) :
    ∃ prepared kept, Merging setting call batch st prepared kept ∧ Leaves setting call batch st prepared kept st' ∧
      ∃ winners, Winners setting.order call.uniqueKey call.effectiveMethod call.deduplicationOrderBy
        batch.rows.zipIdx winners ∧ kept.Perm (winners.map Prod.fst) := by
  have hmerge := h
  have ⟨_, hdirect, h⟩ := bind_eq_ok.1 h
  have ⟨_, hkey, h⟩ := bind_eq_ok.1 h
  have ⟨prepared, hprepared, h⟩ := bind_eq_ok.1 h
  have ⟨⟨fields, kept⟩, hkept, h⟩ := bind_eq_ok.1 h
  have ⟨written, hwritten, _⟩ := bind_eq_ok.1 h
  have ⟨removed, hremoved⟩ := (deduplicated_eq_ok_iff hdedup).1 hkept
  have ⟨hfields, winners, hwinners, hperm⟩ := winners_of_ok horders hremoved
  dsimp only at hfields hperm
  rw [hfields] at hremoved hwritten
  have hsubset : kept ⊆ batch.rows := by
    intro row hrow
    have ⟨winner, hwinner, heq⟩ := List.mem_map.1 (hperm.mem_iff.1 hrow)
    rw [← heq]
    exact List.fst_mem_of_mem_zipIdx (hwinners.subset winner hwinner)
  have hprepares := mapError_eq_ok.1 hprepared
  have hpart := prepareArrowWrite_of_subset hrules
    (show (⟨batch.fields, kept⟩ : ArrowTable).fields = batch.fields from rfl) hsubset hprepares
  have hcolumn : call.uniqueKey ∈ prepared.aligned.columnNames := by
    have ⟨prepared', hprepared', hwritten⟩ := bind_eq_ok.1 hwritten
    have ⟨_, hcolumn, _⟩ := bind_eq_ok.1 hwritten
    rw [mapError_eq_ok, hpart] at hprepared'
    rw [← Except.ok.inj hprepared'] at hcolumn
    exact require_eq_ok.1 hcolumn
  have hmerging : Merging setting call batch st prepared kept :=
    ⟨require_eq_ok.1 hdirect, require_eq_ok.1 hkey, hprepares, ⟨removed, hremoved⟩, hcolumn⟩
  have ⟨result, hresult, hleaves⟩ := merge_of_merging hrules hdedup hmerging hsubset
  rw [hmerge] at hresult
  cases hresult
  exact ⟨prepared, kept, hmerging, hleaves, winners, hwinners, hperm⟩

/-! ### Upserts -/

/-- Two tables with one content. -/
structure SameTable (st st' : TableState) : Prop where
  columns : st.columns = st'.columns
  rows : st.rows.Perm st'.rows

/-- The order column tells the rows of a key apart: there is one greatest. -/
def Determined (order : ValueOrder Ω) (uniqueKey : String) (orderBy : Option String) (batch : ArrowTable) : Prop :=
  ∀ row ∈ batch.rows, ∀ row' ∈ batch.rows, row' uniqueKey = row uniqueKey →
    order.Greatest uniqueKey orderBy batch.rows row → order.Greatest uniqueKey orderBy batch.rows row' →
      row.restrict batch.columnNames = row'.restrict batch.columnNames

def ArrowTable.keys (batch : ArrowTable) (uniqueKey : String) : List Value :=
  batch.rows.map fun row => row uniqueKey

/-- What a merge that returns is to leave. -/
structure Upserts (setting : MergeSetting Ω) (call : MergeCall) (batch : ArrowTable) (st st' : TableState) :
    Prop where
  /-- Rows of other keys stay as they are. -/
  others : st'.rows.filter (fun row => row call.uniqueKey ∉ batch.keys call.uniqueKey) =
    st.rows.filter fun row => row call.uniqueKey ∉ batch.keys call.uniqueKey
  /-- Each key of the batch has one row, for the last method the greatest one. -/
  one : ∀ row ∈ batch.rows, ∃ winner ∈ batch.rows, winner call.uniqueKey = row call.uniqueKey ∧
    (call.effectiveMethod = "last" →
      setting.order.Greatest call.uniqueKey call.deduplicationOrderBy batch.rows winner) ∧
    st'.rows.filter (fun row' => row' call.uniqueKey = row call.uniqueKey) =
      [batch.laidOut st'.columnNames winner]
  /-- The same merge changes nothing. -/
  again : ∃ result, mergeToTable setting call batch st' = .ok result ∧ SameTable result.1 st'
  /-- The order of the rows makes no difference. -/
  unordered : call.effectiveMethod = "last" → ∀ rows : List Row, rows.Perm batch.rows →
    ∃ result, mergeToTable setting call ⟨batch.fields, rows⟩ st = .ok result ∧ SameTable result.1 st'
  /-- Rows that the order column leaves undecided are refused. -/
  determined : call.effectiveMethod = "last" →
    Determined setting.order call.uniqueKey call.deduplicationOrderBy batch

theorem oneNaN_of_notMem (h : nanKey ∉ batch.keys uniqueKey) : OneNaN uniqueKey batch.rows := by
  have hnone : (batch.rows.filter fun row => row uniqueKey = nanKey) = [] := by
    refine List.filter_eq_nil_iff.2 fun row hrow hnan => h ?_
    exact List.mem_map.2 ⟨row, hrow, of_decide_eq_true hnan⟩
  rw [OneNaN, hnone]
  exact Nat.zero_le 1

theorem KeptRows.mem_keys {method : String} {kept : List Row}
    (h : KeptRows order uniqueKey method orderBy batch.rows kept) (value : Value) :
    value ∈ kept.map (fun row => row uniqueKey) ↔ value ∈ batch.keys uniqueKey := by
  constructor
  · intro hvalue
    have ⟨row, hrow, hkey⟩ := List.mem_map.1 hvalue
    exact List.mem_map.2 ⟨row, h.subset row hrow, hkey⟩
  · intro hvalue
    have ⟨row, hrow, hkey⟩ := List.mem_map.1 hvalue
    have ⟨winner, hwinner, hsame⟩ := h.covers row hrow
    exact List.mem_map.2 ⟨winner, hwinner, hsame.trans hkey⟩

theorem KeptRows.of_perm {method : String} {rows rows' kept : List Row}
    (h : KeptRows order uniqueKey method orderBy rows kept) (hperm : rows.Perm rows') :
    KeptRows order uniqueKey method orderBy rows' kept where
  subset row hrow := hperm.mem_iff.1 (h.subset row hrow)
  nodup := h.nodup
  covers row hrow := h.covers row (hperm.mem_iff.2 hrow)
  greatest hlast winner hwinner other hother := h.greatest hlast winner hwinner other (hperm.mem_iff.2 hother)

theorem KeptRows.laidOut_subset {method : String} {kept kept' : List Row}
    (h : KeptRows order uniqueKey method orderBy batch.rows kept) (hlast : method = "last")
    (hdetermined : Determined order uniqueKey orderBy batch)
    (h' : KeptRows order uniqueKey method orderBy batch.rows kept') (names : List String) :
    kept.map (batch.laidOut names) ⊆ kept'.map (batch.laidOut names) := by
  intro row hrow
  have ⟨winner, hwinner, hlaid⟩ := List.mem_map.1 hrow
  have ⟨winner', hwinner', hkey⟩ := h'.covers winner (h.subset winner hwinner)
  have hsame := hdetermined winner (h.subset winner hwinner) winner' (h'.subset winner' hwinner') hkey
    (h.greatest hlast winner hwinner) (h'.greatest hlast winner' hwinner')
  rw [← hlaid, ArrowTable.laidOut, hsame]
  exact List.mem_map_of_mem hwinner'

namespace Leaves

variable {prepared : Prepared} {kept : List Row}

theorem columnNames (h : Leaves setting call batch st prepared kept st')
    (hprepared : prepareArrowWrite setting.rules st.columns st.lastColumnId batch call.tableName
      call.schemaPolicy = .ok prepared) : st'.columnNames = prepared.aligned.columnNames := by
  have hnames := (aligned_of_prepared batch batch.rows hprepared).1
  rw [hnames, TableState.columnNames, h.columns]

theorem keys (h : Leaves setting call batch st prepared kept st') (hm : Merging setting call batch st prepared kept) :
    (kept.map (batch.laidOut st'.columnNames)).map (fun row => row call.uniqueKey) =
      kept.map fun row => row call.uniqueKey := by
  refine map_laidOut_key hm.key ?_ kept
  rw [h.columnNames hm.prepares]
  exact hm.column

theorem others (h : Leaves setting call batch st prepared kept st') (hm : Merging setting call batch st prepared kept)
    (hkept : KeptRows setting.order call.uniqueKey call.effectiveMethod call.deduplicationOrderBy batch.rows kept) :
    st'.rows.filter (fun row => row call.uniqueKey ∉ batch.keys call.uniqueKey) =
      st.rows.filter fun row => row call.uniqueKey ∉ batch.keys call.uniqueKey := by
  have hsame : ∀ rows : List Row, (rows.filter fun row => row call.uniqueKey ∉ batch.keys call.uniqueKey) =
      rows.filter fun row => row call.uniqueKey ∉
        (kept.map (batch.laidOut st'.columnNames)).map fun row => row call.uniqueKey := by
    intro rows
    refine List.filter_congr fun row _ => ?_
    rw [h.keys hm, decide_eq_decide, hkept.mem_keys]
  rw [hsame, hsame]
  conv_lhs => rw [h.rows]
  refine filter_replaceKeys_of_notMem fun k hk => ?_
  rw [h.keys hm]
  exact mem_of_selects hk

theorem selected (hkept : KeptRows setting.order call.uniqueKey call.effectiveMethod call.deduplicationOrderBy
      batch.rows kept) (hnull : ∀ row ∈ batch.rows, row call.uniqueKey ≠ .null)
    (hnan : nanKey ∈ batch.keys call.uniqueKey → setting.nanMatches = true) {row : Row} (hrow : row ∈ batch.rows) :
    selects setting.nanMatches (kept.map fun row => row call.uniqueKey) (row call.uniqueKey) = true := by
  have hmem : row call.uniqueKey ∈ batch.keys call.uniqueKey := List.mem_map_of_mem hrow
  refine selects_eq_true ((hkept.mem_keys _).2 hmem) (hnull row hrow) fun hvalue => hnan ?_
  rw [← hvalue]
  exact hmem

theorem one (h : Leaves setting call batch st prepared kept st') (hm : Merging setting call batch st prepared kept)
    (hkept : KeptRows setting.order call.uniqueKey call.effectiveMethod call.deduplicationOrderBy batch.rows kept)
    (hnull : ∀ row ∈ batch.rows, row call.uniqueKey ≠ .null)
    (hnan : nanKey ∈ batch.keys call.uniqueKey → setting.nanMatches = true) {row : Row} (hrow : row ∈ batch.rows) :
    ∃ winner ∈ batch.rows, winner call.uniqueKey = row call.uniqueKey ∧ (call.effectiveMethod = "last" →
        setting.order.Greatest call.uniqueKey call.deduplicationOrderBy batch.rows winner) ∧
      st'.rows.filter (fun row' => row' call.uniqueKey = row call.uniqueKey) =
        [batch.laidOut st'.columnNames winner] := by
  have ⟨winner, hwinner, hkey⟩ := hkept.covers row hrow
  refine ⟨winner, hkept.subset winner hwinner, hkey, fun hlast => hkept.greatest hlast winner hwinner, ?_⟩
  have hlaid : batch.laidOut st'.columnNames winner call.uniqueKey = row call.uniqueKey := by
    rw [h.columnNames hm.prepares, laidOut_key hm.key hm.column, hkey]
  conv_lhs => rw [h.rows]
  rw [filter_replaceKeys_of_selected (selected hkept hnull hnan hrow), ← hlaid]
  refine filter_key_eq_singleton ?_ (List.mem_map_of_mem hwinner)
  rw [h.keys hm]
  exact hkept.nodup

theorem merging_again (h : Leaves setting call batch st prepared kept st')
    (hm : Merging setting call batch st prepared kept) :
    Merging setting call batch st' ⟨[], prepared.aligned⟩ kept where
  direct := hm.direct
  key := hm.key
  prepares := by
    rw [h.columns]
    exact prepareArrowWrite_again hm.prepares _
  keeps := hm.keeps
  column := hm.column

theorem again (h : Leaves setting call batch st prepared kept st') (hm : Merging setting call batch st prepared kept)
    (hrules : setting.rules.ElementwiseCasts) (hdedup : call.deduplication = true)
    (hkept : KeptRows setting.order call.uniqueKey call.effectiveMethod call.deduplicationOrderBy batch.rows kept)
    (hnull : ∀ row ∈ batch.rows, row call.uniqueKey ≠ .null)
    (hnan : nanKey ∈ batch.keys call.uniqueKey → setting.nanMatches = true) :
    ∃ result, mergeToTable setting call batch st' = .ok result ∧ SameTable result.1 st' := by
  have ⟨result, hresult, hleaves⟩ := merge_of_merging hrules hdedup (h.merging_again hm) hkept.subset
  have hcolumns : result.1.columns = st'.columns := by
    rw [hleaves.columns, List.append_nil]
  refine ⟨result, hresult, hcolumns, ?_⟩
  have hnames : result.1.columnNames = st'.columnNames := congrArg (List.map _) hcolumns
  rw [hleaves.rows, hnames, h.rows, replaceKeys_replaceKeys]
  intro row hrow
  have ⟨winner, hwinner, hlaid⟩ := List.mem_map.1 hrow
  rw [← hlaid, h.columnNames hm.prepares, laidOut_key hm.key hm.column]
  exact selected hkept hnull hnan (hkept.subset winner hwinner)

theorem unordered (h : Leaves setting call batch st prepared kept st')
    (hm : Merging setting call batch st prepared kept)
    (hrules : setting.rules.ElementwiseCasts) (hdedup : call.deduplication = true)
    (hkept : KeptRows setting.order call.uniqueKey call.effectiveMethod call.deduplicationOrderBy batch.rows kept)
    (horders : call.effectiveMethod = "last" → setting.order.Orders call.deduplicationOrderBy batch.rows)
    (hone : OneNaN call.uniqueKey batch.rows) (hlast : call.effectiveMethod = "last")
    (hdetermined : Determined setting.order call.uniqueKey call.deduplicationOrderBy batch) {rows : List Row}
    (hperm : rows.Perm batch.rows) :
    ∃ result, mergeToTable setting call ⟨batch.fields, rows⟩ st = .ok result ∧ SameTable result.1 st' := by
  obtain ⟨removed, hremoved⟩ := hm.keeps
  obtain ⟨⟨⟨fields, kept'⟩, removed'⟩, hremoved'⟩ :=
    deduplicate_of_perm ⟨batch.fields, rows⟩ horders hone rfl hperm hremoved
  have horders' : call.effectiveMethod = "last" → setting.order.Orders call.deduplicationOrderBy rows :=
    fun hmethod column hcolumn row hrow => horders hmethod column hcolumn row (hperm.mem_iff.1 hrow)
  obtain ⟨hfields, winners, hwinners, hrest⟩ := winners_of_ok horders' hremoved'
  dsimp only at hfields hrest
  have hone' : OneNaN call.uniqueKey rows := by
    rw [OneNaN, (hperm.filter _).length_eq]
    exact hone
  have hkept' := (keptRows_of_winners hone' hwinners hrest).of_perm hperm
  rw [hfields] at hremoved'
  have hprepares' := prepareArrowWrite_of_subset hrules
    (show (⟨batch.fields, rows⟩ : ArrowTable).fields = batch.fields from rfl) hperm.subset hm.prepares
  have hm' : Merging setting call ⟨batch.fields, rows⟩ st _ kept' :=
    ⟨hm.direct, hm.key, hprepares', ⟨removed', hremoved'⟩, hm.column⟩
  have hsubset : kept' ⊆ rows := fun row hrow => hperm.mem_iff.2 (hkept'.subset row hrow)
  obtain ⟨result, hresult, hleaves⟩ := merge_of_merging hrules hdedup hm' hsubset
  have hcolumns : result.1.columns = st'.columns := by rw [hleaves.columns, h.columns]
  refine ⟨result, hresult, hcolumns, ?_⟩
  have hnames : result.1.columnNames = st'.columnNames := congrArg (List.map _) hcolumns
  have hselects := selects_congr setting.nanMatches fun value =>
    (hkept'.mem_keys value).trans (hkept.mem_keys value).symm
  rw [hleaves.rows, hnames, h.rows, hselects]
  refine List.Perm.append_left _ (perm_of_nodup_keys (fun row => row call.uniqueKey) ?_ ?_ fun row => ?_)
  · have hcolumn : call.uniqueKey ∈ st'.columnNames := by
      rw [h.columnNames hm.prepares]
      exact hm.column
    show ((kept'.map (batch.laidOut st'.columnNames)).map fun row => row call.uniqueKey).Nodup
    rw [map_laidOut_key hm.key hcolumn]
    exact hkept'.nodup
  · rw [h.keys hm]
    exact hkept.nodup
  · exact ⟨fun hrow => hkept'.laidOut_subset hlast hdetermined hkept _ hrow,
      fun hrow => hkept.laidOut_subset hlast hdetermined hkept' _ hrow⟩

theorem length_nan (h : Leaves setting call batch st prepared kept st')
    (hm : Merging setting call batch st prepared kept) :
    ((kept.map (batch.laidOut st'.columnNames)).filter fun row => row call.uniqueKey = nanKey).length =
      (kept.filter fun row => row call.uniqueKey = nanKey).length := by
  rw [List.filter_map, List.length_map]
  refine congrArg List.length (List.filter_congr fun row _ => ?_)
  rw [h.columnNames hm.prepares, Function.comp_apply, laidOut_key hm.key hm.column]

theorem nan_le (h : Leaves setting call batch st prepared kept st') (hm : Merging setting call batch st prepared kept) :
    (kept.filter fun row => row call.uniqueKey = nanKey).length ≤
      (st'.rows.filter fun row => row call.uniqueKey = nanKey).length := by
  rw [← h.length_nan hm]
  conv_rhs => rw [h.rows]
  rw [replaceKeys, List.filter_append, List.length_append]
  exact Nat.le_add_left _ _

/-- Rows with NaN for their key stay where NaN is not selected. -/
theorem length_nan_add (h : Leaves setting call batch st prepared kept st')
    (hm : Merging setting call batch st prepared kept) (hnan : setting.nanMatches = false) :
    (st'.rows.filter fun row => row call.uniqueKey = nanKey).length =
      (st.rows.filter fun row => row call.uniqueKey = nanKey).length +
        (kept.filter fun row => row call.uniqueKey = nanKey).length := by
  have hselects : selects setting.nanMatches (kept.map fun row => row call.uniqueKey) nanKey = false := by
    rw [hnan, selects, decide_eq_false (not_not.2 rfl), Bool.or_false, Bool.and_false]
  rw [← h.length_nan hm]
  conv_lhs => rw [h.rows]
  rw [filter_replaceKeys_of_not_selected hselects, List.length_append]

end Leaves

theorem length_filter_key {rows : List Row} {row : Row} (hrow : row ∈ rows) (hnan : row uniqueKey = nanKey) :
    1 ≤ (rows.filter fun row => row uniqueKey = nanKey).length :=
  List.length_pos_of_mem (List.mem_filter.2 ⟨hrow, decide_eq_true hnan⟩)

theorem nan_of_upserts (hrules : setting.rules.ElementwiseCasts) (hdedup : call.deduplication = true)
    (horders : call.effectiveMethod = "last" → setting.order.Orders call.deduplicationOrderBy batch.rows)
    {counts : MergeCounts} (h : mergeToTable setting call batch st = .ok (st', counts))
    (hupserts : Upserts setting call batch st st') (hnan : nanKey ∈ batch.keys call.uniqueKey) :
    setting.nanMatches = true ∧ OneNaN call.uniqueKey batch.rows := by
  have ⟨row, hrow, hkey⟩ := List.mem_map.1 hnan
  have ⟨prepared, kept, hm, hleaves, winners, hwinners, hkept⟩ := merging_of_merge hrules hdedup horders h
  -- there is one row with NaN after the merge
  have hone : (st'.rows.filter fun row' => row' call.uniqueKey = nanKey).length = 1 := by
    have ⟨winner, _, _, _, hfilter⟩ := hupserts.one row hrow
    rw [hkey] at hfilter
    rw [hfilter, List.length_singleton]
  have hbatch : (batch.rows.filter fun row => row call.uniqueKey = nanKey).length ≤ 1 := by
    rw [← hone]
    exact (hwinners.nan_le hkept).trans (hleaves.nan_le hm)
  refine ⟨?_, hbatch⟩
  by_contra hmatches
  -- and two after the next
  have ⟨⟨st'', counts'⟩, hagain, hsame⟩ := hupserts.again
  have ⟨prepared', kept', hm', hleaves', winners', hwinners', hkept'⟩ := merging_of_merge hrules hdedup horders hagain
  have hadd := hleaves'.length_nan_add hm' (Bool.eq_false_iff.2 hmatches)
  have hmore := (length_filter_key hrow hkey).trans (hwinners'.nan_le hkept')
  have hlength := (hsame.rows.filter fun row => row call.uniqueKey = nanKey).length_eq
  dsimp only at hlength
  omega

end

/-! ### A table of users -/

def momentOrder : ValueOrder ℤ where
  position
    | .scalar (.moment _ n) => some n
    | _ => none
  otherwise _ _ := .error .typeError
  otherwise_null _ _ _ _ := ⟨_, rfl⟩

def usersSetting : MergeSetting ℤ where
  rules := ⟨fun _ _ _ => none, fun _ => "", id⟩
  order := momentOrder
  nanMatches := true
  protectMain := true

def usersCall : MergeCall where
  tableName := "raw.users"
  uniqueKey := "id"
  ref := "feature"
  deduplicationOrderBy := some "updated_at"

def usersFields : List Field :=
  [⟨"id", .int true 64, true⟩, ⟨"updated_at", .timestamp "us" none, true⟩, ⟨"email", .string, true⟩]

def userRow (updatedAt : ℤ) (email : String) : Row
  | "id" => .scalar (.number 1)
  | "updated_at" => .scalar (.moment "timestamp" updatedAt)
  | "email" => .scalar (.text email)
  | _ => .null

theorem usersTable_snapshot : false = false → ([] : List Row) = [] := fun _ => rfl

def usersTable : TableState where
  columns := usersFields.mapIdx fun i field => ⟨i + 1, field⟩
  lastColumnId := 3
  properties := OrderedDict.empty
  hasSnapshot := false
  rows := []
  within _ hrow := absurd hrow List.not_mem_nil
  snapshot := usersTable_snapshot

def usersBatch (first second : Row) : ArrowTable := ⟨usersFields, [first, second]⟩

def emails (outcome : Except MergeError (TableState × MergeCounts)) : Option (List Value) :=
  outcome.toOption.map fun result => result.1.rows.map fun row => row "email"

end Phlo.Iceberg
