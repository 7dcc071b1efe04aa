import Mathlib.Data.List.Perm.Subperm
import Mathlib.Order.WithBot
import Phlo.Iceberg.SchemaAlignment
import Phlo.Library.KeyedSort
import Phlo.Library.KeyedWinners

/-!
# Deduplication of a batch

`deduplicate_arrow_by_unique_key` keeps a row for each unique key of a batch: the first one, or the last one
when the rows are sorted by the order column.  Rows go with their index in the batch.

* `deduplicateArrowByUniqueKey` — the function;
* `winners_of_ok` — a call that returns keeps winners.
-/

namespace Phlo.Iceberg

open Phlo.Library

inductive MergeError where
  | plain (error : PlainError)
  | keyError (name : String)
  | typeError
  deriving DecidableEq

abbrev IndexedRow := Row × ℕ

/-- How Python orders the values of a column.  Nulls, NaN and dictionaries have no position; rows are sorted
by `sortByValue` when all values have one. -/
structure ValueOrder (Ω : Type) [LinearOrder Ω] where
  position : Value → WithBot Ω
  /-- What `sorted` does when a value has no position. -/
  otherwise : String → List IndexedRow → Except MergeError (List IndexedRow)
  /-- A null is compared with no other value. -/
  otherwise_null : ∀ column rows, 2 ≤ rows.length → (∃ row ∈ rows, row.1 column = .null) →
    ∃ error, otherwise column rows = .error error

section

variable {Ω : Type} [LinearOrder Ω]

/-- `sorted(range(len(key_values)), key=lambda i: order_values[i])` -/
def ValueOrder.sorted (order : ValueOrder Ω) (column : String) (rows : List IndexedRow) :
    Except MergeError (List IndexedRow) :=
  if ∀ row ∈ rows, order.position (row.1 column) ≠ ⊥ then
    .ok (sortBy (fun row => order.position (row.1 column)) rows)
  else order.otherwise column rows

/-- A key in a Python dictionary: NaN is found equal to no other value. -/
def dictKey (uniqueKey : String) (row : IndexedRow) : Value × Option ℕ :=
  (row.1 uniqueKey, if row.1 uniqueKey = .scalar .nan then some row.2 else none)

/-- `hash(value)` raises nothing. -/
def Value.isHashable : Value → Bool
  | .null | .scalar _ => true
  | .list _ | .dict _ => false

def SUPPORTED_DEDUPLICATION_METHODS : List String := ["first", "last"]

def requirePlain (p : Prop) [Decidable p] (message : String) : Except MergeError Unit :=
  require p (.plain (valueError message))

/-- `ordered_indices`: sorted by the order column if the last row of several with one key is to be kept. -/
def orderedIndices (order : ValueOrder Ω) (uniqueKey method : String) (orderBy : Option String)
    (rows : List IndexedRow) : Except MergeError (List IndexedRow) :=
  let hasDuplicates := ¬(rows.map (dictKey uniqueKey)).Nodup
  if method = "last" ∧ hasDuplicates then
    match orderBy with
    | none => .error (.plain (valueError
        ("deduplication_method='last' requires an explicit ordering column (deduplication_order_by) because " ++
          "duplicate unique-key values were found; Parquet row order is not a valid tiebreaker")))
    | some column => order.sorted column rows
  else .ok rows

def takeWinners (table : ArrowTable) (winners : List IndexedRow) : ArrowTable × ℕ :=
  let removed := table.rows.length - winners.length
  if removed = 0 then (table, 0)
  else
    let keptIndices := sortBy Prod.snd winners
    ({ table with rows := keptIndices.map Prod.fst }, removed)

def deduplicateArrowByUniqueKey (order : ValueOrder Ω) (table : ArrowTable) (uniqueKey method : String)
    (orderBy : Option String) : Except MergeError (ArrowTable × ℕ) := do
  requirePlain (method ∈ SUPPORTED_DEDUPLICATION_METHODS)
    ("Unsupported deduplication_method '" ++ method ++ "'. Supported methods: " ++
      ", ".intercalate SUPPORTED_DEDUPLICATION_METHODS)
  requirePlain (∀ column ∈ orderBy, column ∈ table.columnNames)
    ("Deduplication order column '" ++ orderBy.getD "" ++ "' not found in data. Available columns: " ++
      reprNames table.columnNames)
  require (uniqueKey ∈ table.columnNames) (.keyError uniqueKey)
  let rows : List IndexedRow := table.rows.zipIdx
  require (∀ row ∈ rows, (row.1 uniqueKey).isHashable = true) .typeError
  let ordered ← orderedIndices order uniqueKey method orderBy rows
  return takeWinners table (keptByKey (method = "last") (dictKey uniqueKey) ordered).values

/-! ### What is kept -/

def ValueOrder.rowPosition (order : ValueOrder Ω) (orderBy : Option String) (row : Row) : WithBot Ω :=
  match orderBy with
  | some column => order.position (row column)
  | none => ⊥

def ValueOrder.Orders (order : ValueOrder Ω) (orderBy : Option String) (rows : List Row) : Prop :=
  ∀ column ∈ orderBy, ∀ row ∈ rows, row column ≠ .null → order.position (row column) ≠ ⊥

/-- Indexed rows with keys of their own, one for each key, and for the last method the greatest of its key. -/
structure Winners (order : ValueOrder Ω) (uniqueKey method : String) (orderBy : Option String)
    (rows winners : List IndexedRow) : Prop where
  subset : ∀ row ∈ winners, row ∈ rows
  nodup : (winners.map (dictKey uniqueKey)).Nodup
  covers : ∀ row ∈ rows, ∃ winner ∈ winners, dictKey uniqueKey winner = dictKey uniqueKey row
  greatest : method = "last" → ∀ winner ∈ winners, ∀ row ∈ rows, dictKey uniqueKey row = dictKey uniqueKey winner →
    order.rowPosition orderBy row.1 ≤ order.rowPosition orderBy winner.1

variable {uniqueKey method : String} {order : ValueOrder Ω} {orderBy : Option String}
  {ordered winners : List IndexedRow} {rows : List Row}

theorem mem_values_keptByKey {last : Bool} {rows : List IndexedRow} {row : IndexedRow} :
    row ∈ (keptByKey last (dictKey uniqueKey) rows).values ↔
      (keptByKey last (dictKey uniqueKey) rows).get (dictKey uniqueKey row) = some row := by
  rw [OrderedDict.mem_values]
  constructor
  · intro ⟨k, hk⟩
    rw [(own_keptByKey hk).2]
    exact hk
  · intro h
    exact ⟨_, h⟩

theorem winners_keptByKey {rows : List IndexedRow} (hperm : ordered.Perm rows)
    (hgreatest : method = "last" → (rows.map (dictKey uniqueKey)).Nodup ∨ ordered.Pairwise fun a b => order.rowPosition orderBy a.1 ≤ order.rowPosition orderBy b.1) :
    Winners order uniqueKey method orderBy rows (keptByKey (method = "last") (dictKey uniqueKey) ordered).values where
  subset row hrow := hperm.mem_iff.1 (own_keptByKey (mem_values_keptByKey.1 hrow)).1
  nodup := nodup_keys_keptByKey ordered
  covers row hrow := by
    have ⟨winner, hwinner⟩ := covers_keptByKey (method = "last") (dictKey uniqueKey) (hperm.mem_iff.2 hrow)
    exact ⟨winner, OrderedDict.mem_values.2 ⟨_, hwinner⟩, (own_keptByKey hwinner).2⟩
  greatest hmethod winner hwinner row hrow hkey := by
    have hget := mem_values_keptByKey.1 hwinner
    rcases hgreatest hmethod with hnodup | hsorted
    · -- the only row of its key
      have hmem := hperm.mem_iff.1 (own_keptByKey hget).1
      rw [List.inj_on_of_nodup_map hnodup hrow hmem hkey]
    · rw [decide_eq_true hmethod] at hget
      exact le_of_keptByKey hsorted hget row (hperm.mem_iff.2 hrow) hkey

theorem Winners.perm_of_length_le {rows : List IndexedRow} (h : Winners order uniqueKey method orderBy rows winners)
    (hlength : rows.length ≤ winners.length) : winners.Perm rows :=
  (List.Nodup.of_map _ h.nodup).subperm h.subset |>.perm_of_length_le hlength

theorem exists_mem_zipIdx {row : Row} (h : row ∈ rows) : ∃ indexed ∈ rows.zipIdx, indexed.1 = row := by
  rw [← List.zipIdx_map_fst 0 rows] at h
  have ⟨indexed, hmem, heq⟩ := List.mem_map.1 h
  exact ⟨indexed, hmem, heq⟩

theorem two_le_length_of_not_nodup {α β : Type} {f : α × ℕ → β} {rows : List α}
    (h : ¬(rows.zipIdx.map f).Nodup) : 2 ≤ rows.length := by
  by_contra hshort
  match rows, hshort, h with
  | [], _, hdup => exact hdup List.nodup_nil
  | [row], _, hdup => exact hdup (List.nodup_singleton _)
  | _ :: _ :: rest, hshort, _ => exact hshort (by rw [List.length_cons, List.length_cons]; omega)

theorem positions_of_sorted {column : String} (horders : order.Orders (some column) rows) (hlength : 2 ≤ rows.length)
    (h : order.sorted column rows.zipIdx = .ok ordered) : ∀ row ∈ rows, order.position (row column) ≠ ⊥ := by
  intro row hrow hbot
  have ⟨indexed, hmem, heq⟩ := exists_mem_zipIdx hrow
  have hnull : row column = .null := by
    by_contra hvalue
    exact horders column rfl row hrow hvalue hbot
  rw [ValueOrder.sorted, if_neg fun hall => hall indexed hmem (heq ▸ hbot)] at h
  have ⟨error, herror⟩ := order.otherwise_null column rows.zipIdx (by rwa [List.length_zipIdx])
    ⟨indexed, hmem, heq ▸ hnull⟩
  rw [herror] at h
  cases h

theorem sorted_of_ok {column : String} (horders : order.Orders (some column) rows) (hlength : 2 ≤ rows.length)
    (h : order.sorted column rows.zipIdx = .ok ordered) :
    ordered = sortBy (fun row => order.position (row.1 column)) rows.zipIdx := by
  have hpositions := positions_of_sorted horders hlength h
  have hall : ∀ row ∈ rows.zipIdx, order.position (row.1 column) ≠ ⊥ :=
    fun row hrow => hpositions row.1 (List.fst_mem_of_mem_zipIdx hrow)
  rw [ValueOrder.sorted, if_pos hall] at h
  exact (Except.ok.inj h).symm

theorem orderedIndices_of_ok (horders : method = "last" → order.Orders orderBy rows)
    (h : orderedIndices order uniqueKey method orderBy rows.zipIdx = .ok ordered) :
    ordered.Perm rows.zipIdx ∧ (method = "last" → (rows.zipIdx.map (dictKey uniqueKey)).Nodup ∨
      ordered.Pairwise fun a b => order.rowPosition orderBy a.1 ≤ order.rowPosition orderBy b.1) := by
  unfold orderedIndices at h
  dsimp only at h
  split at h
  next hlast =>
    cases orderBy with
    | none => cases h
    | some column =>
      have hlength := two_le_length_of_not_nodup hlast.2
      rw [sorted_of_ok (horders hlast.1) hlength h]
      exact ⟨sortBy_perm _ _, fun _ => .inr (pairwise_sortBy _ _)⟩
  next hfirst =>
    cases h
    exact ⟨List.Perm.refl _, fun hmethod => .inl (not_not.1 fun hdup => hfirst ⟨hmethod, hdup⟩)⟩

theorem deduplicate_eq_ok_iff {table : ArrowTable} {result : ArrowTable × ℕ} :
    deduplicateArrowByUniqueKey order table uniqueKey method orderBy = .ok result ↔
      method ∈ SUPPORTED_DEDUPLICATION_METHODS ∧ (∀ column ∈ orderBy, column ∈ table.columnNames) ∧
        uniqueKey ∈ table.columnNames ∧ (∀ row ∈ table.rows.zipIdx, (row.1 uniqueKey).isHashable = true) ∧
          ∃ ordered, orderedIndices order uniqueKey method orderBy table.rows.zipIdx = .ok ordered ∧
            takeWinners table (keptByKey (method = "last") (dictKey uniqueKey) ordered).values = result := by
  unfold deduplicateArrowByUniqueKey requirePlain
  simp only [bind_eq_ok, require_eq_ok, exists_and_left, exists_const]
  constructor
  · rintro ⟨hmethod, horder, hkey, hhash, ordered, hordered, h⟩
    exact ⟨hmethod, horder, hkey, hhash, ordered, hordered, Except.ok.inj h⟩
  · rintro ⟨hmethod, horder, hkey, hhash, ordered, hordered, h⟩
    exact ⟨hmethod, horder, hkey, hhash, ordered, hordered, congrArg Except.ok h⟩

theorem winners_of_ok {table kept : ArrowTable} {removed : ℕ}
    (horders : method = "last" → order.Orders orderBy table.rows)
    (h : deduplicateArrowByUniqueKey order table uniqueKey method orderBy = .ok (kept, removed)) :
    kept.fields = table.fields ∧ ∃ winners, Winners order uniqueKey method orderBy table.rows.zipIdx winners ∧
      kept.rows.Perm (winners.map Prod.fst) := by
  have ⟨_, _, _, _, ordered, hordered, hkept⟩ := deduplicate_eq_ok_iff.1 h
  have ⟨hperm, hgreatest⟩ := orderedIndices_of_ok horders hordered
  have hwinners := winners_keptByKey hperm hgreatest
  rw [takeWinners] at hkept
  split at hkept
  next hnone =>
    cases hkept
    have hlength : table.rows.zipIdx.length ≤
        (keptByKey (method = "last") (dictKey uniqueKey) ordered).values.length := by
      rw [List.length_zipIdx]
      omega
    have hall := (hwinners.perm_of_length_le hlength).map Prod.fst
    rw [List.zipIdx_map_fst] at hall
    exact ⟨rfl, _, hwinners, hall.symm⟩
  · cases hkept
    exact ⟨rfl, _, hwinners, (sortBy_perm Prod.snd _).map Prod.fst⟩

/-! ### Keys of rows -/

def nanKey : Value := .scalar .nan

def OneNaN (uniqueKey : String) (rows : List Row) : Prop :=
  (rows.filter fun row => row uniqueKey = nanKey).length ≤ 1

theorem dictKey_eq_of_ne {row : IndexedRow} (h : row.1 uniqueKey ≠ nanKey) :
    dictKey uniqueKey row = (row.1 uniqueKey, none) := by
  exact congrArg (Prod.mk (row.1 uniqueKey)) (if_neg h)

theorem filter_zipIdx_length (uniqueKey : String) (rows : List Row) :
    (rows.zipIdx.filter fun row => row.1 uniqueKey = nanKey).length =
      (rows.filter fun row => row uniqueKey = nanKey).length := by
  have hrows : rows.zipIdx.map Prod.fst = rows := List.zipIdx_map_fst 0 rows
  conv_rhs => rw [← hrows, List.filter_map, List.length_map]
  rfl

theorem dictKey_eq_iff (h : OneNaN uniqueKey rows) {a b : IndexedRow} (ha : a ∈ rows.zipIdx) (hb : b ∈ rows.zipIdx) :
    dictKey uniqueKey a = dictKey uniqueKey b ↔ a.1 uniqueKey = b.1 uniqueKey := by
  constructor
  · exact fun hkey => congrArg Prod.fst hkey
  · intro hkey
    by_cases hnan : a.1 uniqueKey = nanKey
    · have hone : (rows.zipIdx.filter fun row => row.1 uniqueKey = nanKey).length ≤ 1 := by
        rw [filter_zipIdx_length]
        exact h
      have hmem : ∀ row ∈ rows.zipIdx, row.1 uniqueKey = nanKey →
          row ∈ rows.zipIdx.filter fun row => row.1 uniqueKey = nanKey :=
        fun row hrow hkey => List.mem_filter.2 ⟨hrow, by simpa using hkey⟩
      have hama := hmem a ha hnan
      have hbma := hmem b hb (hkey ▸ hnan)
      match hlist : rows.zipIdx.filter fun row => row.1 uniqueKey = nanKey with
      | [] => rw [hlist] at hama; cases hama
      | [c] =>
        rw [hlist] at hama hbma
        rw [List.mem_singleton.1 hama, List.mem_singleton.1 hbma]
      | _ :: _ :: _ => rw [hlist] at hone; simp at hone
    · rw [dictKey_eq_of_ne hnan, dictKey_eq_of_ne (hkey ▸ hnan), hkey]

theorem nodup_zipIdx (rows : List Row) : rows.zipIdx.Nodup := by
  refine List.Nodup.of_map Prod.snd ?_
  rw [List.zipIdx_map_snd]
  exact List.nodup_range'

theorem nodup_dictKey_iff (h : OneNaN uniqueKey rows) :
    (rows.zipIdx.map (dictKey uniqueKey)).Nodup ↔ (rows.map fun row => row uniqueKey).Nodup := by
  have hkeys : (rows.map fun row => row uniqueKey) = rows.zipIdx.map fun row => row.1 uniqueKey := by
    conv_lhs => rw [← List.zipIdx_map_fst 0 rows, List.map_map]
    rfl
  rw [hkeys, List.nodup_map_iff_inj_on (nodup_zipIdx rows), List.nodup_map_iff_inj_on (nodup_zipIdx rows)]
  constructor
  · intro hinj a ha b hb hkey
    exact hinj a ha b hb ((dictKey_eq_iff h ha hb).2 hkey)
  · intro hinj a ha b hb hkey
    exact hinj a ha b hb ((dictKey_eq_iff h ha hb).1 hkey)

def ValueOrder.Greatest (order : ValueOrder Ω) (uniqueKey : String) (orderBy : Option String) (rows : List Row)
    (row : Row) : Prop :=
  ∀ other ∈ rows, other uniqueKey = row uniqueKey → order.rowPosition orderBy other ≤ order.rowPosition orderBy row

/-- Rows with keys of their own, one for each key, and for the last method the greatest of its key. -/
structure KeptRows (order : ValueOrder Ω) (uniqueKey method : String) (orderBy : Option String)
    (rows kept : List Row) : Prop where
  subset : ∀ row ∈ kept, row ∈ rows
  nodup : (kept.map fun row => row uniqueKey).Nodup
  covers : ∀ row ∈ rows, ∃ winner ∈ kept, winner uniqueKey = row uniqueKey
  greatest : method = "last" → ∀ winner ∈ kept, order.Greatest uniqueKey orderBy rows winner

theorem keptRows_of_winners {kept : List Row} (hone : OneNaN uniqueKey rows)
    (h : Winners order uniqueKey method orderBy rows.zipIdx winners) (hkept : kept.Perm (winners.map Prod.fst)) :
    KeptRows order uniqueKey method orderBy rows kept where
  subset row hrow := by
    have ⟨winner, hwinner, heq⟩ := List.mem_map.1 (hkept.mem_iff.1 hrow)
    rw [← heq]
    exact List.fst_mem_of_mem_zipIdx (h.subset winner hwinner)
  nodup := by
    have hperm := hkept.map fun row => row uniqueKey
    rw [hperm.nodup_iff, List.map_map]
    have hinj := h.nodup
    have hw := List.Nodup.of_map _ h.nodup
    rw [List.nodup_map_iff_inj_on hw] at hinj ⊢
    intro a ha b hb hkey
    exact hinj a ha b hb ((dictKey_eq_iff hone (h.subset a ha) (h.subset b hb)).2 hkey)
  covers row hrow := by
    have ⟨indexed, hmem, heq⟩ := exists_mem_zipIdx hrow
    have ⟨winner, hwinner, hkey⟩ := h.covers indexed hmem
    refine ⟨winner.1, hkept.mem_iff.2 (List.mem_map_of_mem hwinner), ?_⟩
    rw [← heq]
    exact congrArg Prod.fst hkey
  greatest hmethod row hrow other hother hkey := by
    have ⟨winner, hwinner, heq⟩ := List.mem_map.1 (hkept.mem_iff.1 hrow)
    have ⟨indexed, hmem, heq'⟩ := exists_mem_zipIdx hother
    rw [← heq, ← heq'] at hkey ⊢
    exact h.greatest hmethod winner hwinner indexed hmem
      ((dictKey_eq_iff hone hmem (h.subset winner hwinner)).2 hkey)

theorem Winners.nan_le {kept : List Row} (h : Winners order uniqueKey method orderBy rows.zipIdx winners)
    (hkept : kept.Perm (winners.map Prod.fst)) :
    (rows.filter fun row => row uniqueKey = nanKey).length ≤ (kept.filter fun row => row uniqueKey = nanKey).length := by
  have hlength : (kept.filter fun row => row uniqueKey = nanKey).length =
      (winners.filter fun row => row.1 uniqueKey = nanKey).length := by
    rw [(hkept.filter _).length_eq, List.filter_map, List.length_map]
    rfl
  rw [hlength, ← filter_zipIdx_length]
  have hnodup := (nodup_zipIdx rows).filter fun row => row.1 uniqueKey = nanKey
  refine (hnodup.subperm fun row hrow => ?_).length_le
  have ⟨hmem, hnan⟩ := List.mem_filter.1 hrow
  have ⟨winner, hwinner, hkey⟩ := h.covers row hmem
  have hsame : winner = row := by
    have hrowkey : row.1 uniqueKey = .scalar .nan := of_decide_eq_true hnan
    have hwinnerkey : winner.1 uniqueKey = .scalar .nan := (congrArg Prod.fst hkey).trans hrowkey
    have hindex := congrArg Prod.snd hkey
    rw [dictKey, dictKey, if_pos hrowkey, if_pos hwinnerkey] at hindex
    have hgetw := List.mk_mem_zipIdx_iff_getElem?.1 (show (winner.1, winner.2) ∈ rows.zipIdx from h.subset winner hwinner)
    have hgetr := List.mk_mem_zipIdx_iff_getElem?.1 (show (row.1, row.2) ∈ rows.zipIdx from hmem)
    rw [Option.some.inj hindex] at hgetw
    exact Prod.ext (Option.some.inj (hgetw.symm.trans hgetr)) (Option.some.inj hindex)
  rw [hsame] at hwinner
  exact List.mem_filter.2 ⟨hwinner, hnan⟩

theorem orderedIndices_of_perm {rows' : List Row} (horders : method = "last" → order.Orders orderBy rows)
    (hone : OneNaN uniqueKey rows) (hperm : rows'.Perm rows)
    (h : orderedIndices order uniqueKey method orderBy rows.zipIdx = .ok ordered) :
    ∃ ordered', orderedIndices order uniqueKey method orderBy rows'.zipIdx = .ok ordered' := by
  have hone' : OneNaN uniqueKey rows' := by
    rw [OneNaN, (hperm.filter _).length_eq]
    exact hone
  have hduplicates : (rows'.zipIdx.map (dictKey uniqueKey)).Nodup ↔ (rows.zipIdx.map (dictKey uniqueKey)).Nodup := by
    rw [nodup_dictKey_iff hone, nodup_dictKey_iff hone']
    exact (hperm.map _).nodup_iff
  unfold orderedIndices at h ⊢
  dsimp only at h ⊢
  split at h
  next hlast =>
    rw [if_pos ⟨hlast.1, fun hnodup => hlast.2 (hduplicates.1 hnodup)⟩]
    cases orderBy with
    | none => cases h
    | some column =>
      have hsorted : ∀ row ∈ rows, order.position (row column) ≠ ⊥ :=
        positions_of_sorted (horders hlast.1) (two_le_length_of_not_nodup hlast.2) h
      refine ⟨_, if_pos fun row hrow => ?_⟩
      exact hsorted row.1 (hperm.mem_iff.1 (List.fst_mem_of_mem_zipIdx hrow))
  next hfirst =>
    rw [if_neg fun hlast => hfirst ⟨hlast.1, fun hnodup => hlast.2 (hduplicates.2 hnodup)⟩]
    exact ⟨_, rfl⟩

theorem deduplicate_of_perm {table kept : ArrowTable} (table' : ArrowTable) {removed : ℕ}
    (horders : method = "last" → order.Orders orderBy table.rows) (hone : OneNaN uniqueKey table.rows)
    (hfields : table'.fields = table.fields) (hperm : table'.rows.Perm table.rows)
    (h : deduplicateArrowByUniqueKey order table uniqueKey method orderBy = .ok (kept, removed)) :
    ∃ result, deduplicateArrowByUniqueKey order table' uniqueKey method orderBy = .ok result := by
  have ⟨hmethod, horder, hkey, hhash, ordered, hordered, _⟩ := deduplicate_eq_ok_iff.1 h
  have ⟨ordered', hordered'⟩ := orderedIndices_of_perm horders hone hperm hordered
  have hnames : table'.columnNames = table.columnNames := congrArg (List.map Field.name) hfields
  refine ⟨_, deduplicate_eq_ok_iff.2 ⟨hmethod, hnames ▸ horder, hnames ▸ hkey, fun row hrow => ?_, _, hordered', rfl⟩⟩
  have ⟨indexed, hmem, heq⟩ := exists_mem_zipIdx (hperm.mem_iff.1 (List.fst_mem_of_mem_zipIdx hrow))
  rw [← heq]
  exact hhash indexed hmem

end

end Phlo.Iceberg
