import Phlo.Iceberg.Values
import Phlo.Library.Fallible

/-!
# Write preparation

`prepare_arrow_write`: a batch is laid out in the columns of the table, and the columns the table is to
get are staged with it.  What Arrow's safe casts accept, and the type an added column is read back with,
are left open (`ArrowRules`); a cast that succeeds keeps the value.

* `prepareArrowWrite_rows` — the rows of a batch stay what they are in the columns both sides have;
* `prepareArrowWrite_of_subset`, `prepareArrowWrite_again` — part of a batch, and the batch a second time.
-/

namespace Phlo.Iceberg

open Phlo.Library

inductive HistoryErrorKind where
  | permissionError
  | valueError
  | arrowInvalid
  deriving DecidableEq

/-- An error that carries nothing but its text. -/
structure PlainError where
  kind : HistoryErrorKind
  message : String
  deriving DecidableEq

def valueError (message : String) : PlainError := ⟨.valueError, message⟩

/-- What third-party code decides. -/
structure ArrowRules where
  /-- What `column.cast(type, safe=True)` raises, if it does. -/
  castError : ArrowType → ArrowType → List Value → Option String
  /-- `str(type)` -/
  typeText : ArrowType → String
  /-- The type an added column is read back with. -/
  added : ArrowType → ArrowType

inductive SchemaPolicy where
  | strict
  | additive
  | dropExtra
  deriving DecidableEq

/-! ### Types -/

def utcNames : List String := ["UTC", "+00:00", "Etc/UTC", "Z"]

def ArrowType.isText : ArrowType → Bool
  | .string | .largeString => true
  | _ => false

def ArrowType.isBinary : ArrowType → Bool
  | .binary | .largeBinary => true
  | _ => false

mutual

/-- `_compatible_type` -/
def compatibleType (source target : ArrowType) : Bool :=
  source = target || source = .null ||
    match source, target with
    | .int true width, .int true width' => width ≤ width'
    | .float width, .float width' => width ≤ width'
    | .int true _, .float _ => true
    | .struct children, .struct children' => compatibleFields children children'
    | .list element _, .list element' _ => compatibleType element element'
    | .list element _, .largeList element' _ => compatibleType element element'
    | .largeList element _, .list element' _ => compatibleType element element'
    | .largeList element _, .largeList element' _ => compatibleType element element'
    | .map key item _, .map key' item' _ => compatibleType key key' && compatibleType item item'
    | .timestamp _ tz, .timestamp _ tz' =>
      tz = tz' || (tz.any (· ∈ utcNames) && tz'.any (· ∈ utcNames))
    | .decimal precision scale, .decimal precision' scale' =>
      scale ≤ scale' && (precision : ℤ) - scale ≤ (precision' : ℤ) - scale'
    | source, target =>
      (source.isText && target.isText) || (source.isBinary && target.isBinary)

def compatibleFields : ArrowFields → ArrowFields → Bool
  | .nil, .nil => true
  | .cons name type _ rest, .cons name' type' _ rest' =>
    name = name' && compatibleType type type' && compatibleFields rest rest'
  | _, _ => false

end

/-! ### Required values -/

def Value.isNull : Value → Bool
  | .null => true
  | _ => false

def Value.items : Value → List Value
  | .list items => items
  | _ => []

def Value.member (name : String) : Value → Value
  | .dict items => (items.lookup name).getD .null
  | _ => .null

mutual

/-- `_validate_required` -/
def validateRequired (values : List Value) : ArrowType → Bool → String → Except PlainError Unit
  | type, nullable, path =>
    if !nullable && values.any Value.isNull then
      .error (valueError ("Required target column '" ++ path ++ "' contains nulls"))
    else
      match type with
      | .struct children => validateChildren (values.filter fun v => !v.isNull) children path
      | .list element nullable => validateRequired (values.flatMap Value.items) element nullable (path ++ "[]")
      | .largeList element nullable =>
        validateRequired (values.flatMap Value.items) element nullable (path ++ "[]")
      | .map key item nullable => do
        -- a map is a list of pairs
        let pairs := (values.flatMap Value.items).map Value.items
        validateRequired (pairs.flatMap fun pair => pair.take 1) key false (path ++ ".key")
        validateRequired (pairs.flatMap fun pair => pair.drop 1) item nullable (path ++ ".value")
      | _ => .ok ()

def validateChildren (present : List Value) : ArrowFields → String → Except PlainError Unit
  | .nil, _ => .ok ()
  | .cons name type nullable rest, path => do
    validateRequired (present.map (Value.member name)) type nullable (path ++ "." ++ name)
    validateChildren present rest path

end

/-! ### Alignment -/

/-- `repr` of a list of names. -/
def reprNames (names : List String) : String :=
  "[" ++ ", ".intercalate (names.map fun name => "'" ++ name ++ "'") ++ "]"

/-- What `_align_arrow_table_to_target_schema` checks of a column of the target. -/
def alignColumn (rules : ArrowRules) (source : ArrowTable) (tableName : String) (field : Field) :
    Except PlainError Unit :=
  match source.fields.find? fun column => column.name = field.name with
  | none =>
    require field.nullable
      (valueError ("Required target column '" ++ field.name ++ "' is missing from source data for " ++
        tableName))
  | some column => do
    let values := source.rows.map fun row => row field.name
    require (compatibleType column.type field.type)
      (valueError ("Incompatible type for " ++ tableName ++ "." ++ field.name ++ ": " ++
        rules.typeText column.type ++ " -> " ++ rules.typeText field.type ++
        "; use an explicit schema migration"))
    validateRequired values field.type field.nullable field.name
    match rules.castError column.type field.type values with
    | some text =>
      .error (valueError ("Unsafe cast for " ++ tableName ++ "." ++ field.name ++ ": " ++ text))
    | none => .ok ()

/-- `_align_arrow_table_to_target_schema` -/
def alignArrowTable (rules : ArrowRules) (source : ArrowTable) (target : List Field)
    (tableName : String) : Except PlainError ArrowTable := do
  require source.columnNames.Nodup (valueError ("Duplicate source column names for " ++ tableName))
  target.forM (alignColumn rules source tableName)
  .ok
    { fields := target
      rows := source.rows.map fun row => (row.restrict source.columnNames).restrict (target.map Field.name) }

/-! ### Preparation -/

/-- A column of a table with its field id. -/
structure Column where
  id : ℕ
  field : Field
  deriving DecidableEq

/-- A transaction that stages the columns to be added, and the batch laid out for it. -/
structure Prepared where
  added : List Column
  aligned : ArrowTable

/-- The columns `union_by_name` stages for new fields. -/
def stageColumns (rules : ArrowRules) : ℕ → List Field → List Column
  | _, [] => []
  | lastId, field :: fields =>
    ⟨lastId + 1, ⟨field.name, rules.added field.type, field.nullable⟩⟩ ::
      stageColumns rules (lastId + 1) fields

/-- `prepare_arrow_write` -/
def prepareArrowWrite (rules : ArrowRules) (columns : List Column) (lastId : ℕ) (source : ArrowTable)
    (tableName : String) (policy : SchemaPolicy) : Except PlainError Prepared := do
  let known := columns.map fun column => column.field.name
  let extras := source.fields.filter fun field => field.name ∉ known
  require (¬(extras ≠ [] ∧ policy = .strict))
    (valueError ("Unexpected columns for " ++ tableName ++ ": " ++ reprNames (extras.map Field.name) ++
      "; use schema_policy='additive' or explicitly opt into 'drop_extra'"))
  let additive := extras ≠ [] ∧ policy = .additive
  require (additive → ∀ field ∈ extras, field.nullable = true)
    (valueError ("Additive policy only permits new nullable columns for " ++ tableName))
  let added := if additive then stageColumns rules lastId extras else []
  let aligned ← alignArrowTable rules source ((columns ++ added).map Column.field) tableName
  .ok ⟨added, aligned⟩

variable {rules : ArrowRules} {source : ArrowTable} {tableName : String} {columns : List Column} {lastId : ℕ}
  {policy : SchemaPolicy}

variable {aligned source' : ArrowTable} {prepared : Prepared}

theorem alignArrowTable_eq_ok {target : List Field} (h : alignArrowTable rules source target tableName = .ok aligned) :
    aligned =
      { fields := target
        rows := source.rows.map fun row =>
          (row.restrict source.columnNames).restrict (target.map Field.name) } := by
  obtain ⟨_, -, h⟩ := bind_eq_ok.1 h
  obtain ⟨_, -, h⟩ := bind_eq_ok.1 h
  exact (Except.ok.inj h).symm

theorem prepareArrowWrite_rows (h : prepareArrowWrite rules columns lastId source tableName policy = .ok prepared) :
    prepared.aligned =
      { fields := (columns ++ prepared.added).map Column.field
        rows := source.rows.map fun row => (row.restrict source.columnNames).restrict
          (((columns ++ prepared.added).map Column.field).map Field.name) } := by
  obtain ⟨_, -, h⟩ := bind_eq_ok.1 h
  obtain ⟨_, -, h⟩ := bind_eq_ok.1 h
  obtain ⟨aligned, haligned, h⟩ := bind_eq_ok.1 h
  cases h
  exact alignArrowTable_eq_ok haligned

/-! ### Part of a batch, and the batch again -/

theorem any_isNull_of_subset {values values' : List Value} (hsub : values' ⊆ values) {nullable : Bool}
    (h : ¬(!nullable && values.any Value.isNull) = true) : ¬(!nullable && values'.any Value.isNull) = true := by
  intro h'
  rw [Bool.and_eq_true, List.any_eq_true] at h h'
  have ⟨value, hmem, hnull⟩ := h'.2
  exact h ⟨h'.1, value, hsub hmem, hnull⟩

theorem flatMap_subset {α β : Type} {l l' : List α} (h : l' ⊆ l) (f : α → List β) : l'.flatMap f ⊆ l.flatMap f := by
  intro b hb
  have ⟨a, ha, hb⟩ := List.mem_flatMap.1 hb
  exact List.mem_flatMap.2 ⟨a, h ha, hb⟩

mutual

/-- Some of the values that pass pass, too. -/
theorem validateRequired_of_subset : ∀ (type : ArrowType) {values values' : List Value} {nullable : Bool}
    {path : String}, values' ⊆ values → validateRequired values type nullable path = .ok () →
      validateRequired values' type nullable path = .ok ()
  | .struct children, values, values', nullable, path, hsub, h => by
    unfold validateRequired at h ⊢
    split at h
    · cases h
    next hnull =>
      rw [if_neg (any_isNull_of_subset hsub hnull)]
      exact validateChildren_of_subset children (List.filter_subset _ hsub) h
  | .list element nullable', values, values', nullable, path, hsub, h => by
    unfold validateRequired at h ⊢
    split at h
    · cases h
    next hnull =>
      rw [if_neg (any_isNull_of_subset hsub hnull)]
      exact validateRequired_of_subset element (flatMap_subset hsub Value.items) h
  | .largeList element nullable', values, values', nullable, path, hsub, h => by
    unfold validateRequired at h ⊢
    split at h
    · cases h
    next hnull =>
      rw [if_neg (any_isNull_of_subset hsub hnull)]
      exact validateRequired_of_subset element (flatMap_subset hsub Value.items) h
  | .map key item nullable', values, values', nullable, path, hsub, h => by
    unfold validateRequired at h ⊢
    split at h
    · cases h
    next hnull =>
      rw [if_neg (any_isNull_of_subset hsub hnull)]
      have hpairs := List.map_subset Value.items (flatMap_subset hsub Value.items)
      have ⟨_, hkey, hitem⟩ := bind_eq_ok.1 h
      exact bind_eq_ok.2 ⟨(), validateRequired_of_subset key (flatMap_subset hpairs _) hkey,
        validateRequired_of_subset item (flatMap_subset hpairs _) hitem⟩
  | .null, values, values', nullable, path, hsub, h | .bool, values, values', nullable, path, hsub, h
  | .int _ _, values, values', nullable, path, hsub, h | .float _, values, values', nullable, path, hsub, h
  | .string, values, values', nullable, path, hsub, h | .largeString, values, values', nullable, path, hsub, h
  | .binary, values, values', nullable, path, hsub, h | .largeBinary, values, values', nullable, path, hsub, h
  | .date, values, values', nullable, path, hsub, h | .time, values, values', nullable, path, hsub, h
  | .timestamp _ _, values, values', nullable, path, hsub, h
  | .decimal _ _, values, values', nullable, path, hsub, h | .other _, values, values', nullable, path, hsub, h => by
    unfold validateRequired at h ⊢
    split at h
    · cases h
    next hnull => rw [if_neg (any_isNull_of_subset hsub hnull)]

theorem validateChildren_of_subset : ∀ (children : ArrowFields) {present present' : List Value} {path : String},
    present' ⊆ present → validateChildren present children path = .ok () →
      validateChildren present' children path = .ok ()
  | .nil, _, _, _, _, _ => rfl
  | .cons name type nullable rest, present, present', path, hsub, h => by
    unfold validateChildren at h ⊢
    have ⟨_, hchild, hrest⟩ := bind_eq_ok.1 h
    exact bind_eq_ok.2 ⟨(), validateRequired_of_subset type (List.map_subset _ hsub) hchild,
      validateChildren_of_subset rest hsub hrest⟩

end
/-- A cast is safe for some of the values when it is for all of them. -/
def ArrowRules.ElementwiseCasts (rules : ArrowRules) : Prop :=
  ∀ source target, ∀ values values' : List Value, values' ⊆ values →
    rules.castError source target values = none → rules.castError source target values' = none

/-- The rows of a batch as they are laid out in some columns. -/
def ArrowTable.laidOut (source : ArrowTable) (names : List String) (row : Row) : Row :=
  (row.restrict source.columnNames).restrict names

theorem alignColumn_of_subset (hrules : rules.ElementwiseCasts) (hfields : source'.fields = source.fields)
    (hrows : source'.rows ⊆ source.rows) {field : Field} (h : alignColumn rules source tableName field = .ok ()) :
    alignColumn rules source' tableName field = .ok () := by
  unfold alignColumn at h ⊢
  rw [hfields]
  split at h
  · exact h
  next column hcolumn =>
    have hvalues : (source'.rows.map fun row => row field.name) ⊆ source.rows.map fun row => row field.name :=
      List.map_subset _ hrows
    have ⟨_, hcompatible, h⟩ := bind_eq_ok.1 h
    have ⟨_, hrequired, h⟩ := bind_eq_ok.1 h
    refine bind_eq_ok.2 ⟨(), hcompatible, bind_eq_ok.2
      ⟨(), validateRequired_of_subset field.type hvalues hrequired, ?_⟩⟩
    split at h
    · cases h
    next hcast => rw [hrules _ _ _ _ hvalues hcast]

theorem alignArrowTable_of_subset (hrules : rules.ElementwiseCasts) (hfields : source'.fields = source.fields)
    (hrows : source'.rows ⊆ source.rows) {target : List Field}
    (h : alignArrowTable rules source target tableName = .ok aligned) :
    alignArrowTable rules source' target tableName =
      .ok ⟨target, source'.rows.map (source.laidOut (target.map Field.name))⟩ := by
  have hnames : source'.columnNames = source.columnNames := congrArg (List.map Field.name) hfields
  have ⟨_, hnodup, h⟩ := bind_eq_ok.1 h
  have ⟨_, hcolumns, _⟩ := bind_eq_ok.1 h
  unfold alignArrowTable
  rw [hnames]
  refine bind_eq_ok.2 ⟨(), hnodup, bind_eq_ok.2 ⟨(), listForM_eq_ok.2 fun field hfield => ?_, rfl⟩⟩
  exact alignColumn_of_subset hrules hfields hrows (listForM_eq_ok.1 hcolumns field hfield)

theorem prepareArrowWrite_of_subset (hrules : rules.ElementwiseCasts) (hfields : source'.fields = source.fields)
    (hrows : source'.rows ⊆ source.rows)
    (h : prepareArrowWrite rules columns lastId source tableName policy = .ok prepared) :
    prepareArrowWrite rules columns lastId source' tableName policy = .ok ⟨prepared.added, prepared.aligned.fields,
        source'.rows.map (source.laidOut (prepared.aligned.fields.map Field.name))⟩ := by
  have ⟨_, hstrict, h⟩ := bind_eq_ok.1 h
  have ⟨_, hnullable, h⟩ := bind_eq_ok.1 h
  have ⟨aligned, haligned, h⟩ := bind_eq_ok.1 h
  have hfields' := congrArg ArrowTable.fields (alignArrowTable_eq_ok haligned)
  cases h
  unfold prepareArrowWrite
  rw [hfields]
  refine bind_eq_ok.2 ⟨(), hstrict, bind_eq_ok.2 ⟨(), hnullable, bind_eq_ok.2 ⟨_, ?_, rfl⟩⟩⟩
  rw [alignArrowTable_of_subset hrules hfields hrows haligned, hfields']

theorem map_name_stageColumns (rules : ArrowRules) (lastId : ℕ) (fields : List Field) :
    (stageColumns rules lastId fields).map (fun column => column.field.name) = fields.map Field.name := by
  induction fields generalizing lastId with
  | nil => rfl
  | cons field fields ih =>
    rw [stageColumns, List.map_cons, List.map_cons, ih]

theorem prepareArrowWrite_of_no_extras
    (hextras : (source.fields.filter fun field => field.name ∉ columns.map fun column => column.field.name) = [] ∨ policy = .dropExtra)
    (h : alignArrowTable rules source (columns.map Column.field) tableName = .ok aligned) :
    prepareArrowWrite rules columns lastId source tableName policy = .ok ⟨[], aligned⟩ := by
  have hpolicy : ∀ policy', policy' ≠ .dropExtra → ¬((source.fields.filter fun field =>
      field.name ∉ columns.map fun column => column.field.name) ≠ [] ∧ policy = policy') := by
    intro policy' hne hand
    rcases hextras with hnone | hdrop
    · exact hand.1 hnone
    · exact hne (hand.2.symm.trans hdrop)
  unfold prepareArrowWrite
  dsimp only
  rw [if_neg (hpolicy .additive nofun), List.append_nil]
  exact bind_eq_ok.2 ⟨(), require_eq_ok.2 (hpolicy .strict nofun), bind_eq_ok.2
    ⟨(), require_eq_ok.2 fun hadditive => absurd hadditive (hpolicy .additive nofun), bind_eq_ok.2 ⟨_, h, rfl⟩⟩⟩

theorem prepareArrowWrite_again (h : prepareArrowWrite rules columns lastId source tableName policy = .ok prepared)
    (lastId' : ℕ) : prepareArrowWrite rules (columns ++ prepared.added) lastId' source tableName policy =
      .ok ⟨[], prepared.aligned⟩ := by
  have ⟨_, hstrict, h⟩ := bind_eq_ok.1 h
  have ⟨_, hnullable, h⟩ := bind_eq_ok.1 h
  have ⟨aligned, haligned, h⟩ := bind_eq_ok.1 h
  cases h
  refine prepareArrowWrite_of_no_extras ?_ haligned
  dsimp only
  split
  next hadditive =>
    -- the extra columns have been added
    refine .inl (List.filter_eq_nil_iff.2 fun field hfield hextra => ?_)
    rw [decide_eq_true_eq, List.map_append, List.mem_append, not_or, map_name_stageColumns] at hextra
    exact hextra.2 (List.mem_map_of_mem (List.mem_filter.2 ⟨hfield, decide_eq_true hextra.1⟩))
  next hnot =>
    rw [List.append_nil]
    cases policy with
    | dropExtra => exact .inr rfl
    | strict => exact .inl (not_not.1 fun hextras => require_eq_ok.1 hstrict ⟨hextras, rfl⟩)
    | additive => exact .inl (not_not.1 fun hextras => hnot ⟨hextras, rfl⟩)

end Phlo.Iceberg
