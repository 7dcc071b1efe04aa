import Phlo.SchemaMigration.Planning

/-!
# Schema migrations of Iceberg tables

`diffSchema` plans a migration from the schema of a table, `applyPlan` makes the changes of a plan in one
schema update.  An update resolves names against the schema it starts from, adds columns as optional ones,
and is thrown away when one of its calls, or its commit, is refused.

* `runChanges_eq_ok` — what the calls of a successful update do, column by column;
* `applyPlan_error` — a migration that raises leaves the schema as it was;
* `runPlan_eq_ok` — the columns of a schema that a migration has made.
-/

namespace Phlo.SchemaMigration

open Phlo.Library

/-! ### Types and schemas -/

/-- Types; those without a canonical dtype by their text. -/
inductive IcebergType where
  | string
  | long
  | integer
  | double
  | float
  | boolean
  | timestamptz
  | timestamp
  | date
  | binary
  | decimal (precision scale : ℕ)
  | other (text : String)
  deriving DecidableEq

/-- `_iceberg_type_to_dtype` -/
def IcebergType.toDtype : IcebergType → String
  | .string => "string"
  | .long => "int64"
  | .integer => "int32"
  | .double => "float64"
  | .float => "float32"
  | .boolean => "bool"
  | .timestamptz => "timestamptz"
  | .timestamp => "timestamp"
  | .date => "date"
  | .binary => "binary"
  | .decimal _ _ => "decimal"
  | .other text => text

def dtypeToIceberg : List (String × IcebergType) :=
  [("string", .string), ("int64", .long), ("int32", .integer), ("float64", .double), ("float32", .float),
    ("bool", .boolean), ("timestamptz", .timestamptz), ("timestamp", .timestamp), ("date", .date),
    ("binary", .binary)]

def dtypeToIcebergType (dtype : String) : Except String IcebergType :=
  match dtypeToIceberg.find? fun entry => entry.1 = dtype with
  | some entry => .ok entry.2
  | none => .error ("Unsupported dtype for Iceberg conversion: " ++ dtype)

theorem toDtype_of_dtypeToIcebergType {dtype : String} {type : IcebergType}
    (h : dtypeToIcebergType dtype = .ok type) : type.toDtype = dtype := by
  have hall : ∀ entry ∈ dtypeToIceberg, entry.2.toDtype = entry.1 := by decide
  unfold dtypeToIcebergType at h
  split at h
  next entry hfind =>
    obtain rfl := Except.ok.inj h
    have hkey : entry.1 = dtype := by simpa using List.find?_some hfind
    rw [hall entry (List.mem_of_find?_eq_some hfind), hkey]
  · cases h

structure Column where
  name : String
  fieldType : IcebergType
  required : Bool
  deriving DecidableEq

/-- A schema: columns under different names. -/
structure IcebergSchema where
  columns : List Column
  nodup : (columns.map Column.name).Nodup

def systemMetadataFields : List String :=
  ["_dlt_load_id", "_dlt_id", "_phlo_ingested_at", "_phlo_row_id", "_phlo_partition_date", "_phlo_run_id"]

/-! ### Planning -/

def Column.toFieldSpec (c : Column) : FieldSpec := ⟨c.name, c.fieldType.toDtype, !c.required, false⟩

/-- The columns that are not metadata of the pipeline. -/
def currentFields (schema : IcebergSchema) : List FieldSpec :=
  (schema.columns.filter fun c => c.name ∉ systemMetadataFields).map Column.toFieldSpec

def icebergSchemaPolicy : SchemaPlanningPolicy where
  changeClassifications
    | .drop => some .warning
    | .rename => some .safe
    | _ => none
  recommendations
    | .drop => some "Dropped columns are recoverable via Iceberg snapshot rollback."
    | _ => none

/-- `diff_schema` -/
def diffSchema (setOrder : SetOrder) (schema : IcebergSchema) (tableName : String) (desired : List FieldSpec)
    (renames : OrderedDict String String) : Except String SchemaMigrationPlan :=
  planSchemaMigration setOrder tableName (currentFields schema) desired icebergSchemaPolicy renames

/-! ### Schema updates -/

/-- A call on a schema update. -/
inductive UpdateOperation where
  | addColumn (path : String) (fieldType : IcebergType)
  | deleteColumn (path : String)
  | renameColumn (path newName : String)
  | updateColumn (path : String) (fieldType : IcebergType)
  | setColumnOptional (path : String)
  | setColumnRequired (path : String)
  deriving DecidableEq

/-- What else a schema update refuses, apart from names that it cannot resolve and names that are taken:
calls, after the calls before them, and commits. -/
structure SchemaUpdates where
  refusal : IcebergSchema → List UpdateOperation → UpdateOperation → Option String
  commitRefusal : IcebergSchema → List Column → Option String

/-- An update under way: the columns of the schema with their names at its start, and the added ones. -/
structure UpdateState where
  base : IcebergSchema
  calls : List UpdateOperation
  columns : List (String × Column)
  added : List Column

namespace UpdateState

def start (schema : IcebergSchema) : UpdateState :=
  ⟨schema, [], schema.columns.map fun c => (c.name, c), []⟩

/-- Change the column that had a name at the start, or take it away. -/
def change (s : UpdateState) (path : String) (f : Column → Option Column) : Except String UpdateState :=
  if path ∈ s.columns.map Prod.fst then
    .ok { s with columns := s.columns.filterMap fun e =>
      if e.1 = path then (f e.2).map fun c => (e.1, c) else some e }
  else .error ("Could not find field with name " ++ path)

end UpdateState

namespace UpdateOperation

/-- The column an operation is about, unless it adds one. -/
def target : UpdateOperation → Option String
  | .addColumn _ _ => none
  | .deleteColumn path | .renameColumn path _ | .updateColumn path _ | .setColumnOptional path
  | .setColumnRequired path => some path

def touch : UpdateOperation → Column → Option Column
  | .addColumn _ _, c => some c
  | .deleteColumn _, _ => none
  | .renameColumn _ newName, c => some { c with name := newName }
  | .updateColumn _ fieldType, c => some { c with fieldType := fieldType }
  | .setColumnOptional _, c => some { c with required := false }
  | .setColumnRequired _, c => some { c with required := true }

def addedColumn : UpdateOperation → Option Column
  | .addColumn path fieldType => some ⟨path, fieldType, false⟩
  | _ => none

end UpdateOperation

namespace UpdateState

def call (updates : SchemaUpdates) (s : UpdateState) (op : UpdateOperation) : Except String UpdateState :=
  match updates.refusal s.base s.calls op with
  | some error => .error error
  | none =>
    match op with
    | .addColumn path fieldType =>
      if path ∈ s.columns.map Prod.fst then .error ("Cannot add column, name already exists: " ++ path)
      else .ok { s with calls := s.calls ++ [op], added := s.added ++ [⟨path, fieldType, false⟩] }
    | .deleteColumn path | .renameColumn path _ | .updateColumn path _ | .setColumnOptional path
    | .setColumnRequired path => { s with calls := s.calls ++ [op] }.change path op.touch

def commit (updates : SchemaUpdates) (s : UpdateState) : Except String IcebergSchema :=
  let columns := s.columns.map Prod.snd ++ s.added
  match updates.commitRefusal s.base columns with
  | some error => .error error
  | none =>
    if h : (columns.map Column.name).Nodup then .ok ⟨columns, h⟩
    else .error "Invalid schema, multiple fields for name"

end UpdateState

/-! ### Application of plans -/

/-- `value or default` -/
def valueOr (value : Option String) (fallback : String) : String :=
  if value.any (· ≠ "") then value.getD "" else fallback

/-- The call a change makes; a change of order makes none. -/
def SchemaChange.operation (change : SchemaChange) : Except String (Option UpdateOperation) :=
  match change.changeType with
  | .add => (dtypeToIcebergType (valueOr change.newValue "string")).map fun type =>
      some (.addColumn change.fieldName type)
  | .drop => .ok (some (.deleteColumn change.fieldName))
  | .rename => .ok (some (.renameColumn (valueOr change.oldValue change.fieldName)
      (valueOr change.newValue change.fieldName)))
  | .widenType | .narrowType => (dtypeToIcebergType (valueOr change.newValue "string")).map fun type =>
      some (.updateColumn change.fieldName type)
  | .nullabilityRelaxed => .ok (some (.setColumnOptional change.fieldName))
  | .nullabilityTightened => .ok (some (.setColumnRequired change.fieldName))
  | .reorder => .ok none

/-- The round of the loop for one change; `applied` lists what has been applied. -/
def applyChange (updates : SchemaUpdates) (s : UpdateState × List String) (change : SchemaChange) :
    Except String (UpdateState × List String) := do
  match ← change.operation with
  | none => return s
  | some op =>
    let next ← s.1.call updates op
    return (next, s.2 ++ [change.changeType.value ++ ":" ++ change.fieldName])

def runPlan (updates : SchemaUpdates) (schema : IcebergSchema) (plan : SchemaMigrationPlan) :
    Except String (IcebergSchema × List String) := do
  let (s, applied) ← plan.changes.foldlM (applyChange updates) (UpdateState.start schema, [])
  let migrated ← s.commit updates
  return (migrated, applied)

/-- `apply_plan`: its result, the list of applied changes, and the schema of the table afterwards. -/
def applyPlan (updates : SchemaUpdates) (schema : IcebergSchema) (plan : SchemaMigrationPlan) (approved : Bool) :
    Except String (List String) × IcebergSchema :=
  if plan.requiresApproval && !approved then
    (.error ("Plan for " ++ plan.tableName ++ " contains breaking changes and requires approval."), schema)
  else match runPlan updates schema plan with
  | .error error => (.error error, schema)
  | .ok (migrated, applied) => (.ok applied, migrated)

variable {updates : SchemaUpdates} {name : String}

theorem applyPlan_error {schema : IcebergSchema} {plan : SchemaMigrationPlan} {approved : Bool} {error : String}
    (h : (applyPlan updates schema plan approved).1 = .error error) :
    (applyPlan updates schema plan approved).2 = schema := by
  unfold applyPlan at h ⊢
  split
  · rfl
  next hneed =>
  rw [if_neg hneed] at h
  split
  · rfl
  next hrun =>
  rw [hrun] at h
  cases h

/-! ### What the calls of an update do -/

def touches (name : String) : List UpdateOperation → Column → Option Column
  | [], c => some c
  | op :: ops, c => if op.target = some name then (op.touch c).bind (touches name ops) else touches name ops c

theorem touches_append (name : String) (ops ops' : List UpdateOperation) (c : Column) :
    touches name (ops ++ ops') c = (touches name ops c).bind (touches name ops') := by
  induction ops generalizing c with
  | nil => rfl
  | cons op ops ih =>
    rw [List.cons_append, touches, touches]
    split
    · rw [Option.bind_assoc]
      exact congrArg _ (funext ih)
    · exact ih c

theorem touches_of_ne {ops : List UpdateOperation} (h : ∀ op ∈ ops, op.target ≠ some name) (c : Column) :
    touches name ops c = some c := by
  induction ops with
  | nil => rfl
  | cons op ops ih =>
    obtain ⟨hop, hops⟩ := List.forall_mem_cons.1 h
    rw [touches, if_neg hop, ih hops]

theorem touches_singleton {op : UpdateOperation} (h : op.target = some name) (c : Column) :
    touches name [op] c = op.touch c := by
  rw [touches, if_pos h]
  cases op.touch c <;> rfl

theorem touches_flatMap {α : Type} {l : List α} {f : α → List UpdateOperation} {a : α} (hl : l.Nodup) (ha : a ∈ l)
    (hother : ∀ b ∈ l, b ≠ a → ∀ op ∈ f b, op.target ≠ some name) (c : Column) :
    touches name (l.flatMap f) c = touches name (f a) c := by
  obtain ⟨before, after, rfl⟩ := List.append_of_mem ha
  have hne := List.nodup_middle.1 hl
  have hnotMem := (List.nodup_cons.1 hne).1
  have hbefore : ∀ op ∈ before.flatMap f, op.target ≠ some name := by
    intro op hop
    obtain ⟨b, hb, hop⟩ := List.mem_flatMap.1 hop
    exact hother b (List.mem_append_left _ hb) (fun heq => hnotMem (heq ▸ List.mem_append_left _ hb)) op hop
  have hafter : ∀ op ∈ after.flatMap f, op.target ≠ some name := by
    intro op hop
    obtain ⟨b, hb, hop⟩ := List.mem_flatMap.1 hop
    exact hother b (List.mem_append_right _ (List.mem_cons_of_mem _ hb))
      (fun heq => hnotMem (heq ▸ List.mem_append_right _ hb)) op hop
  rw [List.flatMap_append, List.flatMap_cons, touches_append, touches_of_ne hbefore, Option.bind_some,
    touches_append]
  cases touches name (f a) c with
  | none => rfl
  | some c' => exact touches_of_ne hafter c'

theorem touches_name {ops : List UpdateOperation}
    (h : ∀ op ∈ ops, op.target = some name → ∀ c c', op.touch c = some c' → c'.name = c.name) {c c' : Column}
    (htouches : touches name ops c = some c') : c'.name = c.name := by
  induction ops generalizing c with
  | nil => rw [Option.some.inj htouches]
  | cons op ops ih =>
    obtain ⟨hop, hops⟩ := List.forall_mem_cons.1 h
    rw [touches] at htouches
    split at htouches
    next htarget =>
      obtain ⟨middle, hmiddle, hrest⟩ := Option.bind_eq_some_iff.1 htouches
      rw [ih hops hrest, hop htarget c middle hmiddle]
    · exact ih hops htouches

theorem call_eq_ok {s s' : UpdateState} {op : UpdateOperation} (h : s.call updates op = .ok s') :
    (∀ path, op.target = some path → path ∈ s.columns.map Prod.fst) ∧
      s'.columns = s.columns.filterMap (fun e => (touches e.1 [op] e.2).map fun c => (e.1, c)) ∧
      s'.added = s.added ++ op.addedColumn.toList := by
  have hchange : ∀ {path : String}, op.target = some path → op.addedColumn = none →
      ({ s with calls := s.calls ++ [op] } : UpdateState).change path op.touch = .ok s' →
      (∀ path, op.target = some path → path ∈ s.columns.map Prod.fst) ∧
        s'.columns = s.columns.filterMap (fun e => (touches e.1 [op] e.2).map fun c => (e.1, c)) ∧
        s'.added = s.added ++ op.addedColumn.toList := by
    intro path htarget hadded hchange
    unfold UpdateState.change at hchange
    split at hchange
    next hmem =>
      obtain rfl := Except.ok.inj hchange
      refine ⟨fun path' hpath' => ?_, ?_, ?_⟩
      · rw [← Option.some.inj (htarget.symm.trans hpath')]
        exact hmem
      · refine List.filterMap_congr fun e _ => ?_
        show (if e.1 = path then (op.touch e.2).map fun c => (e.1, c) else some e) = _
        rw [touches, htarget]
        by_cases heq : e.1 = path
        · rw [if_pos heq, if_pos (congrArg some heq.symm)]
          cases op.touch e.2 <;> rfl
        · rw [if_neg heq, if_neg fun h => heq (Option.some.inj h).symm]
          rfl
      · rw [hadded]
        exact (List.append_nil _).symm
    · cases hchange
  unfold UpdateState.call at h
  split at h
  · cases h
  cases op with
  | addColumn path fieldType =>
    dsimp only at h
    split at h
    · cases h
    · obtain rfl := Except.ok.inj h
      refine ⟨fun _ hpath => (by cases hpath), ?_, (by rfl)⟩
      have hsame : (fun e : String × Column =>
          (touches e.1 [UpdateOperation.addColumn path fieldType] e.2).map fun c => (e.1, c)) = some := rfl
      rw [hsame, List.filterMap_some]
  | deleteColumn path => exact hchange rfl rfl h
  | renameColumn path newName => exact hchange rfl rfl h
  | updateColumn path fieldType => exact hchange rfl rfl h
  | setColumnOptional path => exact hchange rfl rfl h
  | setColumnRequired path => exact hchange rfl rfl h

/-- The call a change makes, if it makes one. -/
def SchemaChange.performed (change : SchemaChange) : Option UpdateOperation :=
  match change.operation with
  | .ok op => op
  | .error _ => none

def operationsOf (changes : List SchemaChange) : List UpdateOperation := changes.filterMap SchemaChange.performed

theorem operationsOf_append (changes changes' : List SchemaChange) :
    operationsOf (changes ++ changes') = operationsOf changes ++ operationsOf changes' :=
  List.filterMap_append

theorem operationsOf_flatMap {α : Type} (l : List α) (f : α → List SchemaChange) :
    operationsOf (l.flatMap f) = l.flatMap fun a => operationsOf (f a) :=
  List.filterMap_flatMap

theorem runChanges_eq_ok {changes : List SchemaChange} {s s' : UpdateState} {applied applied' : List String}
    (h : changes.foldlM (applyChange updates) (s, applied) = .ok (s', applied')) :
    (∀ change ∈ changes, ∃ op, change.operation = .ok op) ∧
      (∀ op ∈ operationsOf changes, ∀ path, op.target = some path → path ∈ s.columns.map Prod.fst) ∧
      s'.columns = s.columns.filterMap (fun e => (touches e.1 (operationsOf changes) e.2).map fun c => (e.1, c)) ∧
      s'.added = s.added ++ (operationsOf changes).filterMap UpdateOperation.addedColumn := by
  induction changes generalizing s applied with
  | nil =>
    obtain ⟨rfl, -⟩ := Prod.mk.inj (Except.ok.inj h)
    refine ⟨fun _ h => absurd h List.not_mem_nil, fun _ h => absurd h List.not_mem_nil, ?_, ?_⟩
    · exact (List.filterMap_some).symm
    · exact (List.append_nil _).symm
  | cons change changes ih =>
    rw [List.foldlM_cons] at h
    obtain ⟨⟨middle, appliedMiddle⟩, hchange, hrest⟩ := bind_eq_ok.1 h
    obtain ⟨op, hoperation, hop⟩ := bind_eq_ok.1 hchange
    obtain ⟨hall, htargets, hcolumns, hadded⟩ := ih hrest
    have hperformed : change.performed = op := by rw [SchemaChange.performed, hoperation]
    refine ⟨List.forall_mem_cons.2 ⟨⟨op, hoperation⟩, hall⟩, ?_⟩
    cases op with
    | none =>
      obtain ⟨rfl, -⟩ := Prod.mk.inj (Except.ok.inj hop)
      have hoperations : operationsOf (change :: changes) = operationsOf changes :=
        List.filterMap_cons_none hperformed
      rw [hoperations]
      exact ⟨htargets, hcolumns, hadded⟩
    | some op =>
      obtain ⟨next, hcall, hnext⟩ := bind_eq_ok.1 hop
      obtain ⟨rfl, -⟩ := Prod.mk.inj (Except.ok.inj hnext)
      have hoperations : operationsOf (change :: changes) = op :: operationsOf changes :=
        List.filterMap_cons_some hperformed
      obtain ⟨htarget, hcolumns', hadded'⟩ := call_eq_ok hcall
      have hsub : ∀ path ∈ next.columns.map Prod.fst, path ∈ s.columns.map Prod.fst := by
        intro path hpath
        obtain ⟨e, he, rfl⟩ := List.mem_map.1 hpath
        rw [hcolumns'] at he
        obtain ⟨e', he', hmap⟩ := List.mem_filterMap.1 he
        obtain ⟨c, -, rfl⟩ := Option.map_eq_some_iff.1 hmap
        exact List.mem_map.2 ⟨e', he', rfl⟩
      rw [hoperations]
      refine ⟨?_, ?_, ?_⟩
      · exact List.forall_mem_cons.2 ⟨htarget, fun op' hop' path hpath => hsub path (htargets op' hop' path hpath)⟩
      · rw [hcolumns, hcolumns', List.filterMap_filterMap]
        refine List.filterMap_congr fun e _ => ?_
        show _ = (touches e.1 ([op] ++ operationsOf changes) e.2).map _
        rw [touches_append]
        cases touches e.1 [op] e.2 <;> rfl
      · rw [hadded, hadded', List.append_assoc]
        congr 1
        cases hcolumn : op.addedColumn <;> simp [hcolumn]

theorem runPlan_eq_ok {schema migrated : IcebergSchema} {plan : SchemaMigrationPlan} {applied : List String}
    (h : runPlan updates schema plan = .ok (migrated, applied)) :
    (∀ change ∈ plan.changes, ∃ op, change.operation = .ok op) ∧
      (∀ op ∈ operationsOf plan.changes, ∀ path, op.target = some path → path ∈ schema.columns.map Column.name) ∧
      ∀ c, c ∈ migrated.columns ↔
        (∃ original ∈ schema.columns, touches original.name (operationsOf plan.changes) original = some c) ∨
          ∃ op ∈ operationsOf plan.changes, op.addedColumn = some c := by
  obtain ⟨⟨s, applied'⟩, hrun, h⟩ := bind_eq_ok.1 h
  obtain ⟨migrated', hcommit, h⟩ := bind_eq_ok.1 h
  obtain ⟨rfl, -⟩ := Prod.mk.inj (Except.ok.inj h)
  obtain ⟨hall, htargets, hcolumns, hadded⟩ := runChanges_eq_ok hrun
  have hnames : (UpdateState.start schema).columns.map Prod.fst = schema.columns.map Column.name := by
    show (schema.columns.map fun c => (c.name, c)).map Prod.fst = _
    rw [List.map_map]
    rfl
  rw [hnames] at htargets
  refine ⟨hall, htargets, fun c => ?_⟩
  have hmigrated : migrated'.columns = s.columns.map Prod.snd ++ s.added := by
    unfold UpdateState.commit at hcommit
    dsimp only at hcommit
    split at hcommit
    · cases hcommit
    split at hcommit
    · obtain rfl := Except.ok.inj hcommit
      rfl
    · cases hcommit
  rw [hmigrated, hcolumns, hadded]
  show c ∈ _ ++ ([] ++ _) ↔ _
  rw [List.nil_append, List.mem_append, List.mem_filterMap]
  refine or_congr ?_ Iff.rfl
  show c ∈ List.map Prod.snd (List.filterMap _ (schema.columns.map fun c => (c.name, c))) ↔ _
  rw [List.filterMap_map, List.mem_map]
  constructor
  · rintro ⟨e, he, rfl⟩
    obtain ⟨original, horiginal, hmap⟩ := List.mem_filterMap.1 he
    obtain ⟨c, hc, rfl⟩ := Option.map_eq_some_iff.1 hmap
    exact ⟨original, horiginal, hc⟩
  · rintro ⟨original, horiginal, hc⟩
    exact ⟨(original.name, c), List.mem_filterMap.2 ⟨original, horiginal, Option.map_eq_some_iff.2 ⟨c, hc, rfl⟩⟩, rfl⟩

end Phlo.SchemaMigration
