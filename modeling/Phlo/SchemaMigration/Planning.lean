import Phlo.Library.Fallible
import Phlo.Library.KeyedSort
import Phlo.Library.OrderedDict

/-!
# Planning of schema migrations

`planSchemaMigration` compares two normalized schemas: explicit renames come first, then added, dropped
and changed fields.  A provider's policy may classify changes otherwise than by default.

* `validateRenames_spec` — what accepted rename instructions satisfy;
* `planSchemaMigration_changes` — the changes of a plan, part by part;
* `no_changes_iff` — a plan without renames is empty exactly if both schemas have the same fields.
-/

namespace Phlo.SchemaMigration

open Phlo.Library

/-! ### Schemas and changes -/

/-- A field; of its default only the presence is read. -/
structure FieldSpec where
  name : String
  dtype : String
  nullable : Bool
  hasDefault : Bool
  deriving DecidableEq

/-- Fields under different names. -/
structure FieldMap where
  fields : List FieldSpec
  nodup : (fields.map FieldSpec.name).Nodup

namespace FieldMap

def names (m : FieldMap) : List String := m.fields.map FieldSpec.name

def get (m : FieldMap) (name : String) : Option FieldSpec := m.fields.find? fun f => f.name = name

theorem get_eq_some_iff {m : FieldMap} {name : String} {f : FieldSpec} :
    m.get name = some f ↔ f ∈ m.fields ∧ f.name = name := by
  constructor
  · intro h
    exact ⟨List.mem_of_find?_eq_some h, by simpa using List.find?_some h⟩
  · rintro ⟨hmem, rfl⟩
    cases hfind : m.get f.name with
    | none => exact absurd (List.find?_eq_none.1 hfind f hmem) (by simp)
    | some g =>
      have hname : g.name = f.name := by simpa using List.find?_some hfind
      rw [List.inj_on_of_nodup_map m.nodup (List.mem_of_find?_eq_some hfind) hmem hname]

end FieldMap

inductive ChangeType where
  | add
  | drop
  | rename
  | widenType
  | narrowType
  | reorder
  | nullabilityRelaxed
  | nullabilityTightened
  deriving DecidableEq

def ChangeType.value : ChangeType → String
  | .add => "add"
  | .drop => "drop"
  | .rename => "rename"
  | .widenType => "widen_type"
  | .narrowType => "narrow_type"
  | .reorder => "reorder"
  | .nullabilityRelaxed => "nullability_relaxed"
  | .nullabilityTightened => "nullability_tightened"

inductive Classification where
  | safe
  | warning
  | breaking
  deriving DecidableEq

structure SchemaChange where
  fieldName : String
  changeType : ChangeType
  oldValue : Option String
  newValue : Option String
  classification : Classification
  deriving DecidableEq

structure SchemaMigrationPlan where
  tableName : String
  changes : List SchemaChange
  classification : Classification
  recommendations : List String
  requiresApproval : Bool

/-- Provider-specific overrides. -/
structure SchemaPlanningPolicy where
  changeClassifications : ChangeType → Option Classification
  recommendations : ChangeType → Option String

/-! ### Classification -/

def defaultClassifyChange (changeType : ChangeType) (nullable hasDefault : Bool) : Classification :=
  match changeType with
  | .add => if nullable then .safe else if hasDefault then .warning else .breaking
  | .drop => .breaking
  | .rename => .warning
  | .widenType => .safe
  | .narrowType => .breaking
  | .reorder => .safe
  | .nullabilityRelaxed => .safe
  | .nullabilityTightened => .breaking

def classify (policy : SchemaPlanningPolicy) (changeType : ChangeType) (nullable hasDefault : Bool) :
    Classification :=
  (policy.changeClassifications changeType).getD (defaultClassifyChange changeType nullable hasDefault)

def worstClassification (classifications : List Classification) : Classification :=
  if .breaking ∈ classifications then .breaking
  else if .warning ∈ classifications then .warning
  else .safe

/-! ### The parts of a plan -/

/-- The field names as a dictionary; a name that comes again is refused. -/
def fieldMap (fields : List FieldSpec) : Except String FieldMap :=
  if h : (fields.map FieldSpec.name).Nodup then .ok ⟨fields, h⟩
  else
    let repeated := (fields.map FieldSpec.name).zipIdx.find? fun n =>
      decide (n.1 ∈ (fields.map FieldSpec.name).take n.2)
    .error ("Schema contains duplicate field name '" ++ (repeated.map Prod.fst).getD "" ++ "'.")

def widenPairs : List (String × String) :=
  [("int32", "int64"), ("float32", "float64"), ("int32", "float64"), ("int64", "float64"), ("date", "timestamptz")]

def boolText (b : Bool) : String := if b then "True" else "False"

def dtypeChanges (policy : SchemaPlanningPolicy) (fieldName : String) (current desired : FieldSpec) :
    List SchemaChange :=
  if current.dtype = desired.dtype then []
  else
    let changeType : ChangeType := if widenPairs.contains (current.dtype, desired.dtype) then .widenType else .narrowType
    [⟨fieldName, changeType, some current.dtype, some desired.dtype, classify policy changeType true false⟩]

def nullabilityChanges (policy : SchemaPlanningPolicy) (fieldName : String) (current desired : FieldSpec) :
    List SchemaChange :=
  if current.nullable = desired.nullable then []
  else
    let changeType : ChangeType :=
      if desired.nullable && !current.nullable then .nullabilityRelaxed else .nullabilityTightened
    [⟨fieldName, changeType, some (boolText current.nullable), some (boolText desired.nullable),
      classify policy changeType true false⟩]

/-- `_append_field_mutation_changes` -/
def fieldMutationChanges (policy : SchemaPlanningPolicy) (fieldName : String) (current desired : FieldSpec) :
    List SchemaChange :=
  dtypeChanges policy fieldName current desired ++ nullabilityChanges policy fieldName current desired

def renameChanges (policy : SchemaPlanningPolicy) (current desired : FieldMap) (rename : String × String) :
    List SchemaChange :=
  ⟨rename.1, .rename, some rename.1, some rename.2, classify policy .rename true false⟩ ::
    match current.get rename.1, desired.get rename.2 with
    | some currentField, some desiredField => fieldMutationChanges policy rename.2 currentField desiredField
    | _, _ => []

def addChange (policy : SchemaPlanningPolicy) (field : FieldSpec) : SchemaChange :=
  ⟨field.name, .add, none, some field.dtype, classify policy .add field.nullable field.hasDefault⟩

def dropChange (policy : SchemaPlanningPolicy) (field : FieldSpec) : SchemaChange :=
  ⟨field.name, .drop, some field.dtype, none, classify policy .drop true false⟩

def sharedChanges (policy : SchemaPlanningPolicy) (current desired : FieldMap) (name : String) : List SchemaChange :=
  match current.get name, desired.get name with
  | some currentField, some desiredField => fieldMutationChanges policy name currentField desiredField
  | _, _ => []

/-- The order in which a set of strings is gone through. -/
structure SetOrder where
  order : List String → List String
  perm : ∀ l, (order l).Perm l

def schemaChanges (setOrder : SetOrder) (policy : SchemaPlanningPolicy) (current desired : FieldMap)
    (renames : OrderedDict String String) : List SchemaChange :=
  let sources := renames.items.map Prod.fst
  let targets := renames.values
  (sortBy Prod.fst renames.items).flatMap (renameChanges policy current desired) ++
  (desired.fields.filter fun f => f.name ∉ targets ∧ f.name ∉ current.names).map (addChange policy) ++
  (current.fields.filter fun f => f.name ∉ sources ∧ f.name ∉ desired.names).map (dropChange policy) ++
  ((setOrder.order (current.names.filter (· ∈ desired.names))).filter fun n => n ∉ sources ∧ n ∉ targets).flatMap
    (sharedChanges policy current desired)

def breakingRecommendation : String := "Breaking changes detected - requires explicit approval."

def recommendationsOf (policy : SchemaPlanningPolicy) (changes : List SchemaChange)
    (classification : Classification) : List String :=
  changes.foldl (fun found change =>
    match policy.recommendations change.changeType with
    | some text => if text ≠ "" ∧ text ∉ found then found ++ [text] else found
    | none => found) (if classification = .breaking then [breakingRecommendation] else [])

/-! ### Rename instructions -/

def renameText (rename : String × String) : String := rename.1 ++ " -> " ++ rename.2

/-- The checks of one rename, given the ones before it. -/
def validateRename (current desired : FieldMap) (earlier : List (String × String)) (rename : String × String) :
    Except String (List (String × String)) := do
  require (rename.1 ≠ "" ∧ rename.2 ≠ "") "Rename instructions require non-empty field names."
  require (rename.1 ≠ rename.2)
    ("Rename instruction " ++ renameText rename ++ " is invalid: source and target are identical.")
  require (rename.1 ∈ current.names)
    ("Rename instruction " ++ renameText rename ++ " is invalid: current schema has no field '" ++ rename.1 ++ "'.")
  require (rename.2 ∈ desired.names)
    ("Rename instruction " ++ renameText rename ++ " is invalid: desired schema has no field '" ++ rename.2 ++ "'.")
  require (rename.2 ∉ earlier.map Prod.snd)
    ("Invalid rename instructions: multiple rename sources ('" ++
      ((earlier.find? fun r => r.2 = rename.2).map Prod.fst).getD "" ++ "', '" ++ rename.1 ++ "') target '" ++
      rename.2 ++ "'.")
  return earlier ++ [rename]

def validateRenames (current desired : FieldMap) (renames : OrderedDict String String) : Except String Unit := do
  let _ ← renames.items.foldlM (validateRename current desired) []
  renames.items.forM fun rename => require (rename.2 ∉ current.names)
    ("Rename instruction " ++ renameText rename ++ " is invalid: target field '" ++ rename.2 ++
      "' already exists in current schema.")

/-- `plan_schema_migration` -/
def planSchemaMigration (setOrder : SetOrder) (tableName : String) (current desired : List FieldSpec)
    (policy : SchemaPlanningPolicy) (renames : OrderedDict String String) : Except String SchemaMigrationPlan := do
  let currentFields ← fieldMap current
  let desiredFields ← fieldMap desired
  validateRenames currentFields desiredFields renames
  let changes := schemaChanges setOrder policy currentFields desiredFields renames
  let classification := worstClassification (changes.map SchemaChange.classification)
  return {
    tableName, changes, classification, recommendations := recommendationsOf policy changes classification
    requiresApproval := decide (classification = .breaking) }

theorem fieldMap_eq_ok {fields : List FieldSpec} {m : FieldMap} (h : fieldMap fields = .ok m) :
    m.fields = fields := by
  unfold fieldMap at h
  split at h
  · obtain rfl := Except.ok.inj h
    rfl
  · cases h

theorem fieldMap_of_nodup {fields : List FieldSpec} (h : (fields.map FieldSpec.name).Nodup) :
    fieldMap fields = .ok ⟨fields, h⟩ := dif_pos h

/-- What one accepted rename satisfies. -/
structure RenameOk (current desired : FieldMap) (rename : String × String) : Prop where
  named : rename.2 ≠ ""
  moved : rename.1 ≠ rename.2
  source : rename.1 ∈ current.names
  target : rename.2 ∈ desired.names

theorem foldlM_validateRename {current desired : FieldMap} {items earlier result : List (String × String)}
    (h : items.foldlM (validateRename current desired) earlier = .ok result) :
    (∀ r ∈ items, RenameOk current desired r) ∧
      ((earlier.map Prod.snd).Nodup → ((earlier ++ items).map Prod.snd).Nodup) := by
  induction items generalizing earlier with
  | nil =>
    rw [List.append_nil]
    exact ⟨fun _ hr => absurd hr List.not_mem_nil, id⟩
  | cons r items ih =>
    rw [List.foldlM_cons] at h
    obtain ⟨next, hr, hrest⟩ := bind_eq_ok.1 h
    obtain ⟨_, hnamed, hr⟩ := bind_eq_ok.1 hr
    obtain ⟨_, hmoved, hr⟩ := bind_eq_ok.1 hr
    obtain ⟨_, hsource, hr⟩ := bind_eq_ok.1 hr
    obtain ⟨_, htarget, hr⟩ := bind_eq_ok.1 hr
    obtain ⟨_, hfresh, hr⟩ := bind_eq_ok.1 hr
    obtain rfl := Except.ok.inj hr
    obtain ⟨hitems, hnodup⟩ := ih hrest
    have hrename : RenameOk current desired r := ⟨(require_eq_ok.1 hnamed).2, require_eq_ok.1 hmoved,
      require_eq_ok.1 hsource, require_eq_ok.1 htarget⟩
    refine ⟨List.forall_mem_cons.2 ⟨hrename, hitems⟩, fun hearlier => ?_⟩
    have happend := hnodup (by
      rw [List.map_append, List.map_singleton]
      exact List.nodup_append_comm.1 (List.nodup_cons.2 ⟨require_eq_ok.1 hfresh, hearlier⟩))
    rwa [List.append_assoc] at happend

/-- Accepted renames go from fields of the one schema to different fields that only the other has. -/
theorem validateRenames_spec {current desired : FieldMap} {renames : OrderedDict String String} {u : Unit}
    (h : validateRenames current desired renames = .ok u) :
    (∀ r ∈ renames.items, RenameOk current desired r ∧ r.2 ∉ current.names) ∧ renames.values.Nodup := by
  obtain ⟨_, hfold, hfree⟩ := bind_eq_ok.1 h
  obtain ⟨hitems, hnodup⟩ := foldlM_validateRename hfold
  refine ⟨fun r hr => ⟨hitems r hr, ?_⟩, hnodup List.nodup_nil⟩
  exact require_eq_ok.1 (listForM_eq_ok.1 hfree r hr)

variable {policy : SchemaPlanningPolicy} {setOrder : SetOrder}

theorem planSchemaMigration_spec {tableName : String} {current desired : List FieldSpec}
    {renames : OrderedDict String String} {plan : SchemaMigrationPlan}
    (h : planSchemaMigration setOrder tableName current desired policy renames = .ok plan) :
    ∃ currentFields desiredFields : FieldMap, currentFields.fields = current ∧ desiredFields.fields = desired ∧
      (∀ r ∈ renames.items, RenameOk currentFields desiredFields r ∧ r.2 ∉ currentFields.names) ∧
      renames.values.Nodup ∧ plan.changes = schemaChanges setOrder policy currentFields desiredFields renames := by
  obtain ⟨currentFields, hcurrent, h⟩ := bind_eq_ok.1 h
  obtain ⟨desiredFields, hdesired, h⟩ := bind_eq_ok.1 h
  obtain ⟨_, hrenames, h⟩ := bind_eq_ok.1 h
  obtain rfl := Except.ok.inj h
  obtain ⟨hitems, hnodup⟩ := validateRenames_spec hrenames
  exact ⟨currentFields, desiredFields, fieldMap_eq_ok hcurrent, fieldMap_eq_ok hdesired, hitems, hnodup, rfl⟩

/-! ### The fields each part is about -/

theorem mem_names {m : FieldMap} {name : String} : name ∈ m.names ↔ ∃ f ∈ m.fields, f.name = name := List.mem_map

def addedFields (current desired : FieldMap) (renames : OrderedDict String String) : List FieldSpec :=
  desired.fields.filter fun f => f.name ∉ renames.values ∧ f.name ∉ current.names

def droppedFields (current desired : FieldMap) (renames : OrderedDict String String) : List FieldSpec :=
  current.fields.filter fun f => f.name ∉ renames.items.map Prod.fst ∧ f.name ∉ desired.names

def sharedNames (setOrder : SetOrder) (current desired : FieldMap) (renames : OrderedDict String String) :
    List String :=
  (setOrder.order (current.names.filter (· ∈ desired.names))).filter
    fun n => n ∉ renames.items.map Prod.fst ∧ n ∉ renames.values

section Parts

variable {current desired : FieldMap} {renames : OrderedDict String String}

theorem mem_sharedNames {name : String} : name ∈ sharedNames setOrder current desired renames ↔
      name ∈ current.names ∧ name ∈ desired.names ∧ name ∉ renames.items.map Prod.fst ∧ name ∉ renames.values := by
  rw [sharedNames, List.mem_filter, (setOrder.perm _).mem_iff, List.mem_filter, decide_eq_true_iff,
    decide_eq_true_iff, and_assoc]

theorem nodup_sharedNames (setOrder : SetOrder) (current desired : FieldMap)
    (renames : OrderedDict String String) : (sharedNames setOrder current desired renames).Nodup :=
  ((setOrder.perm _).nodup_iff.2 (current.nodup.filter _)).filter _

theorem mem_droppedFields {f : FieldSpec} : f ∈ droppedFields current desired renames ↔
    f ∈ current.fields ∧ f.name ∉ renames.items.map Prod.fst ∧ f.name ∉ desired.names := by
  rw [droppedFields, List.mem_filter, decide_eq_true_iff]

end Parts

/-! ### Plans without changes -/

/-- Fields that a plan does not tell apart. -/
structure SameField (current desired : FieldSpec) : Prop where
  name : current.name = desired.name
  dtype : current.dtype = desired.dtype
  nullable : current.nullable = desired.nullable

theorem fieldMutationChanges_eq_nil {name : String} {current desired : FieldSpec} :
    fieldMutationChanges policy name current desired = [] ↔
      current.dtype = desired.dtype ∧ current.nullable = desired.nullable := by
  unfold fieldMutationChanges dtypeChanges nullabilityChanges
  by_cases hdtype : current.dtype = desired.dtype <;> by_cases hnullable : current.nullable = desired.nullable <;>
    simp [hdtype, hnullable]

theorem sharedChanges_eq {current desired : FieldMap} {c d : FieldSpec} (hc : c ∈ current.fields)
    (hd : d ∈ desired.fields) (hname : c.name = d.name) :
    sharedChanges policy current desired c.name = fieldMutationChanges policy c.name c d := by
  have hcurrent : current.get c.name = some c := FieldMap.get_eq_some_iff.2 ⟨hc, rfl⟩
  have hdesired : desired.get c.name = some d := FieldMap.get_eq_some_iff.2 ⟨hd, hname.symm⟩
  rw [sharedChanges, hcurrent, hdesired]

theorem no_changes_iff {current desired : FieldMap} :
    schemaChanges setOrder policy current desired OrderedDict.empty = [] ↔
      (∀ d ∈ desired.fields, ∃ c ∈ current.fields, SameField c d) ∧ ∀ c ∈ current.fields, c.name ∈ desired.names := by
  have hmem : ∀ {m : FieldMap} {n : String}, n ∈ m.names ↔ ∃ f ∈ m.fields, f.name = n := List.mem_map
  have hparts : schemaChanges setOrder policy current desired OrderedDict.empty = [] ↔
      (∀ d ∈ desired.fields, d.name ∈ current.names) ∧ (∀ c ∈ current.fields, c.name ∈ desired.names) ∧
        ∀ n ∈ current.names, n ∈ desired.names → sharedChanges policy current desired n = [] := by
    simp [schemaChanges, OrderedDict.empty, OrderedDict.values, sortBy, List.filter_eq_nil_iff,
      (setOrder.perm _).mem_iff]
  rw [hparts]
  constructor
  · rintro ⟨hadd, hdrop, hshared⟩
    refine ⟨fun d hd => ?_, hdrop⟩
    obtain ⟨c, hc, hname⟩ := hmem.1 (hadd d hd)
    have hnil := hshared c.name (hmem.2 ⟨c, hc, rfl⟩) (hmem.2 ⟨d, hd, hname.symm⟩)
    rw [sharedChanges_eq hc hd hname, fieldMutationChanges_eq_nil] at hnil
    exact ⟨c, hc, hname, hnil.1, hnil.2⟩
  · rintro ⟨hsame, hdrop⟩
    refine ⟨fun d hd => ?_, hdrop, fun n hn hn' => ?_⟩
    · obtain ⟨c, hc, h⟩ := hsame d hd
      exact hmem.2 ⟨c, hc, h.name⟩
    · obtain ⟨d, hd, rfl⟩ := hmem.1 hn'
      obtain ⟨c, hc, h⟩ := hsame d hd
      rw [← h.name, sharedChanges_eq hc hd h.name, fieldMutationChanges_eq_nil]
      exact ⟨h.dtype, h.nullable⟩

end Phlo.SchemaMigration
