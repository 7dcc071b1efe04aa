import Phlo.Iceberg.SchemaAlignment
import Phlo.Library.Interleaving
import Phlo.Library.KeyedSort
import Phlo.Library.OrderedDict
import Phlo.Library.Versions

/-!
# Immutable history writes

`history_to_table` as a program over a catalog: it loads the table, scans the loaded snapshot and commits
on top of it.  A table is its published versions; the number of a version names its snapshot, since every
commit made here appends rows.  A commit succeeds when the version it was prepared on is still the newest
one, and is refused otherwise; its answer may also be lost (`CommitFault`).

* `balancedOr_matches` — the balanced tree of terms matches what one of the terms matches.
-/

namespace Phlo.Iceberg

open Phlo.Library
open Phlo.Library.Program (perform)

/-! ### Policies -/

structure HistoryPolicy where
  entityKey : String
  versionKey : String
  payloadColumns : Option (List String) := none
  payloadHashColumn : Option String := none
  deriving DecidableEq

namespace HistoryPolicy

/-- `self.payload_columns or (str(self.payload_hash_column),)` -/
def comparisonColumns (p : HistoryPolicy) : List String :=
  match p.payloadColumns with
  | some (column :: columns) => column :: columns
  | _ => [p.payloadHashColumn.getD "None"]

def hashColumn (p : HistoryPolicy) : Option String := p.payloadHashColumn.filter fun name => name ≠ ""

/-- `(row[policy.entity_key], row[policy.version_key])` -/
def identity (p : HistoryPolicy) (row : Row) : Value × Value := (row p.entityKey, row p.versionKey)

def payload (p : HistoryPolicy) (row : Row) : List Value := p.comparisonColumns.map row

end HistoryPolicy

/-- What the fingerprint of a policy says of a column. -/
structure FieldRef where
  name : String
  id : ℕ
  type : ArrowType
  deriving DecidableEq

/-- What the canonical JSON text of a policy spells out. -/
structure PolicyDefinition where
  entityKey : FieldRef
  versionKey : FieldRef
  payloadColumns : List FieldRef
  suppliedHash : Bool
  deriving DecidableEq

/-- A table property; the two of a policy are its text and the digest of the text. -/
inductive Property where
  | definition (d : PolicyDefinition)
  | fingerprint (d : PolicyDefinition)
  | other (text : String)
  deriving DecidableEq

def POLICY_PROPERTY : String := "phlo.history.policy"

def FINGERPRINT_PROPERTY : String := "phlo.history.policy.sha256"

/-- `schema.find_field(name)` -/
def findField (columns : List Column) (name : String) : Except PlainError FieldRef :=
  match columns.find? fun column => column.field.name = name with
  | some column => .ok ⟨name, column.id, column.field.type⟩
  | none => .error (valueError ("Could not find field with name " ++ name ++ ", case_sensitive=True"))

/-- The definition behind `_policy_properties`. -/
def policyDefinition (columns : List Column) (policy : HistoryPolicy) : Except PlainError PolicyDefinition := do
  let entityKey ← findField columns policy.entityKey
  let versionKey ← findField columns policy.versionKey
  let payloadColumns ← policy.comparisonColumns.mapM (findField columns)
  .ok ⟨entityKey, versionKey, payloadColumns, policy.hashColumn.isSome⟩

/-- `_policy_properties` -/
def policyProperties (d : PolicyDefinition) : List (String × Property) :=
  [(POLICY_PROPERTY, .definition d), (FINGERPRINT_PROPERTY, .fingerprint d)]

/-! ### Tables -/

/-- A version of a table; `hasSnapshot` is off while nothing was ever appended to it. -/
structure TableState where
  columns : List Column
  lastColumnId : ℕ
  properties : OrderedDict String Property
  hasSnapshot : Bool
  rows : List Row
  /-- a row has values in the columns of the table only -/
  within : ∀ row ∈ rows, row.restrict (columns.map fun column => column.field.name) = row
  /-- rows are in a snapshot -/
  snapshot : hasSnapshot = false → rows = []

namespace TableState

def columnNames (st : TableState) : List String := st.columns.map fun column => column.field.name

end TableState

/-- What a transaction stages: columns, properties and rows. -/
structure Change where
  added : List Column
  properties : List (String × Property)
  rows : List Row

theorem restrict_append_left {names more : List String} {row : Row} (h : row.restrict names = row) :
    row.restrict (names ++ more) = row := by
  funext name
  by_cases hname : name ∈ names
  · exact Row.restrict_of_mem row (List.mem_append_left more hname)
  · have hnull : row name = .null := by
      rw [← h]
      exact Row.restrict_of_notMem row hname
    by_cases hmore : name ∈ names ++ more
    · exact Row.restrict_of_mem row hmore
    · rw [Row.restrict_of_notMem row hmore, hnull]

def Change.columnNames (st : TableState) (change : Change) : List String :=
  st.columnNames ++ change.added.map fun column => column.field.name

def Change.appended (st : TableState) (change : Change) : List Row :=
  change.rows.map fun row => row.restrict (change.columnNames st)

/-- The version a commit publishes. -/
def TableState.apply (st : TableState) (change : Change) : TableState where
  columns := st.columns ++ change.added
  lastColumnId := (change.added.map Column.id).foldl max st.lastColumnId
  properties := st.properties.setAll change.properties
  hasSnapshot := true
  rows := st.rows ++ change.appended st
  within row hrow := by
    rw [List.map_append]
    obtain hold | hnew := List.mem_append.1 hrow
    · exact restrict_append_left (st.within row hold)
    · obtain ⟨r, -, rfl⟩ := List.mem_map.1 hnew
      exact Row.restrict_restrict _ r
  snapshot h := by cases h

/-! ### Filters -/

inductive Filter where
  | alwaysTrue
  | alwaysFalse
  | equalTo (name : String) (value : Value)
  | and (left right : Filter)
  | or (left right : Filter)

namespace Filter

def matches_ (row : Row) : Filter → Bool
  | alwaysTrue => true
  | alwaysFalse => false
  | equalTo name value => row name = value
  | and left right => left.matches_ row && right.matches_ row
  | or left right => left.matches_ row || right.matches_ row

def columns : Filter → List String
  | equalTo name _ => [name]
  | and left right | or left right => left.columns ++ right.columns
  | _ => []

end Filter

/-- One round of the loop of `_balanced_or`. -/
def mergePairs : List Filter → List Filter
  | left :: right :: rest => .or left right :: mergePairs rest
  | terms => terms

theorem length_mergePairs_le : ∀ terms : List Filter, (mergePairs terms).length ≤ terms.length
  | [] => le_refl 0
  | [_] => le_refl 1
  | _ :: _ :: rest => by
    have hrest := length_mergePairs_le rest
    rw [mergePairs, List.length_cons, List.length_cons, List.length_cons]
    omega

/-- `_balanced_or` -/
def balancedOr : List Filter → Filter
  | [] => .alwaysFalse
  | [term] => term
  | left :: right :: rest => balancedOr (.or left right :: mergePairs rest)
termination_by terms => terms.length
decreasing_by
  have hrest := length_mergePairs_le rest
  rw [List.length_cons, List.length_cons, List.length_cons]
  omega

theorem any_mergePairs (row : Row) : ∀ terms : List Filter,
    (mergePairs terms).any (Filter.matches_ row) = terms.any (Filter.matches_ row)
  | [] => rfl
  | [_] => rfl
  | left :: right :: rest => by
    rw [mergePairs, List.any_cons, List.any_cons, List.any_cons, any_mergePairs row rest,
      ← Bool.or_assoc]
    rfl

theorem balancedOr_matches (row : Row) (terms : List Filter) :
    (balancedOr terms).matches_ row = terms.any (Filter.matches_ row) := by
  induction terms using balancedOr.induct with
  | case1 => rw [balancedOr]; rfl
  | case2 term => rw [balancedOr, List.any_cons, List.any_nil, Bool.or_false]
  | case3 left right rest ih =>
    rw [balancedOr, ih, List.any_cons, any_mergePairs, List.any_cons, List.any_cons, ← Bool.or_assoc]
    rfl

/-! ### The catalog -/

/-- A loaded table: what its metadata says, and the version it is pinned to. -/
structure LoadedTable where
  version : ℕ
  columns : List Column
  lastColumnId : ℕ
  properties : OrderedDict String Property
  hasSnapshot : Bool

inductive CommitAnswer where
  | committed
  /-- `CommitFailedException` -/
  | failed
  /-- any other exception -/
  | unknown
  deriving DecidableEq

/-- What may happen to a commit besides the rule for versions: its answer is lost, whether or not it
was going to land. -/
inductive CommitFault where
  | none
  | lost (landed : Bool)
  deriving DecidableEq

inductive HistoryOp : Type → Type
  | load : HistoryOp LoadedTable
  | scan (version : ℕ) (filter : Filter) (fields : List String) (limit : Option ℕ) :
    HistoryOp (Except PlainError (List Row))
  | commit (version : ℕ) (change : Change) : HistoryOp CommitAnswer

structure HistoryWorld where
  table : Versions TableState
  /-- what will happen to the next commits -/
  faults : List CommitFault

def TableState.scan (st : TableState) (filter : Filter) (fields : List String) (limit : Option ℕ) :
    Except PlainError (List Row) :=
  match filter.columns.find? fun name => name ∉ st.columnNames with
  | some name => .error (valueError ("Could not find field with name " ++ name ++ ", case_sensitive=True"))
  | none =>
    let rows := (st.rows.filter filter.matches_).map (Row.restrict fields)
    .ok (limit.elim rows fun n => rows.take n)

def HistoryWorld.commit (w : HistoryWorld) (version : ℕ) (change : Change) : HistoryWorld × CommitAnswer :=
  let landed : HistoryWorld := ⟨w.table.publish (w.table.current.apply change), w.faults.tail⟩
  let refused : HistoryWorld := ⟨w.table, w.faults.tail⟩
  match w.faults.head?.getD .none with
  | .none => if version = w.table.head then (landed, .committed) else (refused, .failed)
  | .lost lands => if lands ∧ version = w.table.head then (landed, .unknown) else (refused, .unknown)

def TableState.loaded (st : TableState) (version : ℕ) : LoadedTable :=
  ⟨version, st.columns, st.lastColumnId, st.properties, st.hasSnapshot⟩

def HistoryWorld.scan (w : HistoryWorld) (version : ℕ) (filter : Filter) (fields : List String)
    (limit : Option ℕ) : Except PlainError (List Row) :=
  match w.table.at_ version with
  | some st => st.scan filter fields limit
  | none => .error (valueError ("Snapshot not found: " ++ toString version))

def historySemantics : Semantics HistoryOp HistoryWorld where
  exec op w :=
    match op with
    | .load => (w, w.table.current.loaded w.table.head)
    | .scan version filter fields limit => (w, w.scan version filter fields limit)
    | .commit version change => w.commit version change

/-! ### Comparing a batch with a snapshot -/

structure HistoryMetrics where
  rowsInserted : ℕ
  rowsDeleted : ℕ
  rowsSkipped : ℕ
  rowsConflicting : ℕ
  deriving DecidableEq

structure ObservedState where
  conflicting : Bool
  snapshotId : Option ℕ
  versionsPresent : ℕ
  versionsMissing : ℕ
  versionsConflicting : ℕ
  policyBound : Bool
  deriving DecidableEq

/-- What `_reconcile` reads back. -/
inductive Reconciliation where
  | observed (state : ObservedState)
  | unavailable (kind : HistoryErrorKind)
  deriving DecidableEq

inductive HistoryError where
  | plain (e : PlainError)
  | conflict (metrics : HistoryMetrics)
  | commitUnknown (reconciliation : Reconciliation)
  | commitFailed
  | unreachable
  deriving DecidableEq

/-- The values of an identity are neither null nor blank nor infinite, and can be hashed. -/
def validateValue (value : Value) (name : String) (isHash : Bool) : Except PlainError Unit :=
  match value with
  | .null =>
    .error (valueError ("History column '" ++ name ++ "' contains a null or empty identity/hash"))
  | .scalar (.text s) =>
    require (¬s.toList.all Char.isWhitespace)
      (valueError ("History column '" ++ name ++ "' contains a null or empty identity/hash"))
  | .scalar (.bytes b) =>
    require (¬b.all fun c => c = 32 || (9 ≤ c && c ≤ 13))
      (valueError ("History column '" ++ name ++ "' contains a null or empty identity/hash"))
  | .scalar .nan | .scalar (.infinity _) =>
    .error (valueError ("History column '" ++ name ++ "' contains a non-finite identity/hash"))
  | .scalar _ =>
    require (isHash = false)
      (valueError ("History payload hash '" ++ name ++ "' must contain strings or bytes"))
  | .list _ | .dict _ =>
    if isHash then
      .error (valueError ("History payload hash '" ++ name ++ "' must contain strings or bytes"))
    else .error (valueError ("History identity '" ++ name ++ "' must contain scalar values"))

abbrev Identity := Value × Value

/-- The row numbers of each identity, in the order the identities come in. -/
abbrev Groups := OrderedDict Identity (List ℕ)

/-- `groups[key].append(index)` -/
def Groups.append (groups : Groups) (key : Identity) (index : ℕ) : Groups :=
  groups.set key ((groups.get key).getD [] ++ [index])

/-- The checks `_incoming` makes of a row. -/
def validateRow (policy : HistoryPolicy) (row : Row) : Except PlainError Unit := do
  validateValue (row policy.entityKey) policy.entityKey false
  validateValue (row policy.versionKey) policy.versionKey false
  match policy.hashColumn with
  | some name => validateValue (row name) name true
  | none => .ok ()

def groupRows (policy : HistoryPolicy) (rows : List Row) : Groups :=
  rows.zipIdx.foldl (fun groups row => groups.append (policy.identity row.1) row.2) OrderedDict.empty

/-- `_incoming` -/
def incoming (data : ArrowTable) (policy : HistoryPolicy) : Except PlainError Groups := do
  let required := policy.entityKey :: policy.versionKey :: policy.comparisonColumns
  let missing := sortedSet (required.filter fun name => name ∉ data.columnNames)
  require (missing = [])
    (valueError ("History columns missing from source data: " ++ reprNames missing))
  data.rows.forM (validateRow policy)
  .ok (groupRows policy data.rows)

/-- The payloads stored under each identity. -/
abbrev Existing := OrderedDict Identity (List (List Value))

/-- What `_lookup` does with the rows of one scan. -/
def collect (policy : HistoryPolicy) (groups : Groups) (existing : Existing) (rows : List Row) : Existing :=
  rows.foldl
    (fun existing row =>
      let key := policy.identity row
      if (groups.get key).isSome then
        existing.set key ((existing.get key).getD [] ++ [policy.payload row])
      else existing)
    existing

def LOOKUP_FILTER_BATCH : ℕ := 100

/-- `range(0, len(identities), _LOOKUP_FILTER_BATCH)` with the slice from each. -/
def lookupBatches (identities : List Identity) : List (List Identity) :=
  (List.range ((identities.length + (LOOKUP_FILTER_BATCH - 1)) / LOOKUP_FILTER_BATCH)).map fun i =>
    (identities.drop (i * LOOKUP_FILTER_BATCH)).take LOOKUP_FILTER_BATCH

def identityFilter (policy : HistoryPolicy) (identities : List Identity) : Filter :=
  balancedOr (identities.map fun key =>
    .and (.equalTo policy.entityKey key.1) (.equalTo policy.versionKey key.2))

def lookupFields (policy : HistoryPolicy) (table : LoadedTable) : List String :=
  (policy.entityKey :: policy.versionKey :: policy.comparisonColumns).dedup.filter fun name =>
    name ∈ table.columns.map fun column => column.field.name

structure CompareState where
  indices : List ℕ := []
  skipped : ℕ := 0
  conflicting : ℕ := 0

/-- One round of the loop of `_compare`. -/
def compareGroup (policy : HistoryPolicy) (rows : List Row) (existing : Existing) (acc : CompareState)
    (group : Identity × List ℕ) : CompareState :=
  let payloads := group.2.map fun index => policy.payload (rows.getD index fun _ => .null)
  match group.2, payloads with
  | member :: members, payload :: others =>
    let found := existing.get group.1
    if (others ++ found.getD []).any fun other => !equalItems payload other then
      { acc with conflicting := acc.conflicting + group.2.length }
    else if found.isSome then { acc with skipped := acc.skipped + group.2.length }
    else { acc with indices := acc.indices ++ [member], skipped := acc.skipped + members.length }
  | _, _ => acc

/-- `_compare` -/
def compare (policy : HistoryPolicy) (rows : List Row) (groups : List (Identity × List ℕ))
    (existing : Existing) : Except HistoryError (List ℕ × HistoryMetrics) :=
  let acc := groups.foldl (compareGroup policy rows existing) {}
  let metrics : HistoryMetrics := ⟨0, 0, acc.skipped, acc.conflicting⟩
  if acc.conflicting ≠ 0 then .error (.conflict metrics) else .ok (acc.indices, metrics)

/-! ### Programs -/

/-- `_check_policy` -/
def checkPolicy (table : LoadedTable) (d : PolicyDefinition) : Program HistoryOp (Except PlainError Unit) :=
  if (policyProperties d).any fun property => (table.properties.get property.1).isSome then
    if (policyProperties d).any fun property => table.properties.get property.1 ≠ some property.2 then
      pure (.error (valueError
        "Incompatible history policy; quiesce writers and perform a migration"))
    else pure (.ok ())
  else if table.hasSnapshot then do
    let rows ← perform (.scan table.version .alwaysTrue
      (table.columns.map fun column => column.field.name) (some 1))
    Program.onOk rows fun rows =>
      if rows.isEmpty then pure (.ok ())
      else pure (.error (valueError
        "Cannot adopt an unmarked nonempty table; perform a validated migration"))
  else pure (.ok ())

/-- The loop of `_lookup` over the batches of identities. -/
def lookupFrom (table : LoadedTable) (policy : HistoryPolicy) (groups : Groups) :
    List (List Identity) → Existing → Program HistoryOp (Except PlainError Existing)
  | [], existing => pure (.ok existing)
  | batch :: batches, existing => do
    let rows ← perform (.scan table.version (identityFilter policy batch) (lookupFields policy table) none)
    Program.onOk rows fun rows =>
      lookupFrom table policy groups batches (collect policy groups existing rows)

/-- `_lookup` -/
def lookup (table : LoadedTable) (policy : HistoryPolicy) (groups : Groups) :
    Program HistoryOp (Except PlainError Existing) :=
  if table.hasSnapshot = false ∨ groups.items = [] then pure (.ok OrderedDict.empty)
  else
    lookupFrom table policy groups (lookupBatches (groups.items.map Prod.fst)) OrderedDict.empty

/-- What `_reconcile` counts. -/
def reconciled (table : LoadedTable) (policy : HistoryPolicy) (rows : List Row) (groups : Groups)
    (existing : Existing) : Reconciliation :=
  let outcomes := groups.items.map fun group => compare policy rows [group] existing
  let missing := (outcomes.map fun outcome =>
    match outcome with
    | .ok (indices, _) => indices.length
    | .error _ => 0).sum
  let conflicting := outcomes.countP fun outcome => !outcome.isOk
  .observed
    { conflicting := conflicting ≠ 0
      snapshotId := if table.hasSnapshot then some table.version else none
      versionsPresent := groups.items.length - missing - conflicting
      versionsMissing := missing
      versionsConflicting := conflicting
      policyBound := (table.properties.get POLICY_PROPERTY).isSome }

/-- `_reconcile` -/
def reconcile (policy : HistoryPolicy) (rows : List Row) (groups : Groups) : Program HistoryOp Reconciliation := do
  let table ← perform .load
  let outcome : Except PlainError Reconciliation ←
    Program.onOk (policyDefinition table.columns policy) fun d => do
      let checked ← checkPolicy table d
      Program.onOk checked fun _ => do
        let existing ← lookup table policy groups
        Program.onOk existing fun existing =>
          pure (.ok (reconciled table policy rows groups existing))
  match outcome with
  | .ok reconciliation => pure reconciliation
  | .error e => pure (.unavailable e.kind)

/-! ### The write -/

/-- The arguments of a call; the files are read already. -/
structure HistoryCall where
  tableName : String
  batches : List ArrowTable
  policy : HistoryPolicy
  ref : String := "main"
  schemaPolicy : SchemaPolicy := .strict
  /-- the operational setting -/
  protectMain : Bool := false

/-- One field for the fields of one name; an untyped column takes the type of another. -/
def mergeField (fields : List Field) (field : Field) : Except PlainError (List Field) :=
  match fields.find? fun old => old.name = field.name with
  | none => .ok (fields ++ [field])
  | some old =>
    if old.type = field.type ∨ old.type = .null ∨ field.type = .null then
      let merged : Field :=
        ⟨field.name, if old.type = .null then field.type else old.type, old.nullable || field.nullable⟩
      .ok (fields.map fun old => if old.name = field.name then merged else old)
    else .error ⟨.arrowInvalid, "Unable to merge: Field " ++ field.name ++ " has incompatible types"⟩

/-- `pa.concat_tables(batches, promote_options="default")` -/
def concatTables (batches : List ArrowTable) : Except PlainError ArrowTable := do
  batches.forM fun batch =>
    require batch.columnNames.Nodup ⟨.arrowInvalid, "Field exists 2 times in schema"⟩
  let fields ← (batches.flatMap ArrowTable.fields).foldlM mergeField []
  .ok ⟨fields, batches.flatMap fun batch => batch.rows.map (Row.restrict batch.columnNames)⟩

/-- What is checked and put together before the table is looked at. -/
def sourceOf (call : HistoryCall) : Except PlainError ArrowTable := do
  require (¬(call.ref = "main" ∧ call.protectMain = true))
    ⟨.permissionError,
      "Direct writes to main are protected; write to a branch and use a signed merge."⟩
  require (call.batches ≠ []) (valueError "History requires at least one staged Parquet file")
  call.batches.forM fun batch => (incoming batch call.policy).map fun _ => ()
  concatTables call.batches

/-- `_check_additions` -/
def checkAdditions (table : LoadedTable) (tableName : String) (additions : List Field) : Except PlainError Unit :=
  additions.forM fun field =>
    match (table.columns.map Column.field).find? fun existing => existing.name = field.name with
    | none => .ok ()
    | some existing =>
      require (existing.type = field.type ∧ existing.nullable = field.nullable)
        (valueError ("Conflicting concurrent definition for " ++ tableName ++ "." ++ field.name))

/-- What an attempt stages. -/
structure Staged where
  prepared : Prepared
  definition : PolicyDefinition

/-- The part of an attempt before the policy of the table is checked. -/
def stage (rules : ArrowRules) (call : HistoryCall) (source : ArrowTable) (table : LoadedTable)
    (additions : List Field) : Except PlainError Staged := do
  checkAdditions table call.tableName additions
  let prepared ← prepareArrowWrite rules table.columns table.lastColumnId source call.tableName
    call.schemaPolicy
  let definition ← policyDefinition (table.columns ++ prepared.added) call.policy
  .ok ⟨prepared, definition⟩

def Staged.change (staged : Staged) (table : LoadedTable) (indices : List ℕ) : Change where
  added := staged.prepared.added
  properties :=
    if (table.properties.get POLICY_PROPERTY).isSome then [] else policyProperties staged.definition
  rows := indices.map fun index => staged.prepared.aligned.rows.getD index fun _ => .null

/-- What a call returns or raises. -/
abbrev HistoryOutcome := Except HistoryError HistoryMetrics

def orRaise {α : Type} (x : Except PlainError α) (f : α → Program HistoryOp HistoryOutcome) :
    Program HistoryOp HistoryOutcome :=
  Program.onOk (x.mapError HistoryError.plain) f

/-- The attempts of `history_to_table`, of which some are left. -/
def attempts (rules : ArrowRules) (call : HistoryCall) (source : ArrowTable) :
    ℕ → List Field → Program HistoryOp HistoryOutcome
  | 0, _ => pure (.error .unreachable)
  | left + 1, additions => do
    let table ← perform .load
    orRaise (stage rules call source table additions) fun staged => do
      let checked ← checkPolicy table staged.definition
      orRaise checked fun _ =>
        orRaise (incoming staged.prepared.aligned call.policy) fun groups => do
          let existing ← lookup table call.policy groups
          orRaise existing fun existing =>
            Program.onOk (compare call.policy staged.prepared.aligned.rows groups.items existing)
              fun compared =>
                if compared.1.isEmpty then pure (.ok compared.2)
                else do
                  let answer ← perform (.commit table.version (staged.change table compared.1))
                  match answer with
                  | .committed => pure (.ok { compared.2 with rowsInserted := compared.1.length })
                  | .failed =>
                    if left = 0 then pure (.error .commitFailed)
                    else
                      attempts rules call source left (staged.prepared.added.map Column.field)
                  | .unknown => do
                    let reconciliation ← reconcile call.policy staged.prepared.aligned.rows groups
                    pure (.error (.commitUnknown reconciliation))

/-- `history_to_table` -/
def historyToTable (rules : ArrowRules) (call : HistoryCall) : Program HistoryOp HistoryOutcome :=
  orRaise (sourceOf call) fun source => attempts rules call source 3 []

end Phlo.Iceberg
