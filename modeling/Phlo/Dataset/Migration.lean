import Phlo.Dataset.Service
import Phlo.Library.KeyedSort
import Phlo.Library.OrderedDict

/-!
# Planning the import of a legacy overlay

`plan_migration` maps the records of a legacy overlay to entries, each imported or rejected, without
touching a store.  A promoted candidate yields its candidate record and the record of its Dataset; a
legacy `datasets` entry for the same table is merged over it.

A payload is given by its sections, with keys of any kind; the records in them are JSON.
-/

namespace Phlo.Dataset

open Phlo.Library
open Phlo.RunEvidence (Dict Json)

/-! ### Values of the overlay -/

mutual

/-- `repr` -/
def pyRepr : Json → String
  | .null => "None"
  | .bool b => if b then "True" else "False"
  | .int n => toString n
  | .float text => text
  | .str s => quoted s
  | .arr items => "[" ++ ", ".intercalate (pyReprItems items) ++ "]"
  | .obj fields => "\x7b" ++ ", ".intercalate (pyReprFields fields) ++ "\x7d"
  -- neither is a value of a JSON document
  | .instant _ => "datetime"
  | .digest _ => "digest"

def pyReprItems : List Json → List String
  | [] => []
  | item :: items => pyRepr item :: pyReprItems items

def pyReprFields : List (String × Json) → List String
  | [] => []
  | (key, value) :: fields => (quoted key ++ ": " ++ pyRepr value) :: pyReprFields fields

end

/-- `str` -/
def pyStr : Json → String
  | .str s => s
  | value => pyRepr value

/-- A key of a section: a text, or another value with its `str` and its `repr`. -/
inductive LegacyKey where
  | text (s : String)
  | other (shown reprText : String)
  deriving DecidableEq

def LegacyKey.str : LegacyKey → String
  | text s => s
  | other shown _ => shown

def LegacyKey.repr : LegacyKey → String
  | text s => quoted s
  | other _ reprText => reprText

/-- The validated table key, if it is a text and `_valid_table_key` holds of it. -/
def LegacyKey.table? : LegacyKey → Option TableKey
  | text s => if h : validTableKey s = true then some ⟨s, h⟩ else none
  | other _ _ => none

/-- The items of a section, in their order. -/
abbrev LegacyItems := List (LegacyKey × Json)

/-- A section of the overlay: missing or null, no mapping, or a mapping. -/
inductive Section where
  | absent
  | malformed
  | mapping (items : LegacyItems)

/-- What is read of an overlay that is a mapping. -/
structure LegacyPayload where
  schemaVersion : Option Json := none
  datasets : Section := .absent
  candidates : Section := .absent
  config : Option Json := none

/-- `value if isinstance(value, str) and value else None`, for a field of a record -/
def textField (record : Dict) (key : String) : Option String :=
  match record.lookup key with
  | some (.str s) => if s = "" then none else some s
  | _ => none

/-- `WorkflowState.coerce` -/
def WorkflowState.coerce : String → Option WorkflowState
  | "claimed" => some .claimed
  | "review" => some .review
  | "promoted" => some .promoted
  | "rejected" => some .rejected
  | _ => none

/-- `PublicationState.coerce` -/
def PublicationState.coerce : String → Option PublicationState
  | "draft" => some .draft
  | "published" => some .published
  | "retired" => some .retired
  | _ => none

/-! ### Entries and plans -/

/-- `_ENTRY_IMPORT` and `_ENTRY_REJECT` -/
inductive EntryAction where
  | entryImport | entryReject
  deriving DecidableEq

structure MigrationEntry where
  recordId : String
  action : EntryAction
  reason : String := ""
  record : Option DatasetStateRecord := none

def MigrationEntry.imported (entry : MigrationEntry) : Bool := entry.action = .entryImport

def rejectEntry (recordId reason : String) : MigrationEntry where
  recordId := recordId
  action := .entryReject
  reason := reason

def importEntry (recordId : String) (record : DatasetStateRecord) : MigrationEntry where
  recordId := recordId
  action := .entryImport
  record := some record

structure MigrationPlan where
  sourceDigest : String
  entries : List MigrationEntry
  config : Dict := []
  schemaVersion : ℤ := datasetStateSchemaVersion

/-- `records` -/
def MigrationPlan.records (plan : MigrationPlan) : List DatasetStateRecord :=
  (plan.entries.filter MigrationEntry.imported).filterMap MigrationEntry.record

/-! ### Single records -/

def coercedPublicationState (record : Dict) : PublicationState × Option String :=
  match (record.lookup "publication_state").getD .null with
  | .null => (.draft, some "publication_state missing in legacy overlay; imported as draft")
  | raw =>
    match PublicationState.coerce (pyStr raw) with
    | some state => (state, none)
    | none =>
      (.draft, some ("unknown legacy publication_state " ++ quoted (pyStr raw) ++
        "; imported as draft"))

/-- `_legacy_fields` -/
def legacyFields (record : Dict) : Option Dict :=
  let extra := record.filter fun field =>
    !(["state", "owner", "approval_state", "dataset_id", "publication_state"].contains field.1)
  if extra.isEmpty then none else some extra

def promotedCandidateEntry (table : TableKey) (record : Dict) (owner approvalState : Option String)
    (legacy : Option Dict) : MigrationEntry :=
  let entryId := (DatasetId.candidate table).text
  let legacyDatasetId := (record.lookup "dataset_id").getD .null
  if legacyDatasetId ≠ .null ∧ legacyDatasetId ≠ .str table.name then
    rejectEntry entryId ("Promoted candidate " ++ quoted table.name ++ " records dataset_id " ++
      pyRepr legacyDatasetId ++ "; promotion must preserve the table key.")
  else
    let (publicationState, note) := coercedPublicationState record
    importEntry entryId (.candidate
      { tableId := table
        state := .promoted
        owner := owner
        approvalState := approvalState
        promotedDatasetId := some table.name
        publicationState := some publicationState.value
        migrationNote := note
        legacyFields := legacy
        promoted_only := fun _ => rfl })

theorem promoted_of_none (state : WorkflowState) (h : (none : Option String).isSome = true) : state = .promoted := by
  cases h

/-- `_candidate_entry` -/
def candidateEntry (table : TableKey) (record : Dict) : MigrationEntry :=
  let entryId := (DatasetId.candidate table).text
  let state := (record.lookup "state").getD .null
  let workflowState := if state = .null then none else WorkflowState.coerce (pyStr state)
  let owner := textField record "owner"
  let approvalState := textField record "approval_state"
  match workflowState with
  | none =>
    rejectEntry entryId ("Candidate " ++ quoted table.name ++ " has no deterministic rule for state " ++
      pyRepr state ++ ".")
  | some .promoted => promotedCandidateEntry table record owner approvalState (legacyFields record)
  | some workflowState =>
    importEntry entryId (.candidate
      { tableId := table
        state := workflowState
        owner := owner
        approvalState := approvalState
        legacyFields := legacyFields record
        promoted_only := promoted_of_none workflowState })

/-- One round of `_candidate_entries` -/
def candidateItem (item : LegacyKey × Json) : String × MigrationEntry :=
  match item.1.table? with
  | none =>
    (item.1.str, rejectEntry item.1.str
      ("Candidate key " ++ item.1.repr ++ " is not a valid table key."))
  | some table =>
    match item.2 with
    | .obj record => (table.name, candidateEntry table record)
    | _ =>
      (table.name, rejectEntry (DatasetId.candidate table).text
        "Candidate record must be a JSON object.")

/-- `_candidate_entries` -/
def candidateEntries (candidates : LegacyItems) : List (String × MigrationEntry) :=
  candidates.map candidateItem

/-- `_dataset_entry` -/
def datasetEntry (table : TableKey) (record : Dict) : MigrationEntry :=
  let (publicationState, note) := coercedPublicationState record
  importEntry table.name (.dataset
    { tableId := table
      publicationState := publicationState
      owner := textField record "owner"
      approvalState := textField record "approval_state"
      migrationNote := note
      legacyFields := legacyFields record })

/-- One round of `_dataset_entries`; a valid table key is never in the candidate form. -/
def datasetItem (item : LegacyKey × Json) : String × MigrationEntry :=
  match item.1.table? with
  | none =>
    (item.1.str, rejectEntry item.1.str
      ("Dataset key " ++ item.1.repr ++ " is not a promoted <table_id> form."))
  | some table =>
    if isCandidateDatasetId table.name then
      (item.1.str, rejectEntry item.1.str
        ("Dataset key " ++ item.1.repr ++ " is not a promoted <table_id> form."))
    else
      match item.2 with
      | .obj record => (table.name, datasetEntry table record)
      | _ => (table.name, rejectEntry table.name "Dataset record must be a JSON object.")

/-- `_dataset_entries` -/
def datasetEntries (datasets : LegacyItems) : List (String × MigrationEntry) := datasets.map datasetItem

/-! ### The plan -/

def mergedRecord (dataset : DatasetRecord) (candidate : CandidateRecord) : DatasetRecord where
  tableId := dataset.tableId
  publicationState := dataset.publicationState
  owner := orElse dataset.owner candidate.owner
  approvalState := orElse dataset.approvalState candidate.approvalState
  migrationNote := some ("; ".intercalate
    ([dataset.migrationNote.getD "", candidate.migrationNote.getD "",
      "merged with the promoted candidate record"].filter (· ≠ "")))
  legacyFields :=
    let fields := ((OrderedDict.ofList (candidate.legacyFields.getD [])).setAll
      (dataset.legacyFields.getD [])).items
    if fields.isEmpty then none else some fields

def mergePromotedSources (datasetId : String) (candidate : Option CandidateRecord)
    (entry : MigrationEntry) : MigrationEntry :=
  if entry.imported then
    match entry.record, candidate with
    | some (.dataset record), some candidate =>
      importEntry datasetId (.dataset (mergedRecord record candidate))
    | _, _ => entry
  else entry

def MigrationEntry.promotedCandidate (entry : MigrationEntry) : Option CandidateRecord :=
  match entry.imported, entry.record with
  | true, some (.candidate record) => if record.state = .promoted then some record else none
  | _, _ => none

def promotedCandidates (candidateResults : OrderedDict String MigrationEntry) : OrderedDict String CandidateRecord :=
  .ofList ((candidateResults.values.filterMap MigrationEntry.promotedCandidate).map fun record =>
    (record.tableId.name, record))

/-- One round of the loop over the datasets: it pops the promoted candidate of the table. -/
def mergeRound (s : OrderedDict String MigrationEntry × OrderedDict String CandidateRecord)
    (item : String × MigrationEntry) : OrderedDict String MigrationEntry × OrderedDict String CandidateRecord :=
  (s.1.set item.1 (mergePromotedSources item.1 (s.2.get item.1) item.2), s.2.erase item.1)

def promotedEntry (datasetId : String) (candidate : CandidateRecord) : Except String MigrationEntry :=
  let publicationState :=
    (orElse candidate.publicationState none).getD PublicationState.draft.value
  match PublicationState.coerce publicationState with
  | none => .error ("Unknown publication state: " ++ publicationState)
  | some publicationState =>
    .ok (importEntry datasetId (.dataset
      { tableId := candidate.tableId
        publicationState := publicationState
        owner := candidate.owner
        approvalState := candidate.approvalState
        migrationNote := candidate.migrationNote
        legacyFields := candidate.legacyFields }))

def planEntries (candidateResults datasetResults : OrderedDict String MigrationEntry) :
    Except String (OrderedDict String MigrationEntry) := do
  let merged := datasetResults.items.foldl mergeRound (.empty, promotedCandidates candidateResults)
  let promoted ← merged.2.items.mapM fun item => return (item.1, ← promotedEntry item.1 item.2)
  return (merged.1.setAll promoted).setAll
    (candidateResults.values.map fun entry => (entry.recordId, entry))

/-- `_section` -/
def sectionItems (name : String) : Section → Except String LegacyItems
  | .absent => .ok []
  | .malformed => .error ("Legacy overlay " ++ quoted name ++ " section must be a JSON object.")
  | .mapping items => .ok items

def asText : Json → Option String
  | .str s => some s
  | _ => none

/-- `_plan_config` -/
def planConfig : Option Json → Except String Dict
  | none | some .null => .ok []
  | some (.obj config) => do
    let owner ← match (config.lookup "default_owner").getD .null with
      | .null => .ok Json.null
      | .str owner => .ok (.str owner)
      | _ => .error "Legacy overlay config 'default_owner' must be a string."
    let malformed := "Legacy overlay config 'approval_states' must be a list of strings."
    let approvalStates ← match (config.lookup "approval_states").getD .null with
      | .null => .ok []
      | .arr items =>
        match items.mapM asText with
        | some texts => .ok (texts.filter (· ≠ ""))
        | none => .error malformed
      | _ => .error malformed
    return [("default_owner", owner), ("approval_states", .ofTexts approvalStates)]
  | some _ => .error "Legacy overlay 'config' section must be a JSON object."

/-- The check of `schema_version`, which fails on a version ahead of the store's. -/
def checkSchemaVersion (version : Option Json) : Except String Unit :=
  match version.getD (.int (datasetStateSchemaVersion - 1)) with
  | .int version =>
    if datasetStateSchemaVersion < version then
      .error ("Legacy overlay schema_version " ++ toString version ++ " is ahead of the store's " ++
        toString datasetStateSchemaVersion ++ "; refusing to import.")
    else .ok ()
  | other => .error ("Legacy overlay schema_version must be an integer: " ++ pyRepr other)

/-- `plan_migration`; `none` is a payload that is no mapping. -/
def planMigration (payload : Option LegacyPayload) (sourceDigest : String) : Except String MigrationPlan :=
  match payload with
  | none => .error "Legacy overlay must be a JSON object."
  | some payload => do
    checkSchemaVersion payload.schemaVersion
    let datasets ← sectionItems "datasets" payload.datasets
    let candidates ← sectionItems "candidates" payload.candidates
    let config ← planConfig payload.config
    let entries ← planEntries (.ofList (candidateEntries candidates))
      (.ofList (datasetEntries datasets))
    return { sourceDigest, entries := (sortBy Prod.fst entries.items).map Prod.snd, config }

end Phlo.Dataset
