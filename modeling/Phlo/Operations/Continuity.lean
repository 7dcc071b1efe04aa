import Mathlib.Data.List.Infix
import Mathlib.Data.String.Basic
import Phlo.Dataset.Migration
import Phlo.Library.KeyedSort
import Phlo.Operations.Journal
import Phlo.RunEvidence.HookSink

/-!
# Backup sets and restore results

The records of the continuity contracts, with the dictionaries they are written to and read from.
`from_dict` accepts whatever a JSON document may hold: `requiredStr`, `dictOf`, `itemsOf` and `intOf`
are the conversions it applies, with the exceptions they raise.

* `BackupArtifact.fromDict_toDict`, `BackupContributorResult.fromDict_toDict` and
  `RestoreStepResult.fromDict_toDict` — a record is read back as it was, provided its required texts
  are not blank;
* `BackupArtifact.requires_texts`, `BackupContributorResult.requires_provider` — otherwise it is refused.
-/

namespace Phlo.Operations

open Phlo.Library
open Phlo.Dataset (pyRepr pyStr quoted)
open Phlo.RunEvidence (Dict Json intOfFloat intOfText)

/-! ### Exceptions -/

inductive BackupVerificationReason where
  | missingManifest | corruptManifest | unknownSchemaVersion | missingProvider | unknownProvider
  | incompatibleVersion | partialSet | wrongOwner | mixedRun | pathEscape | symlink | missingArtifact
  | sizeMismatch | digestMismatch | extraArtifact
  deriving DecidableEq, Repr

structure BackupSetError where
  reason : BackupVerificationReason
  message : String
  deriving DecidableEq

structure RestoreError where
  code : String
  identifiers : List String := []
  deriving DecidableEq

/-- An exception; of one from outside only its type and its text matter. -/
inductive Raised where
  | backupSet (e : BackupSetError)
  | restore (e : RestoreError)
  | journal (e : OperationJournalError)
  | other (typeName text : String)
  deriving DecidableEq

/-- `type(exc).__name__` -/
def Raised.typeName : Raised → String
  | backupSet _ => "BackupSetError"
  | restore _ => "RestoreError"
  | journal _ => "OperationJournalError"
  | other typeName _ => typeName

/-- `str(exc)` -/
def Raised.str : Raised → String
  | backupSet e => e.message
  | restore e => e.code ++ ": " ++ ", ".intercalate e.identifiers
  | journal e => e.code ++ ": " ++ ", ".intercalate e.identifiers
  | other _ text => text

/-- `str(exc) or type(exc).__name__` -/
def Raised.text (e : Raised) : String := if e.str = "" then e.typeName else e.str

abbrev Raising (α : Type) := Except Raised α

def redactedKeyMarkers : List String :=
  ["password", "secret", "token", "credential", "authorization", "api_key"]

/-- `message.split()` -/
def words (message : String) : List String :=
  (message.toList.splitOnP Char.isWhitespace |>.filter (· ≠ [])).map String.ofList

/-- `redact_message` -/
def redactMessage (message : String) : String :=
  " ".intercalate ((words message).map fun word =>
    if redactedKeyMarkers.any fun marker => marker.toList <:+: word.toLower.toList then "REDACTED"
    else word)

/-! ### Conversions -/

/-- What a conversion raises: a `KeyError`, `TypeError` or `ValueError`, or an `OverflowError`. -/
inductive ConversionError where
  | invalid (text : String)
  | overflow (text : String)
  deriving DecidableEq

abbrev Converted (α : Type) := Except ConversionError α

/-- `type(value).__name__` -/
def typeName : Json → String
  | .null => "NoneType"
  | .bool _ => "bool"
  | .int _ => "int"
  | .float _ => "float"
  | .str _ | .instant _ | .digest _ => "str"
  | .arr _ => "list"
  | .obj _ => "dict"

/-- `data[key]` -/
def subscript (data : Json) (key : String) : Converted Json :=
  match data with
  | .obj fields =>
    match fields.lookup key with
    | some value => .ok value
    | none => .error (.invalid (quoted key))
  | .arr _ => .error (.invalid "list indices must be integers or slices, not str")
  | .str _ | .instant _ | .digest _ =>
    .error (.invalid "string indices must be integers, not 'str'")
  | .null | .bool _ | .int _ | .float _ =>
    .error (.invalid (quoted (typeName data) ++ " object is not subscriptable"))

/-- `_required_str` -/
def requiredStr (data : Json) (key : String) : Converted String := do
  match ← subscript data key with
  | .str s => if s = "" then .error (.invalid (key ++ " must be a non-empty string")) else .ok s
  | _ => .error (.invalid (key ++ " must be a non-empty string"))

/-- `data.get(key)`; of a dictionary only, since `data[...]` has worked before. -/
def getKey (data : Json) (key : String) : Json :=
  match data with
  | .obj fields => (fields.lookup key).getD .null
  | _ => .null

/-- The key and the value in an element of a sequence that `dict` is called with. -/
def pairOf (index : ℕ) (element : Json) : Converted (String × Json) := do
  let items ← match element with
    | .arr items => .ok items
    | .obj fields => .ok (fields.map fun field => Json.str field.1)
    | .str s => .ok (s.toList.map fun c => Json.str (String.ofList [c]))
    | _ => .error (.invalid ("cannot convert dictionary update sequence element #" ++
        toString index ++ " to a sequence"))
  match items with
  | [.arr _, _] => .error (.invalid "unhashable type: 'list'")
  | [.obj _, _] => .error (.invalid "unhashable type: 'dict'")
  | [key, value] => .ok (pyStr key, value)
  | _ => .error (.invalid ("dictionary update sequence element #" ++ toString index ++
      " has length " ++ toString items.length ++ "; 2 is required"))

/-- What `for item in value or ()` runs through. -/
def itemsOf (value : Json) : Converted (List Json) :=
  if truthy value then
    match value with
    | .arr items => .ok items
    | .obj fields => .ok (fields.map fun field => .str field.1)
    | .str s => .ok (s.toList.map fun c => .str (String.ofList [c]))
    | _ => .error (.invalid (quoted (typeName value) ++ " object is not iterable"))
  else .ok []

/-- `dict` of a value, or of nothing for a false one; the keys as texts -/
def dictOf (value : Json) : Converted Dict :=
  match value with
  | .obj fields => .ok fields
  | _ => do
    let items ← itemsOf value
    let pairs ← items.zipIdx.mapM fun item => pairOf item.2 item.1
    return (OrderedDict.ofList pairs).items

/-- `int(value)` -/
def intOf : Json → Converted ℤ
  | .bool b => .ok (if b then 1 else 0)
  | .int n => .ok n
  | .float text =>
    if text = "inf" ∨ text = "-inf" then .error (.overflow "cannot convert float infinity to integer")
    else if text = "nan" then .error (.invalid "cannot convert float NaN to integer")
    else .ok (intOfFloat text)
  | .str s =>
    match intOfText s with
    | some n => .ok n
    | none => .error (.invalid ("invalid literal for int() with base 10: " ++ quoted s))
  | value => .error (.invalid
      ("int() argument must be a string, a bytes-like object or a real number, not " ++
        quoted (typeName value)))

/-- `except (KeyError, TypeError, ValueError) as exc: raise BackupSetError(CORRUPT_MANIFEST, ...)` -/
def orCorrupt (what : String) : ConversionError → Raised
  | .invalid text => .backupSet ⟨.corruptManifest, what ++ ": " ++ text⟩
  | .overflow text => .other "OverflowError" text

/-- A `BackupSetError` is a `ValueError`. -/
def asConversionError : Raised → ConversionError
  | .other _ text => .overflow text
  | e => .invalid e.str

def uncaught : ConversionError → Raised
  | .invalid text => .other "ValueError" text
  | .overflow text => .other "OverflowError" text

variable {fields : Dict}

theorem requiredStr_obj {key s : String} (hget : fields.lookup key = some (.str s)) : requiredStr (.obj fields) key =
      if s = "" then .error (.invalid (key ++ " must be a non-empty string")) else .ok s := by
  rw [requiredStr, subscript, hget]
  rfl

theorem requiredStr_eq_ok {key s : String} (hget : fields.lookup key = some (.str s)) (hs : s ≠ "") :
    requiredStr (.obj fields) key = .ok s := by
  rw [requiredStr_obj hget, if_neg hs]

theorem ne_of_requiredStr {key s t : String} (hget : fields.lookup key = some (.str s))
    (h : requiredStr (.obj fields) key = .ok t) : s ≠ "" := by
  rw [requiredStr_obj hget] at h
  intro hs
  rw [if_pos hs] at h
  cases h

theorem itemsOf_arr (items : List Json) : itemsOf (.arr items) = .ok items := by
  cases items with
  | nil => rfl
  | cons item items => rfl

/-! ### Artifacts -/

inductive BackupContributorState where
  | succeeded | failed
  deriving DecidableEq, Repr

def BackupContributorState.value : BackupContributorState → String
  | succeeded => "succeeded"
  | failed => "failed"

/-- `BackupContributorState(text)` -/
def BackupContributorState.ofText (text : String) : Converted BackupContributorState :=
  if text = "succeeded" then .ok .succeeded
  else if text = "failed" then .ok .failed
  else .error (.invalid (quoted text ++ " is not a valid BackupContributorState"))

structure BackupArtifact where
  provider : String
  name : String
  relativePath : String
  sizeBytes : ℤ
  sha256 : String
  metadata : Dict := []

namespace BackupArtifact

def toDict (artifact : BackupArtifact) : Dict :=
  [("provider", .str artifact.provider), ("name", .str artifact.name),
    ("relative_path", .str artifact.relativePath), ("size_bytes", .int artifact.sizeBytes),
    ("sha256", .str artifact.sha256), ("metadata", .obj artifact.metadata)]

def convert (data : Json) : Converted BackupArtifact := do
  let provider ← requiredStr data "provider"
  let name ← requiredStr data "name"
  let relativePath ← requiredStr data "relative_path"
  let sizeBytes ← intOf (← subscript data "size_bytes")
  let sha256 ← requiredStr data "sha256"
  let metadata ← dictOf (getKey data "metadata")
  return { provider, name, relativePath, sizeBytes, sha256, metadata }

def fromDict (data : Json) : Raising BackupArtifact :=
  (convert data).mapError (orCorrupt "invalid artifact record")

/-- The texts that `from_dict` requires are there. -/
structure Named (artifact : BackupArtifact) : Prop where
  provider : artifact.provider ≠ ""
  name : artifact.name ≠ ""
  relativePath : artifact.relativePath ≠ ""
  sha256 : artifact.sha256 ≠ ""

theorem fromDict_toDict {artifact : BackupArtifact} (h : artifact.Named) :
    fromDict (.obj artifact.toDict) = .ok artifact := by
  obtain ⟨provider, name, relativePath, sizeBytes, sha256, metadata⟩ := artifact
  rw [fromDict, convert, requiredStr_eq_ok rfl h.provider, requiredStr_eq_ok rfl h.name,
    requiredStr_eq_ok rfl h.relativePath, requiredStr_eq_ok rfl h.sha256]
  rfl

theorem named_of_fromDict {artifact artifact' : BackupArtifact}
    (h : fromDict (.obj artifact.toDict) = .ok artifact') : artifact.Named := by
  rw [fromDict, mapError_eq_ok, convert] at h
  obtain ⟨provider, hprovider, h⟩ := bind_eq_ok.1 h
  obtain ⟨name, hname, h⟩ := bind_eq_ok.1 h
  obtain ⟨relativePath, hpath, h⟩ := bind_eq_ok.1 h
  obtain ⟨size, -, h⟩ := bind_eq_ok.1 h
  obtain ⟨sizeBytes, -, h⟩ := bind_eq_ok.1 h
  obtain ⟨sha256, hsha256, -⟩ := bind_eq_ok.1 h
  exact ⟨ne_of_requiredStr rfl hprovider, ne_of_requiredStr rfl hname, ne_of_requiredStr rfl hpath,
    ne_of_requiredStr rfl hsha256⟩

end BackupArtifact

/-! ### Contributions -/

structure BackupContributorResult where
  provider : String
  state : BackupContributorState
  artifacts : List BackupArtifact := []
  operationId : String := ""
  /-- `null` for `None` -/
  failure : Json := .null

namespace BackupContributorResult

def toDict (result : BackupContributorResult) : Dict :=
  [("provider", .str result.provider), ("state", .str result.state.value),
    ("operation_id", .str result.operationId),
    ("artifacts", .arr (result.artifacts.map fun artifact => .obj artifact.toDict)),
    ("failure", result.failure)]

def convert (data : Json) : Converted BackupContributorResult := do
  let provider ← requiredStr data "provider"
  let state ← BackupContributorState.ofText (← requiredStr data "state")
  let operationId := getKey data "operation_id"
  let artifacts ← (← itemsOf (getKey data "artifacts")).mapM fun artifact =>
    (BackupArtifact.fromDict artifact).mapError asConversionError
  return { provider, state, artifacts, failure := getKey data "failure"
           operationId := if truthy operationId then pyStr operationId else "" }

def fromDict (data : Json) : Raising BackupContributorResult :=
  (convert data).mapError (orCorrupt "invalid contributor record")

/-- The texts that `from_dict` requires are there. -/
structure Named (result : BackupContributorResult) : Prop where
  provider : result.provider ≠ ""
  artifacts : ∀ artifact ∈ result.artifacts, artifact.Named

theorem fromDict_toDict {result : BackupContributorResult} (h : result.Named) :
    fromDict (.obj result.toDict) = .ok result := by
  obtain ⟨provider, state, artifacts, operationId, failure⟩ := result
  have hartifacts : (artifacts.map fun artifact => Json.obj artifact.toDict).mapM
      (fun artifact => (BackupArtifact.fromDict artifact).mapError asConversionError) =
      .ok artifacts := by
    refine mapM_map_eq_ok fun artifact hmem => ?_
    rw [BackupArtifact.fromDict_toDict (h.artifacts artifact hmem)]
    rfl
  have hoperation : (if truthy (.str operationId) then pyStr (.str operationId) else "") =
      operationId := by
    by_cases hblank : operationId = ""
    · rw [hblank]
      rfl
    · exact if_pos (by simpa [truthy] using hblank)
  have hconvert : convert (.obj (toDict ⟨provider, state, artifacts, operationId, failure⟩)) = (do
      let items ← itemsOf (.arr (artifacts.map fun artifact => Json.obj artifact.toDict))
      let artifacts' ← items.mapM fun artifact =>
        (BackupArtifact.fromDict artifact).mapError asConversionError
      return { provider, state, artifacts := artifacts', failure
               operationId := if truthy (.str operationId) then pyStr (.str operationId) else "" }) := by
    rw [convert, requiredStr_eq_ok rfl h.provider]
    cases state <;> rfl
  rw [fromDict, hconvert, itemsOf_arr, hoperation, ok_bind, hartifacts]
  rfl

theorem named_of_fromDict {result result' : BackupContributorResult}
    (h : fromDict (.obj result.toDict) = .ok result') : result.Named := by
  rw [fromDict, mapError_eq_ok, convert] at h
  obtain ⟨provider, hprovider, h⟩ := bind_eq_ok.1 h
  obtain ⟨state, -, h⟩ := bind_eq_ok.1 h
  obtain ⟨state', -, h⟩ := bind_eq_ok.1 h
  obtain ⟨items, hitems, h⟩ := bind_eq_ok.1 h
  obtain ⟨artifacts, hartifacts, -⟩ := bind_eq_ok.1 h
  obtain rfl : result.artifacts.map (fun artifact => Json.obj artifact.toDict) = items :=
    Except.ok.inj ((itemsOf_arr _).symm.trans hitems)
  refine ⟨ne_of_requiredStr rfl hprovider, fun artifact hmem => ?_⟩
  obtain ⟨artifact', -, hread⟩ := (mem_of_mapM_eq_ok hartifacts).1 _ (List.mem_map_of_mem hmem)
  exact BackupArtifact.named_of_fromDict (mapError_eq_ok.1 hread)

end BackupContributorResult

/-! ### Manifests -/

def backupProviderOrder : List String := ["postgres", "nessie", "minio", "iceberg"]

/-- `BACKUP_SET_SCHEMA_VERSION`, the only member of `SUPPORTED_MANIFEST_SCHEMA_VERSIONS` -/
def backupSetSchemaVersion : String := "1"

structure BackupSetManifest where
  schemaVersion : String
  setId : String
  sourceDeploymentId : String
  createdAt : String
  versions : OrderedDict String String
  quiesce : Dict
  contributors : List BackupContributorResult
  artifacts : List BackupArtifact
  complete : Bool

namespace BackupSetManifest

def toDict (manifest : BackupSetManifest) : Dict :=
  [("schema_version", .str manifest.schemaVersion), ("set_id", .str manifest.setId),
    ("source_deployment_id", .str manifest.sourceDeploymentId),
    ("created_at", .str manifest.createdAt),
    ("versions", .obj ((sortBy (fun item => item.1) manifest.versions.items).map
      fun item => (item.1, .str item.2))),
    ("quiesce", .obj manifest.quiesce), ("complete", .bool manifest.complete),
    ("contributors", .arr (manifest.contributors.map fun record => .obj record.toDict)),
    ("artifacts", .arr (manifest.artifacts.map fun artifact => .obj artifact.toDict))]

/-- The part of `from_dict` in its `try` -/
def convert (data : Json) : Raising BackupSetManifest := do
  let invalid := orCorrupt "invalid manifest"
  let setId ← (requiredStr data "set_id").mapError invalid
  let sourceDeploymentId ← (requiredStr data "source_deployment_id").mapError invalid
  let createdAt ← (requiredStr data "created_at").mapError invalid
  let versions ← (dictOf (getKey data "versions")).mapError invalid
  let quiesce ← (dictOf (getKey data "quiesce")).mapError invalid
  let contributors ← (← (itemsOf (getKey data "contributors")).mapError invalid).mapM
    BackupContributorResult.fromDict
  let artifacts ← (← (itemsOf (getKey data "artifacts")).mapError invalid).mapM
    BackupArtifact.fromDict
  return { schemaVersion := pyStr (getKey data "schema_version")
           setId, sourceDeploymentId, createdAt
           versions := .ofList (versions.map fun item => (item.1, pyStr item.2))
           quiesce, contributors, artifacts
           complete := truthy (getKey data "complete") }

def fromDict (data : Json) : Raising BackupSetManifest :=
  match data with
  | .obj _ =>
    match getKey data "schema_version" with
    -- looked up in a set of strings
    | .arr _ => .error (.other "TypeError" "unhashable type: 'list'")
    | .obj _ => .error (.other "TypeError" "unhashable type: 'dict'")
    | version =>
      if version = .str backupSetSchemaVersion then convert data
      else .error (.backupSet ⟨.unknownSchemaVersion,
        "unsupported manifest schema_version: " ++ pyRepr version⟩)
  | _ => .error (.backupSet ⟨.corruptManifest, "manifest is not a JSON object"⟩)

/-- The texts that `from_dict` requires are there. -/
structure Named (manifest : BackupSetManifest) : Prop where
  setId : manifest.setId ≠ ""
  sourceDeploymentId : manifest.sourceDeploymentId ≠ ""
  createdAt : manifest.createdAt ≠ ""
  contributors : ∀ record ∈ manifest.contributors, record.Named
  artifacts : ∀ artifact ∈ manifest.artifacts, artifact.Named

/-- The manifest that is read back: its versions are in order. -/
def readBack (manifest : BackupSetManifest) : BackupSetManifest :=
  { manifest with versions := .ofList (sortBy (fun item => item.1) manifest.versions.items) }

theorem fromDict_toDict {manifest : BackupSetManifest} (h : manifest.Named)
    (hschema : manifest.schemaVersion = backupSetSchemaVersion) :
    fromDict (.obj manifest.toDict) = .ok manifest.readBack := by
  obtain ⟨schemaVersion, setId, sourceDeploymentId, createdAt, versions, quiesce, contributors,
    artifacts, complete⟩ := manifest
  obtain rfl : schemaVersion = backupSetSchemaVersion := hschema
  have hcontributors : (contributors.map fun record => Json.obj record.toDict).mapM
      BackupContributorResult.fromDict = .ok contributors :=
    mapM_map_eq_ok fun record hmem =>
      BackupContributorResult.fromDict_toDict (h.contributors record hmem)
  have hartifacts : (artifacts.map fun artifact => Json.obj artifact.toDict).mapM
      BackupArtifact.fromDict = .ok artifacts :=
    mapM_map_eq_ok fun artifact hmem => BackupArtifact.fromDict_toDict (h.artifacts artifact hmem)
  have hversions : ((sortBy (fun item => item.1) versions.items).map
      fun item => (item.1, Json.str item.2)).map (fun item => (item.1, pyStr item.2)) =
      sortBy (fun item => item.1) versions.items := by
    rw [List.map_map]
    exact List.map_id _
  have hconvert : convert (.obj (toDict ⟨backupSetSchemaVersion, setId, sourceDeploymentId, createdAt,
      versions, quiesce, contributors, artifacts, complete⟩)) = (do
      let invalid := orCorrupt "invalid manifest"
      let records ← (itemsOf (.arr (contributors.map fun record => Json.obj record.toDict))).mapError
        invalid
      let contributors' ← records.mapM BackupContributorResult.fromDict
      let items ← (itemsOf (.arr (artifacts.map fun artifact => Json.obj artifact.toDict))).mapError
        invalid
      let artifacts' ← items.mapM BackupArtifact.fromDict
      return { schemaVersion := backupSetSchemaVersion, setId, sourceDeploymentId, createdAt
               versions := .ofList (((sortBy (fun item => item.1) versions.items).map
                 fun item => (item.1, Json.str item.2)).map fun item => (item.1, pyStr item.2))
               quiesce, contributors := contributors', artifacts := artifacts', complete }) := by
    rw [convert, requiredStr_eq_ok rfl h.setId, requiredStr_eq_ok rfl h.sourceDeploymentId,
      requiredStr_eq_ok rfl h.createdAt]
    rfl
  show convert (.obj (toDict ⟨backupSetSchemaVersion, setId, sourceDeploymentId, createdAt,
    versions, quiesce, contributors, artifacts, complete⟩)) = _
  rw [hconvert, itemsOf_arr, itemsOf_arr, hversions]
  show (do
    let contributors' ← (contributors.map fun record => Json.obj record.toDict).mapM
      BackupContributorResult.fromDict
    let artifacts' ← (artifacts.map fun artifact => Json.obj artifact.toDict).mapM
      BackupArtifact.fromDict
    return { schemaVersion := backupSetSchemaVersion, setId, sourceDeploymentId, createdAt
             versions := .ofList (sortBy (fun item => item.1) versions.items)
             quiesce, contributors := contributors', artifacts := artifacts'
             complete } : Raising BackupSetManifest) = _
  rw [hcontributors, hartifacts]
  rfl

theorem named_of_fromDict {manifest manifest' : BackupSetManifest}
    (h : fromDict (.obj manifest.toDict) = .ok manifest') : manifest.Named := by
  have hconvert : convert (.obj manifest.toDict) = .ok manifest' := by
    unfold fromDict at h
    by_cases hschema : Json.str manifest.schemaVersion = .str backupSetSchemaVersion
    · exact (if_pos hschema).symm.trans h
    · cases (if_neg hschema).symm.trans h
  rw [convert] at hconvert
  obtain ⟨setId, hsetId, h⟩ := bind_eq_ok.1 hconvert
  obtain ⟨sourceDeploymentId, howner, h⟩ := bind_eq_ok.1 h
  obtain ⟨createdAt, hcreated, h⟩ := bind_eq_ok.1 h
  obtain ⟨versions, -, h⟩ := bind_eq_ok.1 h
  obtain ⟨quiesce, -, h⟩ := bind_eq_ok.1 h
  obtain ⟨records, hrecords, h⟩ := bind_eq_ok.1 h
  obtain ⟨contributors, hcontributors, h⟩ := bind_eq_ok.1 h
  obtain ⟨items, hitems, h⟩ := bind_eq_ok.1 h
  obtain ⟨artifacts, hartifacts, -⟩ := bind_eq_ok.1 h
  obtain rfl : manifest.contributors.map (fun record => Json.obj record.toDict) = records :=
    Except.ok.inj ((itemsOf_arr _).symm.trans (mapError_eq_ok.1 hrecords))
  obtain rfl : manifest.artifacts.map (fun artifact => Json.obj artifact.toDict) = items :=
    Except.ok.inj ((itemsOf_arr _).symm.trans (mapError_eq_ok.1 hitems))
  refine ⟨ne_of_requiredStr rfl (mapError_eq_ok.1 hsetId), ne_of_requiredStr rfl (mapError_eq_ok.1 howner),
    ne_of_requiredStr rfl (mapError_eq_ok.1 hcreated), fun record hmem => ?_, fun artifact hmem => ?_⟩
  · obtain ⟨record', -, hread⟩ := (mem_of_mapM_eq_ok hcontributors).1 _ (List.mem_map_of_mem hmem)
    exact BackupContributorResult.named_of_fromDict hread
  · obtain ⟨artifact', -, hread⟩ := (mem_of_mapM_eq_ok hartifacts).1 _ (List.mem_map_of_mem hmem)
    exact BackupArtifact.named_of_fromDict hread

/-- What is looked up among the versions is found again. -/
theorem get_versions_readBack (manifest : BackupSetManifest) (package : String) :
    manifest.readBack.versions.get package = manifest.versions.get package := by
  have hperm := sortBy_perm (fun item : String × String => item.1) manifest.versions.items
  have hnodup : ((sortBy (fun item : String × String => item.1) manifest.versions.items).map
      Prod.fst).Nodup := (hperm.map Prod.fst).nodup_iff.2 manifest.versions.nodup
  have hitems : manifest.readBack.versions.items =
      sortBy (fun item => item.1) manifest.versions.items := OrderedDict.items_setAll hnodup
  ext version
  rw [OrderedDict.get_eq_some_iff, OrderedDict.get_eq_some_iff, hitems, hperm.mem_iff]

/-- `manifest_digest` -/
def manifestDigest (sha256 : Json → String) (manifest : BackupSetManifest) : String :=
  sha256 (.obj manifest.toDict)

end BackupSetManifest

/-! ### Restores -/

inductive RestoreStepPhase where
  | preflight | submission | reconcile
  deriving DecidableEq, Repr

def RestoreStepPhase.value : RestoreStepPhase → String
  | preflight => "preflight"
  | submission => "submission"
  | reconcile => "reconcile"

/-- `RestoreStepPhase(text)` -/
def RestoreStepPhase.ofText (text : String) : Converted RestoreStepPhase :=
  if text = "preflight" then .ok .preflight
  else if text = "submission" then .ok .submission
  else if text = "reconcile" then .ok .reconcile
  else .error (.invalid (quoted text ++ " is not a valid RestoreStepPhase"))

structure RestoreTarget where
  targetId : String
  location : String
  deriving DecidableEq

def RestoreTarget.toDict (target : RestoreTarget) : Dict :=
  [("target_id", .str target.targetId), ("location", .str target.location)]

structure RestoreStepResult where
  provider : String
  state : BackupContributorState
  phase : RestoreStepPhase
  retrySafe : Bool
  evidence : Dict := []
  /-- `null` for `None` -/
  failure : Json := .null

namespace RestoreStepResult

def toDict (step : RestoreStepResult) : Dict :=
  [("provider", .str step.provider), ("state", .str step.state.value),
    ("phase", .str step.phase.value), ("retry_safe", .bool step.retrySafe),
    ("evidence", .obj step.evidence), ("failure", step.failure)]

def convert (data : Json) : Converted RestoreStepResult := do
  let provider ← requiredStr data "provider"
  let state ← BackupContributorState.ofText (← requiredStr data "state")
  let phase ← RestoreStepPhase.ofText (← requiredStr data "phase")
  let evidence ← dictOf (getKey data "evidence")
  return { provider, state, phase, evidence, failure := getKey data "failure"
           retrySafe := truthy (getKey data "retry_safe") }

def fromDict (data : Json) : Raising RestoreStepResult :=
  (convert data).mapError (orCorrupt "invalid restore step")

theorem fromDict_toDict {step : RestoreStepResult} (h : step.provider ≠ "") :
    fromDict (.obj step.toDict) = .ok step := by
  obtain ⟨provider, state, phase, retrySafe, evidence, failure⟩ := step
  have hprovider : requiredStr (.obj (toDict ⟨provider, state, phase, retrySafe, evidence, failure⟩))
      "provider" = .ok provider := requiredStr_eq_ok rfl h
  rw [fromDict, convert, hprovider]
  cases state <;> cases phase <;> rfl

end RestoreStepResult

structure RestorePlan where
  schemaVersion : String
  planToken : String
  backupSetDir : String
  backupSetId : String
  setDigest : String
  target : RestoreTarget
  providerOrder : List String
  createdAt : String
  expiresAt : String
  deriving DecidableEq

def RestorePlan.toDict (plan : RestorePlan) : Dict :=
  [("schema_version", .str plan.schemaVersion), ("plan_token", .str plan.planToken),
    ("backup_set_dir", .str plan.backupSetDir), ("backup_set_id", .str plan.backupSetId),
    ("set_digest", .str plan.setDigest), ("target", .obj plan.target.toDict),
    ("provider_order", .arr (plan.providerOrder.map .str)), ("created_at", .str plan.createdAt),
    ("expires_at", .str plan.expiresAt)]

structure RestoreReconciliationResult where
  ok : Bool
  checks : OrderedDict String Bool
  reasons : List String := []

def RestoreReconciliationResult.toDict (result : RestoreReconciliationResult) : Dict :=
  [("ok", .bool result.ok),
    ("checks", .obj (result.checks.items.map fun check => (check.1, .bool check.2))),
    ("reasons", .arr (result.reasons.map .str))]

/-- `self.reconciliation.to_dict() if self.reconciliation else None` -/
def reconciliationJson : Option RestoreReconciliationResult → Json
  | some reconciliation => .obj reconciliation.toDict
  | none => .null

structure RestoreResult where
  state : String
  accepted : Bool
  targetId : String
  planToken : String
  steps : List RestoreStepResult := []
  reconciliation : Option RestoreReconciliationResult := none
  /-- `null` for `None` -/
  failure : Json := .null

def RestoreResult.toDict (result : RestoreResult) : Dict :=
  [("state", .str result.state), ("accepted", .bool result.accepted),
    ("target_id", .str result.targetId), ("plan_token", .str result.planToken),
    ("steps", .arr (result.steps.map fun step => .obj step.toDict)),
    ("reconciliation", reconciliationJson result.reconciliation),
    ("failure", result.failure)]

/-! ### Calls of the journal -/

section

variable {Op : Type → Type} {α β : Type} {f : {γ : Type} → JournalOp γ → Op γ}

/-- A function of the journal, and what to do next unless it raises. -/
def onJournal (f : {γ : Type} → JournalOp γ → Op γ) (p : Program JournalOp (Journaled α))
    (next : α → Program Op (Raising β)) : Program Op (Raising β) := do
  match ← p.translate f with
  | .ok a => next a
  | .error e => return .error (.journal e)

theorem onJournal_transitionOrRaise (operationId : String) (state : OperationJournalState) (result : Option Dict)
    (next : Unit → Program Op (Raising β)) :
    onJournal f (transitionOrRaise operationId state result) next =
      Program.perform (f (.transition operationId state result)) >>= fun known =>
        if known then next () else return .error (.journal ⟨"unknown_operation", [operationId]⟩) := by
  show Program.call _ _ = Program.call _ _
  congr 1
  funext known
  cases known <;> rfl

theorem onJournal_claimOperation (operationId subject action target planToken : String)
    (next : OperationJournalEntry → Program Op (Raising β)) :
    onJournal f (claimOperation operationId subject action target planToken) next =
      Program.perform (f (.claim { operationId, subject, action, target, planToken, state := .claimed }))
        >>= fun claimed =>
          if claimed then next { operationId, subject, action, target, planToken, state := .claimed }
          else return .error (.journal ⟨"conflicting_claim", [operationId, action, target]⟩) := by
  show Program.call _ _ = Program.call _ _
  congr 1
  funext claimed
  cases claimed <;> rfl

theorem onJournal_readOrReplay (operationId : String) (next : Option Dict → Program Op (Raising β)) :
    onJournal f (readOrReplay operationId) next =
      Program.perform (f (.read operationId)) >>= fun entry =>
        match entry with
        | none => next none
        | some entry =>
          if entry.state = .unknown then
            return .error (.journal ⟨"unknown_outcome_blocks_replay", [operationId]⟩)
          else next entry.result := by
  show Program.call _ _ = Program.call _ _
  congr 1
  funext entry
  cases entry with
  | none => rfl
  | some entry =>
    obtain ⟨id, subject, action, target, planToken, state, claimExpiry, result, time⟩ := entry
    cases state <;> rfl

end

end Phlo.Operations
