import Phlo.Library.FileTree
import Phlo.Operations.Continuity

/-!
# Creating and verifying backup sets

`createBackupSet` and `verifyBackupSet` act on a directory tree.  A contributor may do anything to the
tree and return or raise anything.  The bytes of files are left open: an `Encoding` knows their size,
their digest, and how JSON documents are written as bytes and read back.

Writes of the coordinator may fail (`WriteFaults`).
-/

namespace Phlo.Operations

open Phlo.Library Phlo.Library.Program
open Phlo.Dataset (pyRepr pyStr quoted)
open Phlo.RunEvidence (Dict Json)

/-! ### Surroundings -/

/-- Bytes: their size and SHA-256 digest, canonical JSON and its reader. -/
structure Encoding (β : Type) where
  size : β → ℕ
  sha256 : β → String
  dumps : Json → β
  loads : β → Option Json
  sha256_ne : ∀ content, sha256 content ≠ ""
  loads_dumps : ∀ document, loads (dumps document) = some document

/-- What the operating system refuses, with the text of the `OSError`. -/
structure WriteFaults where
  makeDirectory : Option String := none
  writeManifest : Option String := none
  replaceManifest : Option String := none

/-- `uuid4().hex`, `get_deployment_id()`, `get_package_versions()` and `datetime.now(UTC)` -/
structure BackupDefaults where
  newSetId : String
  deploymentId : String
  packageVersions : OrderedDict String String
  now : String
  newSetId_ne : newSetId ≠ ""
  deploymentId_ne : deploymentId ≠ ""
  now_ne : now ≠ ""

structure BackupContributor (β : Type) where
  contribute : FileTree β → List String → String → FileTree β × Raising BackupContributorResult

structure BackupCall (β : Type) where
  target : List String
  contributors : List (String × BackupContributor β)
  subject : String := "operator"
  setId : Option String := none
  deploymentId : Option String := none
  versions : Option (OrderedDict String String) := none
  quiesce : Option (FileTree β → FileTree β × Raising Dict) := none

structure BackupWorld (β : Type) where
  journal : JournalStore
  tree : FileTree β

/-- The parameters that a run does not choose. -/
structure BackupEnv (β : Type) where
  encoding : Encoding β
  faults : WriteFaults
  defaults : BackupDefaults
  naming : FileNaming

/-! ### Records -/

structure BackupCreateResult where
  setId : String
  target : String
  state : String
  accepted : Bool
  manifest : Json := .null
  contributors : List Json := []
  failure : Json := .null

def BackupCreateResult.toDict (result : BackupCreateResult) : Dict :=
  [("set_id", .str result.setId), ("target", .str result.target), ("state", .str result.state),
    ("accepted", .bool result.accepted), ("manifest", result.manifest),
    ("contributors", .arr result.contributors), ("failure", result.failure)]

structure BackupVerifyResult where
  setId : String
  state : String
  accepted : Bool
  reasons : List BackupVerificationReason := []
  manifest : Option Dict := none

def setManifestName : String := "manifest.json"

def setManifestStagingName : String := "manifest.json.partial"

/-- `fail_contributor` -/
def failContributor (provider reason operationId : String) : BackupContributorResult where
  provider := provider
  state := .failed
  operationId := operationId
  failure := .obj [("reason", .str (redactMessage reason))]

/-- `_sanitize_failure` -/
def sanitizeFailure (e : Raised) : Json := .obj [("reason", .str (redactMessage e.text))]

/-- `value or default` -/
def textOr (value : Option String) (default : String) : String :=
  match value with
  | some text => if text = "" then default else text
  | none => default

theorem textOr_ne {value : Option String} {default : String} (h : default ≠ "") : textOr value default ≠ "" := by
  unfold textOr
  split
  · split
    · exact h
    next hne => exact hne
  · exact h

/-! ### Artifacts on disk -/

section

variable {β : Type} (enc : Encoding β) (tree : FileTree β) (setDir : List String)

def validateContainedPath (relativePath : String) : Raising Location :=
  if relativePath = "" ∨ isAbsolute relativePath then
    .error (.backupSet ⟨.pathEscape, "artifact path is not relative: " ++ quoted relativePath⟩)
  else
    match tree.resolve (FileTree.join setDir relativePath), tree.resolve setDir with
    | some resolved, some root =>
      if root <+: resolved then .ok resolved
      else .error (.backupSet ⟨.pathEscape,
        "artifact path escapes the backup set: " ++ quoted relativePath⟩)
    | _, _ => .error (.other "RuntimeError" "Symlink loop")

/-- `_hash_artifact` -/
def hashArtifact (artifact : BackupArtifact) : Raising BackupArtifact := do
  let path ← validateContainedPath tree setDir artifact.relativePath
  match tree.readFile path with
  | none =>
    .error (.backupSet ⟨.missingArtifact,
      "contributor declared a missing artifact: " ++ quoted artifact.relativePath⟩)
  | some content =>
    if artifact.sizeBytes ≠ 0 ∧ artifact.sizeBytes ≠ enc.size content then
      .error (.backupSet ⟨.sizeMismatch, "declared size for " ++ quoted artifact.relativePath ++
        " does not match bytes on disk"⟩)
    else if artifact.sha256 ≠ "" ∧ artifact.sha256 ≠ enc.sha256 content then
      .error (.backupSet ⟨.digestMismatch, "declared digest for " ++ quoted artifact.relativePath ++
        " does not match bytes on disk"⟩)
    else
      .ok { artifact with sizeBytes := enc.size content, sha256 := enc.sha256 content }

end

def failureReason : Json → Raising String
  | .obj fields =>
    if fields.isEmpty then .ok "unknown"
    else .ok (((fields.lookup "reason").map pyStr).getD "unknown")
  | failure =>
    if truthy failure then
      .error (.other "AttributeError" (quoted (typeName failure) ++ " object has no attribute 'get'"))
    else .ok "unknown"

def validateContributorResult (provider : String) (result : BackupContributorResult) : Raising Unit := do
  if result.state = .failed then
    let reason ← failureReason result.failure
    .error (.backupSet ⟨.corruptManifest,
      "contributor " ++ quoted provider ++ " failed: " ++ reason⟩)
  else if result.provider ≠ provider then
    .error (.backupSet ⟨.mixedRun, "contributor returned artifacts for " ++ quoted result.provider ++
      ", expected " ++ quoted provider⟩)
  else
    match result.artifacts.find? fun artifact => !(provider ++ "/").toList.isPrefixOf
        artifact.relativePath.toList with
    | some artifact =>
      .error (.backupSet ⟨.pathEscape, "contributor " ++ quoted provider ++
        " wrote outside its owned prefix: " ++ quoted artifact.relativePath⟩)
    | none => .ok ()

/-! ### Creating a set -/

section

variable {β : Type}

def duplicateProvider (seen : List String) : List String → Option String
  | [] => none
  | provider :: rest =>
    if provider ∈ seen then some provider else duplicateProvider (provider :: seen) rest

def rosterError (providers : List String) : Option BackupSetError :=
  match duplicateProvider [] providers with
  | some provider =>
    some ⟨.mixedRun, "duplicate backup contributor for " ++ quoted provider⟩
  | none =>
    let missing := backupProviderOrder.filter fun provider => provider ∉ providers
    let unknown := providers.filter fun provider => provider ∉ backupProviderOrder
    if providers = backupProviderOrder then none
    else if unknown ≠ [] then
      some ⟨.unknownProvider, "unknown backup providers in roster: " ++
        pyRepr (.arr (unknown.map .str))⟩
    else if missing ≠ [] then
      some ⟨.missingProvider, "backup contributor roster must cover the frozen ADR 0049 order; " ++
        "missing providers: " ++ pyRepr (.arr (missing.map .str))⟩
    else
      some ⟨.mixedRun, "backup contributor roster is out of canonical ADR 0049 order: " ++
        pyRepr (.arr (providers.map .str))⟩

/-- `_validate_target` -/
def validateTarget (tree : FileTree β) (target : List String) : Raising Unit :=
  match (tree.resolve target).bind fun p => (tree.node p).map (p, ·) with
  | some (p, .directory) =>
    if tree.hasEntries p then
      .error (.backupSet ⟨.pathEscape, "backup target must be new and empty: /" ++ posix target⟩)
    else .ok ()
  | some (_, .file _) | some (_, .special) => .error (.other "NotADirectoryError" "Not a directory")
  | some (_, .link _) | none => .ok ()

/-- `set_dir.mkdir(parents=True, exist_ok=False)` -/
def makeDirectory (tree : FileTree β) (setDir : List String) : Raising (FileTree β) :=
  match tree.resolve setDir with
  | none => .error (.other "FileExistsError" "File exists")
  | some p =>
    if (tree.node p).isSome then .error (.other "FileExistsError" "File exists")
    else if p.inits.any fun q => (tree.node q).isSome && !tree.isDirectory q then
      .error (.other "NotADirectoryError" "Not a directory")
    else
      .ok ((p.inits.filter fun q => (tree.node q).isNone).foldl (fun t q => t.put q .directory) tree)

/-- What the contributors have returned, and the artifacts with their digests. -/
structure Gathered where
  results : List BackupContributorResult := []
  artifacts : List BackupArtifact := []

def gather (enc : Encoding β) (setDir : List String) (operationId : String) :
    List (String × BackupContributor β) → Gathered → FileTree β →
      FileTree β × Except (List BackupContributorResult × Raised) Gathered
  | [], gathered, tree => (tree, .ok gathered)
  | (provider, contributor) :: rest, gathered, tree =>
    let (tree, answer) := contributor.contribute tree (setDir ++ [provider]) operationId
    match answer.bind fun result => (validateContributorResult provider result).map fun _ => result with
    | .error e =>
      (tree, .error (gathered.results ++ [failContributor provider e.str operationId], e))
    | .ok result =>
      match result.artifacts.mapM (hashArtifact enc tree setDir) with
      | .error e => (tree, .error (gathered.results ++ [result], e))
      | .ok artifacts =>
        gather enc setDir operationId rest
          ⟨gathered.results ++ [result], gathered.artifacts ++ artifacts⟩ tree

/-- `_ensure_failed_record` -/
def ensureFailedRecord (results : List BackupContributorResult) (operationId : String) :
    List BackupContributorResult :=
  results ++ (backupProviderOrder.filter fun provider =>
    provider ∉ results.map BackupContributorResult.provider).map fun provider =>
      failContributor provider "not_attempted" operationId

def writeManifestAtomically (env : BackupEnv β) (tree : FileTree β) (setDir : List String)
    (manifest : BackupSetManifest) : FileTree β × Raising Unit :=
  let refused (text : String) : Raising Unit := .error (.other "OSError" text)
  match env.faults.writeManifest, tree.resolve (setDir ++ [setManifestStagingName]),
      tree.resolve setDir with
  | none, some p, some dir =>
    match tree.node p with
    | some (.directory) | some (.link _) | some (.special) => (tree, refused "Is a directory")
    | none | some (.file _) =>
      if tree.isDirectory p.dropLast ∧ p ≠ [] then
        let tree := tree.put p (.file (env.encoding.dumps (.obj manifest.toDict)))
        -- the entry under the staging name is renamed, be it a link
        match env.faults.replaceManifest, tree.node (dir ++ [setManifestStagingName]) with
        | none, some node =>
          if tree.isDirectory (dir ++ [setManifestName]) then (tree, refused "Is a directory")
          else ((tree.remove (dir ++ [setManifestStagingName])).put (dir ++ [setManifestName]) node,
            .ok ())
        | some text, _ => (tree, refused text)
        | none, none => (tree, refused "No such file or directory")
      else (tree, refused "No such file or directory")
  | some text, _, _ => (tree, refused text)
  | none, _, _ => (tree, refused "Too many levels of symbolic links")

/-- `_failed_result`, recorded unless the operation has no entry -/
def failedBackup (env : BackupEnv β) (w : BackupWorld β) (setId target operationId : String)
    (results : List BackupContributorResult) (failure : Json) : BackupWorld β × Raising BackupCreateResult :=
  let result : BackupCreateResult :=
    { setId, target, state := "failed", accepted := false, failure
      contributors := results.map fun record => .obj record.toDict }
  match w.journal.entry env.naming operationId with
  | none => (w, .ok result)
  | some _ =>
    let (journal, recorded) := alone (journalSemantics env.naming)
      (completeOperation operationId result.toDict) w.journal
    ({ w with journal }, (recorded.mapError .journal).map fun _ => result)

/-- `_result_from_dict` -/
def backupResultFromDict (stored : Dict) : Raising BackupCreateResult := do
  let text (key default : String) := ((stored.lookup key).map pyStr).getD default
  let contributors ← (itemsOf ((stored.lookup "contributors").getD .null)).mapError uncaught
  return { setId := text "set_id" ""
           target := text "target" ""
           state := text "state" "unknown"
           accepted := truthy ((stored.lookup "accepted").getD .null)
           manifest := (stored.lookup "manifest").getD .null
           contributors
           failure := (stored.lookup "failure").getD .null }

/-- `resolved_set_id` -/
def BackupCall.resolvedSetId (call : BackupCall β) (defaults : BackupDefaults) : String :=
  textOr call.setId defaults.newSetId

/-- `set_dir` -/
def BackupCall.setDir (call : BackupCall β) (defaults : BackupDefaults) : List String :=
  if isAbsolute (call.resolvedSetId defaults) then components (call.resolvedSetId defaults)
  else call.target ++ components (call.resolvedSetId defaults)

def BackupCall.operationId (call : BackupCall β) (defaults : BackupDefaults) : String :=
  "backup.create:" ++ call.resolvedSetId defaults

/-- `_default_quiesce` -/
def defaultQuiesce (tree : FileTree β) : FileTree β × Raising Dict :=
  (tree, .ok [("quiesced", .bool true), ("strategy", .str "coordinator-default")])

def manifestOf (call : BackupCall β) (defaults : BackupDefaults) (quiesce : Dict)
    (gathered : Gathered) : BackupSetManifest where
  schemaVersion := backupSetSchemaVersion
  setId := call.resolvedSetId defaults
  sourceDeploymentId := textOr call.deploymentId defaults.deploymentId
  createdAt := defaults.now
  versions :=
    match call.versions with
    | some versions => if versions.items.isEmpty then defaults.packageVersions else versions
    | none => defaults.packageVersions
  quiesce := quiesce
  contributors := gathered.results
  artifacts := sortBy (fun artifact => toLex (artifact.provider, artifact.relativePath))
    gathered.artifacts
  complete := true

def createGathered (env : BackupEnv β) (call : BackupCall β) (quiesce : Dict) (w : BackupWorld β) :
    BackupWorld β × Raising BackupCreateResult :=
  let setId := call.resolvedSetId env.defaults
  let operationId := call.operationId env.defaults
  let setDir := call.setDir env.defaults
  let target := "/" ++ posix call.target
  let made : Raising (FileTree β) := match env.faults.makeDirectory with
    | some text => .error (.other "OSError" text)
    | none => makeDirectory w.tree setDir
  match made with
  | .error e =>
    failedBackup env w setId target operationId (ensureFailedRecord [] operationId) (sanitizeFailure e)
  | .ok tree =>
    match gather env.encoding setDir operationId call.contributors {} tree with
    | (tree, .error (results, e)) =>
      failedBackup env { w with tree } setId target operationId
        (ensureFailedRecord results operationId) (sanitizeFailure e)
    | (tree, .ok gathered) =>
      let manifest := manifestOf call env.defaults quiesce gathered
      match writeManifestAtomically env tree setDir manifest with
      | (tree, .error e) =>
        failedBackup env { w with tree } setId target operationId gathered.results (sanitizeFailure e)
      | (tree, .ok _) =>
        let result : BackupCreateResult :=
          { setId, target, state := "succeeded", accepted := true
            manifest := .obj manifest.toDict
            contributors := gathered.results.map fun record => .obj record.toDict }
        let (journal, recorded) := alone (journalSemantics env.naming)
          (completeOperation operationId result.toDict) w.journal
        ({ journal, tree }, (recorded.mapError .journal).map fun _ => result)

def createClaimed (env : BackupEnv β) (call : BackupCall β) (w : BackupWorld β) :
    BackupWorld β × Raising BackupCreateResult :=
  let setId := call.resolvedSetId env.defaults
  let operationId := call.operationId env.defaults
  let target := "/" ++ posix call.target
  match alone (journalSemantics env.naming)
      (claimOperation operationId call.subject "backup.create" target setId) w.journal with
  | (journal, .error e) => ({ w with journal }, .error (.journal e))
  | (journal, .ok _) =>
    match (call.quiesce.getD defaultQuiesce) w.tree with
    | (tree, .error e) =>
      failedBackup env { journal, tree } setId target operationId [] (sanitizeFailure e)
    | (tree, .ok quiesce) =>
      match alone (journalSemantics env.naming) (markSubmitted operationId) journal with
      | (journal, .error e) =>
        failedBackup env { journal, tree } setId target operationId [] (sanitizeFailure (.journal e))
      | (journal, .ok _) => createGathered env call quiesce { journal, tree }

/-- `create_backup_set` -/
def createBackupSet (env : BackupEnv β) (call : BackupCall β) (w : BackupWorld β) :
    BackupWorld β × Raising BackupCreateResult :=
  match rosterError (call.contributors.map Prod.fst) with
  | some e => (w, .error (.backupSet e))
  | none =>
    match (alone (journalSemantics env.naming) (readOrReplay (call.operationId env.defaults))
        w.journal).2 with
    | .error e => (w, .error (.journal e))
    | .ok (some stored) => (w, backupResultFromDict stored)
    | .ok none =>
      match validateTarget w.tree call.target with
      | .error e => (w, .error e)
      | .ok _ => createClaimed env call w

end

/-! ### Verifying a set -/

section

variable {β : Type} (enc : Encoding β) (tree : FileTree β) (setDir : List String)

def providerVerificationReasons (manifest : BackupSetManifest) : List BackupVerificationReason :=
  let declared := manifest.contributors.map BackupContributorResult.provider
  ((backupProviderOrder.filter fun provider => provider ∉ declared).map fun _ => .missingProvider) ++
    declared.flatMap fun provider =>
      (if provider ∈ backupProviderOrder then [] else [.unknownProvider]) ++
        if declared.count provider > 1 then [.mixedRun] else []

def manifestVerificationReasons (manifest : BackupSetManifest)
    (expectedDeploymentId : Option String) : List BackupVerificationReason :=
  let operationIds := (manifest.contributors.map BackupContributorResult.operationId).filter (· ≠ "")
  (if !manifest.complete || manifest.contributors.any fun record => record.state != .succeeded then
    [.partialSet] else []) ++
  (if manifest.sourceDeploymentId = "" ∨ (expectedDeploymentId.isSome ∧
      some manifest.sourceDeploymentId ≠ expectedDeploymentId) then [.wrongOwner] else []) ++
  (if (manifest.versions.get "phlo").getD "" = "" then [.incompatibleVersion] else []) ++
  if operationIds.dedup.length > 1 ∨
      ∃ operationId ∈ operationIds, operationId ≠ "backup.create:" ++ manifest.setId
    then [.mixedRun] else []

/-- What is wrong with one artifact on disk. -/
def artifactReasons (artifact : BackupArtifact) : Raising (List BackupVerificationReason) :=
  if tree.isSymlink (FileTree.join setDir artifact.relativePath) then .ok [.symlink]
  else
    match validateContainedPath tree setDir artifact.relativePath with
    | .error (.backupSet _) => .ok [.pathEscape]
    | .error e => .error e
    | .ok path =>
      match tree.readFile path with
      | none => .ok [.missingArtifact]
      | some content =>
        .ok ((if (enc.size content : ℤ) ≠ artifact.sizeBytes then [.sizeMismatch] else []) ++
          if enc.sha256 content ≠ artifact.sha256 then [.digestMismatch] else [])

/-- The regular files in the set directory. -/
def diskPaths : List String :=
  match tree.resolve setDir with
  | some dir => (tree.filesBelow dir).map posix
  | none => []

def artifactVerificationReasons (manifest : BackupSetManifest) : Raising (List BackupVerificationReason) := do
  let reasons ← manifest.artifacts.mapM (artifactReasons enc tree setDir)
  let declared := manifest.artifacts.map BackupArtifact.relativePath
  return reasons.flatten ++
    if (diskPaths tree setDir).all fun path => path ∈ declared ∨ path = setManifestName then []
    else [.extraArtifact]

/-- `_verify_failed` -/
def verifyFailed (setId : String) (reasons : List BackupVerificationReason) (manifest : Option Dict) :
    BackupVerifyResult where
  setId := setId
  state := "failed"
  accepted := false
  reasons := reasons
  manifest := manifest

/-- `_extract_set_id` -/
def extractSetId (payload : Json) : String :=
  match getKey payload "set_id" with
  | .str setId => setId
  | _ => ""

/-- `verify_backup_set` -/
def verifyBackupSet (expectedDeploymentId : Option String) : Raising BackupVerifyResult :=
  match tree.readPath (setDir ++ [setManifestName]) with
  | none => .ok (verifyFailed "" [.missingManifest] none)
  | some content =>
    match enc.loads content with
    | none => .ok (verifyFailed "" [.corruptManifest] none)
    | some payload =>
      match BackupSetManifest.fromDict payload with
      | .error (.backupSet e) =>
        let reason := if e.reason = .unknownSchemaVersion then .unknownSchemaVersion
          else .corruptManifest
        .ok (verifyFailed (extractSetId payload) [reason] none)
      | .error e => .error e
      | .ok manifest => do
        let artifactReasons ← artifactVerificationReasons enc tree setDir manifest
        let reasons := (providerVerificationReasons manifest ++
          manifestVerificationReasons manifest expectedDeploymentId ++ artifactReasons).eraseDups
        if reasons.isEmpty then
          return { setId := manifest.setId, state := "succeeded", accepted := true
                   manifest := some manifest.toDict }
        else return verifyFailed manifest.setId reasons (some manifest.toDict)

end

end Phlo.Operations
