import Mathlib
import Phlo.Compose.Artifacts
import Phlo.Library.Fallible

/-!
# The layout migration

`phlo services migrate` moves personal files aside and brings exported artifacts back into `.phlo`.  First it
plans: which file moves where, and which files are written.  Then it applies the plan with a journal of the
original contents, from which it puts everything back when a call to the system fails.

Locations are those from the directory of the project.  A plan that is refused is an error with its text.
-/

namespace Phlo.Services

open Phlo.Library
open Phlo.Compose

/-- What the command takes from its process and from packages outside. -/
structure Host (β : Type) where
  /-- the text of a file's bytes, or the error of reading them -/
  readText : β → Except String String
  /-- `text.encode()` -/
  encode : String → β
  /-- `yaml.safe_load(text)`; none is a `YAMLError` -/
  safeLoad : String → Option Yaml
  /-- `yaml.safe_dump(value, sort_keys=False)` -/
  safeDump : Yaml → String
  /-- the destinations of the files of a discovered service -/
  discover : String → Option (List String)
  environ : List (String × String)
  requiresHttpAuthorization : Bool
  /-- where the directory of the project is -/
  project : Location
  /-- the permissions of a file that is created with these -/
  created : ℕ → ℕ
  /-- the order in which the elements of a set are visited -/
  textOrder : List String → List String
  pathOrder : List Location → List Location
  textOrder_perm : ∀ l, (textOrder l).Perm l
  pathOrder_perm : ∀ l, (pathOrder l).Perm l

variable {β : Type}

/-! ### Compose documents -/

/-- How a letter is compared when case is ignored. -/
def foldCase (c : Char) : Char :=
  if c.toNat = 0x17f then 's'
  else if c.toNat = 0x212a then 'k'
  else if c.toNat = 0x130 ∨ c.toNat = 0x131 then 'i'
  else c.toLower

def matchesFront : List (Option Char) → List Char → Bool
  | [], _ => true
  | some p :: ps, c :: cs => foldCase c = p && matchesFront ps cs
  | none :: ps, c :: cs => c ≠ '\n' && matchesFront ps cs
  | _ :: _, [] => false

/-- `password|secret|token|credential|private.key` -/
def sensitivePatterns : List (List (Option Char)) :=
  ["password", "secret", "token", "credential"].map (fun word => word.toList.map some) ++
    ["private".toList.map some ++ [none] ++ "key".toList.map some]

def isSensitive (key : String) : Bool :=
  key.toList.tails.any fun text => sensitivePatterns.any fun pattern => matchesFront pattern text

/-- `isinstance(value, (str, int))` -/
def isTextOrInteger : Yaml → Bool
  | .scalar (.str _) | .scalar (.int _) | .scalar (.bool _) => true
  | _ => false

def scalarText : Yaml → String
  | .scalar s => s.text
  | _ => ""

/-- A value under a key of a mapping. -/
def checkLiteral (key : String) (item : Yaml) : Except String Unit :=
  if isSensitive key && isTextOrInteger item && scalarText item ≠ "" && !"$\x7b".toList.isPrefixOf (scalarText item).toList
  then .error ("Inline credential at " ++ key ++ "; replace it with an environment reference first.")
  else .ok ()

mutual

/-- `_check_literals` -/
def checkLiterals : Yaml → Except String Unit
  | .map entries => checkEntries entries
  | .list items => checkItems items
  | .scalar _ => .ok ()

def checkEntries : Yaml.Entries → Except String Unit
  | [] => .ok ()
  | (key, item) :: entries => do
    checkLiteral key.text item
    checkLiterals item
    checkEntries entries

def checkItems : List Yaml → Except String Unit
  | [] => .ok ()
  | item :: items => do
    match item with
    | .scalar (.str text) =>
      match RunEvidence.partition '=' text.toList with
      | (key, true, content) => checkLiteral (String.ofList key) (.str (String.ofList content))
      | _ => .ok ()
    | _ => checkLiterals item
    checkItems items

end

/-- Where an environment file of the old layout is now. -/
def rewritePath (path : String) : String :=
  if path = ".env" ∨ path = "./.env" then "overrides/.env"
  else if path = ".env.local" ∨ path = "./.env.local" then "secrets/.env"
  else path

mutual

def rewriteEnvFile : Yaml → Yaml
  | .scalar (.str path) => .str (rewritePath path)
  | .map entries => .map (rewriteEnvEntries entries)
  | value => value

def rewriteEnvEntries : Yaml.Entries → Yaml.Entries
  | [] => []
  | (key, item) :: entries =>
    (key, if key = .str "path" then rewriteEnvFile item else item) :: rewriteEnvEntries entries

end

/-- The value of `env_file`: one file, or a list of them. -/
def rewriteEnvFiles : Yaml → Yaml
  | .list items => .list (items.map rewriteEnvFile)
  | value => rewriteEnvFile value

def rewriteService : YamlScalar × Yaml → Except String (YamlScalar × Yaml)
  | (name, .map config) =>
    match Yaml.find "env_file" config with
    | some value => .ok (name, .map (Yaml.put "env_file" (rewriteEnvFiles value) config))
    | none => .ok (name, .map config)
  | (name, _) => .error ("Invalid Compose service: " ++ name.text)

/-- `_rewrite_compose` -/
def rewriteCompose (h : Host β) (content : String) (shared : Bool) : Except String String :=
  match h.safeLoad content with
  | none => .error "Invalid Compose configuration"
  | some (.map compose) =>
    match Yaml.find "services" compose with
    | some (.map services) => do
      if shared then checkLiterals (.map compose)
      let services ← services.mapM rewriteService
      .ok (sharedLayoutMarker ++ "\n" ++ h.safeDump (.map (Yaml.put "services" (.map services) compose)))
    | _ => .error "Compose must contain a services mapping."
  | some _ => .error "Compose must contain a services mapping."

/-! ### What moves -/

abbrev Move := Location × Location

/-- The files with a place of their own in the new layout. -/
def personalMoves : List Move :=
  [([".phlo", ".env"], [".phlo", "overrides", ".env"]),
    ([".phlo", ".env.local"], [".phlo", "secrets", ".env"]),
    ([".phlo", "compose.local.yaml"], [".phlo", "overrides", "compose.yaml"]),
    (["compose.phlo.yaml"], [".phlo", "compose.shared.yaml"]),
    (["compose.phlo.windows.yaml"], [".phlo", "compose.windows.yaml"]),
    (["compose.phlo.linux.yaml"], [".phlo", "compose.linux.yaml"]),
    (["compose.phlo.macos.yaml"], [".phlo", "compose.macos.yaml"])]

/-- `project / "phlo-runtime"` -/
def legacy : Location := ["phlo-runtime"]

section

variable (t : FileTree (Stored β))

/-- `_regular_path` -/
def regularPath (p : Location) : Except String Unit := do
  require (p.inits.any t.isLink = false) ("Symlink cannot be migrated: " ++ posix p)
  require (t.present p = true → (t.readFile p).isSome) ("Expected a file: " ++ posix p)

/-- The move of something below the exported artifacts, if it is a file. -/
def legacyMove (source : Location) : Except String (Option Move) := do
  require (t.isLink source = false) "Symlink cannot be migrated in phlo-runtime"
  let relative := source.drop legacy.length
  if (t.readFile source).isNone then .ok none
  else if source.getLast? = some ".gitattributes" then .ok (some (source, ".phlo" :: relative))
  else do
    let _ ← sharedArtifactsAt t legacy relative (posix relative)
    .ok (some (source, ".phlo" :: relative))

def legacyMoves : Except String (List Move) := do
  require (t.isLink legacy = false) "Symlink cannot be migrated: phlo-runtime"
  let below := if t.present legacy then (withDescendants t legacy).tail else []
  let moves ← (sortBy (fun p => p) below).mapM (legacyMove t)
  .ok (moves.filterMap fun move => move)

variable [DecidableEq β]

def checkMove (move : Move) : Except String Unit := do
  regularPath t move.1
  regularPath t move.2
  require (t.present move.2 = true → t.contentAt move.2 = t.contentAt move.1)
    ("Conflicting destination " ++ posix move.2 ++ "; reconcile the files before migrating.")

/-- `_migration_moves`; a file that is there and a link that leads nowhere are nodes. -/
def migrationMoves : Except String (List Move) := do
  let personal := personalMoves.filter fun move => (t.node move.1).isSome
  let exported ← legacyMoves t
  let moves := personal ++ exported
  moves.forM (checkMove t)
  .ok moves

/-! ### What is shared -/

/-- `(base / relative)` as it is spelt; none for a place outside the project. -/
def lexical (h : Host β) (relative : String) : Option Location :=
  if isAbsolute relative then
    if h.project <+: components relative then some ((components relative).drop h.project.length) else none
  else some (".phlo" :: components relative)

/-- `"compose.*.yaml"` -/
def isLayerName (name : String) : Bool :=
  "compose.".toList.isPrefixOf name.toList && ".yaml".toList.isSuffixOf name.toList && 13 ≤ name.length

/-- What an included path shares; nothing if only a move puts something there. -/
def includedFiles (h : Host β) (moves : List Move) (relative : String) : Except String (List Location) :=
  let waits := match lexical h relative with
    | some p => !t.present p && moves.any fun move => p.isPrefixOf move.2
    | none => false
  if waits then .ok [] else sharedArtifactFiles t [".phlo"] relative

def serviceNames (compose : Yaml) : List String :=
  match compose.field "services" with
  | some (.map services) => services.map fun entry => entry.1.text
  | _ => []

def migrationSharedFiles (h : Host β) (compose : Yaml) (moves : List Move) (includes : List String) :
    Except String (List String) := do
  let targets := moves.filterMap fun move =>
    if move.2.dropLast = [".phlo", "overrides"] ∨ move.2.dropLast = [".phlo", "secrets"] then none
    else some (posix move.2.tail)
  let candidates := (t.nodes.items.map Prod.fst).filter fun p =>
    p.length = 2 ∧ p.head? = some ".phlo" ∧ p.tail.any fun name => isLayerName name && name ≠ "compose.local.yaml"
  candidates.forM (regularPath t)
  let paths := (includes ++ (serviceNames compose).flatMap fun name => (h.discover name).getD []).dedup
  let files ← (h.textOrder paths).mapM (includedFiles t h moves)
  .ok (["docker-compose.yml", ".gitignore", ".gitattributes"] ++ targets ++
    candidates.map (fun p => posix p.tail) ++ files.flatten.map fun p => posix p.tail)

/-! ### What is written -/

/-- `target.name.startswith("compose.") and target.suffix == ".yaml"` -/
def isComposeLayer (target : Location) : Bool :=
  target.getLast?.any fun name => "compose.".toList.isPrefixOf name.toList && ".yaml".toList.isSuffixOf name.toList

def dockerCompose : Location := [".phlo", "docker-compose.yml"]

def rootIgnore : Location := [".gitignore"]

def innerIgnore : Location := [".phlo", ".gitignore"]

def attributesPath : Location := [".phlo", ".gitattributes"]

def hostPath : Location := [".phlo", "overrides", "compose.host.yaml"]

/-- `path.read_text()` of a regular file. -/
def readText (h : Host β) (p : Location) : Except String String :=
  match t.contentAt p with
  | some content => h.readText content
  | none => .error ("Is not a file: " ++ posix p)

/-- `path.read_text() if path.exists() else ""` -/
def readTextOrEmpty (h : Host β) (p : Location) : Except String String :=
  if t.present p then readText t h p else .ok ""

/-- The text of a moved layer at its target. -/
def layerContent (h : Host β) (move : Move) : Except String β := do
  let text ← readText t h move.1
  let text ← rewriteCompose h text (move.2.dropLast ≠ [".phlo", "overrides"])
  .ok (h.encode text)

/-- The text of the root `.gitignore`. -/
def rootIgnoreText (old : String) : String :=
  let lines := (splitLines old.toList).filter fun line =>
    !List.contains [".phlo", ".phlo/", "/.phlo", "/.phlo/"] (String.ofList (trim Char.isWhitespace line))
  let lines := if lines.contains "!/.phlo/".toList then lines else lines ++ ["!/.phlo/".toList]
  String.ofList (['
'].intercalate lines ++ ['
'])

def hasServices (compose : Yaml) : Bool := serviceNames compose ≠ []

def hostWrite (h : Host β) (hostCompose : Yaml) (writes : OrderedDict Location β) :
    Except String (OrderedDict Location β) := do
  if hasServices hostCompose then
    regularPath t hostPath
    let content := h.encode (h.safeDump hostCompose)
    require (t.present hostPath = true → t.contentAt hostPath = some content)
      "Conflicting overrides/compose.host.yaml; reconcile before migrating."
    .ok (writes.set hostPath content)
  else .ok writes

section

-- by name, so that the definition carries no anonymous proof
local instance lawfulBEq_location : LawfulBEq Location := inferInstanceAs (LawfulBEq (List String))

def attributesWrite (h : Host β) (moves : List Move) (writes : OrderedDict Location β) : OrderedDict Location β :=
  if t.present attributesPath = false ∧ attributesPath ∉ moves.map Prod.snd then
    writes.set attributesPath (h.encode "* text=auto eol=lf\n")
  else writes

end

def layerWrites (h : Host β) (moves : List Move) : Except String (List (Location × β)) :=
  (moves.filter fun move => isComposeLayer move.2).mapM fun move => do
    let content ← layerContent t h move
    .ok (move.2, content)

/-- `_migration_writes` -/
def migrationWrites (h : Host β) (rewritten : String) (hostCompose : Yaml) (moves : List Move)
    (shared : List String) : Except String (OrderedDict Location β) := do
  let layers ← layerWrites t h moves
  let writes := OrderedDict.ofList ((dockerCompose, h.encode rewritten) :: layers)
  [rootIgnore, innerIgnore, attributesPath].forM (regularPath t)
  let rootText ← readTextOrEmpty t h rootIgnore
  let writes := writes.set rootIgnore (h.encode (rootIgnoreText rootText))
  let old ← readTextOrEmpty t h innerIgnore
  let innerText ← renderSharedGitignore (sortedSet shared) old
  let writes := writes.set innerIgnore (h.encode innerText)
  hostWrite t h hostCompose (attributesWrite t h moves writes)

/-! ### The plan -/

def isTrueText (text : String) : Bool := ["1", "true", "yes", "on"].contains text

/-- `value.strip().lower()` -/
def stripLower (value : String) : String := String.ofList ((trim Char.isWhitespace value.toList).map Char.toLower)

def withoutQuotes (value : List Char) : List Char :=
  match value, value.getLast? with
  | '"' :: _ :: _, some '"' | '\'' :: _ :: _, some '\'' => value.tail.dropLast
  | _, _ => value

/-- `parse_env_file(path, strip_quotes=True)` of a text, one assignment after the other. -/
def parseEnvLine (line : List Char) : Option (String × String) :=
  let trimmed := trim Char.isWhitespace line
  match RunEvidence.partition '=' trimmed with
  | (key, true, value) =>
    if trimmed.head? = some '#' then none
    else some (String.ofList key, String.ofList (withoutQuotes (trim Char.isWhitespace value)))
  | _ => none

def isProtectedSource (source : List (String × String)) : Bool :=
  let value := fun key => stripLower ((OrderedDict.lastOf key source).getD "")
  ["prod", "production", "staging", "regulated"].contains (value "PHLO_ENVIRONMENT") ||
    isTrueText (value "PHLO_REGULATED") || isTrueText (value "PHLO_REGULATED_MODE")

/-- `project_env_paths` -/
def projectEnvPaths : List Location :=
  [[".phlo", ".env"], [".phlo", ".env.local"], [".phlo", "overrides", ".env"], [".phlo", "secrets", ".env"]]

/-- The assignments of an environment file; one that cannot be read has none. -/
def envSource (h : Host β) (p : Location) : Except String (List (String × String)) :=
  match t.contentAt p with
  | none => .ok []
  | some content => do
    let text ← h.readText content
    .ok ((splitLines text.toList).filterMap parseEnvLine)

def validateDevelopmentComposeLayers (h : Host β) : Except String Unit := do
  let sources ← projectEnvPaths.mapM (envSource t h)
  require (h.requiresHttpAuthorization = false ∧ (sources ++ [h.environ]).any isProtectedSource = false)
    ("Compose override layers are supported only for development. " ++
      "Remove the layers and use phlo.yaml for production configuration.")

/-- `user_error` of a project without services. -/
def uninitialized (missing : String) : String :=
  "Phlo services have not been initialized\n\nMissing: " ++ missing ++ "\n\nRun: phlo services init"

structure MigrationPlan (β : Type) where
  moves : List Move
  writes : OrderedDict Location β

def splitBase (h : Host β) : Except String (Yaml × Yaml) := do
  let text ← readText t h dockerCompose
  let rewritten ← rewriteCompose h text true
  match (h.safeLoad rewritten).bind (splitHostCompose h.textOrder) with
  | some split => .ok split
  | none => .error "TypeError"

/-- `migrate_cmd` as far as it only reads. -/
def migrationPlan (h : Host β) (includes : List String) : Except String (MigrationPlan β) := do
  require (t.present [".phlo"] = true) (uninitialized ".phlo/")
  require (t.present dockerCompose = true) (uninitialized ".phlo/docker-compose.yml")
  regularPath t dockerCompose
  validateDevelopmentComposeLayers t h
  let (compose, hostCompose) ← splitBase t h
  let moves ← migrationMoves t
  let shared ← migrationSharedFiles t h compose moves includes
  let writes ← migrationWrites t h (sharedLayoutMarker ++ "\n" ++ h.safeDump compose) hostCompose moves shared
  .ok ⟨moves, writes⟩

end

/-! ### Applying it -/

section

variable [DecidableEq β] (h : Host β) (faults : ℕ → FileFault β)

/-- The directories above a location, the nearest first. -/
def parents (p : Location) : List Location := (List.range p.length).reverse.map fun n => p.take n

def pathExists (p : Location) : FileProcedure β Bool := askSystem faults fun d => some (d.tree.present p)

/-- The directories that are missing above a location, the nearest first. -/
def missingParents : List Location → FileProcedure β (List Location)
  | [] => pure []
  | parent :: rest => do
    if ← pathExists faults parent then pure []
    else
      let missing ← missingParents rest
      pure (parent :: missing)

def makeParents (p : Location) : FileProcedure β PUnit := do
  let missing ← missingParents faults (parents p)
  missing.reverse.forM (mkdir faults)

def applyMove (move : Move) : FileProcedure β PUnit := do
  if ← pathExists faults move.2 then changeTree faults fun t => t.removeFile move.1
  else changeTree faults fun t => t.renameFile move.1 move.2

abbrev Originals (β : Type) := List (Location × Option (Stored β))

/-- A file's content and permissions, if it is there. -/
def takeOriginal (p : Location) : FileProcedure β (Location × Option (Stored β)) := do
  if ← pathExists faults p then
    let stored ← askSystem faults fun d => d.tree.readFile p
    pure (p, some stored)
  else pure (p, none)

/-- Everything inside the `try` block. -/
def relocate (affected : List Location) (plan : MigrationPlan β) : FileProcedure β PUnit := do
  affected.forM (makeParents faults)
  plan.moves.forM (applyMove faults)
  plan.writes.items.forM fun item => writeContent faults (h.created 0o666) item.1 item.2

def isChanged (p : Location) (content : β) : FileProcedure β Bool := do
  if ← pathExists faults p then
    let stored ← askSystem faults fun d => d.tree.readFile p
    pure (stored.content ≠ content)
  else pure true

def putBack : Location × Option (Stored β) → FileProcedure β PUnit
  | (p, none) => changeTree faults fun t => t.removeIfPresent p
  | (p, some stored) => do
    if ← isChanged faults p stored.content then
      -- a file that is created again has its permissions before it has its content
      writeContent faults (h.created (stored.mode % 0o1000)) p stored.content
      changeTree faults fun t => t.changeMode p stored.mode

/-- The `except` block. -/
def restoreOriginals (originals : Originals β) : FileProcedure β PUnit := do
  originals.forM (putBack h faults)
  let made ← askSystem faults fun d => some d.made
  made.forM fun directory => changeTree faults fun t => t.removeDirectory directory

def directoriesBelow (t : FileTree (Stored β)) (p : Location) : List Location :=
  sortBy (fun q => -(q.length : ℤ)) ((withDescendants t p).tail.filter t.isDirectory)

def removeLegacy : FileProcedure β PUnit := do
  if ← pathExists faults legacy then
    let directories ← askSystem faults fun d => some (directoriesBelow d.tree legacy)
    directories.forM fun directory => changeTree faults fun t => t.removeDirectory directory
    changeTree faults fun t => t.removeDirectory legacy

/-- How a migration ends: what it has read before the `try` block raises, or a call inside is refused and
everything is put back or not, or the empty directories cannot be removed. -/
inductive MigrationOutcome where
  | returned
  | unread
  | restored
  | unrestored
  | legacyKept
  deriving DecidableEq

/-- `set(writes) | {path for pair in moves for path in pair}` -/
def affected (plan : MigrationPlan β) : List Location :=
  h.pathOrder (plan.writes.items.map Prod.fst ++ plan.moves.flatMap fun move => [move.1, move.2]).dedup

/-- `_apply_migration`, on a tree in which it has made no directory yet. -/
def applyMigration (plan : MigrationPlan β) (t : FileTree (Stored β)) : MigrationOutcome × Disk β :=
  match (affected h plan).mapM (takeOriginal faults) (⟨t, []⟩, 0) with
  | (.error _, s) => (.unread, s.1)
  | (.ok originals, s) =>
    match relocate h faults (affected h plan) plan s with
    | (.error _, s) =>
      match restoreOriginals h faults originals s with
      | (.error _, s) => (.unrestored, s.1)
      | (.ok _, s) => (.restored, s.1)
    | (.ok _, s) =>
      match removeLegacy faults s with
      | (.error _, s) => (.legacyKept, s.1)
      | (.ok _, s) => (.returned, s.1)

end

end Phlo.Services
