import Phlo.Library.Fallible
import Phlo.Library.FaultyFiles
import Phlo.Library.KeyedSort
import Phlo.Library.TextLines
import Phlo.Library.YamlValue
import Phlo.RunEvidence.TextRedaction

/-!
# Shared artifacts and Compose layers

Which files of a project may be shared, the `.gitignore` that shares them, and the split of a rendered
Compose document into a portable base and the changes of one host.  What raises is an error with its text.
-/

namespace Phlo.Compose

open Phlo.Library
open Phlo.RunEvidence (partition splitOn)

/-! ### Artifact files -/

def privateNames : List String :=
  ["overrides", "secrets", "volumes", "logs", "audit", "contracts", "wheelhouse", "__pycache__",
    "docker-compose.yml", "compose.local.yaml", "pyproject.toml", "uv.lock"]

def startsWithDot (name : String) : Bool := name.toList.head? = some '.'

def isPrivate (part : String) : Bool := startsWithDot part || privateNames.contains part

def forwardSlashes (text : String) : String := String.ofList (text.toList.map fun c => if c = '\\' then '/' else c)

/-- `PureWindowsPath(text).drive` is not empty: two slashes, or a colon after the first character. -/
def hasWindowsDrive (text : String) : Bool :=
  match (forwardSlashes text).toList with
  | '/' :: '/' :: _ => true
  | _ :: ':' :: _ => true
  | _ => false

/-- `path.is_absolute() or windows_path.drive or ".." in path.parts or ".." in windows_path.parts` -/
def leavesRoot (relative : String) : Bool :=
  isAbsolute relative || hasWindowsDrive relative || (components relative).contains ".." ||
    (components (forwardSlashes relative)).contains ".."

section

variable {β : Type} (tree : FileTree (Stored β))

/-- A location and everything below it, as `rglob` finds it. -/
def withDescendants (p : Location) : List Location :=
  p :: (tree.nodes.items.map Prod.fst).filter fun q => p <+: q ∧ q ≠ p

def artifactCandidates (source : Location) : List Location :=
  if tree.isDirectory source then withDescendants tree source else [source]

def checkArtifact (root : Location) (relative : String) (candidate : Location) : Except String Unit := do
  require ((candidate.drop root.length).any isPrivate = false)
    ("Private/runtime path cannot be shared: " ++ relative)
  require ((candidate.inits.any fun p => root.isPrefixOf p && tree.isLink p) = false)
    ("Symlink cannot be shared: " ++ relative)

/-- `shared_artifact_files` for a path that is written as `relative`; the files are locations from the root of
the tree. -/
def sharedArtifactsAt (root path : Location) (relative : String) : Except String (List Location) := do
  require (leavesRoot relative = false) ("Artifact path must be relative: " ++ relative)
  require (tree.present (root ++ path) = true) ("Missing artifact: " ++ relative)
  let candidates := artifactCandidates tree (root ++ path)
  candidates.forM (checkArtifact tree root relative)
  .ok (candidates.filter fun candidate => (tree.readFile candidate).isSome)

/-- `shared_artifact_files` -/
def sharedArtifactFiles (root : Location) (relative : String) : Except String (List Location) :=
  sharedArtifactsAt tree root (components relative) relative

end

/-! ### The shared `.gitignore` -/

def sharedLayoutMarker : String := "# Phlo shared layout v1"

def endMarker : String := "# End Phlo shared layout"

def throughPattern (pattern : List Char) : List Char → Option (List Char × List Char)
  | [] => if pattern = [] then some ([], []) else none
  | c :: cs =>
    if pattern.isPrefixOf (c :: cs) then some (pattern, (c :: cs).drop pattern.length)
    else (throughPattern pattern cs).map fun found => (c :: found.1, found.2)

def findBlocks : ℕ → List Char → List (List Char) × List Char
  | _, [] => ([], [])
  | 0, text => ([], text)
  | fuel + 1, c :: cs =>
    let marker := sharedLayoutMarker.toList
    let block :=
      if marker.isPrefixOf (c :: cs) then
        (throughPattern endMarker.toList ((c :: cs).drop marker.length)).map fun found =>
          (marker ++ found.1, found.2)
      else none
    match block with
    | some (text, rest) =>
      let (blocks, outside) := findBlocks fuel rest
      (text :: blocks, outside)
    | none =>
      let (blocks, outside) := findBlocks fuel cs
      (blocks, c :: outside)

/-- `re.sub(r"\\(.)", r"\1", text)` -/
def unescape : List Char → List Char
  | '\\' :: c :: cs => if c = '\n' then '\\' :: unescape (c :: cs) else c :: unescape cs
  | c :: cs => c :: unescape cs
  | [] => []

def sharedLine (line : List Char) : Option String :=
  match line with
  | '!' :: '/' :: rest => if line.getLast? = some '/' then none else some (String.ofList (unescape rest))
  | _ => none

/-- `_ignore_literal` -/
def ignoreLiteral (path : String) : String :=
  String.ofList (path.toList.flatMap fun c => if "\\*?[] ".toList.contains c then ['\\', c] else [c])

def shareLines (parents : List String) (path : String) : List String × List String :=
  let parts := components path
  let above := (parts.inits.dropLast.filter (· ≠ [])).map posix
  let new := above.filter fun parent => !parents.contains parent
  (new.map (fun parent => "!/" ++ ignoreLiteral parent ++ "/") ++ ["!/" ++ ignoreLiteral (posix parts)],
    parents ++ new)

def alwaysShared : List String :=
  [".gitignore", ".gitattributes", "docker-compose.yml", "compose.shared.yaml", "compose.windows.yaml",
    "compose.linux.yaml", "compose.macos.yaml"]

def alwaysIgnored : List String :=
  ["/overrides/", "/secrets/", "/volumes/", "/logs/", "/audit/", "/contracts/", "/wheelhouse/",
    "/pyproject.toml", "/uv.lock", ".env", ".env.*"]

def renderSharedGitignore (paths : List String) (existing : String) : Except String String := do
  let (blocks, outside) := findBlocks existing.toList.length existing.toList
  let previous := blocks.flatMap fun block => (splitLines block).filterMap sharedLine
  let shared := sortedSet (alwaysShared ++ paths ++ previous)
  shared.forM fun name =>
    require ((isAbsolute name || (components name).contains ".." || name.toList.contains '\n' ||
      name.toList.contains '\r') = false) ("Invalid shared artifact path: " ++ name)
  let kept := (outside.reverse.dropWhile Char.isWhitespace).reverse
  let start := (if kept = [] then [] else [String.ofList kept]) ++ [sharedLayoutMarker, "*"]
  let lines := (shared.foldl (fun (done, parents) name =>
    let (lines, parents) := shareLines parents name
    (done ++ lines, parents)) (start, [])).1
  .ok ("\n".intercalate (lines ++ alwaysIgnored ++ [endMarker, ""]))

/-! ### The layers of a host -/

/-- The name in an entry `NAME=value` of an environment. -/
def entryName (entry : String) : String := String.ofList (partition '=' entry.toList).1

/-- `re.fullmatch(r"\d+:\d+", text)` -/
def isUserPair (text : String) : Bool :=
  match splitOn ':' text.toList with
  | [uid, gid] => uid ≠ [] ∧ gid ≠ [] ∧ uid.all Char.isDigit ∧ gid.all Char.isDigit
  | _ => false

/-- The names in an environment that belong to one host. -/
def hostKeys (name : String) : List String :=
  "PHLO_DEV_MODE" ::
    if ["dagster", "dagster-daemon", "dagster-code"].contains name then ["PHLO_RUNTIME_UID", "PHLO_RUNTIME_GID"]
    else []

def isHostEntry (keys : List String) : Yaml → Bool
  | .scalar (.str item) => keys.contains (entryName item)
  | _ => false

def isLocalMount : Yaml → Bool
  | .map entries =>
    match Yaml.find "target" entries with
    | some (.scalar (.str target)) => target = "/opt/phlo-dev"
    | _ => false
  | .scalar (.str mount) => (splitOn ':' mount.toList).tail.contains "/opt/phlo-dev".toList
  | _ => false

/-- The identities taken out of an environment, and what is left of it; the keys are visited in an order of
the host's. -/
def splitEnvironment (order : List String → List String) (name : String) (config : Yaml.Entries) :
    Yaml.Entries × Yaml.Entries :=
  let keys := hostKeys name
  match Yaml.find "environment" config with
  | some (.map environment) =>
    let identities := (order keys).filterMap fun key =>
      (Yaml.find key environment).map fun value => (YamlScalar.str key, value)
    let rest := keys.foldl (fun environment key => Yaml.drop key environment) environment
    match Yaml.find "PHLO_RUNTIME_UID" identities, Yaml.find "HOME" rest with
    | some _, some (.scalar (.str "/opt/dagster")) =>
      (Yaml.put "HOME" (.str "/opt/dagster") identities,
        Yaml.put "environment" (.map (Yaml.drop "HOME" rest)) config)
    | _, _ => (identities, Yaml.put "environment" (.map rest) config)
  | some (.list environment) =>
    let identities := environment.foldl (fun identities item =>
      match item with
      | .scalar (.str text) =>
        if keys.contains (entryName text) then
          Yaml.put (entryName text) (.str (String.ofList (partition '=' text.toList).2.2)) identities
        else identities
      | _ => identities) []
    (identities, Yaml.put "environment" (.list (environment.filter fun item => !isHostEntry keys item)) config)
  | _ => ([], config)

/-- What a loop over a value goes through; none where the value is no sequence. -/
def iterated : Yaml → Option (List Yaml)
  | .list items => some items
  | .map entries => some (entries.map fun entry => .scalar entry.1)
  | .scalar (.str s) => some (s.toList.map fun c => .str (String.ofList [c]))
  | .scalar _ => none

/-- The changes of the host, and what is left of a service; none where Python raises a `TypeError`. -/
def splitService (order : List String → List String) (name : String) (config : Yaml.Entries) :
    Option (Yaml.Entries × Yaml.Entries) := do
  let (identities, config) := splitEnvironment order name config
  let changes := if identities = [] then [] else [(YamlScalar.str "environment", Yaml.map identities)]
  let mounts ← iterated ((Yaml.find "volumes" config).getD (.list []))
  let localMounts := mounts.filter isLocalMount
  let (changes, config) :=
    if localMounts = [] then (changes, config)
    else (changes ++ [(.str "volumes", .list localMounts)],
      Yaml.put "volumes" (.list (mounts.filter fun mount => !isLocalMount mount)) config)
  let user := (Yaml.find "user" config).getD (.str "")
  match user with
  | .scalar s =>
    if name = "phlo-api" ∧ isUserPair s.text then
      some (changes ++ [(.str "user", user)], Yaml.drop "user" config)
    else some (changes, config)
  | _ => some (changes, config)

/-- `split_host_compose`: the portable document and the document of the host. -/
def splitHostCompose (order : List String → List String) (compose : Yaml) : Option (Yaml × Yaml) :=
  match compose with
  | .map entries =>
    match Yaml.find "services" entries with
    | none => some (compose, .map [(.str "services", .map [])])
    | some (.map services) => do
      let split ← services.mapM fun (name, config) =>
        match config with
        | .map config => do
          let (changes, config) ← splitService order name.text config
          some ((name, Yaml.map config), if changes = [] then none else some (name, Yaml.map changes))
        | _ => some ((name, config), none)
      some (.map (Yaml.put "services" (.map (split.map Prod.fst)) entries),
        .map [(.str "services", .map (split.filterMap Prod.snd))])
    | some _ => none
  | _ => none

end Phlo.Compose
