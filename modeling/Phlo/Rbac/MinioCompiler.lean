import Phlo.Library.JsonText
import Phlo.Rbac.Documents

/-!
# The MinIO compiler

One policy document for each role, action and resource pattern, attached to the group named for the role.
What the server keeps of a document is a parameter: it may reorder lists.

* `mem_minioCompile` — the artifacts of a compiled model;
* `minioBackend` — MinIO as a backend of documents.
-/

namespace Phlo.Rbac

open Phlo.Library

/-! ### Policy documents -/

/-- The text of a document: JSON, kept as its value, or a text that is not JSON. -/
inductive PolicyDocument where
  | json (value : JsonValue)
  | text (s : String)

mutual

def normalizePolicyValue : JsonValue → JsonValue
  | .arr items => .arr (sortBy JsonValue.dumps (normalizePolicyItems items))
  | .obj fields => .obj (normalizePolicyFields fields)
  | v => v

def normalizePolicyItems : List JsonValue → List JsonValue
  | [] => []
  | item :: items => normalizePolicyValue item :: normalizePolicyItems items

def normalizePolicyFields : List (String × JsonValue) → List (String × JsonValue)
  | [] => []
  | (key, value) :: fields => (key, normalizePolicyValue value) :: normalizePolicyFields fields

end

/-- What a document is compared by; objects are compared whatever the order of their keys. -/
def PolicyDocument.normalText : PolicyDocument → String × Bool
  | .json value => ((normalizePolicyValue value).dumps, true)
  | .text s => (s, false)

/-- `_documents_equivalent` -/
def documentsEquivalent (desired current : PolicyDocument) : Bool :=
  desired.normalText == current.normalText

theorem documentsEquivalent_iff {d d' : PolicyDocument} :
    documentsEquivalent d d' = true ↔ d.normalText = d'.normalText := beq_iff_eq

/-! ### Compiling -/

def READ_ACTIONS : List String := ["s3:GetObject", "s3:GetObjectVersion", "s3:ListBucket"]

def WRITE_ACTIONS : List String :=
  READ_ACTIONS ++ ["s3:PutObject", "s3:DeleteObject", "s3:AbortMultipartUpload"]

/-- `ACTION_MAPPING` -/
def minioActions (action : String) : List String :=
  if action = "object.write" ∨ action = "dataset.write" then WRITE_ACTIONS else READ_ACTIONS

/-- `_resource_prefix`: the bucket and the prefix in it. -/
def resourcePrefix (context : CompilerContext) (policy : PolicyRule) : String × String :=
  let resource := policy.resourceIdPattern.toList
  if policy.resourceType = "dataset" then
    (context.warehouseBucket.getD "lake",
      String.ofList ((resource.map fun c => if c = '.' then '/' else c).filter (· ≠ '*')))
  else if resource.contains '/' then
    (String.ofList (resource.takeWhile (· ≠ '/')),
      String.ofList ((((resource.dropWhile (· ≠ '/')).drop 1).reverse.dropWhile (· = '*')).reverse))
  else (policy.resourceIdPattern, "")

/-- `_policy_document` -/
def policyDocument (bucket path : String) (actions : List String) : JsonValue :=
  let bucketArn := "arn:aws:s3:::" ++ bucket
  let objectArn := if path = "" then bucketArn ++ "/*" else bucketArn ++ "/" ++ path ++ "*"
  let condition : List (String × JsonValue) :=
    if path = "" then []
    else [("Condition", .obj [("StringLike", .obj [("s3:prefix", .arr [.str (path ++ "*")])])])]
  let listing : List JsonValue :=
    if "s3:ListBucket" ∈ actions then
      [.obj ([("Effect", .str "Allow"), ("Action", .arr [.str "s3:ListBucket"]),
        ("Resource", .arr [.str bucketArn])] ++ condition)]
    else []
  let objectActions := actions.filter (· ≠ "s3:ListBucket")
  let objects : List JsonValue :=
    if objectActions.isEmpty then []
    else
      [.obj [("Effect", .str "Allow"), ("Action", .arr ((sortBy id objectActions).map .str)),
        ("Resource", .arr [.str objectArn])]]
  .obj [("Version", .str "2012-10-17"), ("Statement", .arr (listing ++ objects))]

def minioDocument (context : CompilerContext) (policy : PolicyRule) : JsonValue :=
  let (bucket, path) := resourcePrefix context policy
  policyDocument bucket path (minioActions policy.action)

def minioName (role : String) (policy : PolicyRule) : String :=
  "phlo_" ++ role ++ "__" ++ slug policy.resourceIdPattern ++ "__" ++ slug policy.action

/-- What an artifact was compiled from. -/
structure CompiledFrom where
  resource : String
  bucket : String
  path : String
  actions : List String
  policyId : String

structure MinioMetadata where
  role : String
  policyName : String
  compiledFrom : Option CompiledFrom := none

abbrev MinioArtifact := BackendArtifact PolicyDocument MinioMetadata

def minioArtifact (context : CompilerContext) (policy : PolicyRule) (role : String) : MinioArtifact where
  backend := "minio"
  artifactType := "policy_doc"
  name := minioName role policy
  statement := .json (minioDocument context policy)
  metadata :=
    { role := role
      policyName := minioName role policy
      compiledFrom := some
        { resource := policy.resourceIdPattern
          bucket := (resourcePrefix context policy).1
          path := (resourcePrefix context policy).2
          actions := minioActions policy.action
          policyId := policy.policyId } }

def minioCompileRole (context : CompilerContext) (policy : PolicyRule) (role : String) :
    Except CompileError (List MinioArtifact) := do
  validateSqlIdentifier role "role_name"
  pure [minioArtifact context policy role]

def minioCompileRule (context : CompilerContext) (policy : PolicyRule) :
    Except CompileError (List MinioArtifact) := do
  validateSqlIdentifier (resourcePrefix context policy).1 "bucket"
  compileRoles (minioCompileRole context policy) policy.principalRoles

/-- `MinioCompiler.compile` -/
def minioCompile (context : CompilerContext) (rbac : CanonicalRbac) : Except CompileError (List MinioArtifact) :=
  compilePolicies "minio" "minio" MINIO_POLICY_PAIRS KNOWN_POLICY_PAIRS (minioCompileRule context) rbac

theorem mem_minioCompile {context : CompilerContext} {rbac : CanonicalRbac}
    {artifacts : List MinioArtifact} (h : minioCompile context rbac = .ok artifacts) :
    (∀ role policy, Demands MINIO_POLICY_PAIRS rbac role policy →
        minioArtifact context policy role ∈ artifacts ∧ isSqlIdentifier role = true) ∧
      ∀ a ∈ artifacts, ∃ role policy, Demands MINIO_POLICY_PAIRS rbac role policy ∧
        a = minioArtifact context policy role := by
  obtain ⟨hto, hfrom⟩ := mem_compilePolicies h
  constructor
  · intro role policy hdemands
    obtain ⟨hpolicy, hpair, hrole⟩ := hdemands
    obtain ⟨l, hl, hmem⟩ := hto policy hpolicy hpair
    obtain ⟨_, -, hroles⟩ := bind_eq_ok.1 hl
    obtain ⟨l', hl', hmem'⟩ := (mem_compileRoles hroles).1 role hrole
    obtain ⟨_, hidentifier, hpure⟩ := bind_eq_ok.1 hl'
    cases hpure
    exact ⟨hmem _ (hmem' _ List.mem_cons_self), require_eq_ok.1 hidentifier⟩
  · intro a ha
    obtain ⟨policy, hpolicy, hpair, l, hl, hal⟩ := hfrom a ha
    obtain ⟨_, -, hroles⟩ := bind_eq_ok.1 hl
    obtain ⟨role, hrole, l', hl', hal'⟩ := (mem_compileRoles hroles).2 a hal
    obtain ⟨_, -, hpure⟩ := bind_eq_ok.1 hl'
    cases hpure
    exact ⟨role, policy, ⟨hpolicy, hpair, hrole⟩, List.mem_singleton.1 hal'⟩

/-! ### The backend -/

/-- A stored policy and the groups it is attached to. -/
structure MinioPolicy where
  document : JsonValue
  groups : List String

abbrev MinioStore := OrderedDict String MinioPolicy

/-- A row of `list_policies`. -/
structure MinioRow where
  policyName : String
  document : PolicyDocument
  role : String

/-- `raw.get("Statement")` is a list or an object that is not empty. -/
def hasStatement : JsonValue → Bool
  | .obj fields =>
    match (OrderedDict.ofList fields).get "Statement" with
    | some (.arr items) => !items.isEmpty
    | some (.obj fields) => !fields.isEmpty
    | _ => false
  | _ => false

/-- `_extract_document`, of the information on a policy. -/
def extractDocument (document : JsonValue) : JsonValue :=
  if hasStatement document then document else .obj []

/-- `_attached_groups` -/
def MinioPolicy.attachedGroups (policy : MinioPolicy) : List String := sortedSet policy.groups

def MinioStore.row (item : String × MinioPolicy) : MinioRow where
  policyName := item.1
  document := .json (extractDocument item.2.document)
  role := ",".intercalate item.2.attachedGroups

/-- `list_policies` -/
def MinioStore.listPolicies (s : MinioStore) : List MinioRow :=
  (s.items.filter fun item => startsWith item.1 MANAGED_PREFIX).map MinioStore.row

/-- `mc admin policy detach`, from every group. -/
def MinioStore.detachAll (s : MinioStore) (name : String) : MinioStore :=
  match s.get name with
  | some policy => s.set name { policy with groups := [] }
  | none => s

/-- `mc admin policy create` -/
def MinioStore.create (persisted : JsonValue → JsonValue) (s : MinioStore) (name : String)
    (document : JsonValue) : MinioStore :=
  s.set name ⟨persisted document, []⟩

/-- `mc admin policy attach` -/
def MinioStore.attach (s : MinioStore) (name group : String) : MinioStore :=
  match s.get name with
  | some policy => s.set name { policy with groups := policy.groups ++ [group] }
  | none => s

/-- `apply_policy` -/
def MinioStore.applyPolicy (persisted : JsonValue → JsonValue) (s : MinioStore)
    (name principal : String) (document : PolicyDocument) : MinioStore × Option String :=
  if name = "" || !startsWith name MANAGED_PREFIX then
    (s, some "Managed policy names must start with 'phlo_'")
  else
    -- what is there under the name goes first
    let removed : MinioStore := (s.detachAll name).erase name
    match document with
    | .text _ => (removed, some "not JSON")
    | .json value =>
      let created := MinioStore.create persisted removed name value
      (if principal = "" then created else created.attach name principal, none)

/-- `revoke_policy` -/
def MinioStore.revokePolicy (s : MinioStore) (name : String) : MinioStore :=
  (s.detachAll name).erase name

def MinioRow.artifact (row : MinioRow) : MinioArtifact where
  backend := "minio"
  artifactType := "policy_doc"
  name := row.policyName
  statement := row.document
  metadata := { role := row.role, policyName := row.policyName }

/-- `MinioCompiler.read_current_state`, of the rows the backend lists. -/
def minioReadCurrentState (rows : List MinioRow) : List MinioArtifact :=
  (rows.filter fun row => row.policyName ≠ "" && matchesManaged row.policyName).map MinioRow.artifact

/-- `MinioCompiler._artifact_equivalent` -/
def minioEquivalent (desired current : MinioArtifact) : Bool :=
  documentsEquivalent desired.statement current.statement &&
    desired.metadata.role == current.metadata.role

/-- `MinioCompiler._apply_generic_policy_change` -/
def minioAct (persisted : JsonValue → JsonValue) : Act MinioArtifact MinioStore
  | .create a, s => s.applyPolicy persisted a.name a.metadata.role a.statement
  | .delete a, s => (s.revokePolicy a.name, none)

/-! ### MinIO as a backend of documents -/

/-- What is documented of the server: it keeps a document up to the order of its lists. -/
structure Persists (persisted : JsonValue → JsonValue) : Prop where
  normal : ∀ d, (normalizePolicyValue (persisted d)).dumps = (normalizePolicyValue d).dumps
  statement : ∀ d, hasStatement d = true → hasStatement (persisted d) = true

def MinioStore.artifact (item : String × MinioPolicy) : MinioArtifact := (MinioStore.row item).artifact

def MinioStore.read (s : MinioStore) : List MinioArtifact := minioReadCurrentState s.listPolicies

theorem MinioStore.mem_read {s : MinioStore} {b : MinioArtifact} :
    b ∈ s.read ↔ ∃ policy, s.get b.name = some policy ∧ matchesManaged b.name = true ∧
      b = MinioStore.artifact (b.name, policy) := by
  rw [MinioStore.read, minioReadCurrentState, MinioStore.listPolicies, List.mem_map]
  constructor
  · intro h
    obtain ⟨row, hrow, rfl⟩ := h
    obtain ⟨item, hitem, rfl⟩ := List.mem_map.1 (List.mem_filter.1 hrow).1
    obtain ⟨hmem, hmanaged⟩ := List.mem_filter.1 hitem
    exact ⟨item.2, OrderedDict.get_eq_some_iff.2 hmem, hmanaged, rfl⟩
  · intro h
    obtain ⟨policy, hget, hmanaged, hb⟩ := h
    refine ⟨MinioStore.row (b.name, policy), List.mem_filter.2 ⟨List.mem_map.2 ⟨(b.name, policy), ?_, rfl⟩, ?_⟩,
      hb.symm⟩
    · exact List.mem_filter.2 ⟨OrderedDict.get_eq_some_iff.1 hget, hmanaged⟩
    · have hne : b.name ≠ "" := fun hempty => by
        rw [hempty] at hmanaged
        exact absurd hmanaged (by decide)
      have hmanaged' : matchesManaged (MinioStore.row (b.name, policy)).policyName = true := hmanaged
      have hne' : (MinioStore.row (b.name, policy)).policyName ≠ "" := hne
      simp [hmanaged', hne']

theorem MinioStore.read_unique {s : MinioStore} {b b' : MinioArtifact} (hb : b ∈ s.read)
    (hb' : b' ∈ s.read) (hname : b.name = b'.name) : b = b' := by
  obtain ⟨policy, hget, -, heq⟩ := MinioStore.mem_read.1 hb
  obtain ⟨policy', hget', -, heq'⟩ := MinioStore.mem_read.1 hb'
  rw [hname, hget'] at hget
  cases hget
  rw [heq, heq', hname]

theorem MinioStore.get_read (s : MinioStore) (k : String) :
    (byName BackendArtifact.name s.read).get k =
      if matchesManaged k then (s.get k).map fun policy => MinioStore.artifact (k, policy) else none := by
  ext b
  rw [byName_eq_some_iff fun b hb b' hb' => MinioStore.read_unique hb hb', MinioStore.mem_read]
  constructor
  · intro h
    obtain ⟨⟨policy, hget, hmanaged, hb⟩, rfl⟩ := h
    rw [if_pos hmanaged, hget, Option.map_some, ← hb]
  · intro h
    split at h
    next hmanaged =>
      obtain ⟨policy, hget, rfl⟩ := Option.map_eq_some_iff.1 h
      exact ⟨⟨policy, hget, hmanaged, rfl⟩, rfl⟩
    next => cases h

theorem MinioStore.get_removed (s : MinioStore) (name k : String) :
    ((s.detachAll name).erase name).get k = if k = name then none else s.get k := by
  rw [OrderedDict.get_erase]
  split
  next => rfl
  next hk =>
    rw [MinioStore.detachAll]
    split
    · rw [OrderedDict.get_set, if_neg hk]
    · rfl

def minioStored (persisted : JsonValue → JsonValue) (role : String) (value : JsonValue) : MinioPolicy :=
  ⟨persisted value, [role]⟩

theorem MinioStore.get_applyPolicy (persisted : JsonValue → JsonValue) (s : MinioStore)
    {name role : String} (value : JsonValue) (hmanaged : matchesManaged name = true) (hrole : role ≠ "")
    (k : String) : (s.applyPolicy persisted name role (.json value)).1.get k =
      if k = name then some (minioStored persisted role value) else s.get k := by
  have hne : name ≠ "" := fun hempty => by
    rw [hempty] at hmanaged
    exact absurd hmanaged (by decide)
  have hchecked : (name = "" || !startsWith name MANAGED_PREFIX) = false := by
    have hstarts : startsWith name MANAGED_PREFIX = true := hmanaged
    simp [hne, hstarts]
  rw [MinioStore.applyPolicy, if_neg (by rw [hchecked]; exact Bool.false_ne_true)]
  dsimp only
  rw [if_neg hrole, MinioStore.attach, MinioStore.create, OrderedDict.get_set, if_pos rfl]
  dsimp only
  rw [OrderedDict.get_set]
  split
  · rfl
  next hk => rw [OrderedDict.get_set, if_neg hk, MinioStore.get_removed, if_neg hk]

def MinioArtifact.value (a : MinioArtifact) : JsonValue :=
  match a.statement with
  | .json value => value
  | .text _ => .null

/-- An artifact as compiled. -/
structure MinioAccepts (a : MinioArtifact) : Prop where
  statement : a.statement = .json (MinioArtifact.value a)
  complete : hasStatement (MinioArtifact.value a) = true
  role : a.metadata.role ≠ ""
  managed : matchesManaged a.name = true

def minioBackend {persisted : JsonValue → JsonValue} (h : Persists persisted) :
    DocumentBackend MinioArtifact MinioStore where
  nameOf := BackendArtifact.name
  same := minioEquivalent
  read := MinioStore.read
  act := minioAct persisted
  Accepts := MinioAccepts
  shown a := MinioStore.artifact (a.name, minioStored persisted a.metadata.role (MinioArtifact.value a))
  read_create a ha s k := by
    rw [MinioStore.get_read, MinioStore.get_read, minioAct, ha.statement,
      MinioStore.get_applyPolicy persisted s _ ha.managed ha.role]
    by_cases hk : k = a.name
    · rw [if_pos hk, if_pos hk, hk, if_pos ha.managed, Option.map_some]
    · rw [if_neg hk, if_neg hk]
  read_delete b s k := by
    rw [MinioStore.get_read, MinioStore.get_read, minioAct, MinioStore.revokePolicy,
      MinioStore.get_removed]
    by_cases hk : k = b.name
    · rw [if_pos hk, if_pos hk, Option.map_none, ite_self]
    · rw [if_neg hk, if_neg hk]
  same_shown a ha := by
    have hdocument : (MinioStore.artifact (a.name, minioStored persisted a.metadata.role
        (MinioArtifact.value a))).statement = .json (persisted (MinioArtifact.value a)) := by
      show PolicyDocument.json (extractDocument (persisted (MinioArtifact.value a))) = _
      rw [extractDocument, if_pos (h.statement _ ha.complete)]
    have hrole : (MinioStore.artifact (a.name, minioStored persisted a.metadata.role
        (MinioArtifact.value a))).metadata.role = a.metadata.role := by
      show ",".intercalate (sortedSet [a.metadata.role]) = a.metadata.role
      rfl
    rw [minioEquivalent, hdocument, hrole, ha.statement, documentsEquivalent, PolicyDocument.normalText,
      PolicyDocument.normalText, h.normal]
    simp

end Phlo.Rbac
