import Phlo.Library.Fallible
import Phlo.Library.NamedSync
import Phlo.RunEvidence.TextRedaction

/-!
# The canonical model and the governance compilers

Policies grant actions on resources to roles; a compiler makes artifacts of the policies its backend
enforces, plans the changes from what is there to what the artifacts say, applies them one by one, and
verifies.  This file has what the compilers share.

* `mem_compilePolicies` — what an artifact of a compiled model comes from;
* `applyPlan_fst` — the backend after a plan, change by change.
-/

namespace Phlo.Rbac

open Phlo.Library
open Phlo.RunEvidence (isWordChar)

/-! ### Policies -/

inductive PolicyEffect where
  | allow
  | deny
  deriving DecidableEq

structure PolicyRule where
  policyId : String
  effect : PolicyEffect := .allow
  principalRoles : List String
  action : String
  resourceType : String
  resourceIdPattern : String

structure CanonicalRbac where
  policies : List PolicyRule

def PolicyRule.pair (policy : PolicyRule) : String × String := (policy.action, policy.resourceType)

/-! ### What a compiler raises -/

inductive CompileError where
  /-- the pair is in no table -/
  | cannotCompile (label policyId action resourceType : String)
  /-- the backend does not support `deny` -/
  | unsupportedEffect (backend : String) (effect : PolicyEffect) (policyId : String)
  /-- `Unsafe <label>: <value>` -/
  | unsafeValue (label value : String)
  /-- `Wildcards only allowed in final segment of <label>: <value>` -/
  | misplacedWildcard (label value : String)

/-! ### Identifiers -/

/-- `^[first][rest]*$`; the end of a text is also found before a line feed that ends it. -/
def matchesClass (first rest : Char → Bool) : List Char → Bool
  | [] => false
  | c :: cs => first c && (cs.all rest || (cs.getLast? = some '\n' && cs.dropLast.all rest))

theorem mem_of_matchesClass {first rest : Char → Bool} {cs : List Char}
    (h : matchesClass first rest cs = true) {c : Char} (hc : c ∈ cs) :
    first c = true ∨ rest c = true ∨ c = '\n' := by
  cases cs with
  | nil => cases hc
  | cons d cs =>
    simp only [matchesClass, Bool.and_eq_true, Bool.or_eq_true, decide_eq_true_eq] at h
    obtain ⟨hfirst, hrest⟩ := h
    obtain rfl | hc := List.mem_cons.1 hc
    · exact .inl hfirst
    · obtain hall | ⟨hlast, hall⟩ := hrest
      · exact .inr (.inl (List.all_eq_true.1 hall c hc))
      · rw [← List.dropLast_append_getLast? _ hlast] at hc
        obtain hc | hc := List.mem_append.1 hc
        · exact .inr (.inl (List.all_eq_true.1 hall c hc))
        · exact .inr (.inr (List.mem_singleton.1 hc))

theorem matchesClass_mono {first rest first' rest' : Char → Bool} {cs : List Char}
    (h : matchesClass first rest cs = true) (hfirst : ∀ c ∈ cs, first c = true → first' c = true)
    (hrest : ∀ c ∈ cs, rest c = true → rest' c = true) : matchesClass first' rest' cs = true := by
  cases cs with
  | nil => cases h
  | cons d cs =>
    simp only [matchesClass, Bool.and_eq_true, Bool.or_eq_true, decide_eq_true_eq,
      List.all_eq_true] at h ⊢
    obtain ⟨hd, hcs⟩ := h
    refine ⟨hfirst d List.mem_cons_self hd, ?_⟩
    obtain hall | ⟨hlast, hall⟩ := hcs
    · exact .inl fun c hc => hrest c (List.mem_cons_of_mem _ hc) (hall c hc)
    · refine .inr ⟨hlast, fun c hc => ?_⟩
      exact hrest c (List.mem_cons_of_mem _ (List.dropLast_subset _ hc)) (hall c hc)

def isLetter (c : Char) : Bool := c.isAlpha || c == '_'

theorem isWordChar_of_isLetter {c : Char} (h : isLetter c = true) : isWordChar c = true := by
  rw [isLetter, Bool.or_eq_true] at h
  obtain halpha | hunderscore := h
  · simp [isWordChar, Char.isAlphanum, halpha]
  · simp [isWordChar, hunderscore]

def isIdentifierChar (c : Char) : Bool := c.isAlphanum || c == '_' || c == '.'

def isPatternChar (c : Char) : Bool := isIdentifierChar c || c == '%' || c == '*'

/-- `_SQL_IDENTIFIER_RE` -/
def isSqlIdentifier (s : String) : Bool := matchesClass isLetter isIdentifierChar s.toList

/-- `_SQL_RESOURCE_PATTERN_RE` -/
def isSqlResourcePattern (s : String) : Bool := matchesClass isLetter isPatternChar s.toList

/-- `_SQL_PRIVILEGE_RE` -/
def isSqlPrivilege (s : String) : Bool :=
  matchesClass Char.isUpper (fun c => c.isUpper || c == ' ') s.toList

def validateSqlIdentifier (value label : String) : Except CompileError Unit :=
  require (isSqlIdentifier value) (.unsafeValue label value)

def validateSqlResourcePattern (value label : String) : Except CompileError Unit :=
  if value = "*" ∨ value = "%" then .ok ()
  else do
    require (isSqlResourcePattern value) (.unsafeValue label value)
    require ((value.toList.splitOn '.').dropLast.all fun segment =>
      !segment.contains '%' && !segment.contains '*') (.misplacedWildcard label value)

def validateSqlPrivilege (value : String) : Except CompileError Unit :=
  require (isSqlPrivilege value) (.unsafeValue "privilege" value)

def Demands (pairs : List (String × String)) (rbac : CanonicalRbac) (role : String) (policy : PolicyRule) : Prop :=
  policy ∈ rbac.policies ∧ policy.pair ∈ pairs ∧ role ∈ policy.principalRoles

/-! ### Artifacts, plans and verdicts -/

/-- A compiled artifact, or one read from the backend. -/
structure BackendArtifact (S M : Type) where
  backend : String
  artifactType : String
  name : String
  statement : S
  managed : Bool := true
  metadata : M

abbrev PolicyChange (A : Type) := Change A A

structure VerifyResult (A : Type) where
  inSync : Bool
  missing : List A
  extra : List A
  mismatched : List A

/-- `CompilerContext`; nobody sets another `managed_prefix` than the default. -/
structure CompilerContext where
  /-- `extra["warehouse_bucket"]`, not empty -/
  warehouseBucket : Option String := none

def MANAGED_PREFIX : String := "phlo_"

/-- `str.startswith` -/
def startsWith (s start : String) : Bool := start.toList.isPrefixOf s.toList

/-- `_matches_managed` -/
def matchesManaged (name : String) : Bool := startsWith name MANAGED_PREFIX

/-! ### Which backend enforces a policy -/

def TRINO_POLICY_PAIRS : List (String × String) :=
  [("dataset.read", "dataset"), ("dataset.query", "dataset")]

def SURFACE_ONLY_POLICY_PAIRS : List (String × String) :=
  [("dataset.query", "project"), ("dataset.write", "dataset"), ("dataset.publish", "dataset"),
    ("asset.read", "asset"), ("asset.execute", "asset"), ("asset.manage", "asset"),
    ("service.read", "service"), ("service.manage", "service"), ("admin.read", "admin"),
    ("admin.manage", "admin"), ("admin.manage", "package"), ("settings.read", "settings"),
    ("settings.manage", "settings"), ("object.write", "object"), ("object.write", "project"),
    ("catalog.read", "catalog"), ("catalog.manage", "catalog"),
    ("platform_metadata.read", "platform_metadata"), ("observability.read", "observability"),
    ("maintenance.read", "maintenance"), ("run.read", "run"), ("run.execute", "run"),
    ("run.manage", "run"), ("run.manage", "service"), ("audit.read", "audit")]

def POSTGRES_POLICY_PAIRS : List (String × String) :=
  [("dataset.read", "dataset"), ("dataset.query", "dataset"), ("dataset.write", "dataset")]

def MINIO_POLICY_PAIRS : List (String × String) :=
  [("object.read", "object"), ("object.write", "object"), ("dataset.read", "dataset"),
    ("dataset.query", "dataset"), ("dataset.write", "dataset")]

def NESSIE_POLICY_PAIRS : List (String × String) :=
  [("catalog.read", "catalog"), ("catalog.manage", "catalog"), ("dataset.read", "dataset"),
    ("dataset.query", "dataset"), ("dataset.write", "dataset"), ("dataset.publish", "dataset")]

def KNOWN_POLICY_PAIRS : List (String × String) :=
  TRINO_POLICY_PAIRS ++ SURFACE_ONLY_POLICY_PAIRS ++ POSTGRES_POLICY_PAIRS ++ MINIO_POLICY_PAIRS ++
    NESSIE_POLICY_PAIRS

inductive Applicability where
  | backend
  | surface
  | unsupported

/-- `policy_applicability`, with the tables of the compiler. -/
def policyApplicability (own known : List (String × String)) (policy : PolicyRule) : Applicability :=
  if policy.pair ∈ own then .backend
  else if policy.pair ∈ known then .surface
  else .unsupported

def ensureSupportedPolicyEffect (backend : String) (policy : PolicyRule) : Except CompileError Unit :=
  require (policy.effect = .allow) (.unsupportedEffect backend policy.effect policy.policyId)

section

variable {A : Type}

/-- The artifacts of one policy; `compileRule` is what the compiler does with a policy of its backend, and
`label` what it calls itself in its error. -/
def compilePolicy (label backend : String) (own known : List (String × String))
    (compileRule : PolicyRule → Except CompileError (List A)) (policy : PolicyRule) : Except CompileError (List A) :=
  match policyApplicability own known policy with
  | .surface => .ok []
  | .unsupported => .error (.cannotCompile label policy.policyId policy.action policy.resourceType)
  | .backend => do
    ensureSupportedPolicyEffect backend policy
    compileRule policy

/-- `compile` -/
def compilePolicies (label backend : String) (own known : List (String × String))
    (compileRule : PolicyRule → Except CompileError (List A)) (rbac : CanonicalRbac) :
    Except CompileError (List A) := do
  let artifacts ← rbac.policies.mapM (compilePolicy label backend own known compileRule)
  pure artifacts.flatten

def compileRoles (compileRole : String → Except CompileError (List A)) (roles : List String) :
    Except CompileError (List A) := do
  let artifacts ← roles.mapM compileRole
  pure artifacts.flatten

variable {label backend : String} {own known : List (String × String)}
  {compileRule : PolicyRule → Except CompileError (List A)}

theorem mem_compileRoles {compileRole : String → Except CompileError (List A)} {roles : List String}
    {artifacts : List A} (h : compileRoles compileRole roles = .ok artifacts) :
    (∀ role ∈ roles, ∃ l, compileRole role = .ok l ∧ ∀ a ∈ l, a ∈ artifacts) ∧
      ∀ a ∈ artifacts, ∃ role ∈ roles, ∃ l, compileRole role = .ok l ∧ a ∈ l := by
  obtain ⟨ls, hls, hflatten⟩ := bind_eq_ok.1 h
  cases hflatten
  obtain ⟨hto, hfrom⟩ := mem_of_mapM_eq_ok hls
  constructor
  · intro role hrole
    obtain ⟨l, hl, hok⟩ := hto role hrole
    exact ⟨l, hok, fun a ha => List.mem_flatten.2 ⟨l, hl, ha⟩⟩
  · intro a ha
    obtain ⟨l, hl, hal⟩ := List.mem_flatten.1 ha
    obtain ⟨role, hrole, hok⟩ := hfrom l hl
    exact ⟨role, hrole, l, hok, hal⟩

theorem mem_compilePolicies {rbac : CanonicalRbac} {artifacts : List A}
    (h : compilePolicies label backend own known compileRule rbac = .ok artifacts) :
    (∀ policy ∈ rbac.policies, policy.pair ∈ own → ∃ l, compileRule policy = .ok l ∧ ∀ a ∈ l, a ∈ artifacts) ∧
      ∀ a ∈ artifacts, ∃ policy ∈ rbac.policies, policy.pair ∈ own ∧ ∃ l, compileRule policy = .ok l ∧ a ∈ l := by
  obtain ⟨ls, hls, hflatten⟩ := bind_eq_ok.1 h
  cases hflatten
  obtain ⟨hto, hfrom⟩ := mem_of_mapM_eq_ok hls
  constructor
  · intro policy hpolicy hown
    obtain ⟨l, hl, hok⟩ := hto policy hpolicy
    rw [compilePolicy, policyApplicability, if_pos hown] at hok
    obtain ⟨_, -, hrule⟩ := bind_eq_ok.1 hok
    exact ⟨l, hrule, fun a ha => List.mem_flatten.2 ⟨l, hl, ha⟩⟩
  · intro a ha
    obtain ⟨l, hl, hal⟩ := List.mem_flatten.1 ha
    obtain ⟨policy, hpolicy, hok⟩ := hfrom l hl
    rw [compilePolicy, policyApplicability] at hok
    by_cases hown : policy.pair ∈ own
    · rw [if_pos hown] at hok
      obtain ⟨_, -, hrule⟩ := bind_eq_ok.1 hok
      exact ⟨policy, hpolicy, hown, l, hrule, hal⟩
    · rw [if_neg hown] at hok
      split at hok
      · cases hok
        cases hal
      · cases hok
      next hbackend =>
        split at hbackend
        · cases hbackend
        · cases hbackend

end

/-! ### Applying a plan -/

section

variable {A σ : Type}

def changed : PolicyChange A → A
  | .create a => a
  | .delete a => a

/-- What a backend makes of a change: its state then, and the error if it has raised one. -/
abbrev Act (A σ : Type) := PolicyChange A → σ → σ × Option String

/-- `Failed to apply <name>` -/
def failedToApply (nameOf : A → String) (change : PolicyChange A) : String :=
  "Failed to apply " ++ nameOf (changed change)

def applyChange (failed : PolicyChange A → String) (act : Act A σ) (s : σ × List String)
    (change : PolicyChange A) : σ × List String :=
  ((act change s.1).1, s.2 ++ ((act change s.1).2.map fun e => failed change ++ ": " ++ e).toList)

/-- `apply` -/
def applyPlan (failed : PolicyChange A → String) (act : Act A σ) (plan : List (PolicyChange A)) (s : σ) :
    σ × List String :=
  plan.foldl (applyChange failed act) (s, [])

theorem applyPlan_fst (failed : PolicyChange A → String) (act : Act A σ) (plan : List (PolicyChange A))
    (s : σ) : (applyPlan failed act plan s).1 = plan.foldl (fun s change => (act change s).1) s := by
  have hfold : ∀ t : σ × List String, (plan.foldl (applyChange failed act) t).1 =
      plan.foldl (fun s change => (act change s).1) t.1 := by
    induction plan with
    | nil => exact fun _ => rfl
    | cons change plan ih =>
      intro t
      rw [List.foldl_cons, List.foldl_cons, ih]
      rfl
  exact hfold (s, [])

end

end Phlo.Rbac
