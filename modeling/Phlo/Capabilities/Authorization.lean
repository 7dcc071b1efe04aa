import Mathlib.Data.List.Perm.Basic
import Phlo.Library.Fallible
import Phlo.Library.Glob
import Phlo.Library.JsonText
import Phlo.Library.OrderedDict

/-!
# The default authorization policy backend

Rules grant or deny actions on resources to principals, by wildcards.  A matching deny rule decides, then a
matching allow rule; without either the answer is no, and so it is when a rule cannot be matched.  Rules come from
a configuration file, where a pattern or an attribute may be anything; only texts can be matched.

* `explainDecision` — the decision, as the backend computes it;
* `isAllowed_iff` — what an action is allowed by.
-/

namespace Phlo.Capabilities

open Phlo.Library

abbrev Attributes := OrderedDict String JsonValue

structure PolicyRule where
  policyId : String
  effect : String
  principalRoles : List String
  principalAttributes : Attributes
  action : JsonValue
  resourceType : JsonValue
  resourceIdPattern : JsonValue
  resourceAttributes : Attributes

structure Principal where
  subject : String
  roles : List String
  attributes : Attributes

structure ResourceRef where
  resourceType : String
  resourceId : String
  attributes : Attributes

structure AuthorizationDecision where
  allowed : Bool
  reasonCode : String
  policyId : Option String
  explanation : String
  deriving DecidableEq

/-- What a pattern raises that is not a text, or is matched with something that is not. -/
inductive MatchError where
  | notText
  deriving DecidableEq

/-! ### Matching -/

/-- `fnmatch.fnmatch` of any two values. -/
def fnmatchValues (name pattern : JsonValue) : Except MatchError Bool :=
  match name, pattern with
  | .str name, .str pattern => .ok (fnmatch name pattern)
  | _, _ => .error .notText

def patternMatches (pattern : JsonValue) (requested : String) : Except MatchError Bool :=
  match pattern with
  | .str "*" => .ok true
  | pattern => fnmatchValues (.str requested) pattern

/-- `_action_matches` -/
def actionMatches (ruleAction : JsonValue) (requestAction : String) : Except MatchError Bool :=
  patternMatches ruleAction requestAction

/-- `_resource_type_matches` -/
def resourceTypeMatches (ruleType : JsonValue) (requestType : String) : Except MatchError Bool :=
  patternMatches ruleType requestType

/-- `_resource_id_matches` -/
def resourceIdMatches (pattern : JsonValue) (resourceId : String) : Except MatchError Bool :=
  patternMatches pattern resourceId

/-- `_principal_roles_match` -/
def principalRolesMatch (ruleRoles principalRoles : List String) : Bool :=
  if ruleRoles.isEmpty then true else ruleRoles.any fun role => principalRoles.contains role

def attributeItemsMatch (requestAttrs : Attributes) : List (String × JsonValue) → Except MatchError Bool
  | [] => .ok true
  | (key, value) :: items =>
    match requestAttrs.get key with
    | none => .ok false
    | some requested => do
      let matched ← fnmatchValues requested value
      if matched then attributeItemsMatch requestAttrs items else .ok false

/-- `_attributes_match` -/
def attributesMatch (ruleAttrs requestAttrs : Attributes) : Except MatchError Bool :=
  attributeItemsMatch requestAttrs ruleAttrs.items

/-- The next check, if the one before was passed. -/
def andThen (matched next : Except MatchError Bool) : Except MatchError Bool := do
  let matched ← matched
  if matched then next else .ok false

/-- `_rule_matches` -/
def ruleMatches (rule : PolicyRule) (principal : Principal) (action : String) (resource : ResourceRef) :
    Except MatchError Bool :=
  andThen (actionMatches rule.action action) <|
  andThen (resourceTypeMatches rule.resourceType resource.resourceType) <|
  andThen (resourceIdMatches rule.resourceIdPattern resource.resourceId) <|
  andThen (.ok (principalRolesMatch rule.principalRoles principal.roles)) <|
  andThen (attributesMatch rule.principalAttributes principal.attributes) <|
  attributesMatch rule.resourceAttributes resource.attributes

/-! ### Decisions -/

def explicitDeny (rule : PolicyRule) : AuthorizationDecision :=
  ⟨false, "explicit_deny", some rule.policyId, "Matched deny rule " ++ rule.policyId⟩

def explicitAllow (rule : PolicyRule) : AuthorizationDecision :=
  ⟨true, "explicit_allow", some rule.policyId, "Matched allow rule " ++ rule.policyId⟩

def defaultDeny : AuthorizationDecision := ⟨false, "default_deny", none, "No matching policy rule"⟩

def backendUnavailable : AuthorizationDecision :=
  ⟨false, "backend_unavailable", none, "Authorization backend failed"⟩

def explainLoop (matching : PolicyRule → Except MatchError Bool) :
    List PolicyRule → Option AuthorizationDecision → Except MatchError AuthorizationDecision
  | [], matchingAllow => .ok (matchingAllow.getD defaultDeny)
  | rule :: rules, matchingAllow => do
    let matched ← matching rule
    if matched = true ∧ rule.effect = "deny" then .ok (explicitDeny rule)
    else if matched = true ∧ rule.effect = "allow" then explainLoop matching rules (some (explicitAllow rule))
    else explainLoop matching rules matchingAllow

/-- `explain_decision` -/
def explainDecision (rules : List PolicyRule) (principal : Principal) (action : String) (resource : ResourceRef) :
    AuthorizationDecision :=
  match explainLoop (fun rule => ruleMatches rule principal action resource) rules none with
  | .ok decision => decision
  | .error _ => backendUnavailable

/-- `is_allowed` -/
def isAllowed (rules : List PolicyRule) (principal : Principal) (action : String) (resource : ResourceRef) : Bool :=
  (explainDecision rules principal action resource).allowed

/-! ### What decides -/

/-- The rules that match allow: none cannot be matched, none that matches denies, and one that matches allows. -/
def Allows (matching : PolicyRule → Except MatchError Bool) (rules : List PolicyRule) : Prop :=
  (∀ rule ∈ rules, ∃ matched, matching rule = .ok matched ∧ ¬(matched = true ∧ rule.effect = "deny")) ∧
    ∃ rule ∈ rules, rule.effect = "allow" ∧ matching rule = .ok true

variable {matching : PolicyRule → Except MatchError Bool} {rules rules' : List PolicyRule}

def Granted : Except MatchError AuthorizationDecision → Prop
  | .ok decision => decision.allowed = true
  | .error _ => False

theorem granted_explainLoop_iff (matchingAllow : Option AuthorizationDecision)
    (hallow : ∀ decision ∈ matchingAllow, decision.allowed = true) :
    Granted (explainLoop matching rules matchingAllow) ↔
      (∀ rule ∈ rules, ∃ matched, matching rule = .ok matched ∧ ¬(matched = true ∧ rule.effect = "deny")) ∧
        (matchingAllow.isSome ∨ ∃ rule ∈ rules, rule.effect = "allow" ∧ matching rule = .ok true) := by
  induction rules generalizing matchingAllow with
  | nil =>
    cases matchingAllow with
    | none => simp [explainLoop, Granted, defaultDeny]
    | some decision => simp [explainLoop, Granted, hallow decision rfl]
  | cons rule rules ih =>
    rw [explainLoop, List.forall_mem_cons, List.exists_mem_cons_iff]
    cases hmatched : matching rule with
    | error e =>
      have hfails : ¬Granted (Except.error e >>= fun matched =>
          if matched = true ∧ rule.effect = "deny" then .ok (explicitDeny rule)
          else if matched = true ∧ rule.effect = "allow" then
            explainLoop matching rules (some (explicitAllow rule))
          else explainLoop matching rules matchingAllow) := fun h => h
      refine ⟨fun h => absurd h hfails, fun h => ?_⟩
      have ⟨matched, hok, _⟩ := h.1.1
      cases hok
    | ok matched =>
      rw [ok_bind]
      by_cases hdeny : matched = true ∧ rule.effect = "deny"
      · rw [if_pos hdeny]
        refine ⟨nofun, fun h => ?_⟩
        have ⟨matched', hok, hnot⟩ := h.1.1
        cases hok
        exact absurd hdeny hnot
      · have hhead : (∃ matched', Except.ok matched = (.ok matched' : Except MatchError Bool) ∧
            ¬(matched' = true ∧ rule.effect = "deny")) ↔ True := iff_true_intro ⟨matched, rfl, hdeny⟩
        rw [if_neg hdeny, hhead, true_and]
        by_cases hgrant : matched = true ∧ rule.effect = "allow"
        · rw [if_pos hgrant, ih _ fun decision hdecision => by cases hdecision; rfl]
          simp [hgrant.1, hgrant.2]
        · rw [if_neg hgrant, ih _ hallow]
          have hnone : ¬(rule.effect = "allow" ∧ Except.ok matched = (.ok true : Except MatchError Bool)) :=
            fun h => hgrant ⟨Except.ok.inj h.2, h.1⟩
          rw [or_iff_right hnone]

variable {principal : Principal} {action : String} {resource : ResourceRef}

theorem isAllowed_iff : isAllowed rules principal action resource = true ↔
    Allows (fun rule => ruleMatches rule principal action resource) rules := by
  have hgranted : isAllowed rules principal action resource = true ↔
      Granted (explainLoop (fun rule => ruleMatches rule principal action resource) rules none) := by
    rw [isAllowed, explainDecision]
    cases explainLoop (fun rule => ruleMatches rule principal action resource) rules none with
    | ok decision => exact Iff.rfl
    | error e => exact ⟨nofun, nofun⟩
  rw [hgranted, granted_explainLoop_iff none nofun, Allows]
  simp

theorem Allows.perm (hperm : rules.Perm rules') (h : Allows matching rules) : Allows matching rules' := by
  have ⟨hall, rule, hrule, hallow⟩ := h
  exact ⟨fun rule hrule => hall rule (hperm.mem_iff.2 hrule), rule, hperm.mem_iff.1 hrule, hallow⟩

variable {rule : PolicyRule}

theorem mem_insert_iff {before after : List PolicyRule} {x : PolicyRule} :
    x ∈ before ++ rule :: after ↔ x = rule ∨ x ∈ before ++ after := by
  rw [List.mem_append, List.mem_cons, List.mem_append]
  tauto

theorem Allows.of_insert {before after : List PolicyRule} (h : Allows matching (before ++ rule :: after))
    (heffect : rule.effect ≠ "allow") : Allows matching (before ++ after) := by
  have ⟨hall, other, hother, hallow⟩ := h
  refine ⟨fun other hother => hall other (mem_insert_iff.2 (.inr hother)), other, ?_, hallow⟩
  refine (mem_insert_iff.1 hother).resolve_left fun heq => heffect ?_
  rw [← heq]
  exact hallow.1

theorem Allows.insert {before after : List PolicyRule} {matched : Bool} (h : Allows matching (before ++ after))
    (hok : matching rule = .ok matched) (heffect : rule.effect ≠ "deny") :
    Allows matching (before ++ rule :: after) := by
  have ⟨hall, other, hother, hallow⟩ := h
  refine ⟨fun x hx => ?_, other, mem_insert_iff.2 (.inr hother), hallow⟩
  rcases mem_insert_iff.1 hx with heq | hx
  · rw [heq]
    exact ⟨matched, hok, fun hdeny => heffect hdeny.2⟩
  · exact hall x hx

theorem andThen_eq_true {matched next : Except MatchError Bool} :
    andThen matched next = .ok true ↔ matched = .ok true ∧ next = .ok true := by
  cases matched with
  | error e => exact ⟨nofun, nofun⟩
  | ok matched =>
    cases matched with
    | true => exact ⟨fun h => ⟨rfl, h⟩, And.right⟩
    | false => exact ⟨nofun, nofun⟩

/-- A rule matches on everything it names. -/
structure MatchesOnAll (rule : PolicyRule) (principal : Principal) (action : String) (resource : ResourceRef) :
    Prop where
  action : actionMatches rule.action action = .ok true
  resourceType : resourceTypeMatches rule.resourceType resource.resourceType = .ok true
  resourceId : resourceIdMatches rule.resourceIdPattern resource.resourceId = .ok true
  roles : principalRolesMatch rule.principalRoles principal.roles = true
  principalAttributes : attributesMatch rule.principalAttributes principal.attributes = .ok true
  resourceAttributes : attributesMatch rule.resourceAttributes resource.attributes = .ok true

theorem ruleMatches_eq_true (h : ruleMatches rule principal action resource = .ok true) :
    MatchesOnAll rule principal action resource := by
  rw [ruleMatches] at h
  simp only [andThen_eq_true] at h
  have ⟨haction, htype, hid, hroles, hprincipal, hresource⟩ := h
  exact ⟨haction, htype, hid, Except.ok.inj hroles, hprincipal, hresource⟩

/-- The order of the rules does not matter; what is allowed is allowed by a rule and denied by none; a deny rule more
never allows, nor does an allow rule less that could be matched; and a rule that cannot be matched denies wherever
it stands. -/
theorem decision_fails_closed (rules : List PolicyRule) (principal : Principal) (action : String)
    (resource : ResourceRef) :
    (∀ rules', rules.Perm rules' →
        isAllowed rules' principal action resource = isAllowed rules principal action resource) ∧
      (isAllowed rules principal action resource = true →
        (∃ rule ∈ rules, rule.effect = "allow" ∧ MatchesOnAll rule principal action resource) ∧
          ∀ rule ∈ rules, rule.effect = "deny" → ruleMatches rule principal action resource ≠ .ok true) ∧
      (∀ before after rule, rules = before ++ after → rule.effect = "deny" →
        isAllowed rules principal action resource = false →
          isAllowed (before ++ rule :: after) principal action resource = false) ∧
      (∀ before after rule, rules = before ++ rule :: after → rule.effect = "allow" →
        (∃ matched, ruleMatches rule principal action resource = .ok matched) →
          isAllowed rules principal action resource = false →
            isAllowed (before ++ after) principal action resource = false) ∧
      ∀ rule ∈ rules, ∀ e, ruleMatches rule principal action resource = .error e →
        isAllowed rules principal action resource = false := by
  refine ⟨fun rules' hperm => ?_, fun h => ?_, fun before after rule hrules hdeny h => ?_,
    fun before after rule hrules hallow hmatched h => ?_, fun rule hrule e herror => ?_⟩
  · rw [Bool.eq_iff_iff, isAllowed_iff, isAllowed_iff]
    exact ⟨Allows.perm hperm.symm, Allows.perm hperm⟩
  · have ⟨hall, rule, hrule, heffect, hmatches⟩ := isAllowed_iff.1 h
    refine ⟨⟨rule, hrule, heffect, ruleMatches_eq_true hmatches⟩, fun rule hrule hdeny htrue => ?_⟩
    have ⟨matched, hok, hnot⟩ := hall rule hrule
    exact hnot ⟨(Except.ok.inj (htrue.symm.trans hok)).symm, hdeny⟩
  · rw [← Bool.not_eq_true, isAllowed_iff] at h ⊢
    rw [hrules] at h
    exact fun hallows => h (hallows.of_insert (by rw [hdeny]; decide))
  · rw [← Bool.not_eq_true, isAllowed_iff] at h ⊢
    rw [hrules] at h
    have ⟨matched, hok⟩ := hmatched
    exact fun hallows => h (hallows.insert hok (by rw [hallow]; decide))
  · rw [← Bool.not_eq_true, isAllowed_iff]
    intro h
    have ⟨matched, hok, _⟩ := h.1 rule hrule
    cases herror.symm.trans hok

/-! ### A rule that cannot be matched -/

def readerPrincipal : Principal := ⟨"ana", ["reader"], OrderedDict.empty.set "clearance" (.str "5")⟩

def ordersResource : ResourceRef := ⟨"dataset", "sales.orders", .empty⟩

def readAll : PolicyRule := ⟨"read-all", "allow", [], .empty, .str "dataset.read", .str "*", .str "*", .empty⟩

/-- A rule whose attribute is a number in the configuration. -/
def readCleared : PolicyRule :=
  { readAll with
    policyId := "read-cleared"
    principalAttributes := OrderedDict.empty.set "clearance" (.int 5) }

/-- Without an allow rule that cannot be matched, an action may be allowed. -/
theorem removed_rule_allows : ¬∀ (before after : List PolicyRule) (rule : PolicyRule) (principal : Principal)
    (action : String) (resource : ResourceRef), rule.effect = "allow" →
      isAllowed (before ++ rule :: after) principal action resource = false →
        isAllowed (before ++ after) principal action resource = false := by
  intro h
  have hdenied : isAllowed ([readAll] ++ readCleared :: []) readerPrincipal "dataset.read" ordersResource = false := by
    decide +kernel
  have hallowed : isAllowed ([readAll] ++ []) readerPrincipal "dataset.read" ordersResource = true := by
    decide +kernel
  have hremoved := h [readAll] [] readCleared readerPrincipal "dataset.read" ordersResource rfl hdenied
  rw [hallowed] at hremoved
  cases hremoved

end Phlo.Capabilities
