import Phlo.Library.OrderedDict
import Phlo.Library.PreorderWalk

/-!
# The role hierarchy

A role inherits from other roles by name; the names may be anything, and the hierarchy may lead back to itself.
A subject has the roles it is assigned and all they inherit from.

* `expandRoleHierarchy`, `effectiveRolesForSubject` — as the configuration computes them;
* `expandRoleHierarchy_eq_ok_iff` — which lists an expansion gives.
-/

namespace Phlo.Rbac

open Phlo.Library Relation

structure Role where
  name : String
  inherits : List String := []

structure SubjectAssignment where
  services : OrderedDict String (List String) := .empty
  users : OrderedDict String (List String) := .empty

structure RolesConfig where
  roles : OrderedDict String Role
  subjects : SubjectAssignment := {}

/-- A `ValueError` of an expansion. -/
inductive RoleError where
  | unknownRole (name : String)
  | hierarchy (e : ExpandError String)

def RoleError.text : RoleError → String
  | unknownRole name => "Unknown role: " ++ name
  | hierarchy (.cycle path name) =>
    "Cycle detected in role hierarchy: " ++ " -> ".intercalate path ++ " -> " ++ name
  | hierarchy (.unknown name) => "Role '" ++ name ++ "' referenced in hierarchy does not exist"
  | hierarchy .outOfFuel => ""

def RolesConfig.inherits (config : RolesConfig) (name : String) : Option (List String) :=
  (config.roles.get name).map Role.inherits

/-- `expand_role_hierarchy`; the way down is never longer than there are roles. -/
def expandRoleHierarchy (config : RolesConfig) (roleName : String) : Except RoleError (List String) :=
  if (config.roles.get roleName).isNone then .error (.unknownRole roleName)
  else
    ((expandPlace config.inherits (config.roles.items.length + 1) [] [] roleName).mapError .hierarchy).map Prod.fst

/-- `get_effective_roles`, a set -/
def getEffectiveRoles (config : RolesConfig) (roleName : String) : Except RoleError (List String) :=
  expandRoleHierarchy config roleName

def RolesConfig.assigned (config : RolesConfig) (subject principalType : String) : List String :=
  let assignments :=
    if principalType ∈ ["service", "platform"] then config.subjects.services else config.subjects.users
  (assignments.get subject).getD []

/-- `effective_roles_for_subject`, a set -/
def effectiveRolesForSubject (config : RolesConfig) (subject principalType : String) :
    Except RoleError (List String) :=
  (config.assigned subject principalType).foldlM (fun effective roleName => do
    let roles ← getEffectiveRoles config roleName
    .ok (effective ∪ roles)) []

/-! ### Inheritance -/

/-- A role lists another among those it inherits from. -/
def Inherits (config : RolesConfig) (name parent : String) : Prop :=
  ∃ role, config.roles.get name = some role ∧ parent ∈ role.inherits

/-- An unknown role, or one that inherits from itself in the end. -/
def Broken (config : RolesConfig) (name : String) : Prop :=
  config.roles.get name = none ∨ TransGen (Inherits config) name name

def ReachesBroken (config : RolesConfig) (name : String) : Prop :=
  ∃ m, ReflTransGen (Inherits config) name m ∧ Broken config m

theorem asks_iff_inherits (config : RolesConfig) : Asks (parentsOf config.inherits) = Inherits config := by
  funext name parent
  rw [Asks, parentsOf, RolesConfig.inherits, Inherits]
  cases config.roles.get name with
  | none => simp
  | some role => simp

theorem stuck_iff_broken (config : RolesConfig) (name : String) :
    Stuck config.inherits name ↔ Broken config name := by
  rw [Stuck, Broken, asks_iff_inherits, RolesConfig.inherits, Option.map_eq_none_iff]

variable {config : RolesConfig} {roleName : String}

theorem expandRoleHierarchy_cases (config : RolesConfig) (roleName : String) :
    (∃ found, expandRoleHierarchy config roleName = .ok found ∧ found.head? = some roleName ∧ found.Nodup ∧
        (∀ x, x ∈ found ↔ ReflTransGen (Inherits config) roleName x) ∧ ¬ReachesBroken config roleName) ∨
      ∃ e, expandRoleHierarchy config roleName = .error e ∧ e ≠ .hierarchy .outOfFuel ∧
        ReachesBroken config roleName := by
  rw [expandRoleHierarchy]
  split
  next hunknown =>
    refine .inr ⟨_, rfl, by simp, roleName, ReflTransGen.refl, .inl ?_⟩
    exact Option.isNone_iff_eq_none.1 hunknown
  · have hplaces : ∀ k parents, config.inherits k = some parents → k ∈ config.roles.items.map Prod.fst := by
      intro k parents hk
      obtain ⟨role, hrole, _⟩ := Option.map_eq_some_iff.1 hk
      exact List.mem_map.2 ⟨(k, role), OrderedDict.get_eq_some_iff.1 hrole, rfl⟩
    have hfuel : (config.roles.items.map Prod.fst).length < config.roles.items.length + 1 := by
      rw [List.length_map]
      omega
    rcases expandPlace_start hplaces hfuel roleName with ⟨found, seen, h, hlists, hsound⟩ | ⟨e, h, hfails⟩
    · rw [h]
      refine .inl ⟨found, rfl, hlists.head, hlists.nodup, ?_, ?_⟩
      · rw [← asks_iff_inherits]
        exact hlists.mem_iff
      · rintro ⟨m, hm, hbroken⟩
        rw [← asks_iff_inherits] at hm
        exact hsound m hm ((stuck_iff_broken config m).2 hbroken)
    · rw [h]
      obtain ⟨hne, m, hm, hstuck⟩ := hfails
      refine .inr ⟨.hierarchy e, rfl, fun heq => hne (RoleError.hierarchy.inj heq), m, ?_, ?_⟩
      · rw [← asks_iff_inherits]
        exact hm
      · exact (stuck_iff_broken config m).1 hstuck

theorem expandRoleHierarchy_eq_ok_iff : (∃ found, expandRoleHierarchy config roleName = .ok found) ↔
    ¬ReachesBroken config roleName := by
  rcases expandRoleHierarchy_cases config roleName with ⟨found, h, -, -, -, hsound⟩ | ⟨e, h, -, hbroken⟩
  · exact ⟨fun _ => hsound, fun _ => ⟨found, h⟩⟩
  · rw [h]
    exact ⟨fun ⟨found, hfound⟩ => (by cases hfound), fun hsound => absurd hbroken hsound⟩

theorem mem_of_expandRoleHierarchy {found : List String} (h : expandRoleHierarchy config roleName = .ok found)
    (x : String) : x ∈ found ↔ ReflTransGen (Inherits config) roleName x := by
  rcases expandRoleHierarchy_cases config roleName with ⟨found', h', -, -, hmem, -⟩ | ⟨e, h', -⟩
  · rw [h'] at h
    cases h
    exact hmem x
  · rw [h'] at h
    cases h

/-! ### Subjects -/

theorem mem_of_foldlM_union {assigned start effective : List String}
    (h : assigned.foldlM (fun effective roleName => do
      let roles ← getEffectiveRoles config roleName
      .ok (effective ∪ roles)) start = .ok effective) (x : String) :
    x ∈ effective ↔ x ∈ start ∨ ∃ roleName ∈ assigned, ReflTransGen (Inherits config) roleName x := by
  induction assigned generalizing start with
  | nil =>
    cases h
    simp
  | cons roleName assigned ih =>
    rw [List.foldlM_cons] at h
    obtain ⟨middle, hmiddle, hrest⟩ := bind_eq_ok.1 h
    obtain ⟨roles, hroles, hunion⟩ := bind_eq_ok.1 hmiddle
    cases hunion
    rw [ih hrest, List.mem_union_iff, mem_of_expandRoleHierarchy hroles, or_assoc]
    simp

theorem foldlM_union_ok_iff {assigned start : List String} :
    (∃ effective, assigned.foldlM (fun effective roleName => do
      let roles ← getEffectiveRoles config roleName
      .ok (effective ∪ roles)) start = .ok effective) ↔ ∀ roleName ∈ assigned, ¬ReachesBroken config roleName := by
  induction assigned generalizing start with
  | nil => exact ⟨fun _ _ h => absurd h List.not_mem_nil, fun _ => ⟨start, rfl⟩⟩
  | cons roleName assigned ih =>
    rw [List.forall_mem_cons, ← expandRoleHierarchy_eq_ok_iff, List.foldlM_cons]
    constructor
    · rintro ⟨effective, h⟩
      obtain ⟨middle, hmiddle, hrest⟩ := bind_eq_ok.1 h
      obtain ⟨roles, hroles, -⟩ := bind_eq_ok.1 hmiddle
      exact ⟨⟨roles, hroles⟩, ih.1 ⟨effective, hrest⟩⟩
    · rintro ⟨⟨roles, hroles⟩, hrest⟩
      obtain ⟨effective, h⟩ := (@ih (start ∪ roles)).2 hrest
      exact ⟨effective, bind_eq_ok.2 ⟨start ∪ roles, bind_eq_ok.2 ⟨roles, hroles, rfl⟩, h⟩⟩

/-- An expansion ends; it raises exactly when the role reaches an unknown role or a cycle, and otherwise lists the
role first and every role it inherits from once.  A subject has what its assigned roles expand to. -/
theorem roles_expand_to_closure (config : RolesConfig) (roleName : String) :
    expandRoleHierarchy config roleName ≠ .error (.hierarchy .outOfFuel) ∧
      ((∃ e, expandRoleHierarchy config roleName = .error e) ↔ ReachesBroken config roleName) ∧
      (∀ found, expandRoleHierarchy config roleName = .ok found → found.head? = some roleName ∧ found.Nodup ∧
          ∀ x, x ∈ found ↔ ReflTransGen (Inherits config) roleName x) ∧ ∀ subject principalType,
        ((∃ effective, effectiveRolesForSubject config subject principalType = .ok effective) ↔
          ∀ assigned ∈ config.assigned subject principalType, ¬ReachesBroken config assigned) ∧
        ∀ effective, effectiveRolesForSubject config subject principalType = .ok effective → ∀ x, x ∈ effective ↔
            ∃ assigned ∈ config.assigned subject principalType, ReflTransGen (Inherits config) assigned x := by
  refine ⟨?_, ?_, ?_, fun subject principalType => ⟨foldlM_union_ok_iff, fun effective h x => ?_⟩⟩
  · rcases expandRoleHierarchy_cases config roleName with ⟨found, h, -⟩ | ⟨e, h, hne, -⟩
    · rw [h]
      exact nofun
    · rw [h]
      exact fun heq => hne (Except.error.inj heq)
  · rcases expandRoleHierarchy_cases config roleName with ⟨found, h, -, -, -, hsound⟩ | ⟨e, h, -, hbroken⟩
    · rw [h]
      exact ⟨fun ⟨e, he⟩ => (by cases he), fun hbroken => absurd hbroken hsound⟩
    · exact ⟨fun _ => hbroken, fun _ => ⟨e, h⟩⟩
  · intro found hfound
    rcases expandRoleHierarchy_cases config roleName with ⟨found', h, hhead, hnodup, hmem, -⟩ | ⟨e, h, -⟩
    · rw [h] at hfound
      cases hfound
      exact ⟨hhead, hnodup, hmem⟩
    · rw [h] at hfound
      cases hfound
  · rw [mem_of_foldlM_union h x]
    simp

end Phlo.Rbac
