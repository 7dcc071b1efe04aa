import Mathlib.Data.Bool.AllAny
import Phlo.Rbac.TrinoChanges

/-!
# Does the Trino sync converge?

A plan matches what is wanted and what is there by name, and the name has no privilege in it: a managed role
that has `SELECT` on a table by a policy keeps every other privilege it has there, and the verdict is in
sync.  Two roles and tables can share a name too.
-/

namespace Phlo.Rbac

open Phlo.Library

/-! ### Runs of the sync -/

def Lists (rows : List TrinoGrant) (s : TrinoState) : Prop := ∀ g, g ∈ rows ↔ g ∈ s

/-- A plan is made of the rows and applied. -/
def trinoSync (rbac : CanonicalRbac) (rows : List TrinoGrant) (s : TrinoState) : Except CompileError TrinoState := do
  let plan ← trinoPlan rbac rows
  pure (trinoApply plan s).1

/-- A row that a policy of the backend demands. -/
def Demanded (rbac : CanonicalRbac) (g : TrinoGrant) : Prop :=
  ∃ role policy schema table, Demands TRINO_POLICY_PAIRS rbac role policy ∧
    SchemaTable policy.resourceIdPattern schema table ∧ g = ⟨role, schema, table, "SELECT"⟩

/-- The managed rows are the ones that are demanded. -/
def Settled (rbac : CanonicalRbac) (s : TrinoState) : Prop :=
  ∀ g : TrinoGrant, g.managed = true → (g ∈ s ↔ Demanded rbac g)

/-- A sync of the state leaves it settled, with a verdict in sync and nothing more to plan, and the other
rows as they were; and the verdict on the state is in sync only where it is settled. -/
structure TrinoConverges (rbac : CanonicalRbac) (s : TrinoState) : Prop where
  converges : ∀ rows, Lists rows s → ∃ s', trinoSync rbac rows s = .ok s' ∧ Settled rbac s' ∧
    (∀ g : TrinoGrant, g.managed = false → (g ∈ s' ↔ g ∈ s)) ∧
    ∀ rows', Lists rows' s' → (∃ v, trinoVerify rbac rows' = .ok v ∧ v.inSync = true) ∧
      trinoPlan rbac rows' = .ok []
  verdict : ∀ rows v, Lists rows s → trinoVerify rbac rows = .ok v → v.inSync = true → Settled rbac s

/-- The names tell apart what they have to, and the backend does what is planned. -/
structure TrinoNamesFaithful (rbac : CanonicalRbac) (s : TrinoState) : Prop where
  granted : ∀ d, Demanded rbac d → d ∈ s ∨
    (∀ g ∈ s, g.managed = true → g.name ≠ d.name) ∧
    (∀ d', Demanded rbac d' → d'.name = d.name → d' = d) ∧
    containsText "REVOKE" (grantText d.resource d.grantee) = false
  revoked : ∀ g ∈ s, g.managed = true → ¬Demanded rbac g →
    (∀ d, Demanded rbac d → d.name ≠ g.name) ∧
    (∀ g' ∈ s, g'.managed = true → g'.name = g.name → g' = g) ∧ g.Revocable

/-! ### Names on both sides -/

section

variable {rbac : CanonicalRbac} {artifacts : List TrinoArtifact} {rows : List TrinoGrant} {s : TrinoState}

/-- The artifact is that of the demanded row. -/
structure ArtifactOf (rbac : CanonicalRbac) (a : TrinoArtifact) (d : TrinoGrant) : Prop where
  demanded : Demanded rbac d
  name_eq : a.name = d.name
  act_eq : ∀ s, (trinoAct (.create a) s).1 =
    if containsText "REVOKE" (grantText d.resource d.grantee) then s else insert d s
  privilege_eq : d.privilege = "SELECT"

theorem artifactOf_of_demands {role : String} {policy : PolicyRule} {schema table : String}
    (hdemands : Demands TRINO_POLICY_PAIRS rbac role policy) (hchecked : TrinoChecked role policy)
    (htable : SchemaTable policy.resourceIdPattern schema table) :
    ArtifactOf rbac (trinoArtifact policy role "SELECT") ⟨role, schema, table, "SELECT"⟩ where
  demanded := ⟨role, policy, schema, table, hdemands, htable, rfl⟩
  name_eq := by
    show trinoName role policy.resourceType (sqlPattern policy.resourceIdPattern) = _
    rw [hchecked.type_eq, htable.sqlPattern, htable.text]
    rfl
  act_eq s := by
    rw [trinoAct_create htable hchecked, htable.text]
    rfl
  privilege_eq := rfl

theorem artifactOf_compiled (h : trinoCompile rbac = .ok artifacts)
    (htables : ∀ role policy, Demands TRINO_POLICY_PAIRS rbac role policy →
      ∃ schema table, SchemaTable policy.resourceIdPattern schema table) :
    (∀ d, Demanded rbac d → ∃ a ∈ artifacts, ArtifactOf rbac a d) ∧ ∀ a ∈ artifacts, ∃ d, ArtifactOf rbac a d := by
  obtain ⟨hto, hfrom⟩ := mem_trinoCompile h
  constructor
  · intro d hd
    obtain ⟨role, policy, schema, table, hdemands, htable, rfl⟩ := hd
    obtain ⟨hmem, hchecked⟩ := hto role policy hdemands
    exact ⟨_, hmem, artifactOf_of_demands hdemands hchecked htable⟩
  · intro a ha
    obtain ⟨role, policy, hdemands, rfl⟩ := hfrom a ha
    obtain ⟨schema, table, htable⟩ := htables role policy hdemands
    exact ⟨_, artifactOf_of_demands hdemands (hto role policy hdemands).2 htable⟩

variable {g : TrinoGrant} {o a : TrinoArtifact}

theorem artifact_name (h : g.OfTable) : g.artifact.name = g.name := by
  have hresource : (if g.schema ≠ "" ∧ g.table ≠ "" then g.schema ++ "." ++ g.table
      else if g.schema ≠ "" then g.schema else g.table) = g.resource := if_pos h
  have htype : (if g.table ≠ "" then "dataset" else "service") = "dataset" := if_pos h.2
  show trinoName g.grantee (if g.table ≠ "" then "dataset" else "service") (if _ then _ else _) = _
  rw [hresource, htype]
  rfl

theorem mem_trinoReadCurrentState :
    o ∈ trinoReadCurrentState rows ↔ ∃ g ∈ rows, g.managed = true ∧ g.artifact = o := by
  have hmanaged : ∀ g : TrinoGrant,
      (g.grantee ≠ "" && matchesManaged g.grantee) = true ↔ g.managed = true := by
    intro g
    rw [Bool.and_eq_true, decide_eq_true_eq]
    refine ⟨And.right, fun h => ⟨fun hempty => ?_, h⟩⟩
    rw [TrinoGrant.managed, hempty] at h
    exact absurd h (by decide)
  rw [trinoReadCurrentState, List.mem_map]
  constructor
  · intro h
    obtain ⟨g, hg, rfl⟩ := h
    obtain ⟨hmem, hfilter⟩ := List.mem_filter.1 hg
    exact ⟨g, hmem, (hmanaged g).1 hfilter, rfl⟩
  · intro h
    obtain ⟨g, hg, hm, rfl⟩ := h
    exact ⟨g, List.mem_filter.2 ⟨hg, (hmanaged g).2 hm⟩, rfl⟩

/-- What is found under the names on both sides. -/
structure Matched (rbac : CanonicalRbac) (s : TrinoState) (desired current : OrderedDict String TrinoArtifact) :
    Prop where
  wanted : ∀ k a, desired.get k = some a → ∃ d, ArtifactOf rbac a d ∧ d.name = k
  unwanted : ∀ k, desired.get k = none → ∀ d, Demanded rbac d → d.name ≠ k
  there : ∀ k o, current.get k = some o →
    ∃ g ∈ s, g.managed = true ∧ g.OfTable ∧ g.name = k ∧ g.artifact = o
  missing : ∀ k, current.get k = none → ∀ g ∈ s, g.managed = true → g.name ≠ k

theorem matched (h : trinoCompile rbac = .ok artifacts)
    (htables : ∀ role policy, Demands TRINO_POLICY_PAIRS rbac role policy →
      ∃ schema table, SchemaTable policy.resourceIdPattern schema table)
    (hrows : ∀ g ∈ s, g.OfTable) (hlists : Lists rows s) :
    Matched rbac s (byName BackendArtifact.name artifacts)
      (byName BackendArtifact.name (trinoReadCurrentState rows)) := by
  obtain ⟨hto, hfrom⟩ := artifactOf_compiled h htables
  refine ⟨fun k a ha => ?_, fun k hnone d hd hk => ?_, fun k o ho => ?_, fun k hnone g hg hm hk => ?_⟩
  · obtain ⟨hmem, hname⟩ := mem_of_byName ha
    obtain ⟨d, hd⟩ := hfrom a hmem
    exact ⟨d, hd, hd.name_eq.symm.trans hname⟩
  · obtain ⟨a, ha, had⟩ := hto d hd
    exact byName_eq_none.1 hnone a ha (had.name_eq.trans hk)
  · obtain ⟨hmem, hname⟩ := mem_of_byName ho
    obtain ⟨g, hg, hm, rfl⟩ := mem_trinoReadCurrentState.1 hmem
    have htable := hrows g ((hlists g).1 hg)
    exact ⟨g, (hlists g).1 hg, hm, htable, (artifact_name htable).symm.trans hname, rfl⟩
  · refine byName_eq_none.1 hnone g.artifact ?_ ((artifact_name (hrows g hg)).trans hk)
    exact mem_trinoReadCurrentState.2 ⟨g, (hlists g).2 hg, hm, rfl⟩

/-! ### Rows that come and go -/

/-- The row comes with the artifact. -/
structure Adds (rbac : CanonicalRbac) (a : TrinoArtifact) (x : TrinoGrant) : Prop where
  artifactOf : ArtifactOf rbac a x
  sent : containsText "REVOKE" (grantText x.resource x.grantee) = false

def Takes (o : TrinoArtifact) (x : TrinoGrant) : Prop :=
  ∃ g : TrinoGrant, g.OfTable ∧ g.artifact = o ∧ g.CanRevoke ∧ g.revoked = x

variable {x : TrinoGrant} {current desired : OrderedDict String TrinoArtifact}

theorem Adds.act_eq (h : Adds rbac a x) (s : TrinoState) : (trinoAct (.create a) s).1 = insert x s := by
  rw [h.artifactOf.act_eq, h.sent]
  rfl

theorem Takes.act_eq (h : Takes o x) (s : TrinoState) : (trinoAct (.delete o) s).1 = s.erase x := by
  obtain ⟨g, htable, rfl, hcan, rfl⟩ := h
  rw [trinoAct_delete htable, if_pos hcan]

/-- One row comes with an artifact. -/
theorem Adds.unique {x' : TrinoGrant} (h : Adds rbac a x) (h' : Adds rbac a x') : x = x' := by
  have heq : insert x (∅ : TrinoState) = insert x' ∅ := (h.act_eq ∅).symm.trans (h'.act_eq ∅)
  have hmem : x ∈ insert x' (∅ : TrinoState) := heq ▸ Finset.mem_insert_self x ∅
  exact (Finset.mem_insert.1 hmem).resolve_right (Finset.notMem_empty x)

/-- One row goes with an artifact. -/
theorem Takes.unique {x' : TrinoGrant} (h : Takes o x) (h' : Takes o x') : x = x' := by
  by_contra hne
  have heq : ({x} : TrinoState).erase x = ({x} : TrinoState).erase x' :=
    (h.act_eq {x}).symm.trans (h'.act_eq {x})
  have hmem : x ∈ ({x} : TrinoState).erase x := by
    rw [heq]
    exact Finset.mem_erase.2 ⟨hne, Finset.mem_singleton_self x⟩
  exact Finset.notMem_erase x _ hmem

theorem mem_created {d : TrinoGrant} (h : ArtifactOf rbac a d) (s : TrinoState) (x : TrinoGrant) :
    x ∈ (trinoAct (.create a) s).1 ↔ x ∈ s ∨ Adds rbac a x := by
  constructor
  · intro hx
    rw [h.act_eq] at hx
    split at hx
    next => exact .inl hx
    next hsent =>
      obtain rfl | hx := Finset.mem_insert.1 hx
      · exact .inr ⟨h, Bool.eq_false_iff.2 hsent⟩
      · exact .inl hx
  · intro hx
    obtain hx | hadds := hx
    · rw [h.act_eq]
      split
      · exact hx
      · exact Finset.mem_insert_of_mem hx
    · rw [hadds.act_eq]
      exact Finset.mem_insert_self x s

theorem mem_deleted (htable : g.OfTable) (s : TrinoState) (x : TrinoGrant) :
    x ∈ (trinoAct (.delete g.artifact) s).1 ↔ x ∈ s ∧ ¬Takes g.artifact x := by
  constructor
  · intro hx
    refine ⟨?_, fun htakes => ?_⟩
    · rw [trinoAct_delete htable] at hx
      split at hx
      · exact Finset.mem_of_mem_erase hx
      · exact hx
    · rw [htakes.act_eq] at hx
      exact Finset.notMem_erase x s hx
  · intro hx
    rw [trinoAct_delete htable]
    split
    next hcan => exact Finset.mem_erase.2 ⟨fun heq => hx.2 ⟨g, htable, rfl, hcan, heq.symm⟩, hx.1⟩
    next => exact hx.1

theorem takes_self (htable : g.OfTable) (h : g.Revocable) : Takes g.artifact g :=
  ⟨g, htable, rfl, h.canRevoke⟩

theorem Takes.facts (htable : g.OfTable) (h : Takes g.artifact x) :
    x.Revocable ∧ x.name = g.name ∧ x.managed = g.managed := by
  obtain ⟨g', htable', heq, hcan, rfl⟩ := h
  have hname : g'.name = g.name := by rw [← artifact_name htable', heq, artifact_name htable]
  have hrole : g'.grantee = g.grantee := congrArg (fun o : TrinoArtifact => o.metadata.role) heq
  refine ⟨hcan, hname, ?_⟩
  show matchesManaged g'.grantee = matchesManaged g.grantee
  rw [hrole]

/-- **The rows after a sync.** -/
theorem mem_applied (h : Matched rbac s desired current) (x : TrinoGrant) :
    x ∈ (trinoApply (planByName desired current) s).1 ↔
      (x ∈ s ∨ ∃ k a, desired.get k = some a ∧ current.get k = none ∧ Adds rbac a x) ∧
        ∀ k o, current.get k = some o → desired.get k = none → ¬Takes o x := by
  rw [trinoApply, applyPlan_fst]
  refine holds_planByName (fun s x => x ∈ s) (fun s change => (trinoAct change s).1) ?_ ?_
  · intro k a ha s x
    obtain ⟨d, hd, -⟩ := h.wanted k a ha
    exact mem_created hd s x
  · intro k o ho s x
    obtain ⟨g, -, -, htable, -, rfl⟩ := h.there k o ho
    exact mem_deleted htable s x

/-! ### The verdict -/

/-- Nothing is missing or superfluous exactly when the demanded and the managed rows have the same names. -/
theorem Matched.inSync_iff (h : Matched rbac s desired current) :
    (absent desired current = [] ∧ superfluous desired current = []) ↔
      (∀ d, Demanded rbac d → ∃ g ∈ s, g.managed = true ∧ g.name = d.name) ∧
        ∀ g ∈ s, g.managed = true → ∃ d, Demanded rbac d ∧ d.name = g.name := by
  rw [absent_eq_nil_iff, superfluous_eq_nil_iff]
  constructor
  · intro hnone
    obtain ⟨habsent, hsuperfluous⟩ := hnone
    refine ⟨fun d hd => ?_, fun g hg hm => ?_⟩
    · cases hget : current.get d.name with
      | none => exact absurd rfl (h.unwanted d.name (habsent _ hget) d hd)
      | some o =>
        obtain ⟨g, hg, hm, -, hname, -⟩ := h.there _ o hget
        exact ⟨g, hg, hm, hname⟩
    · cases hget : desired.get g.name with
      | none => exact absurd rfl (h.missing g.name (hsuperfluous _ hget) g hg hm)
      | some a =>
        obtain ⟨d, hd, hname⟩ := h.wanted _ a hget
        exact ⟨d, hd.demanded, hname⟩
  · intro hsame
    obtain ⟨hdemanded, hthere⟩ := hsame
    refine ⟨fun k hk => ?_, fun k hk => ?_⟩
    · cases hget : desired.get k with
      | none => rfl
      | some a =>
        obtain ⟨d, hd, rfl⟩ := h.wanted k a hget
        obtain ⟨g, hg, hm, hname⟩ := hdemanded d hd.demanded
        exact absurd hname (h.missing _ hk g hg hm)
    · cases hget : current.get k with
      | none => rfl
      | some o =>
        obtain ⟨g, hg, hm, -, rfl, -⟩ := h.there k o hget
        obtain ⟨d, hd, hname⟩ := hthere g hg hm
        exact absurd hname (h.unwanted _ hk d hd)

theorem Matched.inSync_of_settled (h : Matched rbac s desired current)
    (hroles : ∀ d, Demanded rbac d → d.managed = true) (hsettled : Settled rbac s) :
    absent desired current = [] ∧ superfluous desired current = [] := by
  refine h.inSync_iff.2 ⟨fun d hd => ?_, fun g hg hm => ?_⟩
  · exact ⟨d, (hsettled d (hroles d hd)).2 hd, hroles d hd, rfl⟩
  · exact ⟨g, (hsettled g hm).1 hg, rfl⟩

theorem Matched.settled_of_inSync (h : Matched rbac s desired current) (hfaithful : TrinoNamesFaithful rbac s)
    (hsync : absent desired current = [] ∧ superfluous desired current = []) : Settled rbac s := by
  obtain ⟨hdemanded, hthere⟩ := h.inSync_iff.1 hsync
  intro g hm
  constructor
  · intro hg
    by_contra hno
    obtain ⟨d, hd, hname⟩ := hthere g hg hm
    exact (hfaithful.revoked g hg hm hno).1 d hd hname
  · intro hd
    obtain hg | ⟨hfree, -, -⟩ := hfaithful.granted g hd
    · exact hg
    · obtain ⟨g', hg', hm', hname⟩ := hdemanded g hd
      exact absurd hname (hfree g' hg' hm')

/-! ### The rows in the end -/

/-- Rows of others stay. -/
theorem Matched.unmanaged_applied (h : Matched rbac s desired current)
    (hroles : ∀ d, Demanded rbac d → d.managed = true) (hx : x.managed = false) :
    x ∈ (trinoApply (planByName desired current) s).1 ↔ x ∈ s := by
  rw [mem_applied h]
  constructor
  · intro hmem
    obtain hmem | ⟨k, a, -, -, hadds⟩ := hmem.1
    · exact hmem
    · rw [hroles x hadds.artifactOf.demanded] at hx
      cases hx
  · intro hmem
    refine ⟨.inl hmem, fun k o ho _ htakes => ?_⟩
    obtain ⟨g, -, hm, htable, -, rfl⟩ := h.there k o ho
    rw [(htakes.facts htable).2.2, hm] at hx
    cases hx

theorem Matched.settled_applied (h : Matched rbac s desired current) (hrows : ∀ g ∈ s, g.OfTable)
    (hfaithful : TrinoNamesFaithful rbac s) : Settled rbac (trinoApply (planByName desired current) s).1 := by
  intro x hm
  rw [mem_applied h]
  constructor
  · intro hx
    obtain ⟨hmem | ⟨k, a, -, -, hadds⟩, hkept⟩ := hx
    · by_contra hno
      obtain ⟨hunwanted, halone, hrevocable⟩ := hfaithful.revoked x hmem hm hno
      have hnone : desired.get x.name = none := by
        cases hget : desired.get x.name with
        | none => rfl
        | some a =>
          obtain ⟨d, hd, hname⟩ := h.wanted _ a hget
          exact absurd hname (hunwanted d hd.demanded)
      -- the artifact under its name is its own
      cases hget : current.get x.name with
      | none => exact h.missing _ hget x hmem hm rfl
      | some o =>
        obtain ⟨g, hg, hgm, -, hname, rfl⟩ := h.there _ o hget
        obtain rfl := halone g hg hgm hname
        exact hkept _ _ hget hnone (takes_self (hrows g hmem) hrevocable)
    · exact hadds.artifactOf.demanded
  · intro hd
    refine ⟨?_, fun k o ho hnone htakes => ?_⟩
    · obtain hmem | ⟨hfree, halone, hsent⟩ := hfaithful.granted x hd
      · exact .inl hmem
      · refine .inr ⟨x.name, ?_⟩
        have hmissing : current.get x.name = none := by
          cases hget : current.get x.name with
          | none => rfl
          | some o =>
            obtain ⟨g, hg, hgm, -, hname, -⟩ := h.there _ o hget
            exact absurd hname (hfree g hg hgm)
        cases hget : desired.get x.name with
        | none => exact absurd rfl (h.unwanted _ hget x hd)
        | some a =>
          obtain ⟨d, had, hname⟩ := h.wanted _ a hget
          obtain rfl := halone d had.demanded hname
          exact ⟨a, rfl, hmissing, had, hsent⟩
    · obtain ⟨g, -, -, htable, hname, rfl⟩ := h.there k o ho
      exact h.unwanted k hnone x hd ((htakes.facts htable).2.1.trans hname)

theorem Matched.faithful_of_settled (h : Matched rbac s desired current)
    (hroles : ∀ d, Demanded rbac d → d.managed = true)
    (hsettled : Settled rbac (trinoApply (planByName desired current) s).1) : TrinoNamesFaithful rbac s := by
  have hin : ∀ d, Demanded rbac d → d ∉ s →
      ∃ a, desired.get d.name = some a ∧ current.get d.name = none ∧ Adds rbac a d := by
    intro d hd hno
    obtain ⟨k, a, ha, hnone, hadds⟩ :=
      ((mem_applied h d).1 ((hsettled d (hroles d hd)).2 hd)).1.resolve_left hno
    obtain ⟨d', hd', hk⟩ := h.wanted k a ha
    have hk' : k = d.name := by rw [← hk, ← hd'.name_eq, hadds.artifactOf.name_eq]
    subst hk'
    exact ⟨a, ha, hnone, hadds⟩
  have hout : ∀ g ∈ s, g.managed = true → ¬Demanded rbac g →
      ∃ o, current.get g.name = some o ∧ desired.get g.name = none ∧ Takes o g ∧ g.Revocable := by
    intro g hg hm hno
    have hgone : g ∉ (trinoApply (planByName desired current) s).1 :=
      fun hmem => hno ((hsettled g hm).1 hmem)
    rw [mem_applied h] at hgone
    push Not at hgone
    obtain ⟨k, o, ho, hnone, htakes⟩ := hgone (.inl hg)
    obtain ⟨g', -, -, htable, hk, rfl⟩ := h.there k o ho
    obtain ⟨hrevocable, hname, -⟩ := htakes.facts htable
    rw [← hk, ← hname] at ho hnone
    exact ⟨_, ho, hnone, htakes, hrevocable⟩
  constructor
  · intro d hd
    by_cases hmem : d ∈ s
    · exact .inl hmem
    obtain ⟨a, ha, hnone, hadds⟩ := hin d hd hmem
    refine .inr ⟨h.missing _ hnone, fun d' hd' hname => ?_, hadds.sent⟩
    have hmem' : d' ∉ s := fun hd's => h.missing _ hnone d' hd's (hroles d' hd') hname
    obtain ⟨a', ha', -, hadds'⟩ := hin d' hd' hmem'
    rw [hname, ha] at ha'
    cases ha'
    exact hadds'.unique hadds
  · intro g hg hm hno
    obtain ⟨o, ho, hnone, htakes, hrevocable⟩ := hout g hg hm hno
    have hunwanted := h.unwanted _ hnone
    refine ⟨hunwanted, fun g' hg' hm' hname => ?_, hrevocable⟩
    obtain ⟨o', ho', -, htakes', -⟩ := hout g' hg' hm' fun hd => hunwanted g' hd hname
    rw [hname, ho] at ho'
    cases ho'
    exact htakes'.unique htakes

theorem trinoPlan_eq (h : trinoCompile rbac = .ok artifacts) (rows : List TrinoGrant) :
    trinoPlan rbac rows = .ok (planByName (byName BackendArtifact.name artifacts)
      (byName BackendArtifact.name (trinoReadCurrentState rows))) := by
  rw [trinoPlan, h]
  rfl

theorem trinoSync_eq (h : trinoCompile rbac = .ok artifacts) (rows : List TrinoGrant) (s : TrinoState) :
    trinoSync rbac rows s = .ok (trinoApply (planByName (byName BackendArtifact.name artifacts)
      (byName BackendArtifact.name (trinoReadCurrentState rows))) s).1 := by
  rw [trinoSync, trinoPlan_eq h]
  rfl

theorem trinoVerify_inSync (h : trinoCompile rbac = .ok artifacts) (rows : List TrinoGrant) :
    ∃ v, trinoVerify rbac rows = .ok v ∧ (v.inSync = true ↔ absent (byName BackendArtifact.name artifacts)
          (byName BackendArtifact.name (trinoReadCurrentState rows)) = [] ∧
        superfluous (byName BackendArtifact.name artifacts)
          (byName BackendArtifact.name (trinoReadCurrentState rows)) = []) := by
  rw [trinoVerify, h]
  refine ⟨_, rfl, ?_⟩
  rw [Bool.and_eq_true, List.isEmpty_iff, List.isEmpty_iff]

/-- The rows of a state after a sync are rows of tables too. -/
theorem Matched.ofTable_applied (h : Matched rbac s desired current) (hrows : ∀ g ∈ s, g.OfTable) :
    ∀ g ∈ (trinoApply (planByName desired current) s).1, g.OfTable := by
  intro g hg
  obtain hg | ⟨k, a, -, -, hadds⟩ := ((mem_applied h g).1 hg).1
  · exact hrows g hg
  · obtain ⟨role, policy, schema, table, -, htable, rfl⟩ := hadds.artifactOf.demanded
    exact ⟨htable.schema_ne, htable.table_ne⟩

end

/-- **The sync of a state converges** exactly when its names tell the rows apart that matter: a demanded
row is there, or no other row has its name and its statement is sent; and a managed row nobody demands
shares its name with no other, and can be revoked. -/
theorem trinoConverges_iff (rbac : CanonicalRbac) (s : TrinoState)
    (hcompiles : ∃ artifacts, trinoCompile rbac = .ok artifacts)
    (hroles : ∀ role policy, Demands TRINO_POLICY_PAIRS rbac role policy → matchesManaged role = true)
    (htables : ∀ role policy, Demands TRINO_POLICY_PAIRS rbac role policy →
      ∃ schema table, SchemaTable policy.resourceIdPattern schema table)
    (hrows : ∀ g ∈ s, g.OfTable) : TrinoConverges rbac s ↔ TrinoNamesFaithful rbac s := by
  obtain ⟨artifacts, h⟩ := hcompiles
  have hmanaged : ∀ d, Demanded rbac d → d.managed = true := by
    intro d hd
    obtain ⟨role, policy, schema, table, hdemands, -, rfl⟩ := hd
    exact hroles role policy hdemands
  constructor
  · intro hconverges
    have hlists : Lists s.toList s := fun g => Finset.mem_toList
    obtain ⟨s', hs', hsettled, -⟩ := hconverges.converges _ hlists
    rw [trinoSync_eq h] at hs'
    cases hs'
    exact (matched h htables hrows hlists).faithful_of_settled hmanaged hsettled
  · intro hfaithful
    refine ⟨fun rows hlists => ?_, fun rows v hlists hv hsync => ?_⟩
    · have hm := matched h htables hrows hlists
      have hsettled := hm.settled_applied hrows hfaithful
      refine ⟨_, trinoSync_eq h rows s, hsettled, fun g hg => hm.unmanaged_applied hmanaged hg,
        fun rows' hlists' => ?_⟩
      have hnone := (matched h htables (hm.ofTable_applied hrows) hlists').inSync_of_settled
        hmanaged hsettled
      obtain ⟨v, hv, hiff⟩ := trinoVerify_inSync h rows'
      refine ⟨⟨v, hv, hiff.2 hnone⟩, ?_⟩
      rw [trinoPlan_eq h, planByName_eq_nil_iff.2 hnone]
    · obtain ⟨v', hv', hiff⟩ := trinoVerify_inSync h rows
      rw [hv] at hv'
      cases hv'
      exact (matched h htables hrows hlists).settled_of_inSync hfaithful (hiff.1 hsync)

/-! ### A policy that lets analysts read a table -/

def analystPolicy : PolicyRule where
  policyId := "orders-read"
  principalRoles := ["phlo_analyst"]
  action := "dataset.read"
  resourceType := "dataset"
  resourceIdPattern := "gold.orders"

def analystRbac : CanonicalRbac := ⟨[analystPolicy]⟩

def analystReads : TrinoGrant := ⟨"phlo_analyst", "gold", "orders", "SELECT"⟩

theorem schemaTable_orders : SchemaTable "gold.orders" "gold" "orders" where
  text := by decide
  schema_ne := by decide
  table_ne := by decide
  plain := List.all_iff_forall_prop.1 (by decide)

theorem demands_analystRbac {role : String} {policy : PolicyRule}
    (h : Demands TRINO_POLICY_PAIRS analystRbac role policy) : role = "phlo_analyst" ∧ policy = analystPolicy := by
  obtain ⟨hpolicy, -, hrole⟩ := h
  obtain rfl := List.mem_singleton.1 hpolicy
  exact ⟨List.mem_singleton.1 hrole, rfl⟩

theorem demanded_analystRbac {g : TrinoGrant} : Demanded analystRbac g ↔ g = analystReads := by
  constructor
  · intro h
    obtain ⟨role, policy, schema, table, hdemands, htable, rfl⟩ := h
    obtain ⟨rfl, rfl⟩ := demands_analystRbac hdemands
    have hparts : splitDots (schema ++ "." ++ table) = [schema, table] := by
      refine splitDots_qualified (fun hdot => ?_) fun hdot => ?_
      · exact (htable.plain '.' (List.mem_append_left _ hdot)).1 rfl
      · exact (htable.plain '.' (List.mem_append_right _ hdot)).1 rfl
    rw [← htable.text, show splitDots analystPolicy.resourceIdPattern = ["gold", "orders"] by decide] at hparts
    cases hparts
    rfl
  · intro h
    subst h
    exact ⟨_, _, _, _, ⟨List.mem_singleton_self _, by decide, List.mem_singleton_self _⟩,
      schemaTable_orders, rfl⟩

theorem analystRbac_compiles : ∃ artifacts, trinoCompile analystRbac = .ok artifacts := ⟨_, rfl⟩

theorem analystRbac_roles (role : String) (policy : PolicyRule)
    (h : Demands TRINO_POLICY_PAIRS analystRbac role policy) : matchesManaged role = true := by
  obtain ⟨rfl, -⟩ := demands_analystRbac h
  decide

theorem analystRbac_tables (role : String) (policy : PolicyRule)
    (h : Demands TRINO_POLICY_PAIRS analystRbac role policy) :
    ∃ schema table, SchemaTable policy.resourceIdPattern schema table := by
  obtain ⟨-, rfl⟩ := demands_analystRbac h
  exact ⟨_, _, schemaTable_orders⟩

/-- Without the privilege, and with one that is revoked. -/
def staleGrants : TrinoState :=
  {⟨"phlo_analyst", "raw", "events", "INSERT"⟩, ⟨"admin", "gold", "orders", "OWNERSHIP"⟩}

theorem trinoConverges_staleGrants : TrinoConverges analystRbac staleGrants := by
  refine (trinoConverges_iff analystRbac staleGrants analystRbac_compiles analystRbac_roles
    analystRbac_tables (by decide)).2 ⟨fun d hd => ?_, fun g hg hm _ => ?_⟩
  · obtain rfl := demanded_analystRbac.1 hd
    exact .inr ⟨by decide, fun d' hd' _ => demanded_analystRbac.1 hd', by decide +kernel⟩
  · have hall : ∀ g ∈ staleGrants, g.managed = true →
        g = ⟨"phlo_analyst", "raw", "events", "INSERT"⟩ := by decide
    obtain rfl := hall g hg hm
    refine ⟨fun d hd => ?_, fun g' hg' hm' _ => hall g' hg' hm', by decide, by decide, by decide,
      by decide, by decide⟩
    obtain rfl := demanded_analystRbac.1 hd
    decide

/-- The privilege of the policy, and one nobody demands on the same table. -/
def extraPrivilege : TrinoState := {analystReads, ⟨"phlo_analyst", "gold", "orders", "INSERT"⟩}

/-- **A privilege nobody demands is left**: nothing is planned, and the verdict is in sync. -/
theorem privilege_left :
    (∃ artifacts, trinoCompile analystRbac = .ok artifacts) ∧
    (∀ role policy, Demands TRINO_POLICY_PAIRS analystRbac role policy → matchesManaged role = true) ∧
    (∀ role policy, Demands TRINO_POLICY_PAIRS analystRbac role policy →
      ∃ schema table, SchemaTable policy.resourceIdPattern schema table) ∧
    (∀ g ∈ extraPrivilege, g.OfTable) ∧
    Lists [analystReads, ⟨"phlo_analyst", "gold", "orders", "INSERT"⟩] extraPrivilege ∧
    trinoPlan analystRbac [analystReads, ⟨"phlo_analyst", "gold", "orders", "INSERT"⟩] = .ok [] ∧
    (trinoVerify analystRbac [analystReads, ⟨"phlo_analyst", "gold", "orders", "INSERT"⟩]).map
      VerifyResult.inSync = .ok true ∧
    ¬Settled analystRbac extraPrivilege ∧ ¬TrinoConverges analystRbac extraPrivilege := by
  have hlists : Lists [analystReads, ⟨"phlo_analyst", "gold", "orders", "INSERT"⟩] extraPrivilege := by
    intro g
    rw [extraPrivilege, Finset.mem_insert, Finset.mem_singleton, List.mem_cons, List.mem_singleton]
  have hunsettled : ¬Settled analystRbac extraPrivilege := by
    intro hsettled
    have hdemanded := (hsettled ⟨"phlo_analyst", "gold", "orders", "INSERT"⟩ (by decide)).1 (by decide)
    exact absurd (demanded_analystRbac.1 hdemanded) (by decide)
  refine ⟨analystRbac_compiles, analystRbac_roles, analystRbac_tables, by decide, hlists, rfl, rfl,
    hunsettled, fun hconverges => hunsettled ?_⟩
  exact hconverges.verdict _ _ hlists rfl rfl

end Phlo.Rbac
