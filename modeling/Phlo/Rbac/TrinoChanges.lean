import Phlo.Rbac.TrinoCompiler

/-!
# What becomes of one Trino artifact

The artifact of a table is granted unless its statement has the word `REVOKE` in it.  A row that has been
read back is revoked by an id with colons, and the backend checks every part of the id again.

* `trinoAct_create` — the row of a created artifact;
* `trinoAct_delete` — the row that goes with a deleted one.
-/

namespace Phlo.Rbac

open Phlo.Library
open Phlo.RunEvidence (isWordChar)

/-! ### Names of tables -/

/-- The pattern is the name of a table. -/
structure SchemaTable (pattern schema table : String) : Prop where
  text : pattern = schema ++ "." ++ table
  schema_ne : schema ≠ ""
  table_ne : table ≠ ""
  plain : ∀ c ∈ schema.toList ++ table.toList, c ≠ '.' ∧ c ≠ '*' ∧ c ≠ '%'

section

variable {pattern schema table : String}

theorem toList_qualified (schema table : String) :
    (schema ++ "." ++ table).toList = schema.toList ++ '.' :: table.toList := by
  rw [String.toList_append, String.toList_append, List.append_assoc]
  rfl

theorem SchemaTable.noWildcard (h : SchemaTable pattern schema table) : ∀ c ∈ pattern.toList, c ≠ '*' ∧ c ≠ '%' := by
  intro c hc
  rw [h.text, toList_qualified] at hc
  obtain hc | hc := List.mem_append.1 hc
  · exact (h.plain c (List.mem_append_left _ hc)).2
  · obtain rfl | hc := List.mem_cons.1 hc
    · decide
    · exact (h.plain c (List.mem_append_right _ hc)).2

theorem SchemaTable.sqlPattern (h : SchemaTable pattern schema table) : sqlPattern pattern = pattern := by
  have hmap : (pattern.toList.map fun c => if c = '*' then '%' else c) = pattern.toList := by
    refine (List.map_congr_left fun c hc => ?_).trans (List.map_id _)
    exact if_neg (h.noWildcard c hc).1
  rw [Rbac.sqlPattern, hmap, String.ofList_toList]

theorem splitDots_qualified (hschema : '.' ∉ schema.toList) (htable : '.' ∉ table.toList) :
    splitDots (schema ++ "." ++ table) = [schema, table] := by
  rw [splitDots, toList_qualified, List.splitOn_append_cons_self_of_not_mem hschema,
    List.splitOn_eq_singleton htable, List.map_cons, List.map_singleton, String.ofList_toList,
    String.ofList_toList]

theorem length_splitDots_pos (s : String) : 0 < (splitDots s).length := by
  rw [splitDots, List.length_map]
  exact List.length_pos_iff.2 (List.splitOn_ne_nil _ _)

/-- A text with a dot has two parts at least. -/
theorem length_splitDots {s : String} (h : '.' ∈ s.toList) : 2 ≤ (splitDots s).length := by
  obtain ⟨l, r, heq⟩ := List.append_of_mem h
  have hl := List.length_pos_iff.2 (List.splitOn_ne_nil '.' l)
  have hr := List.length_pos_iff.2 (List.splitOn_ne_nil '.' r)
  rw [splitDots, List.length_map, heq, List.splitOn_append_cons_self, List.length_append]
  omega

theorem splitDots_append (schema table : String) :
    splitDots (schema ++ "." ++ table) = splitDots schema ++ splitDots table := by
  rw [splitDots, toList_qualified, List.splitOn_append_cons_self, List.map_append]
  rfl

end

/-! ### Rows -/

namespace TrinoGrant

def resource (g : TrinoGrant) : String := g.schema ++ "." ++ g.table

def name (g : TrinoGrant) : String := trinoName g.grantee "dataset" g.resource

def managed (g : TrinoGrant) : Bool := matchesManaged g.grantee

def OfTable (g : TrinoGrant) : Prop := g.schema ≠ "" ∧ g.table ≠ ""

instance (g : TrinoGrant) : Decidable g.OfTable := inferInstanceAs (Decidable (_ ∧ _))

/-- The backend accepts the statement that revokes the row, whatever the case of the privilege. -/
def CanRevoke (g : TrinoGrant) : Prop :=
  upper g.privilege ∈ ALLOWED_ACTIONS ∧ isTrinoIdentifier g.resource = true ∧
    isTrinoIdentifier g.grantee = true ∧ '.' ∉ g.schema.toList ∧ '.' ∉ g.table.toList

instance (g : TrinoGrant) : Decidable g.CanRevoke :=
  inferInstanceAs (Decidable (_ ∧ _ ∧ _ ∧ _ ∧ _))

/-- The row that goes. -/
def revoked (g : TrinoGrant) : TrinoGrant := { g with privilege := upper g.privilege }

/-- The row can be revoked: its privilege is one the backend knows, and its names are identifiers. -/
def Revocable (g : TrinoGrant) : Prop :=
  g.privilege ∈ ALLOWED_ACTIONS ∧ isTrinoIdentifier g.resource = true ∧
    isTrinoIdentifier g.grantee = true ∧ '.' ∉ g.schema.toList ∧ '.' ∉ g.table.toList

end TrinoGrant

variable {action : String}

theorem upper_of_allowed (h : action ∈ ALLOWED_ACTIONS) : upper action = action := by
  have hall : ∀ a ∈ ALLOWED_ACTIONS, upper a = a := by decide
  exact hall action h

theorem TrinoGrant.Revocable.canRevoke {g : TrinoGrant} (h : g.Revocable) : g.CanRevoke ∧ g.revoked = g := by
  have hupper := upper_of_allowed h.1
  refine ⟨⟨hupper.symm ▸ h.1, h.2⟩, ?_⟩
  rw [TrinoGrant.revoked, hupper]

/-! ### Revoking -/

theorem splitColon_append {a : List Char} (h : ':' ∉ a) (rest : List Char) :
    splitColon (a ++ ':' :: rest) = some (a, rest) := by
  have hall : ∀ c ∈ a, decide (c ≠ ':') = true := fun c hc => by
    refine decide_eq_true fun heq => h ?_
    rw [← heq]
    exact hc
  rw [splitColon, List.dropWhile_append_of_pos hall, List.dropWhile_cons_of_neg (by simp),
    List.takeWhile_append_of_pos hall, List.takeWhile_cons_of_neg (by simp), List.append_nil]

def policyIdText (action table principal : String) : String := action ++ ":" ++ table ++ ":" ++ principal

theorem toList_policyIdText (action table principal : String) : (policyIdText action table principal).toList =
      action.toList ++ ':' :: (table.toList ++ ':' :: principal.toList) := by
  simp [policyIdText, String.toList_append]

theorem splitPolicyId_eq {table principal : String} (haction : ':' ∉ action.toList) (htable : ':' ∉ table.toList) :
    splitPolicyId (policyIdText action table principal) = some (action, table, principal) := by
  rw [splitPolicyId, toList_policyIdText, splitColon_append haction]
  show (splitColon (table.toList ++ ':' :: principal.toList) >>= _) = _
  rw [splitColon_append htable]
  show some (String.ofList _, String.ofList _, String.ofList _) = _
  rw [String.ofList_toList, String.ofList_toList, String.ofList_toList]

/-- A colon too many ends up in the last part. -/
theorem splitPolicyId_colon {table : String} (principal : String) (h : ':' ∈ action.toList ∨ ':' ∈ table.toList) :
    ∃ a t p, splitPolicyId (policyIdText action table principal) = some (a, t, p) ∧ ':' ∈ p.toList := by
  -- the text after its first two colons, of which the third is left
  have hsplit : ∀ x y z : List Char, ':' ∉ x → ':' ∉ y → ':' ∈ z →
      (policyIdText action table principal).toList = x ++ ':' :: (y ++ ':' :: z) →
      ∃ a t p, splitPolicyId (policyIdText action table principal) = some (a, t, p) ∧ ':' ∈ p.toList := by
    intro x y z hx hy hz heq
    refine ⟨String.ofList x, String.ofList y, String.ofList z, ?_, by rwa [String.toList_ofList]⟩
    rw [splitPolicyId, heq, splitColon_append hx]
    show (splitColon (y ++ ':' :: z) >>= _) = _
    rw [splitColon_append hy]
    rfl
  rw [toList_policyIdText] at hsplit
  by_cases haction : ':' ∈ action.toList
  · obtain ⟨x, rest, heq, hx⟩ := List.eq_append_cons_of_mem haction
    by_cases hrest : ':' ∈ rest
    · obtain ⟨y, z, hyz, hy⟩ := List.eq_append_cons_of_mem hrest
      refine hsplit x y (z ++ ':' :: (table.toList ++ ':' :: principal.toList)) hx hy (by simp) ?_
      rw [heq, hyz]
      simp
    · refine hsplit x rest (table.toList ++ ':' :: principal.toList) hx hrest (by simp) ?_
      rw [heq]
      simp
  · obtain ⟨y, z, heq, hy⟩ := List.eq_append_cons_of_mem (h.resolve_left haction)
    refine hsplit action.toList y (z ++ ':' :: principal.toList) haction hy (by simp) ?_
    rw [heq]
    simp

theorem colon_not_mem_identifier {s : String} (h : isTrinoIdentifier s = true) : ':' ∉ s.toList := by
  intro hc
  obtain hfirst | hrest | heq := mem_of_matchesClass h hc
  · exact absurd hfirst (by decide)
  · exact absurd hrest (by decide)
  · exact absurd heq (by decide)

theorem colon_not_mem_action (h : upper action ∈ ALLOWED_ACTIONS) : ':' ∉ action.toList := by
  intro hc
  have hall : ∀ a ∈ ALLOWED_ACTIONS, ':' ∉ a.toList := by decide
  refine hall _ h ?_
  rw [upper, String.toList_ofList]
  exact List.mem_map.2 ⟨':', hc, rfl⟩

theorem execute_qualified (s : TrinoState) (privilege schema table principal : String)
    (h : ¬('.' ∉ schema.toList ∧ '.' ∉ table.toList)) :
    s.execute (.revoke privilege (splitDots (schema ++ "." ++ table)) principal) = s := by
  have hlength : 3 ≤ (splitDots (schema ++ "." ++ table)).length := by
    rw [splitDots_append, List.length_append]
    have hs := length_splitDots_pos schema
    have ht := length_splitDots_pos table
    by_cases hschema : '.' ∈ schema.toList
    · have htwo := length_splitDots hschema
      omega
    · have htable : '.' ∈ table.toList := by
        by_contra htable
        exact h ⟨hschema, htable⟩
      have htwo := length_splitDots htable
      omega
  match hparts : splitDots (schema ++ "." ++ table) with
  | [] => rfl
  | [_] => rfl
  | [_, _] =>
    rw [hparts] at hlength
    exact absurd hlength (Nat.not_succ_le_self 2)
  | _ :: _ :: _ :: _ => rfl

theorem trinoAct_delete {g : TrinoGrant} (htable : g.OfTable) (s : TrinoState) :
    (trinoAct (.delete g.artifact) s).1 = if g.CanRevoke then s.erase g.revoked else s := by
  have hresource : g.artifact.metadata.resource = g.resource := if_pos htable
  have hact : (trinoAct (.delete g.artifact) s).1 =
      (s.revokePolicy (policyIdText g.privilege g.resource g.grantee)).1 := by
    show (s.revokePolicy (g.privilege ++ ":" ++ g.artifact.metadata.resource ++ ":" ++ g.grantee)).1 = _
    rw [hresource]
    rfl
  rw [hact, TrinoState.revokePolicy]
  by_cases hcolon : ':' ∈ g.privilege.toList ∨ ':' ∈ g.resource.toList
  · -- the principal is no identifier then
    obtain ⟨a, t, p, hsplit, hp⟩ := splitPolicyId_colon g.grantee hcolon
    have hno : ¬g.CanRevoke := by
      intro h
      obtain haction | hresource := hcolon
      · exact colon_not_mem_action h.1 haction
      · exact colon_not_mem_identifier h.2.1 hresource
    have hprincipal : isTrinoIdentifier p = false :=
      Bool.eq_false_iff.2 fun h => colon_not_mem_identifier h hp
    rw [hsplit, if_neg hno]
    dsimp only
    split
    · rfl
    · split
      · rfl
      · rw [hprincipal]
        rfl
  · obtain ⟨haction, hresource⟩ := not_or.1 hcolon
    rw [splitPolicyId_eq haction hresource]
    dsimp only
    by_cases hallowed : upper g.privilege ∈ ALLOWED_ACTIONS
    · rw [if_neg (not_not.2 hallowed)]
      by_cases hidentifier : isTrinoIdentifier g.resource = true
      · rw [if_neg (by rw [hidentifier]; decide)]
        by_cases hgrantee : isTrinoIdentifier g.grantee = true
        · rw [if_neg (by rw [hgrantee]; decide)]
          by_cases hdots : '.' ∉ g.schema.toList ∧ '.' ∉ g.table.toList
          · rw [if_pos ⟨hallowed, hidentifier, hgrantee, hdots⟩]
            show s.execute (.revoke _ (splitDots (g.schema ++ "." ++ g.table)) _) = _
            rw [splitDots_qualified hdots.1 hdots.2]
            rfl
          · rw [if_neg fun h => hdots h.2.2.2]
            exact execute_qualified s _ _ _ _ hdots
        · rw [if_pos (by rw [Bool.eq_false_iff.2 hgrantee]; rfl), if_neg fun h => hgrantee h.2.2.1]
      · rw [if_pos (by rw [Bool.eq_false_iff.2 hidentifier]; rfl), if_neg fun h => hidentifier h.2.1]
    · rw [if_pos hallowed, if_neg fun h => hallowed h.1]

/-! ### Granting -/

theorem mem_sqlIdentifier {s : String} (h : isSqlIdentifier s = true) {c : Char} (hc : c ∈ s.toList) : c ≠ ' ' := by
  intro heq
  rw [heq] at hc
  obtain hfirst | hrest | hline := mem_of_matchesClass h hc
  · exact absurd hfirst (by decide)
  · exact absurd hrest (by decide)
  · exact absurd hline (by decide)

theorem isTrinoIdentifier_of_class {s : String} {rest : Char → Bool}
    (h : matchesClass isLetter rest s.toList = true)
    (hrest : ∀ c ∈ s.toList, rest c = true → isIdentifierChar c = true) : isTrinoIdentifier s = true := by
  refine matchesClass_mono h (fun c _ => isWordChar_of_isLetter) fun c hc hr => ?_
  have hidentifier := hrest c hc hr
  simp only [isIdentifierChar, Bool.or_eq_true] at hidentifier ⊢
  obtain (halnum | hunderscore) | hdot := hidentifier
  · exact .inl (by simp [isWordChar, halnum])
  · exact .inl (by simp [isWordChar, hunderscore])
  · exact .inr hdot

theorem isTrinoIdentifier_of_role {s : String} (h : isSqlIdentifier s = true) : isTrinoIdentifier s = true :=
  isTrinoIdentifier_of_class h fun _ _ hc => hc

theorem isSqlResourcePattern_of_validate {s label : String}
    (h : validateSqlResourcePattern s label = .ok ()) (hstar : s ≠ "*") (hpercent : s ≠ "%") :
    isSqlResourcePattern s = true := by
  rw [validateSqlResourcePattern, if_neg fun hwild => hwild.elim hstar hpercent] at h
  obtain ⟨_, hpattern, -⟩ := bind_eq_ok.1 h
  exact require_eq_ok.1 hpattern

theorem SchemaTable.isSqlResourcePattern {pattern schema table label : String}
    (h : SchemaTable pattern schema table) (hvalid : validateSqlResourcePattern pattern label = .ok ()) :
    isSqlResourcePattern pattern = true := by
  refine isSqlResourcePattern_of_validate hvalid ?_ ?_
  · intro heq
    exact (h.noWildcard '*' (by rw [heq]; decide)).1 rfl
  · intro heq
    exact (h.noWildcard '%' (by rw [heq]; decide)).2 rfl

theorem SchemaTable.isTrinoIdentifier {pattern schema table label : String}
    (h : SchemaTable pattern schema table) (hvalid : validateSqlResourcePattern pattern label = .ok ()) :
    isTrinoIdentifier pattern = true := by
  refine isTrinoIdentifier_of_class (h.isSqlResourcePattern hvalid) fun c hc hpattern => ?_
  obtain ⟨hstar, hpercent⟩ := h.noWildcard c hc
  simpa [isPatternChar, hstar, hpercent] using hpattern

theorem SchemaTable.noSpace {pattern schema table label : String} (h : SchemaTable pattern schema table)
    (hvalid : validateSqlResourcePattern pattern label = .ok ()) : ∀ c ∈ pattern.toList, c ≠ ' ' := by
  intro c hc heq
  rw [heq] at hc
  obtain hfirst | hrest | hline := mem_of_matchesClass (h.isSqlResourcePattern hvalid) hc
  · exact absurd hfirst (by decide)
  · exact absurd hrest (by decide)
  · exact absurd hline (by decide)

def grantText (resource role : String) : String := "GRANT SELECT ON TABLE " ++ resource ++ " TO ROLE " ++ role

theorem grant_words : "GRANT " ++ "SELECT" ++ " ON " ++ "TABLE" ++ " " = "GRANT SELECT ON TABLE " := by
  decide

theorem trinoStatement_eq (resource role : String) :
    trinoStatement "SELECT" "dataset" resource role = grantText resource role := by
  have hwords : trinoStatement "SELECT" "dataset" resource role =
      "GRANT " ++ "SELECT" ++ " ON " ++ "TABLE" ++ " " ++ resource ++ " TO ROLE " ++ role := by
    unfold trinoStatement
    rw [if_pos rfl]
  rw [hwords, grant_words]
  unfold grantText
  exact Eq.refl _

/-- ` TO ROLE ` -/
def TO_ROLE : List Char := ' ' :: ['T', 'O', ' ', 'R', 'O', 'L', 'E', ' ']

theorem toList_toRole : " TO ROLE ".toList = TO_ROLE := by decide

theorem toList_grant : "GRANT SELECT ON TABLE ".toList = ['G', 'R', 'A', 'N', 'T'] ++ ' ' ::
    (['S', 'E', 'L', 'E', 'C', 'T'] ++ ' ' :: (['O', 'N'] ++ ' ' :: (['T', 'A', 'B', 'L', 'E'] ++ ' ' :: []))) := by
  decide

theorem toList_grantText (resource role : String) : (grantText resource role).toList =
    ['G', 'R', 'A', 'N', 'T'] ++ ' ' :: (['S', 'E', 'L', 'E', 'C', 'T'] ++ ' ' :: (['O', 'N'] ++
      ' ' :: (['T', 'A', 'B', 'L', 'E'] ++ ' ' :: (resource.toList ++ (TO_ROLE ++ role.toList))))) := by
  unfold grantText
  simp only [String.toList_append, toList_grant, toList_toRole, List.append_assoc, List.cons_append,
    List.nil_append]

/-- A table is no word of the pattern. -/
theorem not_toRole_before {resource : List Char} (h : ∀ c ∈ resource, c ≠ ' ') (rest : List Char) :
    TO_ROLE.isPrefixOf (' ' :: (resource ++ (TO_ROLE ++ rest))) = false := by
  refine Bool.eq_false_iff.2 fun hstarts => ?_
  obtain ⟨l, hl⟩ := List.isPrefixOf_iff_prefix.1 hstarts
  have hafter : ['T', 'O', ' ', 'R', 'O', 'L', 'E', ' '] ++ l = resource ++ (TO_ROLE ++ rest) :=
    (List.cons.inj hl).2
  have hall : ∀ c ∈ resource, decide (c ≠ ' ') = true := fun c hc => decide_eq_true (h c hc)
  -- what follows the first blank on both sides
  have hdrop := congrArg (List.dropWhile fun c => decide (c ≠ ' ')) hafter
  rw [List.dropWhile_append_of_pos hall] at hdrop
  have hblank : ' ' :: 'R' :: ['O', 'L', 'E', ' '] ++ l =
      ' ' :: 'T' :: (['O', ' ', 'R', 'O', 'L', 'E', ' '] ++ rest) := hdrop
  cases hblank

/-- ` TO ROLE ` stands in the statement once. -/
theorem occurrences_grantText {resource role : String} (hresource : ∀ c ∈ resource.toList, c ≠ ' ')
    (hrole : ∀ c ∈ role.toList, c ≠ ' ') : occurrences TO_ROLE (grantText resource role).toList = 1 := by
  have hmem : ' ' ∉ resource.toList := fun h => hresource ' ' h rfl
  have hmem' : ' ' ∉ role.toList := fun h => hrole ' ' h rfl
  have hnone : occurrences TO_ROLE (role.toList ++ []) = occurrences TO_ROLE [] := occurrences_append hmem' []
  rw [List.append_nil] at hnone
  rw [toList_grantText]
  calc occurrences TO_ROLE _
      = occurrences TO_ROLE (' ' :: (resource.toList ++ (TO_ROLE ++ role.toList))) := by
        refine (occurrences_append (by decide) _).trans ?_
        refine (occurrences_cons rfl).trans ((occurrences_append (by decide) _).trans ?_)
        refine (occurrences_cons rfl).trans ((occurrences_append (by decide) _).trans ?_)
        exact (occurrences_cons rfl).trans (occurrences_append (by decide) _)
    _ = occurrences TO_ROLE (TO_ROLE ++ role.toList) :=
        (occurrences_cons (not_toRole_before hresource _)).trans (occurrences_append hmem _)
    _ = occurrences TO_ROLE role.toList + 1 := occurrences_self_append _
    _ = 1 := by
        rw [hnone]
        rfl

theorem trinoAct_create {policy : PolicyRule} {role schema table : String}
    (htable : SchemaTable policy.resourceIdPattern schema table) (hchecked : TrinoChecked role policy)
    (s : TrinoState) : (trinoAct (.create (trinoArtifact policy role "SELECT")) s).1 =
      if containsText "REVOKE" (grantText policy.resourceIdPattern role) then s
      else insert ⟨role, schema, table, "SELECT"⟩ s := by
  have hrole := hchecked.role_valid
  have hvalid := hchecked.resource_valid
  rw [htable.sqlPattern] at hvalid
  have hstatement : (trinoArtifact policy role "SELECT").statement =
      grantText policy.resourceIdPattern role := by
    show trinoStatement "SELECT" policy.resourceType (sqlPattern policy.resourceIdPattern) role = _
    rw [htable.sqlPattern, hchecked.type_eq, trinoStatement_eq]
  have hparts : splitDots policy.resourceIdPattern = [schema, table] := by
    rw [htable.text]
    refine splitDots_qualified (fun h => ?_) fun h => ?_
    · exact (htable.plain '.' (List.mem_append_left _ h)).1 rfl
    · exact (htable.plain '.' (List.mem_append_right _ h)).1 rfl
  have honce : occurrences " TO ROLE ".toList (grantText policy.resourceIdPattern role).toList + 1 = 2 :=
    congrArg (· + 1) (occurrences_grantText (htable.noSpace hvalid) fun c => mem_sqlIdentifier hrole)
  have hgrant : ¬(trinoArtifact policy role "SELECT").artifactType ≠ "grant" := not_not.2 rfl
  show (trinoApplyArtifact (trinoArtifact policy role "SELECT") s).1 = _
  rw [trinoApplyArtifact, if_neg hgrant, hstatement, if_pos honce]
  split
  · rfl
  · show (s.applyPolicy "SELECT" (sqlPattern policy.resourceIdPattern) role).1 = _
    rw [htable.sqlPattern, TrinoState.applyPolicy, if_neg (by decide),
      if_neg (by rw [htable.isTrinoIdentifier hvalid]; decide),
      if_neg (by rw [isTrinoIdentifier_of_role hrole]; decide), hparts]
    rfl

end Phlo.Rbac
