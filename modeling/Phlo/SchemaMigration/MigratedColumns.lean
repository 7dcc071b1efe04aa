import Phlo.SchemaMigration.IcebergMigrator

/-!
# What a migration makes of the columns

The calls of a plan are followed column by column: a renamed column changes nothing but its name, one that
is not desired is dropped, one that stays gets the type and nullability it is desired with, and an added
one is optional.  Columns of metadata keep their names.

* `touches_renamed`, `touches_dropped`, `touches_kept`, `touches_system` — what becomes of a column;
* `origin_of_mem`, `mem_renamed`, `mem_kept`, `mem_added` — the columns of the migrated schema;
* `renamed_same` — a field that is renamed and changed at once is refused.
-/

namespace Phlo.SchemaMigration

open Phlo.Library

variable {policy : SchemaPlanningPolicy}

/-! ### Operations of changes -/

theorem valueOr_self (s : String) : valueOr (some s) s = s := by
  unfold valueOr
  split <;> rfl

theorem valueOr_of_ne {s : String} (h : s ≠ "") (fallback : String) : valueOr (some s) fallback = s := by
  have hany : (some s).any (· ≠ "") = true := decide_eq_true h
  rw [valueOr, if_pos hany]
  rfl

theorem valueOr_empty (fallback : String) : valueOr (some "") fallback = fallback := rfl

theorem performed_update {change : SchemaChange}
    (h : change.changeType = .widenType ∨ change.changeType = .narrowType) :
    change.operation = (dtypeToIcebergType (valueOr change.newValue "string")).map fun type =>
      some (.updateColumn change.fieldName type) := by
  unfold SchemaChange.operation
  obtain h | h := h <;> rw [h]

variable {d : FieldSpec} {name : String} {c : Column} {op : UpdateOperation} {r : String × String}

theorem operationsOf_dtype {c : FieldSpec}
    (hok : ∀ change ∈ dtypeChanges policy name c d, ∃ op, change.operation = .ok op) :
    (c.dtype = d.dtype ∧ operationsOf (dtypeChanges policy name c d) = []) ∨
      c.dtype ≠ d.dtype ∧ ∃ type, dtypeToIcebergType (valueOr (some d.dtype) "string") = .ok type ∧
        operationsOf (dtypeChanges policy name c d) = [.updateColumn name type] := by
  by_cases hsame : c.dtype = d.dtype
  · refine .inl ⟨hsame, ?_⟩
    rw [dtypeChanges, if_pos hsame]
    rfl
  · rw [dtypeChanges, if_neg hsame] at hok ⊢
    refine .inr ⟨hsame, ?_⟩
    obtain ⟨op, hop⟩ := hok _ List.mem_cons_self
    have hupdate := hop
    rw [performed_update (by dsimp only; split <;> simp)] at hupdate
    obtain ⟨type, htype, rfl⟩ := map_eq_ok.1 hupdate
    refine ⟨type, htype, ?_⟩
    refine List.filterMap_cons_some ?_
    rw [SchemaChange.performed, hop]

theorem operationsOf_nullability {c : FieldSpec} :
    (c.nullable = d.nullable ∧ operationsOf (nullabilityChanges policy name c d) = []) ∨
      (d.nullable = true ∧ operationsOf (nullabilityChanges policy name c d) = [.setColumnOptional name]) ∨
      (d.nullable = false ∧ operationsOf (nullabilityChanges policy name c d) = [.setColumnRequired name]) := by
  unfold nullabilityChanges
  cases c.nullable <;> cases d.nullable
  · exact .inl ⟨rfl, rfl⟩
  · exact .inr (.inl ⟨rfl, rfl⟩)
  · exact .inr (.inr ⟨rfl, rfl⟩)
  · exact .inl ⟨rfl, rfl⟩

theorem operationsOf_mutation {c : FieldSpec}
    (hok : ∀ change ∈ fieldMutationChanges policy name c d, ∃ op, change.operation = .ok op) :
    ∃ typeOps nullOps, operationsOf (fieldMutationChanges policy name c d) = typeOps ++ nullOps ∧
      ((c.dtype = d.dtype ∧ typeOps = []) ∨
        c.dtype ≠ d.dtype ∧ ∃ type, dtypeToIcebergType (valueOr (some d.dtype) "string") = .ok type ∧
          typeOps = [.updateColumn name type]) ∧
      ((c.nullable = d.nullable ∧ nullOps = []) ∨ (d.nullable = true ∧ nullOps = [.setColumnOptional name]) ∨
        (d.nullable = false ∧ nullOps = [.setColumnRequired name])) :=
  ⟨_, _, operationsOf_append _ _, operationsOf_dtype fun change h => hok change (List.mem_append_left _ h),
    operationsOf_nullability⟩

theorem touches_mutation
    (hok : ∀ change ∈ fieldMutationChanges policy c.name c.toFieldSpec d, ∃ op, change.operation = .ok op) :
    ∃ type, touches c.name (operationsOf (fieldMutationChanges policy c.name c.toFieldSpec d)) c =
        some ⟨c.name, type, !d.nullable⟩ ∧
      type.toDtype = if c.fieldType.toDtype = d.dtype then d.dtype else valueOr (some d.dtype) "string" := by
  obtain ⟨typeOps, nullOps, hops, htypes, hnulls⟩ := operationsOf_mutation hok
  have htype : ∃ type, touches c.name typeOps c = some ⟨c.name, type, c.required⟩ ∧
      type.toDtype = if c.fieldType.toDtype = d.dtype then d.dtype else valueOr (some d.dtype) "string" := by
    obtain ⟨hsame, rfl⟩ | ⟨hne, type, htype, rfl⟩ := htypes
    · have hdtype : c.fieldType.toDtype = d.dtype := hsame
      exact ⟨c.fieldType, rfl, by rw [if_pos hdtype, hdtype]⟩
    · have hdtype : ¬c.fieldType.toDtype = d.dtype := hne
      refine ⟨type, ?_, by rw [if_neg hdtype, toDtype_of_dtypeToIcebergType htype]⟩
      exact touches_singleton rfl c
  obtain ⟨type, htouches, hdtype⟩ := htype
  refine ⟨type, ?_, hdtype⟩
  rw [hops, touches_append, htouches, Option.bind_some]
  obtain ⟨hsame, rfl⟩ | ⟨hnullable, rfl⟩ | ⟨hnullable, rfl⟩ := hnulls
  · have hrequired : c.required = !d.nullable := by
      have hnullable : (!c.required) = d.nullable := hsame
      rw [← hnullable, Bool.not_not]
    rw [← hrequired]
    rfl
  · rw [hnullable]
    exact touches_singleton rfl _
  · rw [hnullable]
    exact touches_singleton rfl _

def Alters (name : String) (op : UpdateOperation) : Prop :=
  op.target = some name ∧ ∀ c c', op.touch c = some c' → c'.name = c.name

theorem Alters.addedColumn (h : Alters name op) : op.addedColumn = none := by
  cases op with
  | addColumn path fieldType => exact absurd h.1 (by simp [UpdateOperation.target])
  | _ => rfl

theorem alters_mutation {c : FieldSpec}
    (hok : ∀ change ∈ fieldMutationChanges policy name c d, ∃ op, change.operation = .ok op)
    (h : op ∈ operationsOf (fieldMutationChanges policy name c d)) : Alters name op := by
  have hset : ∀ {op' : UpdateOperation}, op'.target = some name →
      (∀ c c', op'.touch c = some c' → c'.name = c.name) → op ∈ [op'] → Alters name op := by
    intro op' htarget hname hmem
    rw [List.mem_singleton.1 hmem]
    exact ⟨htarget, hname⟩
  obtain ⟨typeOps, nullOps, hops, htypes, hnulls⟩ := operationsOf_mutation hok
  rw [hops, List.mem_append] at h
  obtain h | h := h
  · obtain ⟨-, rfl⟩ | ⟨-, type, -, rfl⟩ := htypes
    · cases h
    · exact hset rfl (fun c c' h => by obtain rfl := Option.some.inj h; rfl) h
  · obtain ⟨-, rfl⟩ | ⟨-, rfl⟩ | ⟨-, rfl⟩ := hnulls
    · cases h
    · exact hset rfl (fun c c' h => by obtain rfl := Option.some.inj h; rfl) h
    · exact hset rfl (fun c c' h => by obtain rfl := Option.some.inj h; rfl) h

/-! ### Operations of a plan -/

/-- An accepted plan of a migration of a table: the planner's fields, and its rename instructions. -/
structure Planned (schema : IcebergSchema) (current desired : FieldMap) (renames : OrderedDict String String) :
    Prop where
  currentEq : current.fields = currentFields schema
  rename : ∀ r ∈ renames.items, RenameOk current desired r ∧ r.2 ∉ current.names
  targets : renames.values.Nodup

variable {schema migrated : IcebergSchema} {current desired : FieldMap} {renames : OrderedDict String String}

theorem Planned.mem_current (h : Planned schema current desired renames) :
    name ∈ current.names ↔ name ∉ systemMetadataFields ∧ ∃ c ∈ schema.columns, c.name = name := by
  rw [mem_names, h.currentEq]
  constructor
  · rintro ⟨f, hf, rfl⟩
    obtain ⟨c, hc, rfl⟩ := List.mem_map.1 hf
    obtain ⟨hc, hsystem⟩ := List.mem_filter.1 hc
    exact ⟨of_decide_eq_true hsystem, c, hc, rfl⟩
  · rintro ⟨hsystem, c, hc, rfl⟩
    exact ⟨c.toFieldSpec, List.mem_map_of_mem (List.mem_filter.2 ⟨hc, decide_eq_true hsystem⟩), rfl⟩

theorem Planned.get_current (h : Planned schema current desired renames) (hc : c ∈ schema.columns)
    (hsystem : c.name ∉ systemMetadataFields) : current.get c.name = some c.toFieldSpec := by
  refine FieldMap.get_eq_some_iff.2 ⟨?_, rfl⟩
  rw [h.currentEq]
  exact List.mem_map_of_mem (List.mem_filter.2 ⟨hc, decide_eq_true hsystem⟩)

/-- A rename comes first, and what follows is about the new name. -/
theorem operationsOf_renameChanges (hr : RenameOk current desired r)
    (hok : ∀ change ∈ renameChanges policy current desired r, ∃ op, change.operation = .ok op) :
    ∃ rest, operationsOf (renameChanges policy current desired r) = .renameColumn r.1 r.2 :: rest ∧
      ∀ op ∈ rest, Alters r.2 op := by
  obtain ⟨c, hc, hcname⟩ := mem_names.1 hr.source
  obtain ⟨d, hd, hdname⟩ := mem_names.1 hr.target
  have hshape : renameChanges policy current desired r =
      ⟨r.1, .rename, some r.1, some r.2, classify policy .rename true false⟩ ::
        fieldMutationChanges policy r.2 c d := by
    rw [renameChanges, FieldMap.get_eq_some_iff.2 ⟨hc, hcname⟩, FieldMap.get_eq_some_iff.2 ⟨hd, hdname⟩]
  rw [hshape] at hok ⊢
  refine ⟨_, List.filterMap_cons_some ?_, fun op hop =>
    alters_mutation (fun change h => hok change (List.mem_cons_of_mem _ h)) hop⟩
  show some (UpdateOperation.renameColumn (valueOr (some r.1) r.1) (valueOr (some r.2) r.1)) = _
  rw [valueOr_self, valueOr_of_ne hr.named]

theorem operationsOf_addChange (hok : ∃ op, (addChange policy d).operation = .ok op) :
    ∃ type, dtypeToIcebergType (valueOr (some d.dtype) "string") = .ok type ∧
      (addChange policy d).performed = some (.addColumn d.name type) := by
  obtain ⟨op, hop⟩ := hok
  have hadd := hop
  obtain ⟨type, htype, rfl⟩ := map_eq_ok.1 hadd
  refine ⟨type, htype, ?_⟩
  rw [SchemaChange.performed, hop]
  rfl

def renameOperations (policy : SchemaPlanningPolicy) (current desired : FieldMap)
    (renames : OrderedDict String String) : List UpdateOperation :=
  (sortBy Prod.fst renames.items).flatMap fun r => operationsOf (renameChanges policy current desired r)

def addOperations (policy : SchemaPlanningPolicy) (current desired : FieldMap)
    (renames : OrderedDict String String) : List UpdateOperation :=
  operationsOf ((addedFields current desired renames).map (addChange policy))

def dropOperations (current desired : FieldMap) (renames : OrderedDict String String) : List UpdateOperation :=
  (droppedFields current desired renames).flatMap fun f => [.deleteColumn f.name]

def sharedOperations (setOrder : SetOrder) (policy : SchemaPlanningPolicy) (current desired : FieldMap)
    (renames : OrderedDict String String) : List UpdateOperation :=
  (sharedNames setOrder current desired renames).flatMap fun n => operationsOf (sharedChanges policy current desired n)

theorem operationsOf_drops (fields : List FieldSpec) :
    operationsOf (fields.map (dropChange policy)) = fields.flatMap fun f => [.deleteColumn f.name] := by
  induction fields with
  | nil => rfl
  | cons f fields ih =>
    rw [List.map_cons, List.flatMap_cons, ← ih]
    rfl

theorem operationsOf_schemaChanges (setOrder : SetOrder) (policy : SchemaPlanningPolicy)
    (current desired : FieldMap) (renames : OrderedDict String String) :
    operationsOf (schemaChanges setOrder policy current desired renames) =
      renameOperations policy current desired renames ++ addOperations policy current desired renames ++
        dropOperations current desired renames ++ sharedOperations setOrder policy current desired renames := by
  unfold schemaChanges
  dsimp only
  rw [operationsOf_append, operationsOf_append, operationsOf_append, operationsOf_flatMap, operationsOf_flatMap,
    operationsOf_drops]
  rfl

/-- Every change of a plan can be made a call. -/
def Callable (changes : List SchemaChange) : Prop := ∀ change ∈ changes, ∃ op, change.operation = .ok op

section Operations

variable {setOrder : SetOrder} (h : Planned schema current desired renames)
  (hok : Callable (schemaChanges setOrder policy current desired renames))

include hok in
theorem callable_rename (hr : r ∈ renames.items) :
    Callable (renameChanges policy current desired r) := fun change hchange =>
  hok change (List.mem_append_left _ (List.mem_append_left _ (List.mem_append_left _
    (List.mem_flatMap.2 ⟨r, (mem_sortBy Prod.fst renames.items r).2 hr, hchange⟩))))

include hok in
theorem callable_add (hd : d ∈ addedFields current desired renames) : ∃ op, (addChange policy d).operation = .ok op :=
  hok _ (List.mem_append_left _ (List.mem_append_left _ (List.mem_append_right _ (List.mem_map_of_mem hd))))

include hok in
theorem callable_shared (hname : name ∈ sharedNames setOrder current desired renames) :
    Callable (sharedChanges policy current desired name) := fun change hchange =>
  hok change (List.mem_append_right _ (List.mem_flatMap.2 ⟨name, hname, hchange⟩))

include h hok

theorem mem_renameOperations (hop : op ∈ renameOperations policy current desired renames) :
    ∃ r ∈ renames.items, op = .renameColumn r.1 r.2 ∨ Alters r.2 op := by
  obtain ⟨r, hr, hop⟩ := List.mem_flatMap.1 hop
  have hr := (mem_sortBy Prod.fst renames.items r).1 hr
  obtain ⟨rest, hrest, halters⟩ := operationsOf_renameChanges (h.rename r hr).1 (callable_rename hok hr)
  rw [hrest] at hop
  exact ⟨r, hr, (List.mem_cons.1 hop).imp_right (halters op)⟩

omit h in
theorem mem_addOperations :
    op ∈ addOperations policy current desired renames ↔ ∃ d ∈ addedFields current desired renames, ∃ type,
      dtypeToIcebergType (valueOr (some d.dtype) "string") = .ok type ∧ op = .addColumn d.name type := by
  constructor
  · intro hop
    obtain ⟨change, hchange, hperformed⟩ := List.mem_filterMap.1 hop
    obtain ⟨d, hd, rfl⟩ := List.mem_map.1 hchange
    obtain ⟨type, htype, hadd⟩ := operationsOf_addChange (callable_add hok hd)
    exact ⟨d, hd, type, htype, (Option.some.inj (hadd.symm.trans hperformed)).symm⟩
  · rintro ⟨d, hd, type, htype, rfl⟩
    obtain ⟨type', htype', hadd⟩ := operationsOf_addChange (callable_add hok hd)
    obtain rfl := Except.ok.inj (htype.symm.trans htype')
    exact List.mem_filterMap.2 ⟨addChange policy d, List.mem_map_of_mem hd, hadd⟩

omit h in
theorem target_addOperations (hop : op ∈ addOperations policy current desired renames) (name : String) :
    op.target ≠ some name := by
  obtain ⟨d, -, type, -, rfl⟩ := (mem_addOperations hok).1 hop
  intro heq
  cases heq

omit h in
theorem alters_shared (hname : name ∈ sharedNames setOrder current desired renames)
    (hop : op ∈ operationsOf (sharedChanges policy current desired name)) : Alters name op := by
  have hcallable := callable_shared hok hname
  obtain ⟨hcurrent, hdesired, -⟩ := mem_sharedNames.1 hname
  obtain ⟨c, hc, rfl⟩ := mem_names.1 hcurrent
  obtain ⟨d, hd, hdname⟩ := mem_names.1 hdesired
  rw [sharedChanges_eq hc hd hdname.symm] at hop hcallable
  exact alters_mutation hcallable hop

/-! ### What becomes of each column -/

theorem target_renameOperations (hcurrent : name ∈ current.names) (hsource : name ∉ renames.items.map Prod.fst)
    (hop : op ∈ renameOperations policy current desired renames) : op.target ≠ some name := by
  intro htarget
  obtain ⟨r, hr, rfl | halters⟩ := mem_renameOperations h hok hop
  · exact hsource (List.mem_map.2 ⟨r, hr, Option.some.inj htarget⟩)
  · rw [halters.1] at htarget
    exact (h.rename r hr).2 (Option.some.inj htarget ▸ hcurrent)

omit h in
theorem target_sharedOperations (hname : name ∉ sharedNames setOrder current desired renames)
    (hop : op ∈ sharedOperations setOrder policy current desired renames) : op.target ≠ some name := by
  intro htarget
  obtain ⟨name', hname', hop⟩ := List.mem_flatMap.1 hop
  rw [(alters_shared hok hname' hop).1] at htarget
  exact hname (Option.some.inj htarget ▸ hname')

omit h hok in
theorem target_dropOperations (hname : ∀ f ∈ droppedFields current desired renames, f.name ≠ name)
    (hop : op ∈ dropOperations current desired renames) : op.target ≠ some name := by
  intro htarget
  obtain ⟨f, hf, hop⟩ := List.mem_flatMap.1 hop
  obtain rfl := List.mem_singleton.1 hop
  exact hname f hf (Option.some.inj htarget)

theorem touches_renamed (hr : r ∈ renames.items) (c : Column) :
    touches r.1 (operationsOf (schemaChanges setOrder policy current desired renames)) c =
      some { c with name := r.2 } := by
  have hsource : r.1 ∈ renames.items.map Prod.fst := List.mem_map_of_mem hr
  have hcurrent := (h.rename r hr).1.source
  have hrename : touches r.1 (renameOperations policy current desired renames) c = some { c with name := r.2 } := by
    have hnodup : (sortBy Prod.fst renames.items).Nodup :=
      (sortBy_perm Prod.fst renames.items).nodup_iff.2 (List.Nodup.of_map _ renames.nodup)
    rw [renameOperations, touches_flatMap hnodup ((mem_sortBy Prod.fst renames.items r).2 hr)]
    · obtain ⟨rest, hrest, halters⟩ := operationsOf_renameChanges (h.rename r hr).1 (callable_rename hok hr)
      rw [hrest]
      show touches r.1 ([.renameColumn r.1 r.2] ++ rest) c = _
      rw [touches_append, touches_singleton rfl]
      refine touches_of_ne (fun op hop => ?_) _
      rw [(halters op hop).1]
      exact fun heq => (h.rename r hr).1.moved (Option.some.inj heq).symm
    · intro r' hr' hne op hop
      have hr' := (mem_sortBy Prod.fst renames.items r').1 hr'
      obtain ⟨rest, hrest, halters⟩ := operationsOf_renameChanges (h.rename r' hr').1 (callable_rename hok hr')
      rw [hrest] at hop
      obtain rfl | hop := List.mem_cons.1 hop
      · exact fun heq => hne (List.inj_on_of_nodup_map renames.nodup hr' hr (Option.some.inj heq))
      · rw [(halters op hop).1]
        exact fun heq => (h.rename r' hr').2 (Option.some.inj heq ▸ hcurrent)
  rw [operationsOf_schemaChanges, touches_append, touches_append, touches_append, hrename, Option.bind_some,
    touches_of_ne fun op hop => target_addOperations hok hop r.1, Option.bind_some,
    touches_of_ne fun op hop => target_dropOperations (fun f hf heq =>
      (mem_droppedFields.1 hf).2.1 (heq ▸ hsource)) hop, Option.bind_some]
  exact touches_of_ne (fun op hop => target_sharedOperations hok
    (fun hname => (mem_sharedNames.1 hname).2.2.1 hsource) hop) _

theorem touches_dropped (hcurrent : name ∈ current.names) (hsource : name ∉ renames.items.map Prod.fst)
    (hdesired : name ∉ desired.names) (c : Column) :
    touches name (operationsOf (schemaChanges setOrder policy current desired renames)) c = none := by
  obtain ⟨f, hf, rfl⟩ := mem_names.1 hcurrent
  have hdropped : f ∈ droppedFields current desired renames := mem_droppedFields.2 ⟨hf, hsource, hdesired⟩
  have hnodup : (droppedFields current desired renames).Nodup := (List.Nodup.of_map _ current.nodup).filter _
  have hdrop : touches f.name (dropOperations current desired renames) c = none := by
    rw [dropOperations, touches_flatMap hnodup hdropped]
    · exact touches_singleton rfl c
    · intro f' hf' hne op hop
      obtain rfl := List.mem_singleton.1 hop
      exact fun heq => hne (List.inj_on_of_nodup_map current.nodup (mem_droppedFields.1 hf').1 hf
        (Option.some.inj heq))
  rw [operationsOf_schemaChanges, touches_append, touches_append, touches_append,
    touches_of_ne fun op hop => target_renameOperations h hok hcurrent hsource hop, Option.bind_some,
    touches_of_ne fun op hop => target_addOperations hok hop f.name, Option.bind_some, hdrop, Option.bind_none]

theorem touches_kept (hc : c ∈ schema.columns) (hsystem : c.name ∉ systemMetadataFields)
    (hsource : c.name ∉ renames.items.map Prod.fst) (hd : d ∈ desired.fields) (hname : d.name = c.name) :
    ∃ type, touches c.name (operationsOf (schemaChanges setOrder policy current desired renames)) c =
        some ⟨c.name, type, !d.nullable⟩ ∧
      type.toDtype = if c.fieldType.toDtype = d.dtype then d.dtype else valueOr (some d.dtype) "string" := by
  have hcurrent : c.name ∈ current.names := h.mem_current.2 ⟨hsystem, c, hc, rfl⟩
  have hdesired : c.name ∈ desired.names := mem_names.2 ⟨d, hd, hname⟩
  have htarget : c.name ∉ renames.values := by
    intro hmem
    obtain ⟨r, hr, heq⟩ := List.mem_map.1 hmem
    exact (h.rename r hr).2 (heq ▸ hcurrent)
  have hshared : c.name ∈ sharedNames setOrder current desired renames :=
    mem_sharedNames.2 ⟨hcurrent, hdesired, hsource, htarget⟩
  obtain ⟨hmem, hcname⟩ := FieldMap.get_eq_some_iff.1 (h.get_current hc hsystem)
  have hchanges : sharedChanges policy current desired c.name =
      fieldMutationChanges policy c.name c.toFieldSpec d := sharedChanges_eq hmem hd hname.symm
  have hcallable := callable_shared hok hshared
  rw [hchanges] at hcallable
  obtain ⟨type, htouches, htype⟩ := touches_mutation hcallable
  refine ⟨type, ?_, htype⟩
  rw [operationsOf_schemaChanges, touches_append, touches_append, touches_append,
    touches_of_ne fun op hop => target_renameOperations h hok hcurrent hsource hop, Option.bind_some,
    touches_of_ne fun op hop => target_addOperations hok hop c.name, Option.bind_some,
    touches_of_ne fun op hop => target_dropOperations (fun f hf heq =>
      (mem_droppedFields.1 hf).2.2 (heq ▸ hdesired)) hop, Option.bind_some, sharedOperations,
    touches_flatMap (nodup_sharedNames _ _ _ _) hshared, hchanges]
  · exact htouches
  · intro name' hname' hne op hop
    rw [(alters_shared hok hname' hop).1]
    exact fun heq => hne (Option.some.inj heq)

theorem touches_system {c' : Column} (hsystem : c.name ∈ systemMetadataFields)
    (htouches : touches c.name (operationsOf (schemaChanges setOrder policy current desired renames)) c = some c') :
    c'.name = c.name := by
  have hcurrent : c.name ∉ current.names := fun hmem => (h.mem_current.1 hmem).1 hsystem
  refine touches_name (fun op hop htarget => ?_) htouches
  rw [operationsOf_schemaChanges, List.mem_append, List.mem_append, List.mem_append] at hop
  obtain ((hop | hop) | hop) | hop := hop
  · obtain ⟨r, hr, rfl | halters⟩ := mem_renameOperations h hok hop
    · exact absurd ((h.rename r hr).1.source) (Option.some.inj htarget ▸ hcurrent)
    · exact halters.2
  · exact absurd htarget (target_addOperations hok hop c.name)
  · refine absurd htarget (target_dropOperations (fun f hf heq => ?_) hop)
    exact hcurrent (mem_names.2 ⟨f, (mem_droppedFields.1 hf).1, heq⟩)
  · refine absurd htarget (target_sharedOperations hok (fun hname => ?_) hop)
    exact hcurrent (mem_sharedNames.1 hname).1

end Operations

/-! ### The migrated schema -/

/-- Where a column of a migrated schema comes from. -/
inductive Origin (schema : IcebergSchema) (current desired : FieldMap) (renames : OrderedDict String String)
    (c : Column) : Prop
  | renamed (r : String × String) (original : Column) (hr : r ∈ renames.items)
      (horiginal : original ∈ schema.columns) (hname : original.name = r.1) (heq : c = { original with name := r.2 })
  | kept (original : Column) (d : FieldSpec) (horiginal : original ∈ schema.columns)
      (hsystem : original.name ∉ systemMetadataFields) (hsource : original.name ∉ renames.items.map Prod.fst)
      (hd : d ∈ desired.fields) (hname : d.name = original.name) (heq : c.name = original.name)
      (hrequired : c.required = !d.nullable)
      (hdtype : c.fieldType.toDtype =
        if original.fieldType.toDtype = d.dtype then d.dtype else valueOr (some d.dtype) "string")
  | added (d : FieldSpec) (hd : d ∈ addedFields current desired renames) (heq : c.name = d.name)
      (hrequired : c.required = false) (hdtype : c.fieldType.toDtype = valueOr (some d.dtype) "string")

section Migrated

variable {setOrder : SetOrder} {updates : SchemaUpdates} {plan : SchemaMigrationPlan} {applied : List String}
  (h : Planned schema current desired renames)
  (hchanges : plan.changes = schemaChanges setOrder policy current desired renames)
  (hrun : runPlan updates schema plan = .ok (migrated, applied))

include hchanges hrun in
theorem callable_of_run : Callable (schemaChanges setOrder policy current desired renames) := by
  obtain ⟨hok, -⟩ := runPlan_eq_ok hrun
  rwa [hchanges] at hok

include h hchanges hrun

theorem origin_of_mem (hc : c ∈ migrated.columns) (hsystem : c.name ∉ systemMetadataFields) :
    Origin schema current desired renames c := by
  have hok := callable_of_run hchanges hrun
  obtain ⟨-, -, hcolumns⟩ := runPlan_eq_ok hrun
  rw [hchanges] at hcolumns
  obtain ⟨original, horiginal, htouches⟩ | ⟨op, hop, hadded⟩ := (hcolumns c).1 hc
  · by_cases hmeta : original.name ∈ systemMetadataFields
    · rw [touches_system h hok hmeta htouches] at hsystem
      exact absurd hmeta hsystem
    have hcurrent : original.name ∈ current.names := h.mem_current.2 ⟨hmeta, original, horiginal, rfl⟩
    by_cases hsource : original.name ∈ renames.items.map Prod.fst
    · obtain ⟨r, hr, hname⟩ := List.mem_map.1 hsource
      rw [← hname, touches_renamed h hok hr] at htouches
      exact .renamed r original hr horiginal hname.symm (Option.some.inj htouches).symm
    by_cases hdesired : original.name ∈ desired.names
    · obtain ⟨d, hd, hname⟩ := mem_names.1 hdesired
      obtain ⟨type, htouches', htype⟩ := touches_kept h hok horiginal hmeta hsource hd hname
      obtain rfl := Option.some.inj (htouches'.symm.trans htouches)
      exact .kept original d horiginal hmeta hsource hd hname rfl rfl htype
    · rw [touches_dropped h hok hcurrent hsource hdesired] at htouches
      cases htouches
  · rw [operationsOf_schemaChanges, List.mem_append, List.mem_append, List.mem_append] at hop
    obtain ((hop | hop) | hop) | hop := hop
    · obtain ⟨r, -, rfl | halters⟩ := mem_renameOperations h hok hop
      · cases hadded
      · rw [halters.addedColumn] at hadded
        cases hadded
    · obtain ⟨d, hd, type, htype, rfl⟩ := (mem_addOperations hok).1 hop
      obtain rfl := Option.some.inj hadded
      exact .added d hd rfl rfl (toDtype_of_dtypeToIcebergType htype)
    · obtain ⟨f, -, hop⟩ := List.mem_flatMap.1 hop
      obtain rfl := List.mem_singleton.1 hop
      cases hadded
    · obtain ⟨name, hname, hop⟩ := List.mem_flatMap.1 hop
      rw [(alters_shared hok hname hop).addedColumn] at hadded
      cases hadded

theorem mem_renamed (hr : r ∈ renames.items) :
    ∃ original ∈ schema.columns, original.name = r.1 ∧ { original with name := r.2 } ∈ migrated.columns := by
  have hok := callable_of_run hchanges hrun
  obtain ⟨-, -, hcolumns⟩ := runPlan_eq_ok hrun
  rw [hchanges] at hcolumns
  obtain ⟨-, original, horiginal, hname⟩ := h.mem_current.1 (h.rename r hr).1.source
  refine ⟨original, horiginal, hname, (hcolumns _).2 (.inl ⟨original, horiginal, ?_⟩)⟩
  rw [hname]
  exact touches_renamed h hok hr original

theorem mem_kept {original : Column} (horiginal : original ∈ schema.columns)
    (hsystem : original.name ∉ systemMetadataFields) (hsource : original.name ∉ renames.items.map Prod.fst)
    (hd : d ∈ desired.fields) (hname : d.name = original.name) :
    ∃ type, (⟨original.name, type, !d.nullable⟩ : Column) ∈ migrated.columns ∧ type.toDtype =
      if original.fieldType.toDtype = d.dtype then d.dtype else valueOr (some d.dtype) "string" := by
  have hok := callable_of_run hchanges hrun
  obtain ⟨-, -, hcolumns⟩ := runPlan_eq_ok hrun
  rw [hchanges] at hcolumns
  obtain ⟨type, htouches, htype⟩ := touches_kept h hok horiginal hsystem hsource hd hname
  exact ⟨type, (hcolumns _).2 (.inl ⟨original, horiginal, htouches⟩), htype⟩

omit h in
theorem mem_added (hd : d ∈ addedFields current desired renames) :
    ∃ type, (⟨d.name, type, false⟩ : Column) ∈ migrated.columns ∧ type.toDtype = valueOr (some d.dtype) "string" := by
  have hok := callable_of_run hchanges hrun
  obtain ⟨-, -, hcolumns⟩ := runPlan_eq_ok hrun
  rw [hchanges] at hcolumns
  obtain ⟨type, htype, -⟩ := operationsOf_addChange (callable_add hok hd)
  refine ⟨type, (hcolumns _).2 (.inr ⟨.addColumn d.name type, ?_, rfl⟩), toDtype_of_dtypeToIcebergType htype⟩
  rw [operationsOf_schemaChanges]
  exact List.mem_append_left _ (List.mem_append_left _ (List.mem_append_right _
    ((mem_addOperations hok).2 ⟨d, hd, type, htype, rfl⟩)))

theorem renamed_same (hr : r ∈ renames.items) (hsystem : r.2 ∉ systemMetadataFields) {original : Column}
    (horiginal : original ∈ schema.columns) (hname : original.name = r.1) (hd : d ∈ desired.fields)
    (hdname : d.name = r.2) : original.fieldType.toDtype = d.dtype ∧ (!original.required) = d.nullable := by
  obtain ⟨-, htargets, -⟩ := runPlan_eq_ok hrun
  have hok := callable_of_run hchanges hrun
  rw [hchanges, operationsOf_schemaChanges] at htargets
  have hsource := h.mem_current.1 (h.rename r hr).1.source
  have hget : current.get r.1 = some original.toFieldSpec := by
    rw [← hname]
    exact h.get_current horiginal (hname ▸ hsource.1)
  have hshape : renameChanges policy current desired r =
      ⟨r.1, .rename, some r.1, some r.2, classify policy .rename true false⟩ ::
        fieldMutationChanges policy r.2 original.toFieldSpec d := by
    rw [renameChanges, hget, FieldMap.get_eq_some_iff.2 ⟨hd, hdname⟩]
  have hcallable := callable_rename hok hr
  rw [hshape] at hcallable
  have hmutation : Callable (fieldMutationChanges policy r.2 original.toFieldSpec d) :=
    fun change hchange => hcallable change (List.mem_cons_of_mem _ hchange)
  -- an update under the new name would not find its column
  have hnone : ∀ op, op ∉ operationsOf (fieldMutationChanges policy r.2 original.toFieldSpec d) := by
    intro op hop
    have hmem : op ∈ renameOperations policy current desired renames := by
      refine List.mem_flatMap.2 ⟨r, (mem_sortBy Prod.fst renames.items r).2 hr, ?_⟩
      rw [hshape]
      obtain ⟨change, hchange, hperformed⟩ := List.mem_filterMap.1 hop
      exact List.mem_filterMap.2 ⟨change, List.mem_cons_of_mem _ hchange, hperformed⟩
    have hfound := htargets op (List.mem_append_left _ (List.mem_append_left _ (List.mem_append_left _ hmem)))
      r.2 (alters_mutation hmutation hop).1
    obtain ⟨c, hc, hcname⟩ := List.mem_map.1 hfound
    exact (h.rename r hr).2 (h.mem_current.2 ⟨hsystem, c, hc, hcname⟩)
  obtain ⟨typeOps, nullOps, hops, htypes, hnulls⟩ := operationsOf_mutation hmutation
  rw [hops] at hnone
  constructor
  · obtain ⟨hsame, -⟩ | ⟨-, type, -, rfl⟩ := htypes
    · exact hsame
    · exact absurd (List.mem_append_left _ List.mem_cons_self) (hnone _)
  · obtain ⟨hsame, -⟩ | ⟨-, rfl⟩ | ⟨-, rfl⟩ := hnulls
    · exact hsame
    · exact absurd (List.mem_append_right _ List.mem_cons_self) (hnone _)
    · exact absurd (List.mem_append_right _ List.mem_cons_self) (hnone _)

end Migrated

end Phlo.SchemaMigration
