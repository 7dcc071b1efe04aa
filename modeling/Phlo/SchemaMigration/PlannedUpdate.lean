import Phlo.SchemaMigration.Planning

/-!
# The update a plan stands for

The changes of a plan, taken together, make other fields of the fields a table has: a rename moves a field, changes
of its type and of its nullability are about the new name.

* `updatedFields_perm` — the fields that come out: those of the desired schema, but for the names that a rename
  moves a field away from;
* `sound_and_complete_iff` — when these are all fields of the desired schema.
-/

namespace Phlo.SchemaMigration

open Phlo.Library

/-! ### The update -/

/-- What a plan makes of a field. -/
structure FieldShape where
  name : String
  dtype : String
  nullable : Bool
  deriving DecidableEq

def FieldSpec.shape (f : FieldSpec) : FieldShape := ⟨f.name, f.dtype, f.nullable⟩

def ChangeType.isType (t : ChangeType) : Bool := t = .widenType || t = .narrowType

def ChangeType.isNullability (t : ChangeType) : Bool := t = .nullabilityRelaxed || t = .nullabilityTightened

def changeOf (changes : List SchemaChange) (kind : ChangeType → Bool) (name : String) : Option SchemaChange :=
  changes.find? fun change => kind change.changeType && change.fieldName = name

def newName (changes : List SchemaChange) (name : String) : String :=
  match changeOf changes (· = .rename) name with
  | some change => change.newValue.getD name
  | none => name

def newType (changes : List SchemaChange) (name dtype : String) : String :=
  match changeOf changes ChangeType.isType name with
  | some change => change.newValue.getD dtype
  | none => dtype

def newNullability (changes : List SchemaChange) (name : String) (nullable : Bool) : Bool :=
  match changeOf changes ChangeType.isNullability name with
  | some change => change.changeType = .nullabilityRelaxed
  | none => nullable

def updatedField (changes : List SchemaChange) (f : FieldSpec) : FieldShape :=
  let name := newName changes f.name
  ⟨name, newType changes name f.dtype, newNullability changes name f.nullable⟩

def addedField (desired : List FieldSpec) (change : SchemaChange) : FieldShape :=
  ⟨change.fieldName, change.newValue.getD "", (desired.find? (·.name = change.fieldName)).all FieldSpec.nullable⟩

def updatedFields (desired : List FieldSpec) (changes : List SchemaChange) (current : List FieldSpec) :
    List FieldShape :=
  (current.filter fun f => (changeOf changes (· = .drop) f.name).isNone).map (updatedField changes) ++
    (changes.filter (·.changeType = .add)).map (addedField desired)

/-! ### The changes of a plan -/

variable {setOrder : SetOrder} {policy : SchemaPlanningPolicy} {current desired : FieldMap}
  {renames : OrderedDict String String}

/-- A field of the table and the field it is to become. -/
structure Paired (current desired : FieldMap) (renames : OrderedDict String String) (c d : FieldSpec) : Prop where
  current : c ∈ current.fields
  desired : d ∈ desired.fields
  same : (c.name, d.name) ∈ renames.items ∨
    c.name = d.name ∧ c.name ∉ renames.items.map Prod.fst ∧ d.name ∉ renames.values

/-- Accepted rename instructions. -/
structure Accepted (current desired : FieldMap) (renames : OrderedDict String String) : Prop where
  rename : ∀ r ∈ renames.items, RenameOk current desired r ∧ r.2 ∉ current.names
  targets : renames.values.Nodup

def renameChange (policy : SchemaPlanningPolicy) (rename : String × String) : SchemaChange :=
  ⟨rename.1, .rename, some rename.1, some rename.2, classify policy .rename true false⟩

theorem field_unique {m : FieldMap} {f g : FieldSpec} (hf : f ∈ m.fields) (hg : g ∈ m.fields)
    (h : f.name = g.name) : f = g := List.inj_on_of_nodup_map m.nodup hf hg h

variable {change : SchemaChange} {c d : FieldSpec}

theorem mem_schemaChanges (setOrder : SetOrder) (policy : SchemaPlanningPolicy)
    (haccepted : Accepted current desired renames) : change ∈ schemaChanges setOrder policy current desired renames ↔
      (∃ r ∈ renames.items, change = renameChange policy r) ∨
      (∃ f ∈ addedFields current desired renames, change = addChange policy f) ∨
      (∃ f ∈ droppedFields current desired renames, change = dropChange policy f) ∨
      ∃ c d, Paired current desired renames c d ∧ change ∈ fieldMutationChanges policy d.name c d := by
  have hrename : ∀ r ∈ renames.items, ∃ c d, (c ∈ current.fields ∧ c.name = r.1) ∧ (d ∈ desired.fields ∧ d.name = r.2) ∧
      renameChanges policy current desired r = renameChange policy r :: fieldMutationChanges policy r.2 c d := by
    intro r hr
    have ⟨hok, _⟩ := haccepted.rename r hr
    have ⟨c, hc, hcname⟩ := mem_names.1 hok.source
    have ⟨d, hd, hdname⟩ := mem_names.1 hok.target
    refine ⟨c, d, ⟨hc, hcname⟩, ⟨hd, hdname⟩, ?_⟩
    rw [renameChanges, FieldMap.get_eq_some_iff.2 ⟨hc, hcname⟩, FieldMap.get_eq_some_iff.2 ⟨hd, hdname⟩]
    rfl
  have hparts : schemaChanges setOrder policy current desired renames =
      (sortBy Prod.fst renames.items).flatMap (renameChanges policy current desired) ++
        (addedFields current desired renames).map (addChange policy) ++
        (droppedFields current desired renames).map (dropChange policy) ++
        (sharedNames setOrder current desired renames).flatMap (sharedChanges policy current desired) := rfl
  rw [hparts, List.mem_append, List.mem_append, List.mem_append, List.mem_flatMap, List.mem_flatMap, List.mem_map,
    List.mem_map]
  constructor
  · rintro (((⟨r, hr, hin⟩ | ⟨f, hf, heq⟩) | ⟨f, hf, heq⟩) | ⟨n, hn, hin⟩)
    · have hr := (mem_sortBy Prod.fst _ r).1 hr
      have ⟨c, d, ⟨hc, hcname⟩, ⟨hd, hdname⟩, hshape⟩ := hrename r hr
      rw [hshape] at hin
      rcases List.mem_cons.1 hin with heq | hin
      · exact .inl ⟨r, hr, heq⟩
      · refine .inr (.inr (.inr ⟨c, d, ⟨hc, hd, .inl ?_⟩, by rw [hdname]; exact hin⟩))
        rw [hcname, hdname]
        exact hr
    · exact .inr (.inl ⟨f, hf, heq.symm⟩)
    · exact .inr (.inr (.inl ⟨f, hf, heq.symm⟩))
    · have ⟨hcurrent, hdesired, hsource, htarget⟩ := mem_sharedNames.1 hn
      have ⟨c, hc, hcname⟩ := mem_names.1 hcurrent
      have ⟨d, hd, hdname⟩ := mem_names.1 hdesired
      have hsame := hcname.trans hdname.symm
      rw [← hcname, sharedChanges_eq hc hd hsame, hsame] at hin
      rw [← hcname] at hsource
      rw [← hdname] at htarget
      exact .inr (.inr (.inr ⟨c, d, ⟨hc, hd, .inr ⟨hsame, hsource, htarget⟩⟩, hin⟩))
  · rintro (⟨r, hr, heq⟩ | ⟨f, hf, heq⟩ | ⟨f, hf, heq⟩ | ⟨c, d, hpair, hin⟩)
    · have ⟨c, d, _, _, hshape⟩ := hrename r hr
      refine .inl (.inl (.inl ⟨r, (mem_sortBy Prod.fst _ r).2 hr, ?_⟩))
      rw [hshape, heq]
      exact List.mem_cons_self
    · exact .inl (.inl (.inr ⟨f, hf, heq.symm⟩))
    · exact .inl (.inr ⟨f, hf, heq.symm⟩)
    · rcases hpair.same with hr | ⟨hsame, hsource, htarget⟩
      · have ⟨c', d', ⟨hc', hcname⟩, ⟨hd', hdname⟩, hshape⟩ := hrename _ hr
        rw [field_unique hc' hpair.current hcname, field_unique hd' hpair.desired hdname] at hshape
        refine .inl (.inl (.inl ⟨_, (mem_sortBy Prod.fst _ _).2 hr, ?_⟩))
        rw [hshape]
        exact List.mem_cons_of_mem _ hin
      · have hdesired : c.name ∈ desired.names := mem_names.2 ⟨d, hpair.desired, hsame.symm⟩
        refine .inr ⟨c.name, mem_sharedNames.2 ⟨mem_names.2 ⟨c, hpair.current, rfl⟩, hdesired, hsource, ?_⟩, ?_⟩
        · rw [hsame]
          exact htarget
        · rw [sharedChanges_eq hpair.current hpair.desired hsame, hsame]
          exact hin

/-! ### Kinds of changes -/

variable {name : String}

theorem dtypeChanges_spec (h : change ∈ dtypeChanges policy name c d) :
    change.fieldName = name ∧ change.changeType.isType = true ∧
      change.newValue = some d.dtype ∧ c.dtype ≠ d.dtype := by
  unfold dtypeChanges at h
  split at h
  · cases h
  next hne =>
    rw [List.mem_singleton.1 h]
    refine ⟨rfl, ?_, rfl, hne⟩
    show ChangeType.isType (if _ then _ else _) = true
    split <;> rfl

theorem nullabilityChanges_spec (h : change ∈ nullabilityChanges policy name c d) :
    change.fieldName = name ∧ change.changeType.isNullability = true ∧
      decide (change.changeType = .nullabilityRelaxed) = d.nullable ∧ c.nullable ≠ d.nullable := by
  unfold nullabilityChanges at h
  split at h
  · cases h
  next hne =>
    rw [List.mem_singleton.1 h]
    cases hc : c.nullable <;> cases hd : d.nullable <;> simp_all [ChangeType.isNullability]

theorem isMutation_of_mem (h : change ∈ fieldMutationChanges policy name c d) :
    (change.changeType.isType || change.changeType.isNullability) = true := by
  rcases List.mem_append.1 h with h | h
  · rw [(dtypeChanges_spec h).2.1, Bool.true_or]
  · rw [(nullabilityChanges_spec h).2.1, Bool.or_true]

theorem ChangeType.not_both {t : ChangeType} (htype : t.isType = true) : t.isNullability = false := by
  cases t with
  | widenType => rfl
  | narrowType => rfl
  | _ => cases htype

theorem changeOf_cases (changes : List SchemaChange) (kind : ChangeType → Bool) (name : String) :
    (changeOf changes kind name = none ∧
      ∀ change ∈ changes, kind change.changeType = true → change.fieldName ≠ name) ∨
    ∃ change ∈ changes, changeOf changes kind name = some change ∧ kind change.changeType = true ∧
      change.fieldName = name := by
  cases h : changeOf changes kind name with
  | none =>
    refine .inl ⟨rfl, fun change hmem hkind hname => ?_⟩
    have hnot := List.find?_eq_none.1 h change hmem
    rw [hkind, hname] at hnot
    exact hnot (by simp)
  | some change =>
    have hfound := List.find?_some h
    rw [Bool.and_eq_true, decide_eq_true_iff] at hfound
    exact .inr ⟨change, List.mem_of_find?_eq_some h, rfl, hfound.1, hfound.2⟩

/-! ### Fields and what they become -/

theorem Paired.unique_current (haccepted : Accepted current desired renames) {c' : FieldSpec}
    (h : Paired current desired renames c d) (h' : Paired current desired renames c' d) : c = c' := by
  have hvalue : ∀ {n : String}, (n, d.name) ∈ renames.items → d.name ∈ renames.values :=
    fun hmem => List.mem_map_of_mem (f := Prod.snd) hmem
  refine field_unique h.current h'.current ?_
  rcases h.same with hr | ⟨hsame, _, htarget⟩
  · rcases h'.same with hr' | ⟨_, _, htarget⟩
    · exact congrArg Prod.fst (List.inj_on_of_nodup_map haccepted.targets hr hr' rfl)
    · exact absurd (hvalue hr) htarget
  · rcases h'.same with hr' | ⟨hsame', _⟩
    · exact absurd (hvalue hr') htarget
    · exact hsame.trans hsame'.symm

theorem addedField_addChange (hd : d ∈ desired.fields) : addedField desired.fields (addChange policy d) = d.shape := by
  have hget : desired.get d.name = some d := FieldMap.get_eq_some_iff.2 ⟨hd, rfl⟩
  have hfind : desired.fields.find? (·.name = d.name) = some d := hget
  show FieldShape.mk d.name _ ((desired.fields.find? (·.name = d.name)).all FieldSpec.nullable) = _
  rw [hfind]
  rfl

theorem filter_add_schemaChanges :
    (schemaChanges setOrder policy current desired renames).filter (·.changeType = .add) =
      (addedFields current desired renames).map (addChange policy) := by
  have hnone : ∀ {changes : List SchemaChange}, (∀ change ∈ changes, change.changeType ≠ .add) →
      changes.filter (·.changeType = .add) = [] :=
    fun h => List.filter_eq_nil_iff.2 fun change hmem => by simpa using h change hmem
  have hmutation : ∀ {name : String} {c d : FieldSpec} {change : SchemaChange},
      change ∈ fieldMutationChanges policy name c d → change.changeType ≠ .add := by
    intro name c d change hmem hadd
    have hkind := isMutation_of_mem hmem
    rw [hadd] at hkind
    cases hkind
  have hparts : schemaChanges setOrder policy current desired renames =
      (sortBy Prod.fst renames.items).flatMap (renameChanges policy current desired) ++
        (addedFields current desired renames).map (addChange policy) ++
        (droppedFields current desired renames).map (dropChange policy) ++
        (sharedNames setOrder current desired renames).flatMap (sharedChanges policy current desired) := rfl
  have hadded : ((addedFields current desired renames).map (addChange policy)).filter (·.changeType = .add) =
      (addedFields current desired renames).map (addChange policy) := by
    refine List.filter_eq_self.2 fun change hmem => ?_
    have ⟨f, _, hchange⟩ := List.mem_map.1 hmem
    rw [← hchange]
    rfl
  rw [hparts, List.filter_append, List.filter_append, List.filter_append, hadded, hnone, hnone, hnone,
    List.nil_append, List.append_nil, List.append_nil]
  · intro change hmem
    have ⟨n, _, hin⟩ := List.mem_flatMap.1 hmem
    unfold sharedChanges at hin
    split at hin
    · exact hmutation hin
    · cases hin
  · intro change hmem
    have ⟨f, _, hchange⟩ := List.mem_map.1 hmem
    rw [← hchange]
    exact nofun
  · intro change hmem
    have ⟨r, _, hin⟩ := List.mem_flatMap.1 hmem
    unfold renameChanges at hin
    rcases List.mem_cons.1 hin with heq | hin
    · rw [heq]
      exact nofun
    · split at hin
      · exact hmutation hin
      · cases hin

section Changes

variable (haccepted : Accepted current desired renames)
include haccepted

theorem newName_of_paired (h : Paired current desired renames c d) :
    newName (schemaChanges setOrder policy current desired renames) c.name = d.name := by
  unfold newName
  rcases changeOf_cases (schemaChanges setOrder policy current desired renames) (· = .rename) c.name with
    ⟨hnone, hnot⟩ | ⟨change, hmem, hsome, hkind, hname⟩
  · rw [hnone]
    rcases h.same with hr | ⟨hsame, _⟩
    · exact absurd rfl (hnot _ ((mem_schemaChanges setOrder policy haccepted).2 (.inl ⟨_, hr, rfl⟩)) rfl)
    · exact hsame
  · rw [hsome]
    have hkind := of_decide_eq_true hkind
    rcases (mem_schemaChanges setOrder policy haccepted).1 hmem with ⟨r, hr, rfl⟩ | ⟨f, _, rfl⟩ | ⟨f, _, rfl⟩ | ⟨c', d', _, hin⟩
    · have hr' : (c.name, r.2) ∈ renames.items := by
        have hsource : r.1 = c.name := hname
        rw [← hsource]
        exact hr
      rcases h.same with hpair | ⟨_, hsource, _⟩
      · exact congrArg Prod.snd (List.inj_on_of_nodup_map renames.nodup hr' hpair rfl)
      · exact absurd (List.mem_map_of_mem (f := Prod.fst) hr') hsource
    · cases hkind
    · cases hkind
    · have hmutation := isMutation_of_mem hin
      rw [hkind] at hmutation
      cases hmutation

theorem newType_of_paired (h : Paired current desired renames c d) :
    newType (schemaChanges setOrder policy current desired renames) d.name c.dtype = d.dtype := by
  unfold newType
  rcases changeOf_cases (schemaChanges setOrder policy current desired renames) ChangeType.isType d.name with
    ⟨hnone, hnot⟩ | ⟨change, hmem, hsome, hkind, hname⟩
  · rw [hnone]
    by_contra hne
    have ⟨change, hchange⟩ : ∃ change, change ∈ dtypeChanges policy d.name c d := by
      rw [dtypeChanges, if_neg hne]
      exact ⟨_, List.mem_singleton.2 rfl⟩
    have hspec := dtypeChanges_spec hchange
    have hmem := (mem_schemaChanges setOrder policy haccepted).2
      (.inr (.inr (.inr ⟨c, d, h, List.mem_append_left _ hchange⟩)))
    exact hnot change hmem hspec.2.1 hspec.1
  · rw [hsome]
    rcases (mem_schemaChanges setOrder policy haccepted).1 hmem with ⟨r, _, rfl⟩ | ⟨f, _, rfl⟩ | ⟨f, _, rfl⟩ | ⟨c', d', hpair, hin⟩
    · cases hkind
    · cases hkind
    · cases hkind
    · rcases List.mem_append.1 hin with hin | hin
      · have hspec := dtypeChanges_spec hin
        show change.newValue.getD c.dtype = d.dtype
        rw [hspec.2.2.1, field_unique hpair.desired h.desired (hspec.1.symm.trans hname)]
        rfl
      · have hnull := (nullabilityChanges_spec hin).2.1
        rw [ChangeType.not_both hkind] at hnull
        cases hnull

theorem newNullability_of_paired (h : Paired current desired renames c d) :
    newNullability (schemaChanges setOrder policy current desired renames) d.name c.nullable = d.nullable := by
  unfold newNullability
  rcases changeOf_cases (schemaChanges setOrder policy current desired renames) ChangeType.isNullability d.name with
    ⟨hnone, hnot⟩ | ⟨change, hmem, hsome, hkind, hname⟩
  · rw [hnone]
    by_contra hne
    have ⟨change, hchange⟩ : ∃ change, change ∈ nullabilityChanges policy d.name c d := by
      rw [nullabilityChanges, if_neg hne]
      exact ⟨_, List.mem_singleton.2 rfl⟩
    have hspec := nullabilityChanges_spec hchange
    have hmem := (mem_schemaChanges setOrder policy haccepted).2
      (.inr (.inr (.inr ⟨c, d, h, List.mem_append_right _ hchange⟩)))
    exact hnot change hmem hspec.2.1 hspec.1
  · rw [hsome]
    rcases (mem_schemaChanges setOrder policy haccepted).1 hmem with ⟨r, _, rfl⟩ | ⟨f, _, rfl⟩ | ⟨f, _, rfl⟩ | ⟨c', d', hpair, hin⟩
    · cases hkind
    · cases hkind
    · cases hkind
    · rcases List.mem_append.1 hin with hin | hin
      · have htype := ChangeType.not_both (dtypeChanges_spec hin).2.1
        rw [hkind] at htype
        cases htype
      · have hspec := nullabilityChanges_spec hin
        rw [← field_unique hpair.desired h.desired (hspec.1.symm.trans hname)]
        exact hspec.2.2.1

theorem updatedField_of_paired (h : Paired current desired renames c d) :
    updatedField (schemaChanges setOrder policy current desired renames) c = d.shape := by
  show FieldShape.mk (newName _ c.name) (newType _ (newName _ c.name) c.dtype)
    (newNullability _ (newName _ c.name) c.nullable) = _
  rw [newName_of_paired haccepted h, newType_of_paired haccepted h, newNullability_of_paired haccepted h]
  rfl

/-- A field is kept exactly if it becomes one of the desired schema. -/
theorem not_dropped_iff (hc : c ∈ current.fields) :
    (changeOf (schemaChanges setOrder policy current desired renames) (· = .drop) c.name).isNone = true ↔
      ∃ d, Paired current desired renames c d := by
  have hdropped : (changeOf (schemaChanges setOrder policy current desired renames) (· = .drop) c.name).isNone = true ↔
      ¬ (c.name ∉ renames.items.map Prod.fst ∧ c.name ∉ desired.names) := by
    rcases changeOf_cases (schemaChanges setOrder policy current desired renames) (· = .drop) c.name with
      ⟨hnone, hnot⟩ | ⟨change, hmem, hsome, hkind, hname⟩
    · rw [hnone]
      refine ⟨fun _ hfree => ?_, fun _ => rfl⟩
      have hin : dropChange policy c ∈ schemaChanges setOrder policy current desired renames :=
        (mem_schemaChanges setOrder policy haccepted).2 (.inr (.inr (.inl ⟨c, mem_droppedFields.2 ⟨hc, hfree⟩, rfl⟩)))
      exact hnot _ hin rfl rfl
    · rw [hsome]
      have hkind := of_decide_eq_true hkind
      refine ⟨nofun, fun hnot => absurd ?_ hnot⟩
      rcases (mem_schemaChanges setOrder policy haccepted).1 hmem with ⟨r, _, rfl⟩ | ⟨f, _, rfl⟩ | ⟨f, hf, rfl⟩ | ⟨c', d', _, hin⟩
      · cases hkind
      · cases hkind
      · have hfree := (mem_droppedFields.1 hf).2
        have hfname : f.name = c.name := hname
        rwa [hfname] at hfree
      · have hmutation := isMutation_of_mem hin
        rw [hkind] at hmutation
        cases hmutation
  rw [hdropped]
  constructor
  · intro hnot
    by_cases hsource : c.name ∈ renames.items.map Prod.fst
    · have ⟨r, hr, hname⟩ := List.mem_map.1 hsource
      have ⟨d, hd, hdname⟩ := mem_names.1 (haccepted.rename r hr).1.target
      refine ⟨d, hc, hd, .inl ?_⟩
      rw [← hname, hdname]
      exact hr
    · have ⟨d, hd, hdname⟩ := mem_names.1 (Classical.not_not.1 fun hdesired => hnot ⟨hsource, hdesired⟩)
      refine ⟨d, hc, hd, .inr ⟨hdname.symm, hsource, fun htarget => ?_⟩⟩
      have ⟨r, hr, hname⟩ := List.mem_map.1 htarget
      refine (haccepted.rename r hr).2 (mem_names.2 ⟨c, hc, ?_⟩)
      rw [hname, hdname]
  · rintro ⟨d, h⟩ ⟨hsource, hdesired⟩
    rcases h.same with hr | ⟨hsame, _⟩
    · exact hsource (List.mem_map_of_mem (f := Prod.fst) hr)
    · exact hdesired (mem_names.2 ⟨d, h.desired, hsame.symm⟩)

theorem mem_updatedFields {s : FieldShape} :
    s ∈ updatedFields desired.fields (schemaChanges setOrder policy current desired renames) current.fields ↔
      ∃ d ∈ desired.fields, d.name ∉ renames.items.map Prod.fst ∧ s = d.shape := by
  have hnew : ∀ {t : String}, t ∈ renames.values → t ∉ current.names := by
    intro t ht
    have ⟨r, hr, hvalue⟩ := List.mem_map.1 ht
    rw [← hvalue]
    exact (haccepted.rename r hr).2
  have hold : ∀ {t : String}, t ∈ renames.items.map Prod.fst → t ∈ current.names := by
    intro t ht
    have ⟨r, hr, hkey⟩ := List.mem_map.1 ht
    rw [← hkey]
    exact (haccepted.rename r hr).1.source
  rw [updatedFields, filter_add_schemaChanges, List.map_map, List.mem_append, List.mem_map, List.mem_map]
  constructor
  · rintro (⟨c, hc, rfl⟩ | ⟨d, hd, rfl⟩)
    · have ⟨hmem, hkept⟩ := List.mem_filter.1 hc
      have ⟨d, h⟩ := (not_dropped_iff haccepted hmem).1 hkept
      refine ⟨d, h.desired, fun hsource => ?_, updatedField_of_paired haccepted h⟩
      rcases h.same with hr | ⟨hsame, hnot, _⟩
      · exact hnew (List.mem_map_of_mem (f := Prod.snd) hr) (hold hsource)
      · rw [hsame] at hnot
        exact hnot hsource
    · have ⟨hmem, hfree⟩ := List.mem_filter.1 hd
      exact ⟨d, hmem, fun hsource => (of_decide_eq_true hfree).2 (hold hsource), addedField_addChange hmem⟩
  · rintro ⟨d, hd, hsource, rfl⟩
    have hpaired : ∀ {c : FieldSpec}, Paired current desired renames c d →
        ∃ c ∈ current.fields.filter fun f => (changeOf (schemaChanges setOrder policy current desired renames)
          (· = .drop) f.name).isNone,
          updatedField (schemaChanges setOrder policy current desired renames) c = d.shape :=
      fun h => ⟨_, List.mem_filter.2 ⟨h.current, (not_dropped_iff haccepted h.current).2 ⟨d, h⟩⟩,
        updatedField_of_paired haccepted h⟩
    by_cases htarget : d.name ∈ renames.values
    · have ⟨r, hr, hvalue⟩ := List.mem_map.1 htarget
      have ⟨c, hc, hcname⟩ := mem_names.1 (haccepted.rename r hr).1.source
      refine .inl (hpaired ⟨hc, hd, .inl ?_⟩)
      rw [hcname, ← hvalue]
      exact hr
    · by_cases hcurrent : d.name ∈ current.names
      · have ⟨c, hc, hcname⟩ := mem_names.1 hcurrent
        refine .inl (hpaired ⟨hc, hd, .inr ⟨hcname, ?_, htarget⟩⟩)
        rw [hcname]
        exact hsource
      · exact .inr ⟨d, List.mem_filter.2 ⟨hd, decide_eq_true ⟨htarget, hcurrent⟩⟩, addedField_addChange hd⟩

theorem nodup_updatedFields :
    (updatedFields desired.fields (schemaChanges setOrder policy current desired renames) current.fields).Nodup := by
  rw [updatedFields, filter_add_schemaChanges, List.map_map, List.nodup_append]
  have hshape : ∀ {d d' : FieldSpec}, d ∈ desired.fields → d' ∈ desired.fields → d.shape = d'.shape → d = d' :=
    fun hd hd' h => field_unique hd hd' (congrArg FieldShape.name h)
  have hkept : ∀ {c : FieldSpec}, c ∈ current.fields.filter (fun f => (changeOf
      (schemaChanges setOrder policy current desired renames) (· = .drop) f.name).isNone) →
      ∃ d, Paired current desired renames c d := by
    intro c hc
    have ⟨hmem, hnone⟩ := List.mem_filter.1 hc
    exact (not_dropped_iff haccepted hmem).1 hnone
  refine ⟨?_, ?_, ?_⟩
  · refine List.Nodup.map_on (fun c hc c' hc' heq => ?_) (current.nodup.of_map.filter _)
    have ⟨d, h⟩ := hkept hc
    have ⟨d', h'⟩ := hkept hc'
    rw [updatedField_of_paired haccepted h, updatedField_of_paired haccepted h'] at heq
    rw [← hshape h.desired h'.desired heq] at h'
    exact h.unique_current haccepted h'
  · refine List.Nodup.map_on (fun d hd d' hd' heq => ?_) (desired.nodup.of_map.filter _)
    have hmem := (List.mem_filter.1 hd).1
    have hmem' := (List.mem_filter.1 hd').1
    rw [Function.comp_apply, Function.comp_apply, addedField_addChange hmem, addedField_addChange hmem'] at heq
    exact hshape hmem hmem' heq
  · intro s hs t ht heq
    have ⟨c, hc, hcs⟩ := List.mem_map.1 hs
    have ⟨d', hd', hds⟩ := List.mem_map.1 ht
    have ⟨hmem', hfree⟩ := List.mem_filter.1 hd'
    have hfree := of_decide_eq_true hfree
    have ⟨d, h⟩ := hkept hc
    rw [Function.comp_apply, addedField_addChange hmem'] at hds
    rw [updatedField_of_paired haccepted h] at hcs
    have hsame := hshape h.desired hmem' (hcs.trans (heq.trans hds.symm))
    rw [← hsame] at hfree
    rcases h.same with hr | ⟨hname, _⟩
    · exact hfree.1 (List.mem_map_of_mem (f := Prod.snd) hr)
    · exact hfree.2 (mem_names.2 ⟨c, h.current, hname⟩)

theorem updatedFields_perm (setOrder : SetOrder) (policy : SchemaPlanningPolicy) :
    (updatedFields desired.fields (schemaChanges setOrder policy current desired renames) current.fields).Perm
      ((desired.fields.filter fun d => d.name ∉ renames.items.map Prod.fst).map FieldSpec.shape) := by
  have hnodup : ((desired.fields.filter fun d => d.name ∉ renames.items.map Prod.fst).map FieldSpec.shape).Nodup := by
    refine List.Nodup.map_on (fun d hd d' hd' heq => ?_) (desired.nodup.of_map.filter _)
    exact field_unique (List.mem_filter.1 hd).1 (List.mem_filter.1 hd').1 (congrArg FieldShape.name heq)
  rw [List.perm_ext_iff_of_nodup (nodup_updatedFields haccepted) hnodup]
  intro s
  rw [mem_updatedFields haccepted, List.mem_map]
  refine exists_congr fun d => ?_
  rw [List.mem_filter, decide_eq_true_iff, and_assoc]
  exact and_congr_right fun _ => and_congr_right fun _ => eq_comm

end Changes

/-! ### Sound and complete plans -/

def Classification.severity : Classification → ℕ
  | .safe => 0
  | .warning => 1
  | .breaking => 2

/-- The worst of some classifications; safe, if there is none. -/
structure IsWorst (worst : Classification) (classifications : List Classification) : Prop where
  bound : ∀ c ∈ classifications, c.severity ≤ worst.severity
  reached : worst ∈ classifications ∨ classifications = [] ∧ worst = .safe

/-- A plan that says what is to be done, and no more. -/
structure SoundAndComplete (current desired : List FieldSpec) (renames : OrderedDict String String)
    (plan : SchemaMigrationPlan) : Prop where
  update : (updatedFields desired plan.changes current).Perm (desired.map FieldSpec.shape)
  empty : plan.changes = [] ↔
    renames.items = [] ∧ (current.map FieldSpec.shape).Perm (desired.map FieldSpec.shape)
  classification : IsWorst plan.classification (plan.changes.map SchemaChange.classification)
  approval : plan.requiresApproval = true ↔ plan.classification = .breaking

theorem isWorst_worstClassification (classifications : List Classification) :
    IsWorst (worstClassification classifications) classifications := by
  unfold worstClassification
  split
  next hbreaking => exact ⟨fun c _ => by cases c <;> decide, .inl hbreaking⟩
  next hbreaking =>
    split
    next hwarning =>
      refine ⟨fun c hc => ?_, .inl hwarning⟩
      cases c with
      | breaking => exact absurd hc hbreaking
      | _ => decide
    next hwarning =>
      have hsafe : ∀ c ∈ classifications, c = .safe := by
        intro c hc
        cases c with
        | safe => rfl
        | warning => exact absurd hc hwarning
        | breaking => exact absurd hc hbreaking
      refine ⟨fun c hc => by rw [hsafe c hc], ?_⟩
      cases classifications with
      | nil => exact .inr ⟨rfl, rfl⟩
      | cons c rest =>
        refine .inl ?_
        rw [← hsafe c List.mem_cons_self]
        exact List.mem_cons_self

theorem updatedFields_perm_iff (setOrder : SetOrder) (policy : SchemaPlanningPolicy)
    (haccepted : Accepted current desired renames) :
    (updatedFields desired.fields (schemaChanges setOrder policy current desired renames) current.fields).Perm
      (desired.fields.map FieldSpec.shape) ↔ ∀ r ∈ renames.items, r.1 ∉ desired.names := by
  have hperm := updatedFields_perm haccepted setOrder policy
  have hall : (∀ r ∈ renames.items, r.1 ∉ desired.names) ↔
      ∀ d ∈ desired.fields, d.name ∉ renames.items.map Prod.fst := by
    constructor
    · intro h d hd hsource
      have ⟨r, hr, hname⟩ := List.mem_map.1 hsource
      exact h r hr (mem_names.2 ⟨d, hd, hname.symm⟩)
    · intro h r hr hdesired
      have ⟨d, hd, hname⟩ := mem_names.1 hdesired
      refine h d hd ?_
      rw [hname]
      exact List.mem_map_of_mem hr
  rw [hall]
  constructor
  · intro h
    have hlength := (hperm.symm.trans h).length_eq
    rw [List.length_map, List.length_map] at hlength
    exact fun d hd => of_decide_eq_true (List.length_filter_eq_length_iff.1 hlength d hd)
  · intro h
    rw [List.filter_eq_self.2 fun d hd => decide_eq_true (h d hd)] at hperm
    exact hperm

/-- A plan is empty exactly if no rename is given and the schemas have the same fields. -/
theorem schemaChanges_eq_nil_iff (setOrder : SetOrder) (policy : SchemaPlanningPolicy)
    (haccepted : Accepted current desired renames) : schemaChanges setOrder policy current desired renames = [] ↔
      renames.items = [] ∧ (current.fields.map FieldSpec.shape).Perm (desired.fields.map FieldSpec.shape) := by
  constructor
  · intro hnil
    have hnone : renames.items = [] := by
      refine List.eq_nil_iff_forall_not_mem.2 fun r hr => ?_
      have hmem := (mem_schemaChanges setOrder policy haccepted).2 (.inl ⟨r, hr, rfl⟩)
      rw [hnil] at hmem
      cases hmem
    have hperm := (updatedFields_perm_iff setOrder policy haccepted).2
      (by rw [hnone]; exact fun r hr => absurd hr List.not_mem_nil)
    rw [hnil] at hperm
    have hsame : updatedFields desired.fields [] current.fields = current.fields.map FieldSpec.shape := by
      show (current.fields.filter fun _ => true).map FieldSpec.shape ++ [] = _
      rw [List.append_nil, List.filter_true]
    rw [hsame] at hperm
    exact ⟨hnone, hperm⟩
  · rintro ⟨hnone, hperm⟩
    have hempty : renames = OrderedDict.empty := OrderedDict.ext hnone
    rw [hempty, no_changes_iff]
    constructor
    · intro d hd
      have ⟨c, hc, hshape⟩ := List.mem_map.1 (hperm.mem_iff.2 (List.mem_map_of_mem (f := FieldSpec.shape) hd))
      exact ⟨c, hc, congrArg FieldShape.name hshape, congrArg FieldShape.dtype hshape,
        congrArg FieldShape.nullable hshape⟩
    · intro c hc
      have ⟨d, hd, hshape⟩ := List.mem_map.1 (hperm.mem_iff.1 (List.mem_map_of_mem (f := FieldSpec.shape) hc))
      exact mem_names.2 ⟨d, hd, congrArg FieldShape.name hshape⟩

/-- An accepted plan is sound and complete if and only if no rename moves away a field whose name is that of a
desired field. -/
theorem sound_and_complete_iff {tableName : String} {current desired : List FieldSpec} {plan : SchemaMigrationPlan}
    (h : planSchemaMigration setOrder tableName current desired policy renames = .ok plan) :
    SoundAndComplete current desired renames plan ↔ ∀ r ∈ renames.items, r.1 ∉ desired.map FieldSpec.name := by
  have ⟨currentFields, hcurrent, h⟩ := bind_eq_ok.1 h
  have ⟨desiredFields, hdesired, h⟩ := bind_eq_ok.1 h
  have ⟨_, hrenames, h⟩ := bind_eq_ok.1 h
  have hplan := Except.ok.inj h
  have ⟨hitems, hnodup⟩ := validateRenames_spec hrenames
  have haccepted : Accepted currentFields desiredFields renames := ⟨hitems, hnodup⟩
  have hupdate := updatedFields_perm_iff setOrder policy haccepted
  have hempty := schemaChanges_eq_nil_iff setOrder policy haccepted
  rw [FieldMap.names, fieldMap_eq_ok hdesired, fieldMap_eq_ok hcurrent] at hupdate
  rw [fieldMap_eq_ok hdesired, fieldMap_eq_ok hcurrent] at hempty
  rw [← hplan]
  constructor
  · exact fun hsound => hupdate.1 hsound.update
  · exact fun hfree => ⟨hupdate.2 hfree, hempty, isWorst_worstClassification _, decide_eq_true_iff⟩

def splitName : List FieldSpec × List FieldSpec :=
  ([⟨"name", "string", false, false⟩],
    [⟨"full_name", "string", false, false⟩, ⟨"name", "string", true, false⟩])

def anyOrder : SetOrder where
  order l := l
  perm l := .refl l

def neutralPolicy : SchemaPlanningPolicy where
  changeClassifications _ := none
  recommendations _ := none

def nameRenamed : OrderedDict String String where
  items := [("name", "full_name")]
  nodup := by decide

/-- The plan has the rename only; the new field is not in it. -/
theorem renamed_name_lost : ∃ plan,
    planSchemaMigration anyOrder "people" splitName.1 splitName.2 neutralPolicy nameRenamed = .ok plan ∧
      updatedFields splitName.2 plan.changes splitName.1 = [⟨"full_name", "string", false⟩] ∧
      ¬ SoundAndComplete splitName.1 splitName.2 nameRenamed plan := by
  refine ⟨_, rfl, by decide, fun h => ?_⟩
  have hlength := h.update.length_eq
  exact absurd hlength (by decide)

/-- Without the new field the plan is sound and complete. -/
theorem sound_and_complete_full_name : ∃ plan,
    planSchemaMigration anyOrder "people" splitName.1 (splitName.2.take 1) neutralPolicy nameRenamed = .ok plan ∧
      SoundAndComplete splitName.1 (splitName.2.take 1) nameRenamed plan :=
  ⟨_, rfl, (sound_and_complete_iff rfl).2 (by decide)⟩

end Phlo.SchemaMigration
