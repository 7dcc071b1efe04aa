import Phlo.SchemaMigration.MigratedColumns

/-!
# What a migration leaves to be done

The changes of a plan carry a name and a type, but an added column is optional whatever the desired field
is, an empty dtype stands for `string`, metadata columns are never seen by the planner, and a field that is
renamed away is not added again.

* `attainable_of_same`, `same_of_attainable` — when the migrated schema has the desired fields;
* `required_column_added_optional` — a required column that stays optional.
-/

namespace Phlo.SchemaMigration

open Phlo.Library

variable {policy : SchemaPlanningPolicy} {schema migrated : IcebergSchema} {current desired : FieldMap}
  {renames : OrderedDict String String}

/-! ### What is left to be done -/

/-- Desired fields that a migration can reach: none is a column of the pipeline's metadata, added ones are
nullable, an empty dtype is one the column has, and no field is wanted under a name it is renamed from. -/
structure Attainable (schema : IcebergSchema) (desired : List FieldSpec) (renames : OrderedDict String String) :
    Prop where
  noMetadata : ∀ d ∈ desired, d.name ∉ systemMetadataFields
  addedNullable : ∀ d ∈ desired, d.name ∉ (currentFields schema).map FieldSpec.name → d.name ∉ renames.values →
    d.nullable = true
  typed : ∀ d ∈ desired, d.dtype = "" → d.name ∉ renames.values →
    ∃ c ∈ currentFields schema, c.name = d.name ∧ c.dtype = ""
  notRenamedAway : ∀ r ∈ renames.items, r.1 ∉ desired.map FieldSpec.name

section Attained

variable {setOrder : SetOrder} {updates : SchemaUpdates} {plan : SchemaMigrationPlan} {applied : List String}
  (h : Planned schema current desired renames)
  (hchanges : plan.changes = schemaChanges setOrder policy current desired renames)
  (hrun : runPlan updates schema plan = .ok (migrated, applied))

include h hchanges hrun

theorem attainable_of_same (hsame : ∀ d ∈ desired.fields, ∃ c ∈ currentFields migrated, SameField c d) :
    Attainable schema desired.fields renames := by
  have horigin : ∀ d ∈ desired.fields, ∃ c, Origin schema current desired renames c ∧
      c.name ∉ systemMetadataFields ∧ SameField c.toFieldSpec d := by
    intro d hd
    obtain ⟨f, hf, hfield⟩ := hsame d hd
    obtain ⟨c, hc, rfl⟩ := List.mem_map.1 hf
    obtain ⟨hc, hsystem⟩ := List.mem_filter.1 hc
    exact ⟨c, origin_of_mem h hchanges hrun hc (of_decide_eq_true hsystem), of_decide_eq_true hsystem, hfield⟩
  have hunique : ∀ {d d' : FieldSpec}, d ∈ desired.fields → d' ∈ desired.fields → d.name = d'.name → d = d' :=
    fun hd hd' heq => List.inj_on_of_nodup_map desired.nodup hd hd' heq
  refine ⟨fun d hd => ?_, fun d hd hcurrent htarget => ?_, fun d hd hdtype htarget => ?_, fun r hr hmem => ?_⟩
  · obtain ⟨c, -, hsystem, hfield⟩ := horigin d hd
    exact hfield.name ▸ hsystem
  · obtain ⟨c, hc, -, hname, -, hnullable⟩ := horigin d hd
    cases hc with
    | renamed r original hr horiginal hrname heq =>
      subst heq
      exact absurd (List.mem_map.2 ⟨r, hr, hname⟩) htarget
    | kept original d' horiginal hsystem hsource hd' hdname heq hrequired hdtype =>
      refine absurd ?_ hcurrent
      rw [← hname, show c.toFieldSpec.name = original.name from heq, ← h.currentEq]
      exact h.mem_current.2 ⟨hsystem, original, horiginal, rfl⟩
    | added d' hd' heq hrequired hdtype =>
      rw [← hnullable]
      show (!c.required) = true
      rw [hrequired]
      rfl
  · obtain ⟨c, hc, -, hname, hsamedtype, -⟩ := horigin d hd
    have hempty : c.fieldType.toDtype = "" := hsamedtype.trans hdtype
    cases hc with
    | renamed r original hr horiginal hrname heq =>
      subst heq
      exact absurd (List.mem_map.2 ⟨r, hr, hname⟩) htarget
    | kept original d' horiginal hsystem hsource hd' hdname heq hrequired htype =>
      obtain rfl := hunique hd' hd (hdname.trans (heq.symm.trans hname))
      rw [hempty, hdtype] at htype
      refine ⟨original.toFieldSpec, ?_, hdname.symm, ?_⟩
      · exact List.mem_map_of_mem (List.mem_filter.2 ⟨horiginal, decide_eq_true hsystem⟩)
      · by_contra hne
        have hnot : ¬original.fieldType.toDtype = "" := hne
        rw [if_neg hnot, valueOr_empty] at htype
        exact absurd htype (by decide)
    | added d' hd' heq hrequired htype =>
      obtain rfl := hunique (List.mem_of_mem_filter hd') hd (heq.symm.trans hname)
      rw [hempty, hdtype, valueOr_empty] at htype
      exact absurd htype (by decide)
  · obtain ⟨d, hd, hdname⟩ := List.mem_map.1 hmem
    have hsource := (h.rename r hr).1.source
    obtain ⟨c, hc, -, hname, -⟩ := horigin d hd
    cases hc with
    | renamed r' original hr' horiginal hrname heq =>
      subst heq
      refine (h.rename r' hr').2 ?_
      have hback : r'.2 = r.1 := hname.trans hdname
      rw [hback]
      exact hsource
    | kept original d' horiginal hsystem hnotSource hd' hdname' heq hrequired htype =>
      have hback : r.1 = original.name := hdname.symm.trans (hname.symm.trans heq)
      exact hnotSource (List.mem_map.2 ⟨r, hr, hback⟩)
    | added d' hd' heq hrequired htype =>
      have hback : r.1 = d'.name := hdname.symm.trans (hname.symm.trans heq)
      exact (of_decide_eq_true (List.mem_filter.1 hd').2).2 (hback ▸ hsource)

theorem same_of_attainable (hattainable : Attainable schema desired.fields renames) :
    (∀ d ∈ desired.fields, ∃ c ∈ currentFields migrated, SameField c d) ∧
      ∀ c ∈ currentFields migrated, c.name ∈ desired.names := by
  have hcurrentField : ∀ {c : Column}, c ∈ migrated.columns → c.name ∉ systemMetadataFields →
      c.toFieldSpec ∈ currentFields migrated := fun hc hsystem =>
    List.mem_map_of_mem (List.mem_filter.2 ⟨hc, decide_eq_true hsystem⟩)
  constructor
  · intro d hd
    have hsystem := hattainable.noMetadata d hd
    by_cases htarget : d.name ∈ renames.values
    · obtain ⟨r, hr, hrname⟩ := List.mem_map.1 htarget
      obtain ⟨original, horiginal, hname, hmem⟩ := mem_renamed h hchanges hrun hr
      have hsystem' : r.2 ∉ systemMetadataFields := hrname ▸ hsystem
      obtain ⟨hdtype, hnullable⟩ := renamed_same h hchanges hrun hr hsystem' horiginal hname hd hrname.symm
      exact ⟨_, hcurrentField hmem hsystem', hrname, hdtype, hnullable⟩
    by_cases hcurrent : d.name ∈ current.names
    · obtain ⟨-, original, horiginal, hname⟩ := h.mem_current.1 hcurrent
      have hsource : original.name ∉ renames.items.map Prod.fst := by
        intro hmem
        obtain ⟨r, hr, hrname⟩ := List.mem_map.1 hmem
        exact hattainable.notRenamedAway r hr (List.mem_map.2 ⟨d, hd, hname.symm.trans hrname.symm⟩)
      have hsystem' : original.name ∉ systemMetadataFields := hname ▸ hsystem
      obtain ⟨type, hmem, htype⟩ := mem_kept h hchanges hrun horiginal hsystem' hsource hd hname.symm
      refine ⟨_, hcurrentField hmem hsystem', hname, ?_, Bool.not_not _⟩
      show type.toDtype = d.dtype
      rw [htype]
      split
      · rfl
      next hne =>
        refine valueOr_of_ne (fun hempty => hne ?_) _
        obtain ⟨c, hc, hcname, hcdtype⟩ := hattainable.typed d hd hempty htarget
        obtain ⟨column, hcolumn, rfl⟩ := List.mem_map.1 hc
        have hsameColumn : column = original := List.inj_on_of_nodup_map schema.nodup
          (List.mem_of_mem_filter hcolumn) horiginal (hcname.trans hname.symm)
        rw [← hsameColumn, hempty]
        exact hcdtype
    · have hadded : d ∈ addedFields current desired renames :=
        List.mem_filter.2 ⟨hd, decide_eq_true ⟨htarget, hcurrent⟩⟩
      have hnot : d.name ∉ (currentFields schema).map FieldSpec.name := by
        rw [← h.currentEq]
        exact hcurrent
      obtain ⟨type, hmem, htype⟩ := mem_added hchanges hrun hadded
      refine ⟨_, hcurrentField hmem hsystem, rfl, ?_, (hattainable.addedNullable d hd hnot htarget).symm⟩
      show type.toDtype = d.dtype
      rw [htype]
      refine valueOr_of_ne (fun hempty => ?_) _
      obtain ⟨c, hc, hcname, -⟩ := hattainable.typed d hd hempty htarget
      exact hnot (List.mem_map.2 ⟨c, hc, hcname⟩)
  · intro f hf
    obtain ⟨c, hc, rfl⟩ := List.mem_map.1 hf
    obtain ⟨hc, hsystem⟩ := List.mem_filter.1 hc
    cases origin_of_mem h hchanges hrun hc (of_decide_eq_true hsystem) with
    | renamed r original hr horiginal hname heq =>
      subst heq
      exact (h.rename r hr).1.target
    | kept original d horiginal hmeta hsource hd hname heq hrequired hdtype =>
      exact mem_names.2 ⟨d, hd, hname.trans heq.symm⟩
    | added d hd heq hrequired hdtype => exact mem_names.2 ⟨d, List.mem_of_mem_filter hd, heq.symm⟩

end Attained

theorem applyPlan_ok {updates : SchemaUpdates} {plan : SchemaMigrationPlan} {applied : List String}
    (h : (applyPlan updates schema plan true).1 = .ok applied) :
    runPlan updates schema plan = .ok ((applyPlan updates schema plan true).2, applied) := by
  have happroved : (plan.requiresApproval && !true) = false := by simp
  unfold applyPlan at h ⊢
  rw [happroved] at h ⊢
  cases hrun : runPlan updates schema plan with
  | error e =>
    rw [hrun] at h
    cases h
  | ok result =>
    rw [hrun] at h
    rw [← Except.ok.inj h]
    rfl

/-- Without renames a schema is planned to be left as it is exactly if it has the desired fields. -/
theorem diffSchema_empty_iff {setOrder : SetOrder} {tableName : String}
    (hnodup : (desired.fields.map FieldSpec.name).Nodup) :
    (∃ residue, diffSchema setOrder schema tableName desired.fields OrderedDict.empty = .ok residue ∧
        residue.changes = []) ↔ (∀ d ∈ desired.fields, ∃ c ∈ currentFields schema, SameField c d) ∧
        ∀ c ∈ currentFields schema, c.name ∈ desired.names := by
  have hcurrent : ((currentFields schema).map FieldSpec.name).Nodup := by
    rw [currentFields, List.map_map]
    exact schema.nodup.sublist (List.filter_sublist.map _)
  have hiff : schemaChanges setOrder icebergSchemaPolicy ⟨currentFields schema, hcurrent⟩ desired OrderedDict.empty =
      [] ↔ (∀ d ∈ desired.fields, ∃ c ∈ currentFields schema, SameField c d) ∧
        ∀ c ∈ currentFields schema, c.name ∈ desired.names := no_changes_iff
  rw [← hiff]
  unfold diffSchema planSchemaMigration
  rw [fieldMap_of_nodup hcurrent, fieldMap_of_nodup hnodup]
  constructor
  · rintro ⟨residue, hplan, hnil⟩
    obtain rfl := Except.ok.inj hplan
    exact hnil
  · intro hnil
    exact ⟨_, rfl, hnil⟩

/-- Updates that are refused for nothing else. -/
def openUpdates : SchemaUpdates := ⟨fun _ _ _ => none, fun _ _ => none⟩

def listOrder : SetOrder := ⟨id, fun _ => .refl _⟩

def usersSchema : IcebergSchema := ⟨[⟨"id", .long, true⟩], by decide⟩

def usersDesired (nullable : Bool) : List FieldSpec := [⟨"id", "int64", false, false⟩, ⟨"email", "string", nullable, false⟩]

def emailPlan (classification : Classification) (recommendations : List String) : SchemaMigrationPlan where
  tableName := "raw.users"
  changes := [⟨"email", .add, none, some "string", classification⟩]
  classification := classification
  recommendations := recommendations
  requiresApproval := decide (classification = .breaking)

def emailSchema : IcebergSchema := ⟨[⟨"id", .long, true⟩, ⟨"email", .string, false⟩], by decide⟩

end Phlo.SchemaMigration
