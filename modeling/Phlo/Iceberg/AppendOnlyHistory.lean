import Phlo.Iceberg.BatchComparison

/-!
# History is append-only

Any number of clients run `history_to_table` on one table, their operations in any order, calls given up
and started anew at any point, answers to commits lost now and then.

The argument is by rely and guarantee.  Others only ever publish versions that append rows (`Grown`); a
call commits only what is `Sound` for the version it has loaded, and since a commit lands only on that
version, nothing that was published in between can contradict it.

* `history_append_only` — versions are stored once and stay, a call that returns has its batch stored and
  counts what it added, a call that finds a conflict has changed nothing.
-/

namespace Phlo.Iceberg

open Phlo.Library
open Phlo.Library.Program (perform)

/-! ### Tables marked with a policy -/

def Marked (properties : OrderedDict String Property) (d : PolicyDefinition) : Prop :=
  ∀ property ∈ policyProperties d, properties.get property.1 = some property.2

/-- The table has neither property of a policy. -/
def Unmarked (properties : OrderedDict String Property) : Prop :=
  properties.get POLICY_PROPERTY = none ∧ properties.get FINGERPRINT_PROPERTY = none

theorem Marked.eq {properties : OrderedDict String Property} {d d' : PolicyDefinition}
    (h : Marked properties d) (h' : Marked properties d') : d = d' := by
  have hd := h _ List.mem_cons_self
  have hd' := h' _ List.mem_cons_self
  exact Property.definition.inj (Option.some.inj (hd.symm.trans hd'))

theorem marked_setAll (properties : OrderedDict String Property) (d : PolicyDefinition) :
    Marked (properties.setAll (policyProperties d)) d := by
  intro property hproperty
  rw [OrderedDict.get_setAll]
  obtain rfl | hproperty := List.mem_cons.1 hproperty
  · rfl
  · rw [List.mem_singleton.1 hproperty]
    rfl

def PolicyDefinition.identity (d : PolicyDefinition) (row : Row) : Value × Value :=
  (row d.entityKey.name, row d.versionKey.name)

theorem findField_eq_ok {columns : List Column} {name : String} {ref : FieldRef}
    (h : findField columns name = .ok ref) :
    ref.name = name ∧ name ∈ columns.map fun column => column.field.name := by
  rw [findField] at h
  split at h
  next column hfind =>
    cases h
    have hname : column.field.name = name := by simpa using List.find?_some hfind
    exact ⟨rfl, hname ▸ List.mem_map_of_mem (List.mem_of_find?_eq_some hfind)⟩
  · cases h

variable {policy : HistoryPolicy} {source : ArrowTable} {w' : HistoryWorld}

theorem policyDefinition_eq_ok {columns : List Column} {d : PolicyDefinition}
    (h : policyDefinition columns policy = .ok d) : d.identity = policy.identity ∧
      ∀ name, policy.uses name → name ∈ columns.map fun column => column.field.name := by
  obtain ⟨entity, hentity, h⟩ := bind_eq_ok.1 h
  obtain ⟨version, hversion, h⟩ := bind_eq_ok.1 h
  obtain ⟨payload, hpayload, h⟩ := bind_eq_ok.1 h
  cases h
  obtain ⟨hename, hecolumn⟩ := findField_eq_ok hentity
  obtain ⟨hvname, hvcolumn⟩ := findField_eq_ok hversion
  refine ⟨?_, ?_⟩
  · funext row
    show (row entity.name, row version.name) = _
    rw [hename, hvname]
    rfl
  · intro name hname
    obtain rfl | hname := List.mem_cons.1 hname
    · exact hecolumn
    · obtain rfl | hname := List.mem_cons.1 hname
      · exact hvcolumn
      · obtain ⟨ref, href⟩ := exists_mapM_eq_ok.1 ⟨_, hpayload⟩ name hname
        exact (findField_eq_ok href).2

/-- A table that is empty, or written under the policy it is marked with. -/
def UniqueVersions (st : TableState) : Prop :=
  st.rows = [] ∨ ∃ d, Marked st.properties d ∧
    st.rows.Pairwise fun a b => d.identity a ≠ d.identity b

/-- A change that is right for a version: its rows have different identities, none of which is stored,
under the policy the version is marked with or else gets from the change. -/
structure Sound (st : TableState) (change : Change) : Prop where
  exists_policy : ∃ d, (Marked st.properties d ∧ change.properties = [] ∨
      Unmarked st.properties ∧ st.rows = [] ∧ change.properties = policyProperties d) ∧
    (change.appended st).Pairwise (fun a b => d.identity a ≠ d.identity b) ∧
    ∀ old ∈ st.rows, ∀ new ∈ change.appended st, d.identity old ≠ d.identity new

variable {change : Change}

theorem UniqueVersions.apply {st : TableState} (h : UniqueVersions st) (hs : Sound st change) :
    UniqueVersions (st.apply change) := by
  obtain ⟨d, hpolicy, hnew, hcross⟩ := hs.exists_policy
  refine .inr ⟨d, ?_, ?_⟩
  · obtain ⟨hmarked, hproperties⟩ | ⟨-, -, hproperties⟩ := hpolicy
    · show Marked (st.properties.setAll change.properties) d
      rw [hproperties]
      exact hmarked
    · show Marked (st.properties.setAll change.properties) d
      rw [hproperties]
      exact marked_setAll _ d
  · have hold : st.rows.Pairwise fun a b => d.identity a ≠ d.identity b := by
      obtain hempty | ⟨d', hmarked', hunique⟩ := h
      · rw [hempty]
        exact List.Pairwise.nil
      · obtain ⟨hmarked, -⟩ | ⟨hunmarked, -⟩ := hpolicy
        · rwa [hmarked.eq hmarked']
        · have hmark := hmarked' _ List.mem_cons_self
          rw [hunmarked.1] at hmark
          cases hmark
    exact List.pairwise_append.2 ⟨hold, hnew, hcross⟩

/-! ### The batch of a call -/

theorem incoming_eq_ok {data : ArrowTable} {groups : Groups} (h : incoming data policy = .ok groups) :
    groups = groupRows policy data.rows ∧ ∀ name, policy.uses name → name ∈ data.columnNames := by
  obtain ⟨_, hmissing, h⟩ := bind_eq_ok.1 h
  obtain ⟨_, -, h⟩ := bind_eq_ok.1 h
  cases h
  refine ⟨rfl, fun name hname => ?_⟩
  have hnone := List.filter_eq_nil_iff.1 ((sortedSet_eq_nil _).1 (require_eq_ok.1 hmissing)) name hname
  simpa using hnone

theorem mergeField_names {fields fields' : List Field} {field : Field} (h : mergeField fields field = .ok fields') :
    (∀ name ∈ fields.map Field.name, name ∈ fields'.map Field.name) ∧ field.name ∈ fields'.map Field.name := by
  rw [mergeField] at h
  split at h
  · cases h
    rw [List.map_append]
    exact ⟨fun name hname => List.mem_append_left _ hname, List.mem_append_right _ List.mem_cons_self⟩
  next old hfind =>
    have hold : old.name = field.name := by simpa using List.find?_some hfind
    have hmem : field.name ∈ fields.map Field.name :=
      hold ▸ List.mem_map_of_mem (List.mem_of_find?_eq_some hfind)
    split at h
    · cases h
      have hnames : (fields.map fun other => if other.name = field.name then
          (⟨field.name, if old.type = .null then field.type else old.type,
            old.nullable || field.nullable⟩ : Field) else other).map Field.name =
          fields.map Field.name := by
        rw [List.map_map]
        refine List.map_congr_left fun other _ => ?_
        show (if other.name = field.name then _ else other).name = other.name
        split
        next hsame => exact hsame.symm
        · rfl
      rw [hnames]
      exact ⟨fun _ hname => hname, hmem⟩
    · cases h

theorem foldlM_mergeField_names {more fields fields' : List Field} (h : more.foldlM mergeField fields = .ok fields') :
    (∀ name ∈ fields.map Field.name, name ∈ fields'.map Field.name) ∧
      ∀ field ∈ more, field.name ∈ fields'.map Field.name := by
  induction more generalizing fields with
  | nil =>
    cases h
    exact ⟨fun _ hname => hname, fun _ hfield => absurd hfield List.not_mem_nil⟩
  | cons field more ih =>
    rw [List.foldlM_cons] at h
    obtain ⟨merged, hmerged, h⟩ := bind_eq_ok.1 h
    obtain ⟨hkept, hadded⟩ := ih h
    obtain ⟨hkept', hadded'⟩ := mergeField_names hmerged
    refine ⟨fun name hname => hkept name (hkept' name hname), fun other hother => ?_⟩
    obtain rfl | hother := List.mem_cons.1 hother
    · exact hkept _ hadded'
    · exact hadded other hother

/-- The batch of a call as one table. -/
structure Source (call : HistoryCall) (source : ArrowTable) : Prop where
  rows : ∀ batch ∈ call.batches, ∀ row ∈ batch.rows, ∃ read ∈ source.rows,
    ∀ name, call.policy.uses name → read name = row name
  length : source.rows.length = (call.batches.map fun batch => batch.rows.length).sum
  names : ∀ name, call.policy.uses name → name ∈ source.columnNames

theorem source_of_ok {call : HistoryCall} (h : sourceOf call = .ok source) : Source call source := by
  obtain ⟨_, -, h⟩ := bind_eq_ok.1 h
  obtain ⟨_, hnonempty, h⟩ := bind_eq_ok.1 h
  obtain ⟨_, hincoming, h⟩ := bind_eq_ok.1 h
  obtain ⟨_, -, h⟩ := bind_eq_ok.1 h
  obtain ⟨fields, hfields, h⟩ := bind_eq_ok.1 h
  cases h
  have huses : ∀ batch ∈ call.batches, ∀ name, call.policy.uses name → name ∈ batch.columnNames := by
    intro batch hbatch name hname
    obtain ⟨groups, hgroups, -⟩ := map_eq_ok.1 (listForM_eq_ok.1 hincoming batch hbatch)
    exact (incoming_eq_ok hgroups).2 name hname
  refine ⟨?_, ?_, ?_⟩
  · intro batch hbatch row hrow
    refine ⟨row.restrict batch.columnNames, ?_, fun name hname =>
      Row.restrict_of_mem row (huses batch hbatch name hname)⟩
    exact List.mem_flatMap.2 ⟨batch, hbatch, List.mem_map_of_mem hrow⟩
  · simp [List.length_flatMap]
  · intro name hname
    obtain ⟨batch, hbatch⟩ := List.exists_mem_of_ne_nil _ (require_eq_ok.1 hnonempty)
    obtain ⟨field, hfield, rfl⟩ := List.mem_map.1 (huses batch hbatch name hname)
    exact (foldlM_mergeField_names hfields).2 field (List.mem_flatMap.2 ⟨batch, hbatch, hfield⟩)

/-- The rows an attempt compares are those of the batch. -/
theorem staged_rows {rules : ArrowRules} {call : HistoryCall} {table : LoadedTable} {additions : List Field}
    {staged : Staged} (hsource : Source call source) (h : stage rules call source table additions = .ok staged) :
    staged.prepared.aligned.rows.length = source.rows.length ∧
      (∀ read ∈ source.rows, ∃ row ∈ staged.prepared.aligned.rows,
        ∀ name, call.policy.uses name → row name = read name) ∧ (∀ row ∈ staged.prepared.aligned.rows, row.restrict
        ((table.columns ++ staged.prepared.added).map fun column => column.field.name) = row) ∧
      staged.definition.identity = call.policy.identity := by
  obtain ⟨_, -, h⟩ := bind_eq_ok.1 h
  obtain ⟨prepared, hprepared, h⟩ := bind_eq_ok.1 h
  obtain ⟨d, hd, h⟩ := bind_eq_ok.1 h
  cases h
  obtain ⟨hidentity, hcolumns⟩ := policyDefinition_eq_ok hd
  have hrows := congrArg ArrowTable.rows (prepareArrowWrite_rows hprepared)
  dsimp only at hrows
  rw [List.map_map] at hrows
  refine ⟨?_, ?_, ?_, hidentity⟩
  · rw [hrows, List.length_map]
  · intro read hread
    refine ⟨_, hrows ▸ List.mem_map_of_mem hread, fun name hname => ?_⟩
    have hcolumn : name ∈ (table.columns ++ prepared.added).map (Field.name ∘ Column.field) :=
      hcolumns name hname
    rw [Row.restrict_of_mem _ hcolumn, Row.restrict_of_mem _ (hsource.names name hname)]
  · intro row hrow
    rw [hrows] at hrow
    obtain ⟨read, -, rfl⟩ := List.mem_map.1 hrow
    exact Row.restrict_restrict _ _

/-! ### What others do -/

/-- Versions may have been published, with rows appended. -/
def Grown (w w' : HistoryWorld) : Prop :=
  w.table.Extends w'.table ∧ w.table.current.rows <+: w'.table.current.rows

theorem Grown.refl (w : HistoryWorld) : Grown w w := ⟨Versions.Extends.refl _, List.prefix_refl _⟩

theorem Grown.trans (u v w : HistoryWorld) (h : Grown u v) (h' : Grown v w) : Grown u w :=
  ⟨h.1.trans h'.1, h.2.trans h'.2⟩

theorem grown_of_table_eq {w : HistoryWorld} (h : w'.table = w.table) : Grown w w' := by
  obtain ⟨table, faults⟩ := w
  obtain ⟨table', faults'⟩ := w'
  obtain rfl : table' = table := h
  exact Grown.refl _

/-- The version a client has loaded. -/
structure Pinned (version : ℕ) (st : TableState) (w : HistoryWorld) : Prop where
  at_ : w.table.at_ version = some st
  rows : st.rows <+: w.table.current.rows

theorem Pinned.grown {version : ℕ} {st : TableState} {w : HistoryWorld} (h : Pinned version st w) (hw : Grown w w') :
    Pinned version st w' :=
  ⟨hw.1.at_ h.at_, h.rows.trans hw.2⟩

theorem pinned_head (w : HistoryWorld) : Pinned w.table.head w.table.current w :=
  ⟨w.table.at_head, List.prefix_refl _⟩

theorem Pinned.scan {version : ℕ} {st : TableState} {w : HistoryWorld} (h : Pinned version st w)
    (filter : Filter) (fields : List String) (limit : Option ℕ) :
    w.scan version filter fields limit = st.scan filter fields limit := by
  rw [HistoryWorld.scan, h.at_]

/-! ### Commits -/

theorem commit_cases {w : HistoryWorld} {version : ℕ} {answer : CommitAnswer}
    (h : w.commit version change = (w', answer)) : (version = w.table.head ∧ answer ≠ .failed ∧
        w'.table = w.table.publish (w.table.current.apply change)) ∨ (answer ≠ .committed ∧ w'.table = w.table) := by
  rw [HistoryWorld.commit] at h
  split at h
  · split at h
    next hversion =>
      cases h
      exact .inl ⟨hversion, nofun, rfl⟩
    next =>
      cases h
      exact .inr ⟨nofun, rfl⟩
  · split at h
    next hlands =>
      cases h
      exact .inl ⟨hlands.2, nofun, rfl⟩
    next =>
      cases h
      exact .inr ⟨nofun, rfl⟩

theorem grown_commit (w : HistoryWorld) (version : ℕ) (change : Change) : Grown w (w.commit version change).1 := by
  obtain ⟨-, -, htable⟩ | ⟨-, htable⟩ := commit_cases (Prod.mk.eta (p := w.commit version change)).symm
  · refine ⟨?_, ?_⟩
    · rw [htable]
      exact Versions.extends_publish _ _
    · rw [htable, Versions.current_publish]
      exact List.prefix_append _ _
  · exact grown_of_table_eq htable

def SoundOp : {β : Type} → HistoryOp β → HistoryWorld → Prop
  | _, .commit version change, w => ∃ st, w.table.at_ version = some st ∧ Sound st change
  | _, _, _ => True

abbrev HistoryMoment := Moment HistoryOp HistoryWorld

def HistoryGuarantee (_ : List HistoryMoment) (m : HistoryMoment) : Prop := SoundOp m.op m.before

theorem grown_moment (m : HistoryMoment) : Grown m.before (m.after historySemantics) := by
  obtain ⟨op, w⟩ := m
  cases op with
  | load => exact Grown.refl w
  | scan version filter fields limit => exact Grown.refl w
  | commit version change => exact grown_commit w version change

theorem uniqueVersions_moment {m : HistoryMoment} (hs : SoundOp m.op m.before)
    (h : UniqueVersions m.before.table.current) : UniqueVersions (m.after historySemantics).table.current := by
  obtain ⟨op, w⟩ := m
  cases op with
  | load => exact h
  | scan version filter fields limit => exact h
  | commit version change =>
    obtain ⟨st, hst, hsound⟩ := hs
    show UniqueVersions (w.commit version change).1.table.current
    obtain ⟨hhead, -, htable⟩ | ⟨-, htable⟩ := commit_cases (Prod.mk.eta (p := w.commit version change)).symm
    · rw [htable, Versions.current_publish]
      rw [← Versions.current_of_at_head hst hhead] at hsound
      exact h.apply hsound
    · rw [htable]
      exact h

/-! ### What a call has done so far -/

def rowsAdded (m : HistoryMoment) : ℕ :=
  (m.after historySemantics).table.current.rows.length - m.before.table.current.rows.length

def addedRows (past : List HistoryMoment) : ℕ := (past.map rowsAdded).sum

/-- No operation of a call has changed the table. -/
def Quiet (past : List HistoryMoment) : Prop :=
  ∀ m ∈ past, (m.after historySemantics).table = m.before.table

theorem Quiet.cons {past : List HistoryMoment} (h : Quiet past) {m : HistoryMoment}
    (hm : (m.after historySemantics).table = m.before.table) : Quiet (m :: past) := by
  intro other hother
  obtain rfl | hother := List.mem_cons.1 hother
  · exact hm
  · exact h other hother

theorem addedRows_of_quiet {past : List HistoryMoment} (h : Quiet past) : addedRows past = 0 := by
  induction past with
  | nil => rfl
  | cons m past ih =>
    have hrest : addedRows past = 0 := ih fun other hother => h other (List.mem_cons_of_mem _ hother)
    have hnone : rowsAdded m = 0 := by rw [rowsAdded, h m List.mem_cons_self, Nat.sub_self]
    show rowsAdded m + addedRows past = 0
    omega

/-- The part of an attempt between load and commit: the call works on the version it has loaded, and
leaves the table alone. -/
structure OnVersion (version : ℕ) (st : TableState) (past past' : List HistoryMoment)
    (w : HistoryWorld) : Prop where
  pinned : Pinned version st w
  quiet : Quiet past → Quiet past'

/-- What a program does under the interference of other calls. -/
abbrev KeepsHistory {α : Type} (Q : List HistoryMoment → α → HistoryWorld → Prop)
    (p : Program HistoryOp α) (past : List HistoryMoment) (w : HistoryWorld) : Prop :=
  Keeps historySemantics Grown HistoryGuarantee Q p past w

section

variable {version : ℕ} {st : TableState} {past : List HistoryMoment} {w : HistoryWorld}

variable {past' : List HistoryMoment}

theorem OnVersion.grown (h : OnVersion version st past past' w) (hw : Grown w w') :
    OnVersion version st past past' w' :=
  ⟨h.pinned.grown hw, h.quiet⟩

theorem keeps_load {α : Type} {Q : List HistoryMoment → α → HistoryWorld → Prop}
    {f : LoadedTable → Program HistoryOp α}
    (hf : ∀ w', OnVersion w'.table.head w'.table.current past (⟨.load, w'⟩ :: past) w' →
      KeepsHistory Q (f (w'.table.current.loaded w'.table.head)) (⟨.load, w'⟩ :: past) w') :
    KeepsHistory Q (perform .load >>= f) past w := by
  refine keeps_perform_bind.2 fun w' _ => ⟨trivial, hf w' ⟨pinned_head w', fun h => h.cons rfl⟩⟩

theorem keeps_commit {α : Type} {Q : List HistoryMoment → α → HistoryWorld → Prop}
    {f : CommitAnswer → Program HistoryOp α} (h : Pinned version st w) (hsound : Sound st change)
    (hf : ∀ w' w'' answer, w'.commit version change = (w'', answer) → Pinned version st w' → KeepsHistory Q (f answer) (⟨.commit version change, w'⟩ :: past) w'') :
    KeepsHistory Q (perform (.commit version change) >>= f) past w := by
  refine keeps_perform_bind.2 fun w' hw => ?_
  have hpinned := h.grown hw
  exact ⟨⟨st, hpinned.at_, hsound⟩, hf w' _ _ rfl hpinned⟩

theorem keeps_scan {α : Type} {Q : List HistoryMoment → α → HistoryWorld → Prop} {filter : Filter}
    {fields : List String} {limit : Option ℕ} {f : Except PlainError (List Row) → Program HistoryOp α}
    (h : OnVersion version st past past' w)
    (hf : ∀ past'' w', OnVersion version st past past'' w' → KeepsHistory Q (f (st.scan filter fields limit)) past'' w') :
    KeepsHistory Q (perform (.scan version filter fields limit) >>= f) past' w := by
  refine keeps_perform_bind.2 fun w' hw => ⟨trivial, ?_⟩
  have hpinned := h.pinned.grown hw
  show KeepsHistory Q (f (w'.scan version filter fields limit)) _ w'
  rw [hpinned.scan]
  exact hf _ w' ⟨hpinned, fun hquiet => (h.quiet hquiet).cons rfl⟩

theorem keeps_checkPolicy (d : PolicyDefinition) (h : OnVersion version st past past' w) :
    KeepsHistory (fun past'' result w' => OnVersion version st past past'' w' ∧
        (result = .ok () → Marked st.properties d ∨ Unmarked st.properties ∧ st.rows = []))
      (checkPolicy (st.loaded version) d) past' w := by
  rw [checkPolicy]
  split
  · split
    · exact fun w' hw => ⟨h.grown hw, fun heq => by cases heq⟩
    next hsame =>
      refine fun w' hw => ⟨h.grown hw, fun _ => .inl fun property hproperty => ?_⟩
      by_contra hne
      exact hsame (List.any_eq_true.2 ⟨property, hproperty, decide_eq_true hne⟩)
  next hnone =>
    have hunmarked : Unmarked st.properties := by
      constructor
      · by_contra hsome
        exact hnone (List.any_eq_true.2 ⟨_, List.mem_cons_self, Option.isSome_iff_ne_none.2 hsome⟩)
      · by_contra hsome
        exact hnone (List.any_eq_true.2 ⟨_, List.mem_cons_of_mem _ List.mem_cons_self,
          Option.isSome_iff_ne_none.2 hsome⟩)
    split
    · refine keeps_scan h fun past'' w' h' => ?_
      have hscan : ∀ fields, st.scan .alwaysTrue fields (some 1) =
          .ok ((st.rows.map (Row.restrict fields)).take 1) := by
        intro fields
        rw [TableState.scan]
        simp [Filter.columns, Filter.matches_]
      rw [hscan, Program.onOk]
      split
      next hempty =>
        refine fun w'' hw => ⟨h'.grown hw, fun _ => .inr ⟨hunmarked, ?_⟩⟩
        simpa using hempty
      · exact fun w'' hw => ⟨h'.grown hw, fun heq => by cases heq⟩
    next hsnapshot =>
      refine fun w' hw => ⟨h.grown hw, fun _ => .inr ⟨hunmarked, st.snapshot ?_⟩⟩
      exact Bool.eq_false_iff.2 hsnapshot

theorem Found.subset {rows : List Row} {searched searched' : List Identity} {existing : Existing}
    (h : Found policy rows searched existing) (hsub : ∀ key ∈ searched', key ∈ searched) :
    Found policy rows searched' existing :=
  ⟨h.sound, fun row hrow hkey => h.complete row hrow (hsub _ hkey)⟩

theorem keeps_lookupFrom {groups : Groups} {searched : List Identity} {existing : Existing}
    (batches : List (List Identity)) (hbatches : ∀ batch ∈ batches, ∀ key ∈ batch, (groups.get key).isSome)
    (hfound : Found policy st.rows searched existing) (h : OnVersion version st past past' w) :
    KeepsHistory (fun past'' result w' => OnVersion version st past past'' w' ∧ ∀ existing', result = .ok existing' →
          Found policy st.rows (searched ++ batches.flatten) existing')
      (lookupFrom (st.loaded version) policy groups batches existing) past' w := by
  induction batches generalizing searched existing past' w with
  | nil =>
    rw [lookupFrom, List.flatten_nil, List.append_nil]
    refine fun w' hw => ⟨h.grown hw, fun existing' heq => ?_⟩
    cases heq
    exact hfound
  | cons batch batches ih =>
    rw [lookupFrom, List.flatten_cons, ← List.append_assoc]
    refine keeps_scan h fun past'' w' h' => Keeps.onOk ?_ ?_
    · exact fun e _ w'' hw => ⟨h'.grown hw, nofun⟩
    · intro rows hrows
      refine ih (fun other hother => hbatches other (List.mem_cons_of_mem _ hother)) ?_ h'
      have hread : rows = (st.rows.filter (identityFilter policy batch).matches_).map
          (Row.restrict (lookupFields policy (st.loaded version))) := by
        rw [TableState.scan] at hrows
        split at hrows
        · cases hrows
        · cases hrows
          rfl
      rw [hread]
      refine hfound.collect (hbatches batch List.mem_cons_self) fun row hrow name hname => ?_
      exact restrict_lookupFields (st.within row hrow) hname

theorem keeps_lookup {groups : Groups} (h : OnVersion version st past past' w) :
    KeepsHistory (fun past'' result w' => OnVersion version st past past'' w' ∧ ∀ existing, result = .ok existing →
          Found policy st.rows (groups.items.map Prod.fst) existing)
      (lookup (st.loaded version) policy groups) past' w := by
  rw [lookup]
  split
  next hnothing =>
    refine fun w' hw => ⟨h.grown hw, fun existing heq => ?_⟩
    cases heq
    obtain hsnapshot | hnone := hnothing
    · rw [st.snapshot hsnapshot]
      exact ⟨nofun, nofun⟩
    · rw [hnone]
      exact found_empty policy st.rows
  · have hkeys : ∀ batch ∈ lookupBatches (groups.items.map Prod.fst), ∀ key ∈ batch, (groups.get key).isSome := by
      intro batch hbatch key hkey
      have hmem := mem_lookupBatches.2 ⟨batch, hbatch, hkey⟩
      obtain ⟨item, hitem, rfl⟩ := List.mem_map.1 hmem
      rw [OrderedDict.get_eq_some_iff.2 hitem]
      rfl
    have hloop := keeps_lookupFrom _ hkeys (found_empty policy st.rows) h
    refine hloop.mono fun past'' result w' hresult => ⟨hresult.1, fun existing heq => ?_⟩
    refine (hresult.2 existing heq).subset fun key hkey => ?_
    rw [List.nil_append, List.mem_flatten]
    exact mem_lookupBatches.1 hkey

/-- What `_reconcile` reads changes nothing. -/
theorem keeps_reconcile (policy : HistoryPolicy) (rows : List Row) (groups : Groups) :
    KeepsHistory (fun _ _ _ => True) (reconcile policy rows groups) past w := by
  refine keeps_load fun w' hload => ?_
  refine Keeps.bind Grown.refl (?_ : KeepsHistory (fun _ _ _ => True) _ _ w') fun past' outcome v _ => ?_
  · refine Keeps.onOk (fun _ _ _ _ => trivial) fun d _ => ?_
    refine Keeps.bind Grown.refl (keeps_checkPolicy d hload) fun past' checked v hchecked => ?_
    refine Keeps.onOk (fun _ _ _ _ => trivial) fun _ _ => ?_
    refine Keeps.bind Grown.refl (keeps_lookup hchecked.1) fun past'' existing v _ => ?_
    exact Keeps.onOk (fun _ _ _ _ => trivial) fun _ _ _ _ => trivial
  · cases outcome with
    | ok reconciliation => exact fun _ _ => trivial
    | error e => exact fun _ _ => trivial

end

/-! ### What a call answers -/

/-- What a call has done, by its outcome. -/
structure Answered (call : HistoryCall) (past : List HistoryMoment) (outcome : HistoryOutcome)
    (w : HistoryWorld) : Prop where
  /-- every row of the batch is stored, with a payload that `_equal` accepts -/
  stored : ∀ metrics, outcome = .ok metrics → ∀ batch ∈ call.batches, ∀ row ∈ batch.rows,
    ∃ old ∈ w.table.current.rows, call.policy.identity old = call.policy.identity row ∧
      equalItems (call.policy.payload old) (call.policy.payload row) = true
  counted : ∀ metrics, outcome = .ok metrics → metrics.rowsInserted + metrics.rowsSkipped =
    (call.batches.map fun batch => batch.rows.length).sum
  added : ∀ metrics, outcome = .ok metrics → metrics.rowsInserted = addedRows past
  quiet : ∀ metrics, outcome = .error (.conflict metrics) → Quiet past

theorem answered_error {call : HistoryCall} {past : List HistoryMoment} {w : HistoryWorld}
    {e : HistoryError} (h : ∀ metrics, e ≠ .conflict metrics) : Answered call past (.error e) w :=
  ⟨nofun, nofun, nofun, fun metrics heq => absurd (Except.error.inj heq) (h metrics)⟩

/-- What an attempt has found out before it commits. -/
structure Ready (call : HistoryCall) (st : TableState) (staged : Staged) (groups : Groups)
    (existing : Existing) (indices : List ℕ) (metrics : HistoryMetrics) : Prop where
  policy : Marked st.properties staged.definition ∨ Unmarked st.properties ∧ st.rows = []
  identity : staged.definition.identity = call.policy.identity
  within : ∀ row ∈ staged.prepared.aligned.rows, row.restrict
    ((st.columns ++ staged.prepared.added).map fun column => column.field.name) = row
  grouped : Grouped call.policy staged.prepared.aligned.rows groups
  found : Found call.policy st.rows (groups.items.map Prod.fst) existing
  compared : Compared call.policy staged.prepared.aligned.rows groups.items existing indices
    metrics.rowsSkipped
  /-- every row of the batch is one of those compared -/
  batch : ∀ batch ∈ call.batches, ∀ row ∈ batch.rows, ∃ read ∈ staged.prepared.aligned.rows,
    call.policy.identity read = call.policy.identity row ∧ call.policy.payload read = call.policy.payload row
  length : staged.prepared.aligned.rows.length = (call.batches.map fun batch => batch.rows.length).sum

namespace Ready

variable {call : HistoryCall} {st : TableState} {staged : Staged} {groups : Groups}
  {existing : Existing} {indices : List ℕ} {metrics : HistoryMetrics}

theorem appended (h : Ready call st staged groups existing indices metrics) (version : ℕ) :
    (staged.change (st.loaded version) indices).appended st = indices.map (rowAt staged.prepared.aligned.rows) := by
  have hrow : ∀ i, (rowAt staged.prepared.aligned.rows i).restrict
      ((staged.change (st.loaded version) indices).columnNames st) = rowAt staged.prepared.aligned.rows i := by
    intro i
    have hnames : (staged.change (st.loaded version) indices).columnNames st =
        (st.columns ++ staged.prepared.added).map fun column => column.field.name := by
      rw [List.map_append]
      rfl
    rw [hnames]
    cases hi : staged.prepared.aligned.rows[i]? with
    | none =>
      have hnull : rowAt staged.prepared.aligned.rows i = fun _ => .null := by
        rw [rowAt, List.getD_eq_getElem?_getD, hi, Option.getD_none]
      rw [hnull]
      funext name
      rw [Row.restrict]
      split <;> rfl
    | some row =>
      rw [rowAt_eq hi]
      exact h.within row (List.mem_of_getElem? hi)
  show (indices.map (rowAt staged.prepared.aligned.rows)).map _ = _
  rw [List.map_map]
  exact List.map_congr_left fun i _ => hrow i

theorem sound (h : Ready call st staged groups existing indices metrics) (version : ℕ) :
    Sound st (staged.change (st.loaded version) indices) := by
  obtain ⟨hnodup, hcross⟩ := inserted_identities h.grouped h.found h.compared
  refine ⟨staged.definition, ?_, ?_, ?_⟩
  · obtain hmarked | ⟨hunmarked, hempty⟩ := h.policy
    · refine .inl ⟨hmarked, ?_⟩
      have hmark : st.properties.get POLICY_PROPERTY = some _ := hmarked _ List.mem_cons_self
      show (if (st.properties.get POLICY_PROPERTY).isSome then _ else _) = _
      rw [hmark]
      rfl
    · refine .inr ⟨hunmarked, hempty, ?_⟩
      show (if (st.properties.get POLICY_PROPERTY).isSome then _ else _) = _
      rw [hunmarked.1]
      rfl
  · rw [h.appended, h.identity]
    have hpairwise := List.pairwise_map.1 hnodup
    exact List.pairwise_map.2 hpairwise
  · intro old hold new hnew
    rw [h.appended] at hnew
    obtain ⟨i, hi, rfl⟩ := List.mem_map.1 hnew
    rw [h.identity]
    exact hcross i hi old hold

theorem stored (h : Ready call st staged groups existing indices metrics) {rows : List Row}
    (hold : ∀ row ∈ st.rows, row ∈ rows) (hnew : ∀ i ∈ indices, rowAt staged.prepared.aligned.rows i ∈ rows) :
    ∀ batch ∈ call.batches, ∀ row ∈ batch.rows, ∃ old ∈ rows, call.policy.identity old = call.policy.identity row ∧
      equalItems (call.policy.payload old) (call.policy.payload row) = true := by
  intro batch hbatch row hrow
  obtain ⟨read, hread, hidentity, hpayload⟩ := h.batch batch hbatch row hrow
  rw [← hidentity, ← hpayload]
  obtain ⟨old, hmem, hsame, hequal⟩ | ⟨i, hi, hsame, hequal⟩ :=
    covered h.grouped h.found h.compared hread
  · exact ⟨old, hold old hmem, hsame, (equalItems_iff _ _).2 hequal⟩
  · exact ⟨_, hnew i hi, hsame, (equalItems_iff _ _).2 hequal⟩

theorem total (h : Ready call st staged groups existing indices metrics) :
    indices.length + metrics.rowsSkipped = (call.batches.map fun batch => batch.rows.length).sum := by
  have htotal := h.compared.total
  rw [h.grouped.total, h.length] at htotal
  omega

end Ready

/-! ### The guarantee of a call -/

section

variable {call : HistoryCall} {past : List HistoryMoment} {w : HistoryWorld}

theorem keeps_orRaise {α : Type} {x : Except PlainError α} {f : α → Program HistoryOp HistoryOutcome}
    (hok : ∀ a, x = .ok a → KeepsHistory (Answered call) (f a) past w) :
    KeepsHistory (Answered call) (orRaise x f) past w := by
  cases x with
  | error e => exact fun _ _ => answered_error nofun
  | ok a => exact hok a rfl

theorem ready_of_ok {rules : ArrowRules} {version : ℕ} {st : TableState} {additions : List Field} {staged : Staged}
    {existing : Existing} {compared : List ℕ × HistoryMetrics} (hsource : Source call source)
    (hstaged : stage rules call source (st.loaded version) additions = .ok staged)
    (hpolicy : Marked st.properties staged.definition ∨ Unmarked st.properties ∧ st.rows = [])
    (hfound : Found call.policy st.rows ((groupRows call.policy staged.prepared.aligned.rows).items.map Prod.fst) existing)
    (hcompared : compare call.policy staged.prepared.aligned.rows (groupRows call.policy staged.prepared.aligned.rows).items existing = .ok compared) :
    Ready call st staged (groupRows call.policy staged.prepared.aligned.rows) existing compared.1
      compared.2 ∧ compared.2.rowsInserted = 0 := by
  obtain ⟨hlength, hread, hwithin, hidentity⟩ := staged_rows hsource hstaged
  have hgrouped := grouped_groupRows call.policy staged.prepared.aligned.rows
  obtain ⟨hcomparison, hinserted⟩ := compared_of_ok (fun group hgroup =>
    (hgrouped.members group.1 group.2 (OrderedDict.get_eq_some_iff.2 hgroup)).1) hcompared
  refine ⟨⟨hpolicy, hidentity, hwithin, hgrouped, hfound, hcomparison, ?_, ?_⟩, hinserted⟩
  · intro batch hbatch row hrow
    obtain ⟨read, hmem, hsame⟩ := hsource.rows batch hbatch row hrow
    obtain ⟨aligned, hmem', hsame'⟩ := hread read hmem
    exact ⟨aligned, hmem', policy_congr fun name hname => (hsame' name hname).trans (hsame name hname)⟩
  · rw [hlength, hsource.length]

theorem answered_of_isEmpty {st : TableState} {staged : Staged} {groups : Groups}
    {existing : Existing} {indices : List ℕ} {metrics : HistoryMetrics}
    (h : Ready call st staged groups existing indices metrics) (hempty : indices.isEmpty = true)
    (hinserted : metrics.rowsInserted = 0) (hquiet : Quiet past)
    (hrows : st.rows <+: w.table.current.rows) : Answered call past (.ok metrics) w where
  stored metrics' heq := by
    refine h.stored (fun row hrow => hrows.subset hrow) fun i hi => ?_
    rw [List.isEmpty_iff.1 hempty] at hi
    cases hi
  counted metrics' heq := by
    cases heq
    have htotal := h.total
    rw [List.isEmpty_iff.1 hempty, List.length_nil] at htotal
    omega
  added metrics' heq := by
    cases heq
    rw [hinserted, addedRows_of_quiet hquiet]
  quiet := nofun

theorem answered_of_committed {version : ℕ} {st : TableState} {staged : Staged} {groups : Groups}
    {existing : Existing} {indices : List ℕ} {metrics : HistoryMetrics} {landed : HistoryWorld}
    (h : Ready call st staged groups existing indices metrics) (hquiet : Quiet past) (hpinned : Pinned version st w)
    (hcommit : w.commit version (staged.change (st.loaded version) indices) = (landed, .committed))
    (hw : Grown landed w') : Answered call (⟨.commit version (staged.change (st.loaded version) indices), w⟩ :: past)
      (.ok { metrics with rowsInserted := indices.length }) w' := by
  obtain ⟨hhead, -, htable⟩ | ⟨hne, -⟩ := commit_cases hcommit
  · have hcurrent : w.table.current = st := Versions.current_of_at_head hpinned.at_ hhead
    have hrows : landed.table.current.rows = st.rows ++ indices.map (rowAt staged.prepared.aligned.rows) := by
      rw [htable, Versions.current_publish, hcurrent, ← h.appended version]
      rfl
    have hmem : ∀ row ∈ st.rows ++ indices.map (rowAt staged.prepared.aligned.rows), row ∈ w'.table.current.rows := by
      intro row hrow
      rw [← hrows] at hrow
      exact hw.2.subset hrow
    refine ⟨fun metrics' heq => ?_, fun metrics' heq => ?_, fun metrics' heq => ?_, nofun⟩
    · exact h.stored (fun row hrow => hmem row (List.mem_append_left _ hrow)) fun i hi =>
        hmem _ (List.mem_append_right _ (List.mem_map_of_mem hi))
    · cases heq
      exact h.total
    · cases heq
      have hadded : rowsAdded ⟨.commit version (staged.change (st.loaded version) indices), w⟩ = indices.length := by
        show (w.commit version (staged.change (st.loaded version) indices)).1.table.current.rows.length -
          w.table.current.rows.length = _
        rw [hcommit, hrows, hcurrent, List.length_append, List.length_map]
        omega
      show indices.length = rowsAdded _ + addedRows past
      rw [hadded, addedRows_of_quiet hquiet, Nat.add_zero]
  · exact absurd rfl hne

theorem keeps_attempts {rules : ArrowRules} (hsource : Source call source) (left : ℕ) (additions : List Field)
    (hquiet : Quiet past) : KeepsHistory (Answered call) (attempts rules call source left additions) past w := by
  induction left generalizing additions past w with
  | zero => exact fun _ _ => answered_error nofun
  | succ left ih =>
    refine keeps_load fun w₁ hload => ?_
    refine keeps_orRaise fun staged hstaged => ?_
    refine Keeps.bind Grown.refl (keeps_checkPolicy staged.definition hload) fun past₂ checked w₂ h₂ => ?_
    refine keeps_orRaise fun _ hchecked => ?_
    refine keeps_orRaise fun groups hgroups => ?_
    obtain ⟨rfl, -⟩ := incoming_eq_ok hgroups
    refine Keeps.bind Grown.refl (keeps_lookup h₂.1) fun past₃ found w₃ h₃ => ?_
    refine keeps_orRaise fun existing hexisting => ?_
    have hquiet₃ : Quiet past₃ := h₃.1.quiet hquiet
    refine Keeps.onOk (fun e _ w' _ => ⟨nofun, nofun, nofun, fun _ _ => hquiet₃⟩) fun compared hcompared => ?_
    have hready := ready_of_ok hsource hstaged (h₂.2 hchecked) (h₃.2 existing hexisting) hcompared
    split
    next hempty =>
      exact fun w' hw => answered_of_isEmpty hready.1 hempty hready.2 hquiet₃ (h₃.1.pinned.grown hw).rows
    next =>
      refine keeps_commit h₃.1.pinned (hready.1.sound w₁.table.head) fun w₄ w₅ answer hcommit hpinned => ?_
      cases answer with
      | committed =>
        exact fun w' hw => answered_of_committed hready.1 hquiet₃ hpinned hcommit hw
      | failed =>
        show KeepsHistory _ (if left = 0 then _ else _) _ w₅
        split
        · exact fun _ _ => answered_error nofun
        · refine ih _ (hquiet₃.cons ?_)
          obtain ⟨-, hanswer, -⟩ | ⟨-, htable⟩ := commit_cases hcommit
          · exact absurd rfl hanswer
          · exact (congrArg (fun result => result.1.table) hcommit).trans htable
      | unknown =>
        refine Keeps.bind Grown.refl (keeps_reconcile _ _ _) fun past' reconciliation w' _ => ?_
        exact fun _ _ => answered_error nofun

theorem keeps_historyToTable (rules : ArrowRules) (call : HistoryCall) (w : HistoryWorld) :
    KeepsHistory (Answered call) (historyToTable rules call) [] w := by
  refine keeps_orRaise fun source hsource => keeps_attempts (source_of_ok hsource) 3 [] ?_
  exact fun m hm => absurd hm List.not_mem_nil

end

/-! ### All runs -/

/-- A call of `history_to_table`, which answers with what it was called with. -/
def historyCall (rules : ArrowRules) (call : HistoryCall) : Program HistoryOp (HistoryCall × HistoryOutcome) := do
  let outcome ← historyToTable rules call
  pure (call, outcome)

def IsHistoryCall (rules : ArrowRules) (p : Program HistoryOp (HistoryCall × HistoryOutcome)) : Prop :=
  ∃ call, p = historyCall rules call

/-- The state changes by the operations of calls only. -/
def NoDrift (w w' : HistoryWorld) : Prop := w' = w

abbrev HistoryNetwork (ι : Type) := Network ι HistoryOp HistoryWorld (HistoryCall × HistoryOutcome)

def CallAnswered (past : List HistoryMoment) (answer : HistoryCall × HistoryOutcome) (w : HistoryWorld) : Prop :=
  Answered answer.1 past answer.2 w

theorem keeps_historyCall (rules : ArrowRules) (call : HistoryCall) (w : HistoryWorld) :
    KeepsHistory CallAnswered (historyCall rules call) [] w := by
  refine Keeps.bind Grown.refl (keeps_historyToTable rules call w) fun past outcome w' h w'' hw => ?_
  refine ⟨fun metrics heq batch hbatch row hrow => ?_, h.counted, h.added, h.quiet⟩
  obtain ⟨old, hold, hsame⟩ := h.stored metrics heq batch hbatch row hrow
  exact ⟨old, hw.2.subset hold, hsame⟩

section

variable {ι : Type} [DecidableEq ι] {rules : ArrowRules} {w₀ : HistoryWorld} {n : HistoryNetwork ι}

theorem historyGuarded (h : Network.Reachable historySemantics (IsHistoryCall rules) NoDrift w₀ n) :
    Guarded historySemantics Grown HistoryGuarantee CallAnswered w₀ n := by
  refine guarded_of_reachable Grown.refl Grown.trans (fun past m _ => grown_moment m) ?_ ?_ h
  · rintro w w' rfl
    exact Grown.refl w'
  · rintro p ⟨call, rfl⟩ w -
    exact keeps_historyCall rules call w

theorem uniqueVersions_of_reachable (hunique : UniqueVersions w₀.table.current)
    (h : Network.Reachable historySemantics (IsHistoryCall rules) NoDrift w₀ n) :
    UniqueVersions n.shared.table.current := by
  have hdrift : ∀ (w w' : HistoryWorld) (_ : List (Entry ι HistoryOp HistoryWorld)), NoDrift w w' →
      UniqueVersions w.table.current → UniqueVersions w'.table.current := by
    rintro w w' l rfl hw
    exact hw
  exact trace_inv (fun n hn => historyGuarded hn) Grown.refl hunique hdrift
    (fun l e hg hw => uniqueVersions_moment hg hw) h

theorem grown_of_steps {n' : HistoryNetwork ι}
    (h : Relation.ReflTransGen (Network.Step historySemantics (IsHistoryCall rules) NoDrift) n n') :
    Grown n.shared n'.shared := by
  induction h with
  | refl => exact Grown.refl _
  | tail _ hstep ih =>
    refine Grown.trans _ _ _ ih ?_
    cases hstep with
    | start i p hp => exact Grown.refl _
    | operate i op rest past hi => exact grown_moment ⟨op, _⟩
    | drift s hs => exact grown_of_table_eq (congrArg HistoryWorld.table hs)

end

/-- **History is append-only.** -/
theorem history_append_only {ι : Type} [DecidableEq ι] (rules : ArrowRules) (w₀ : HistoryWorld)
    (hunique : UniqueVersions w₀.table.current) {n : HistoryNetwork ι}
    (h : Network.Reachable historySemantics (IsHistoryCall rules) NoDrift w₀ n) :
    UniqueVersions n.shared.table.current ∧
      (∀ n', Relation.ReflTransGen (Network.Step historySemantics (IsHistoryCall rules) NoDrift) n n' →
        n.shared.table.current.rows <+: n'.shared.table.current.rows) ∧
      ∀ i call outcome past, n.threads i = some ⟨.done (call, outcome), past⟩ →
        Answered call past outcome n.shared := by
  refine ⟨uniqueVersions_of_reachable hunique h, fun n' hn' => (grown_of_steps hn').2, ?_⟩
  intro i call outcome past hi
  exact (historyGuarded h).result Grown.refl hi

/-! ### An order is written -/

/-- Casts succeed, and columns are read back as they were added. -/
def plainRules : ArrowRules := ⟨fun _ _ _ => none, fun _ => "", id⟩

def ordersPolicy : HistoryPolicy where
  entityKey := "order"
  versionKey := "revision"
  payloadColumns := some ["status"]

def ordersFields : List Field :=
  [⟨"order", .string, true⟩, ⟨"revision", .int true 64, true⟩, ⟨"status", .string, true⟩]

def placedOrder : Row
  | "order" => .scalar (.text "o-1")
  | "revision" => .scalar (.number 1)
  | "status" => .scalar (.text "placed")
  | _ => .null

/-- The same row twice. -/
def ordersCall : HistoryCall where
  tableName := "orders"
  batches := [⟨ordersFields, [placedOrder]⟩, ⟨ordersFields, [placedOrder]⟩]
  policy := ordersPolicy

def ordersTable : TableState where
  columns := ordersFields.mapIdx fun i field => ⟨i + 1, field⟩
  lastColumnId := 3
  properties := OrderedDict.empty
  hasSnapshot := false
  rows := []
  within _ hrow := absurd hrow List.not_mem_nil
  snapshot _ := rfl

def ordersWorld : HistoryWorld := ⟨⟨ordersTable, []⟩, []⟩

/-- One client has called, loaded the table and committed. -/
def ordersNetwork : HistoryNetwork Unit :=
  [(), ()].foldl (Network.tick historySemantics)
    ((Network.idle ordersWorld).call () (historyCall plainRules ordersCall))

theorem history_append_only_orders : UniqueVersions ordersNetwork.shared.table.current ∧
    ordersNetwork.shared.table.current.rows.length = 1 ∧
    ∃ past, Answered ordersCall past (.ok ⟨1, 0, 1, 0⟩) ordersNetwork.shared := by
  have hreachable : Network.Reachable historySemantics (IsHistoryCall plainRules) NoDrift ordersWorld
      ordersNetwork := (Network.Reachable.init.call () ⟨ordersCall, rfl⟩).schedule [(), ()]
  obtain ⟨hunique, -, hanswered⟩ := history_append_only plainRules ordersWorld (.inl rfl) hreachable
  exact ⟨hunique, rfl, _, hanswered () ordersCall _ _ rfl⟩

end Phlo.Iceberg
