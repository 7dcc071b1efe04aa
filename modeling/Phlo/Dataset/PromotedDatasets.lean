import Phlo.Dataset.Lifecycle
import Phlo.Dataset.Migration
import Phlo.Library.Fallible

/-!
# A promoted candidate and its Dataset

A promotion writes the candidate and its Dataset in one batch, and a plan imports the Dataset of every
promoted candidate, unless the `datasets` section has a record under the same table key that is rejected:
the candidate is then popped, and the rejected entry stands in the place of its Dataset.
-/

namespace Phlo.Dataset

open Phlo.Library Phlo.Library.Program
open Phlo.RunEvidence (Dict Json)

/-! ### Entries of the two sections -/

/-- An entry stands under the id of a candidate, and if it has a record, that is of the candidate. -/
structure CandidateResult (table : TableKey) (entry : MigrationEntry) : Prop where
  recordId : entry.recordId = (DatasetId.candidate table).text
  record : ∀ record, entry.record = some record → ∃ c, record = .candidate c ∧ c.tableId = table

theorem candidateResult_reject (table : TableKey) (reason : String) :
    CandidateResult table (rejectEntry (DatasetId.candidate table).text reason) :=
  ⟨rfl, fun _ h => by cases h⟩

variable {table : TableKey} {c : CandidateRecord} {results : OrderedDict String MigrationEntry}
  {payload : LegacyPayload} {plan : MigrationPlan} {sourceDigest : String} {ws : List StoreWrite}

theorem candidateResult_import (c : CandidateRecord) (hc : c.tableId = table) :
    CandidateResult table (importEntry (DatasetId.candidate table).text (.candidate c)) := by
  refine ⟨rfl, fun record h => ?_⟩
  cases h
  exact ⟨c, rfl, hc⟩

theorem candidateResult_promotedCandidateEntry (table : TableKey) (record : Dict)
    (owner approvalState : Option String) (legacy : Option Dict) :
    CandidateResult table (promotedCandidateEntry table record owner approvalState legacy) := by
  unfold promotedCandidateEntry
  dsimp only
  split
  · exact candidateResult_reject table _
  · exact candidateResult_import _ rfl

theorem candidateResult_candidateEntry (table : TableKey) (record : Dict) :
    CandidateResult table (candidateEntry table record) := by
  unfold candidateEntry
  dsimp only
  split
  · exact candidateResult_reject table _
  · exact candidateResult_promotedCandidateEntry table record _ _ _
  · exact candidateResult_import _ rfl

/-- What is found under a key of the candidates: a rejection of the key, or the entry of a candidate. -/
theorem candidateItem_cases (item : LegacyKey × Json) : ((candidateItem item).2.recordId = (candidateItem item).1 ∧
      (candidateItem item).2.imported = false ∧ (candidateItem item).2.record = none) ∨
    ∃ table, (candidateItem item).1 = table.name ∧ CandidateResult table (candidateItem item).2 := by
  unfold candidateItem
  cases htable : item.1.table? with
  | none => exact Or.inl ⟨rfl, rfl, rfl⟩
  | some table =>
    refine Or.inr ⟨table, ?_⟩
    dsimp only
    split
    · exact ⟨rfl, candidateResult_candidateEntry table _⟩
    · exact ⟨rfl, candidateResult_reject table _⟩

theorem datasetItem_cases (item : LegacyKey × Json) :
    ((datasetItem item).2.imported = false ∧ (datasetItem item).2.record = none) ∨
    ∃ d : DatasetRecord, (datasetItem item).1 = d.tableId.name ∧ (datasetItem item).2.imported = true ∧
      (datasetItem item).2.record = some (.dataset d) := by
  unfold datasetItem
  cases htable : item.1.table? with
  | none => exact Or.inl ⟨rfl, rfl⟩
  | some table =>
    dsimp only
    split
    · exact Or.inl ⟨rfl, rfl⟩
    · split
      · exact Or.inr ⟨_, rfl, rfl, rfl⟩
      · exact Or.inl ⟨rfl, rfl⟩

abbrev candidateResults (candidates : LegacyItems) : OrderedDict String MigrationEntry :=
  .ofList (candidateEntries candidates)

abbrev datasetResults (datasets : LegacyItems) : OrderedDict String MigrationEntry :=
  .ofList (datasetEntries datasets)

variable {k : String}

theorem mem_ofList {items : List (String × MigrationEntry)} {entry : MigrationEntry}
    (h : (OrderedDict.ofList items).get k = some entry) : (k, entry) ∈ items := by
  rw [OrderedDict.get_ofList] at h
  exact OrderedDict.mem_of_lastOf h

theorem candidateResults_cases {candidates : LegacyItems} {entry : MigrationEntry}
    (h : (candidateResults candidates).get k = some entry) :
    (entry.recordId = k ∧ entry.imported = false ∧ entry.record = none) ∨
      ∃ table, k = table.name ∧ CandidateResult table entry := by
  obtain ⟨item, -, hitem⟩ := List.mem_map.1 (mem_ofList h)
  have hcases := candidateItem_cases item
  rw [hitem] at hcases
  exact hcases

theorem datasetResults_cases {datasets : LegacyItems} {entry : MigrationEntry}
    (h : (datasetResults datasets).get k = some entry) : (entry.imported = false ∧ entry.record = none) ∨
      ∃ d : DatasetRecord, k = d.tableId.name ∧ entry.imported = true ∧ entry.record = some (.dataset d) := by
  obtain ⟨item, -, hitem⟩ := List.mem_map.1 (mem_ofList h)
  have hcases := datasetItem_cases item
  rw [hitem] at hcases
  exact hcases

theorem promotedCandidate_eq_some {entry : MigrationEntry} : entry.promotedCandidate = some c ↔
      entry.imported = true ∧ entry.record = some (.candidate c) ∧ c.state = .promoted := by
  unfold MigrationEntry.promotedCandidate
  constructor
  · intro h
    split at h
    next record himported hrecord =>
      split at h
      next hstate =>
        cases h
        exact ⟨himported, hrecord, hstate⟩
      · cases h
    · cases h
  · intro h
    rw [h.1, h.2.1]
    exact if_pos h.2.2

/-! ### The entries of a plan -/

theorem foldl_mergeRound {items : List (String × MigrationEntry)} (hnodup : (items.map Prod.fst).Nodup)
    (s : OrderedDict String MigrationEntry × OrderedDict String CandidateRecord) (id : String) :
    (items.foldl mergeRound s).1.get id =
        ((OrderedDict.lastOf id items).map (mergePromotedSources id (s.2.get id))).or (s.1.get id) ∧
      (items.foldl mergeRound s).2.get id = if (OrderedDict.lastOf id items).isSome then none else s.2.get id := by
  induction items generalizing s with
  | nil => exact ⟨rfl, rfl⟩
  | cons item items ih =>
    rw [List.map_cons, List.nodup_cons] at hnodup
    obtain ⟨hentries, hleft⟩ := ih hnodup.2 (mergeRound s item)
    rw [List.foldl_cons, hentries, hleft, mergeRound, OrderedDict.lastOf_cons]
    dsimp only
    rw [OrderedDict.get_set, OrderedDict.get_erase]
    by_cases hid : id = item.1
    · subst hid
      have hnone : OrderedDict.lastOf item.1 items = none :=
        OrderedDict.lastOf_eq_none_iff.2 fun a ha =>
          hnodup.1 (List.mem_map.2 ⟨(item.1, a), ha, rfl⟩)
      rw [hnone, if_pos rfl, if_pos rfl, if_pos rfl]
      exact ⟨rfl, rfl⟩
    · rw [if_neg hid, if_neg hid, if_neg hid, Option.or_none]
      exact ⟨rfl, rfl⟩

abbrev byRecordId (results : OrderedDict String MigrationEntry) : List (String × MigrationEntry) :=
  results.values.map fun entry => (entry.recordId, entry)

theorem planEntries_get {candidates datasets entries : OrderedDict String MigrationEntry}
    (h : planEntries candidates datasets = .ok entries) : ∃ promoted : List (String × MigrationEntry),
      (∀ id, entries.get id = (OrderedDict.lastOf id (byRecordId candidates)).or ((OrderedDict.lastOf id promoted).or
          ((datasets.get id).map (mergePromotedSources id ((promotedCandidates candidates).get id))))) ∧
      (∀ id c, datasets.get id = none → (promotedCandidates candidates).get id = some c →
        ∃ entry, (id, entry) ∈ promoted) ∧ ∀ id entry, (id, entry) ∈ promoted → datasets.get id = none ∧
        ∃ c, (promotedCandidates candidates).get id = some c ∧ promotedEntry id c = .ok entry := by
  obtain ⟨promoted, hpromoted, hentries⟩ := bind_eq_ok.1 h
  cases hentries
  have hloop := foldl_mergeRound datasets.nodup (.empty, promotedCandidates candidates)
  have hleft : ∀ id, (datasets.items.foldl mergeRound
      (.empty, promotedCandidates candidates)).2.get id =
      if (datasets.get id).isSome then none else (promotedCandidates candidates).get id := by
    intro id
    rw [(hloop id).2, OrderedDict.lastOf_items]
  obtain ⟨hto, hfrom⟩ := mem_of_mapM_eq_ok hpromoted
  refine ⟨promoted, fun id => ?_, fun id c hdatasets hc => ?_, fun id entry hentry => ?_⟩
  · rw [OrderedDict.get_setAll, OrderedDict.get_setAll, (hloop id).1, OrderedDict.lastOf_items,
      OrderedDict.get_empty, Option.or_none]
  · have hget := hleft id
    rw [hdatasets, hc] at hget
    obtain ⟨item, hitem, hok⟩ := hto _ (OrderedDict.get_eq_some_iff.1 hget)
    obtain ⟨entry, -, hpair⟩ := bind_eq_ok.1 hok
    cases hpair
    exact ⟨entry, hitem⟩
  · obtain ⟨item, hitem, hok⟩ := hfrom _ hentry
    obtain ⟨entry', hentry', hpair⟩ := bind_eq_ok.1 hok
    cases hpair
    have hget := OrderedDict.get_eq_some_iff.2 hitem
    rw [hleft] at hget
    split at hget
    · cases hget
    next hnone => exact ⟨Option.not_isSome_iff_eq_none.1 hnone, item.2, hget, hentry'⟩

def ImportsDataset (table : TableKey) (entry : MigrationEntry) : Prop :=
  entry.imported = true ∧ ∃ d : DatasetRecord, entry.record = some (.dataset d) ∧ d.tableId = table

theorem ImportsDataset.not_candidate {entry : MigrationEntry} (h : ImportsDataset table entry) (c : CandidateRecord) :
    entry.record ≠ some (.candidate c) := by
  obtain ⟨-, d, hrecord, -⟩ := h
  rw [hrecord]
  intro heq
  cases heq

theorem importsDataset_promotedEntry {id : String} {entry : MigrationEntry} (h : promotedEntry id c = .ok entry) :
    ImportsDataset c.tableId entry := by
  unfold promotedEntry at h
  dsimp only at h
  split at h
  · cases h
  · cases h
    exact ⟨rfl, _, rfl, rfl⟩

theorem mergePromotedSources_cases {datasets : LegacyItems} {id : String} {entry : MigrationEntry}
    (h : (datasetResults datasets).get id = some entry) (candidate : Option CandidateRecord) :
    (entry.imported = false ∧ mergePromotedSources id candidate entry = entry ∧ entry.record = none) ∨
    ∃ table : TableKey, id = table.name ∧ entry.imported = true ∧
      ImportsDataset table (mergePromotedSources id candidate entry) := by
  obtain ⟨himported, hrecord⟩ | ⟨d, hid, himported, hrecord⟩ := datasetResults_cases h
  · refine Or.inl ⟨himported, ?_, hrecord⟩
    unfold mergePromotedSources
    rw [himported]
    rfl
  · refine Or.inr ⟨d.tableId, hid, himported, ?_⟩
    unfold mergePromotedSources
    rw [if_pos himported, hrecord]
    cases candidate with
    | none => exact ⟨himported, d, hrecord, rfl⟩
    | some c => exact ⟨rfl, _, rfl, rfl⟩

theorem promotedCandidates_get {id : String} (h : (promotedCandidates results).get id = some c) :
    c.tableId.name = id := by
  rw [promotedCandidates, OrderedDict.get_ofList] at h
  obtain ⟨c', -, hpair⟩ := List.mem_map.1 (OrderedDict.mem_of_lastOf h)
  cases hpair
  rfl

theorem exists_promotedCandidates_get {entry : MigrationEntry} (hentry : entry ∈ results.values)
    (hc : entry.promotedCandidate = some c) : ∃ c', (promotedCandidates results).get c.tableId.name = some c' := by
  refine Option.ne_none_iff_exists'.1 fun hnone => ?_
  rw [promotedCandidates, OrderedDict.get_ofList, OrderedDict.lastOf_eq_none_iff] at hnone
  exact hnone c (List.mem_map.2 ⟨c, List.mem_filterMap.2 ⟨entry, hentry, hc⟩, rfl⟩)

/-! ### Pairs of a plan -/

def Paired (records : List DatasetStateRecord) : Prop :=
  ∀ c, .candidate c ∈ records → c.state = .promoted →
    ∃ d, .dataset d ∈ records ∧ d.tableId = c.tableId

def Promotes (candidates : LegacyItems) (table : TableKey) : Prop :=
  ∃ entry c, OrderedDict.lastOf (DatasetId.candidate table).text
      (byRecordId (candidateResults candidates)) = some entry ∧
    entry.promotedCandidate = some c

def Rejects (datasets : LegacyItems) (table : TableKey) : Prop :=
  ∃ entry, (datasetResults datasets).get table.name = some entry ∧ entry.imported = false

section

variable {candidates datasets : LegacyItems} {entries : OrderedDict String MigrationEntry}
  {id : String} {entry : MigrationEntry}

theorem mem_values_of_lastOf (h : OrderedDict.lastOf id (byRecordId results) = some entry) :
    entry ∈ results.values ∧ entry.recordId = id := by
  obtain ⟨entry', hentry', hpair⟩ := List.mem_map.1 (OrderedDict.mem_of_lastOf h)
  cases hpair
  exact ⟨hentry', rfl⟩

theorem rejected_of_lastOf
    (h : OrderedDict.lastOf table.name (byRecordId (candidateResults candidates)) = some entry) :
    (candidateResults candidates).get table.name = some entry ∧ entry.imported = false := by
  obtain ⟨hmem, hid⟩ := mem_values_of_lastOf h
  obtain ⟨k, hk⟩ := OrderedDict.mem_values.1 hmem
  obtain ⟨hrecordId, himported, -⟩ | ⟨table', -, hresult⟩ := candidateResults_cases hk
  · rw [hrecordId] at hid
    rw [← hid]
    exact ⟨hk, himported⟩
  · have htext : (DatasetId.candidate table').text = (DatasetId.promoted table).text :=
      hresult.recordId.symm.trans hid
    cases text_injective htext

theorem lastOf_of_candidate (h : planEntries (candidateResults candidates) (datasetResults datasets) = .ok entries)
    (hentry : entries.get id = some entry) (hrecord : entry.record = some (.candidate c)) :
    OrderedDict.lastOf id (byRecordId (candidateResults candidates)) = some entry := by
  obtain ⟨promoted, hget, -, hpromoted⟩ := planEntries_get h
  rw [hget] at hentry
  obtain hlast | ⟨-, hother⟩ := Option.or_eq_some_iff.1 hentry
  · exact hlast
  · obtain hlast | ⟨-, hmerged⟩ := Option.or_eq_some_iff.1 hother
    · obtain ⟨-, c', -, hok⟩ := hpromoted id entry (OrderedDict.mem_of_lastOf hlast)
      exact absurd hrecord ((importsDataset_promotedEntry hok).not_candidate c)
    · obtain ⟨de, hde, rfl⟩ := Option.map_eq_some_iff.1 hmerged
      obtain ⟨-, hsame, hnone⟩ | ⟨table, -, -, himports⟩ := mergePromotedSources_cases hde
        ((promotedCandidates (candidateResults candidates)).get id)
      · rw [hsame, hnone] at hrecord
        cases hrecord
      · exact absurd hrecord (himports.not_candidate c)

theorem name_of_dataset (h : planEntries (candidateResults candidates) (datasetResults datasets) = .ok entries)
    (hentry : entries.get id = some entry) {d : DatasetRecord} (hrecord : entry.record = some (.dataset d)) :
    d.tableId.name = id ∧ ¬ Rejects datasets d.tableId := by
  obtain ⟨promoted, hget, -, hpromoted⟩ := planEntries_get h
  rw [hget] at hentry
  obtain hlast | ⟨-, hother⟩ := Option.or_eq_some_iff.1 hentry
  · obtain ⟨k, hk⟩ := OrderedDict.mem_values.1 (mem_values_of_lastOf hlast).1
    obtain ⟨-, -, hnone⟩ | ⟨table, -, hresult⟩ := candidateResults_cases hk
    · rw [hnone] at hrecord
      cases hrecord
    · obtain ⟨c, hc, -⟩ := hresult.record _ hrecord
      cases hc
  · obtain hlast | ⟨-, hmerged⟩ := Option.or_eq_some_iff.1 hother
    · obtain ⟨hnone, c, hc, hok⟩ := hpromoted id entry (OrderedDict.mem_of_lastOf hlast)
      obtain ⟨-, d', hrecord', htable⟩ := importsDataset_promotedEntry hok
      rw [hrecord] at hrecord'
      cases hrecord'
      have hname : d.tableId.name = id := by rw [htable, promotedCandidates_get hc]
      refine ⟨hname, fun hrejects => ?_⟩
      obtain ⟨de, hde, -⟩ := hrejects
      rw [hname, hnone] at hde
      cases hde
    · obtain ⟨de', hde', rfl⟩ := Option.map_eq_some_iff.1 hmerged
      obtain ⟨-, hsame, hnone⟩ | ⟨table, hid, himported, -, d', hrecord', htable⟩ :=
        mergePromotedSources_cases hde'
          ((promotedCandidates (candidateResults candidates)).get id)
      · rw [hsame, hnone] at hrecord
        cases hrecord
      · rw [hrecord] at hrecord'
        cases hrecord'
        have hname : d.tableId.name = id := by rw [htable, hid]
        refine ⟨hname, fun hrejects => ?_⟩
        obtain ⟨de, hde, hrejected⟩ := hrejects
        rw [hname, hde'] at hde
        cases hde
        rw [himported] at hrejected
        cases hrejected

theorem dataset_of_promoted (h : planEntries (candidateResults candidates) (datasetResults datasets) = .ok entries)
    (hk : (candidateResults candidates).get k = some entry) (hc : entry.promotedCandidate = some c)
    (haccepted : ¬ Rejects datasets c.tableId) :
    ∃ found, entries.get c.tableId.name = some found ∧ ImportsDataset c.tableId found := by
  obtain ⟨himported, hrecord, -⟩ := promotedCandidate_eq_some.1 hc
  obtain ⟨promoted, hget, hto, hpromoted⟩ := planEntries_get h
  have hkey : (candidateResults candidates).get c.tableId.name = some entry := by
    obtain ⟨-, hrejected, -⟩ | ⟨table, rfl, hresult⟩ := candidateResults_cases hk
    · rw [himported] at hrejected
      cases hrejected
    · obtain ⟨c', hc', rfl⟩ := hresult.record _ hrecord
      cases hc'
      exact hk
  have hnone : OrderedDict.lastOf c.tableId.name (byRecordId (candidateResults candidates)) = none := by
    refine Option.eq_none_iff_forall_ne_some.2 fun other hother => ?_
    obtain ⟨hsame, hrejected⟩ := rejected_of_lastOf hother
    rw [hkey] at hsame
    cases hsame
    rw [himported] at hrejected
    cases hrejected
  obtain ⟨c', hc'⟩ := exists_promotedCandidates_get (OrderedDict.mem_values.2 ⟨k, hk⟩) hc
  rw [hget, hnone, Option.none_or]
  cases hdataset : (datasetResults datasets).get c.tableId.name with
  | none =>
    obtain ⟨first, hfirst⟩ := hto _ _ hdataset hc'
    cases hlast : OrderedDict.lastOf c.tableId.name promoted with
    | none => exact absurd hfirst (OrderedDict.lastOf_eq_none_iff.1 hlast first)
    | some found =>
      refine ⟨found, rfl, ?_⟩
      obtain ⟨-, c'', hc'', hok⟩ := hpromoted _ _ (OrderedDict.mem_of_lastOf hlast)
      obtain ⟨himports, d, hd, htable⟩ := importsDataset_promotedEntry hok
      refine ⟨himports, d, hd, ?_⟩
      have hname : c''.tableId.name = c.tableId.name := promotedCandidates_get hc''
      rw [htable]
      exact TableKey.ext hname
  | some de =>
    have hlast : OrderedDict.lastOf c.tableId.name promoted = none := by
      refine OrderedDict.lastOf_eq_none_iff.2 fun found hfound => ?_
      rw [(hpromoted _ _ hfound).1] at hdataset
      cases hdataset
    rw [hlast, Option.none_or]
    refine ⟨_, rfl, ?_⟩
    obtain ⟨hrejected, -, -⟩ | ⟨table, hid, -, himports⟩ := mergePromotedSources_cases hdataset
      ((promotedCandidates (candidateResults candidates)).get c.tableId.name)
    · exact absurd ⟨de, hdataset, hrejected⟩ haccepted
    · obtain rfl := TableKey.ext hid
      exact himports

end

def Section.items : Section → LegacyItems
  | .mapping items => items
  | _ => []

theorem planMigration_entries (h : planMigration (some payload) sourceDigest = .ok plan) :
    ∃ entries, planEntries (candidateResults payload.candidates.items)
        (datasetResults payload.datasets.items) = .ok entries ∧
      plan.entries = (sortBy Prod.fst entries.items).map Prod.snd := by
  simp only [planMigration] at h
  obtain ⟨-, -, hsections⟩ := bind_eq_ok.1 h
  obtain ⟨datasets, hdatasets, hrest⟩ := bind_eq_ok.1 hsections
  obtain ⟨candidates, hcandidates, hconfig⟩ := bind_eq_ok.1 hrest
  obtain ⟨config, -, hplanned⟩ := bind_eq_ok.1 hconfig
  obtain ⟨entries, hentries, hplan⟩ := bind_eq_ok.1 hplanned
  have hitems : ∀ (name : String) (s : Section) items, sectionItems name s = .ok items → items = s.items := by
    intro name s items hs
    cases s with
    | malformed => cases hs
    | _ =>
      cases hs
      rfl
  obtain rfl := hitems _ _ _ hdatasets
  obtain rfl := hitems _ _ _ hcandidates
  obtain rfl := Except.ok.inj hplan
  exact ⟨entries, hentries, rfl⟩

theorem planMigration_eq_ok (h : planMigration (some payload) sourceDigest = .ok plan) :
    ∃ entries, planEntries (candidateResults payload.candidates.items)
        (datasetResults payload.datasets.items) = .ok entries ∧
      ∀ record, record ∈ plan.records ↔ ∃ id entry, entries.get id = some entry ∧
        entry.imported = true ∧ entry.record = some record := by
  obtain ⟨entries, hentries, hplan⟩ := planMigration_entries h
  refine ⟨entries, hentries, fun record => ?_⟩
  rw [MigrationPlan.records, hplan, List.mem_filterMap]
  constructor
  · intro hmem
    obtain ⟨entry, hentry, hrecord⟩ := hmem
    obtain ⟨hordered, himported⟩ := List.mem_filter.1 hentry
    obtain ⟨item, hitem, rfl⟩ := List.mem_map.1 hordered
    exact ⟨item.1, item.2, OrderedDict.get_eq_some_iff.2 ((mem_sortBy _ _ _).1 hitem), himported,
      hrecord⟩
  · intro hmem
    obtain ⟨id, entry, hget, himported, hrecord⟩ := hmem
    refine ⟨entry, List.mem_filter.2 ⟨List.mem_map.2 ⟨(id, entry), ?_, rfl⟩, himported⟩, hrecord⟩
    exact (mem_sortBy _ _ _).2 (OrderedDict.get_eq_some_iff.1 hget)

/-- A plan imports the Dataset of every promoted candidate that it imports exactly when no table key names
both a promoted candidate and a rejected record of the datasets section. -/
theorem plan_pairs_iff (h : planMigration (some payload) sourceDigest = .ok plan) : Paired plan.records ↔
      ∀ table, Promotes payload.candidates.items table → ¬ Rejects payload.datasets.items table := by
  obtain ⟨entries, hentries, hrecords⟩ := planMigration_eq_ok h
  constructor
  · intro hpaired table hpromotes
    obtain ⟨entry, c, hlast, hc⟩ := hpromotes
    obtain ⟨himported, hrecord, hstate⟩ := promotedCandidate_eq_some.1 hc
    obtain ⟨hmem, hid⟩ := mem_values_of_lastOf hlast
    obtain ⟨k, hk⟩ := OrderedDict.mem_values.1 hmem
    have hget : entries.get (DatasetId.candidate table).text = some entry := by
      obtain ⟨promoted, hget, -⟩ := planEntries_get hentries
      rw [hget, hlast, Option.some_or]
    obtain ⟨d, hd, htable⟩ :=
      hpaired c ((hrecords _).2 ⟨_, entry, hget, himported, hrecord⟩) hstate
    obtain ⟨id, found, hfound, -, hdataset⟩ := (hrecords _).1 hd
    have haccepted := (name_of_dataset hentries hfound hdataset).2
    obtain ⟨-, hrejected, -⟩ | ⟨table', -, hresult⟩ := candidateResults_cases hk
    · rw [himported] at hrejected
      cases hrejected
    · obtain ⟨c', hc', rfl⟩ := hresult.record _ hrecord
      cases hc'
      have htext : (DatasetId.candidate c.tableId).text = (DatasetId.candidate table).text :=
        hresult.recordId.symm.trans hid
      cases text_injective htext
      rw [← htable]
      exact haccepted
  · intro hconsistent c hc hstate
    obtain ⟨id, entry, hget, himported, hrecord⟩ := (hrecords _).1 hc
    have hlast := lastOf_of_candidate hentries hget hrecord
    obtain ⟨hmem, hid⟩ := mem_values_of_lastOf hlast
    obtain ⟨k, hk⟩ := OrderedDict.mem_values.1 hmem
    have hpromoted := promotedCandidate_eq_some.2 ⟨himported, hrecord, hstate⟩
    have hpromotes : Promotes payload.candidates.items c.tableId := by
      refine ⟨entry, c, ?_, hpromoted⟩
      obtain ⟨-, hrejected, -⟩ | ⟨table', -, hresult⟩ := candidateResults_cases hk
      · rw [himported] at hrejected
        cases hrejected
      · obtain ⟨c', hc', rfl⟩ := hresult.record _ hrecord
        cases hc'
        rw [← hresult.recordId, hid]
        exact hlast
    obtain ⟨found, hfound, himports, d, hd, htable⟩ :=
      dataset_of_promoted hentries hk hpromoted (hconsistent _ hpromotes)
    exact ⟨d, (hrecords _).2 ⟨_, found, hfound, himports, hd⟩, htable⟩

theorem eq_of_planned (h : planMigration (some payload) sourceDigest = .ok plan) {r r' : DatasetStateRecord}
    (hr : r ∈ plan.records) (hr' : r' ∈ plan.records) (hid : r.datasetId.text = r'.datasetId.text) : r = r' := by
  obtain ⟨entries, hentries, hrecords⟩ := planMigration_eq_ok h
  have hkeyed : ∀ id entry record, entries.get id = some entry → entry.record = some record →
      record.datasetId.text = id := by
    intro id entry record hget hrecord
    cases record with
    | candidate c =>
      obtain ⟨hmem, hrecordId⟩ := mem_values_of_lastOf (lastOf_of_candidate hentries hget hrecord)
      obtain ⟨k, hk⟩ := OrderedDict.mem_values.1 hmem
      obtain ⟨-, -, hnone⟩ | ⟨table, -, hresult⟩ := candidateResults_cases hk
      · rw [hnone] at hrecord
        cases hrecord
      · obtain ⟨c', hc', rfl⟩ := hresult.record _ hrecord
        cases hc'
        exact hresult.recordId.symm.trans hrecordId
    | dataset d => exact (name_of_dataset hentries hget hrecord).1
  obtain ⟨id, entry, hget, -, hrecord⟩ := (hrecords r).1 hr
  obtain ⟨id', entry', hget', -, hrecord'⟩ := (hrecords r').1 hr'
  obtain rfl : id = id' := by
    rw [← hkeyed id entry r hget hrecord, hid, hkeyed id' entry' r' hget' hrecord']
  rw [hget] at hget'
  cases hget'
  rw [hrecord] at hrecord'
  cases hrecord'
  rfl

/-! ### The store -/

def HasDatasets (s : Store) : Prop :=
  ∀ k c, s.records k = some (.candidate c) → c.state = .promoted →
    ∃ d, s.records c.tableId.name = some (.dataset d)

def Keyed (s : Store) : Prop := ∀ k record, s.records k = some record → record.datasetId.text = k

theorem isDataset_of_text {record : DatasetStateRecord} (h : record.datasetId.text = table.name) :
    ∃ d, record = .dataset d := by
  cases record with
  | dataset d => exact ⟨d, rfl⟩
  | candidate c =>
    have htext : (DatasetId.candidate c.tableId).text = (DatasetId.promoted table).text := h
    cases text_injective htext

theorem Keyed.foldl_put {s : Store} (h : Keyed s)
    (hws : ∀ write ∈ ws, write.nextRecord.datasetId.text = write.recordId) : Keyed (ws.foldl Store.put s) := by
  intro k record hrecord
  by_cases hk : k ∈ ws.map StoreWrite.recordId
  · obtain ⟨write, hwrite, hid, hstored⟩ := foldl_put_of_mem hk s
    rw [hstored] at hrecord
    cases hrecord
    rw [hws write hwrite, hid]
  · rw [foldl_put_records_of_notMem fun write hwrite heq =>
      hk (List.mem_map.2 ⟨write, hwrite, heq⟩)] at hrecord
    exact h k record hrecord

theorem HasDatasets.foldl_put {s : Store} (h : HasDatasets s)
    (hws : ∀ write ∈ ws, write.nextRecord.datasetId.text = write.recordId)
    (hpaired : Paired (ws.map StoreWrite.nextRecord)) : HasDatasets (ws.foldl Store.put s) := by
  intro k c hc hstate
  by_cases htable : c.tableId.name ∈ ws.map StoreWrite.recordId
  · obtain ⟨write, hwrite, hid, hstored⟩ := foldl_put_of_mem htable s
    obtain ⟨d, hd⟩ := isDataset_of_text ((hws write hwrite).trans hid)
    exact ⟨d, by rw [hstored, hd]⟩
  · have hnot : ∀ write ∈ ws, write.recordId ≠ c.tableId.name := fun write hwrite heq =>
      htable (List.mem_map.2 ⟨write, hwrite, heq⟩)
    rw [foldl_put_records_of_notMem hnot]
    by_cases hk : k ∈ ws.map StoreWrite.recordId
    · obtain ⟨write, hwrite, -, hstored⟩ := foldl_put_of_mem hk s
      rw [hstored] at hc
      have hmem : DatasetStateRecord.candidate c ∈ ws.map StoreWrite.nextRecord :=
        List.mem_map.2 ⟨write, hwrite, Option.some.inj hc⟩
      obtain ⟨d, hd, hsame⟩ := hpaired c hmem hstate
      obtain ⟨write', hwrite', hnext⟩ := List.mem_map.1 hd
      have hid := hws write' hwrite'
      rw [hnext, show (DatasetStateRecord.dataset d).datasetId.text = d.tableId.name from rfl,
        hsame] at hid
      exact absurd hid.symm (hnot write' hwrite')
    · rw [foldl_put_records_of_notMem fun write hwrite heq =>
        hk (List.mem_map.2 ⟨write, hwrite, heq⟩)] at hc
      exact h k c hc hstate

theorem planWrites_keyed {resource : DatasetId} {request : TransitionRequest}
    {record : Option DatasetStateRecord} {policyVersion : String} {batch : WriteBatch}
    (h : planWrites resource request record policyVersion = .ok batch)
    (hrecord : ∀ r, record = some r → r.datasetId.text = resource.text) :
    ∀ write ∈ batch.writes, write.nextRecord.datasetId.text = write.recordId := by
  unfold planWrites at h
  cases resource with
  | candidate table =>
    dsimp only at h
    split at h
    · cases h
    · split at h
      · cases h
        intro write hwrite
        obtain rfl | rfl := List.mem_pair.1 hwrite
        · rfl
        · rfl
      · cases h
        intro write hwrite
        obtain rfl := List.mem_singleton.1 hwrite
        rfl
  | promoted table =>
    dsimp only at h
    split at h
    next toState d htransition =>
      cases h
      intro write hwrite
      obtain rfl := List.mem_singleton.1 hwrite
      exact hrecord (.dataset d) rfl
    all_goals cases h

theorem planWrites_paired {resource : DatasetId} {request : TransitionRequest}
    {record : Option DatasetStateRecord} {policyVersion : String} {batch : WriteBatch}
    (h : planWrites resource request record policyVersion = .ok batch)
    (hkeyed : ∀ write ∈ batch.writes, write.nextRecord.datasetId.text = write.recordId) :
    Paired (batch.writes.map StoreWrite.nextRecord) := by
  intro c hc hstate
  obtain ⟨write, hwrite, hnext⟩ := List.mem_map.1 hc
  obtain ⟨_, state, c', _, _, hother, hstate', rfl⟩ | ⟨table, c', d, rfl, _, _, hd, _, rfl⟩ |
    ⟨_, _, _, _, _, _, rfl⟩ := planWrites_cases h
  · obtain rfl := List.mem_singleton.1 hwrite
    cases hnext
    exact absurd (hstate'.symm.trans hstate) hother
  · obtain rfl | rfl := List.mem_pair.1 hwrite
    · cases hnext
      refine ⟨d, List.mem_map.2 ⟨_, List.mem_cons_of_mem _ List.mem_cons_self, rfl⟩, ?_⟩
      have htext : (DatasetId.candidate c.tableId).text = (DatasetId.candidate table).text :=
        hkeyed _ List.mem_cons_self
      rw [hd, DatasetId.candidate.inj (text_injective htext)]
    · cases hnext
  · obtain rfl := List.mem_singleton.1 hwrite
    cases hnext

/-! ### Every network -/

/-- What the theorem carries through a run. -/
structure KeepsDatasets (s : Store) : Prop where
  keyed : Keyed s
  paired : HasDatasets s

theorem KeepsDatasets.of_records {s s' : Store} (h : KeepsDatasets s) (hs : s'.records = s.records) :
    KeepsDatasets s' := by
  refine ⟨fun k record hrecord => ?_, fun k c hc hstate => ?_⟩
  · rw [hs] at hrecord
    exact h.keyed k record hrecord
  · rw [hs] at hc ⊢
    exact h.paired k c hc hstate

theorem KeepsDatasets.foldl_put {s s' : Store} (h : KeepsDatasets s)
    (hs : s'.records = (ws.foldl Store.put s).records)
    (hws : ∀ write ∈ ws, write.nextRecord.datasetId.text = write.recordId)
    (hpaired : Paired (ws.map StoreWrite.nextRecord)) : KeepsDatasets s' :=
  KeepsDatasets.of_records ⟨h.keyed.foldl_put hws, h.paired.foldl_put hws hpaired⟩ hs

theorem map_nextRecord_importWrites (imported : List DatasetStateRecord) :
    (importWrites imported).map StoreWrite.nextRecord = imported := by
  rw [importWrites, List.map_map]
  exact List.map_id imported

theorem keyed_importWrites (imported : List DatasetStateRecord) :
    ∀ write ∈ importWrites imported, write.nextRecord.datasetId.text = write.recordId := by
  intro write hwrite
  obtain ⟨record, -, rfl⟩ := List.mem_map.1 hwrite
  rfl

section

variable {ι : Type}

theorem KeepsDatasets.operate {e : Entry ι DatasetOp World} (h : KeepsDatasets e.moment.before.store)
    (hg : Permitted e.past e.moment) : KeepsDatasets (e.moment.after semantics).store := by
  obtain ⟨hrecords, -⟩ | ⟨i, past, batch, w, request, resource, w₀, rfl, hplanned, -, hmoved, hafter⟩ :=
    permitted_cases hg
  · exact h.of_records hrecords
  · obtain ⟨policyVersion, hplan⟩ := hplanned.planned
    have hkeyed := planWrites_keyed hplan fun record hrecord => h.keyed _ _ (by
      rw [← hrecord]
      exact (hplanned.unchanged hmoved).1)
    rw [hafter]
    exact h.foldl_put (commit_records (s := w.store)) hkeyed (planWrites_paired hplan hkeyed)

end

theorem KeepsDatasets.importOverlay {w : World} (h : KeepsDatasets w.store)
    {imported : List DatasetStateRecord} (hpaired : Paired imported) (config : Dict)
    (actionId fingerprint : String) (actor scope : Option String) :
    KeepsDatasets (w.importOverlay imported config actionId fingerprint actor scope).store := by
  unfold World.importOverlay
  obtain ⟨hstatus, -, hrecords, -⟩ | ⟨hstatus, hstore⟩ :=
    commitMigration_cases w.store imported config actionId fingerprint actor scope
  · rw [World.counted_of_eq hstatus]
    exact h.foldl_put hrecords (keyed_importWrites imported)
      (by rw [map_nextRecord_importWrites]; exact hpaired)
  · rw [World.counted_of_ne hstatus, hstore]
    exact h

def PlansOf (Overlays : LegacyPayload → Prop) (records : List DatasetStateRecord) : Prop :=
  ∃ payload sourceDigest plan, Overlays payload ∧
    planMigration (some payload) sourceDigest = .ok plan ∧ records = plan.records

/-- No table key names both a promoted candidate and a rejected record of the datasets section. -/
def Consistent (payload : LegacyPayload) : Prop :=
  ∀ table, Promotes payload.candidates.items table → ¬ Rejects payload.datasets.items table

theorem records_importOverlay_initial (verdict : String → String → PolicyVerdict)
    (records : List DatasetStateRecord) (config : Dict) :
    ((World.initial verdict).importOverlay records config "" "" none none).store.records =
      ((importWrites records).foldl Store.put Store.empty).records := by
  have hfind : (records.find? fun record => (Store.empty.records record.datasetId.text).isSome) = none :=
    List.find?_eq_none.2 fun _ _ hsome => Bool.false_ne_true hsome
  show (Store.empty.commitMigration records config "" "" none none).1.records = _
  unfold Store.commitMigration
  rw [show Store.empty.migrations "" = none from rfl, hfind, ← putRecords_eq]

theorem paired_of_import (verdict : String → String → PolicyVerdict)
    (hplan : planMigration (some payload) sourceDigest = .ok plan)
    (h : HasDatasets ((World.initial verdict).importOverlay plan.records plan.config "" "" none none).store) :
    Paired plan.records := by
  intro c hc hstate
  have hstored : ((World.initial verdict).importOverlay plan.records plan.config "" "" none
      none).store.records (DatasetId.candidate c.tableId).text = some (.candidate c) := by
    have hmem : (DatasetId.candidate c.tableId).text ∈ (importWrites plan.records).map StoreWrite.recordId :=
      List.mem_map.2 ⟨_, List.mem_map.2 ⟨_, hc, rfl⟩, rfl⟩
    obtain ⟨write, hwrite, hid, hstored⟩ := foldl_put_of_mem hmem Store.empty
    obtain ⟨record, hrecord, rfl⟩ := List.mem_map.1 hwrite
    rw [records_importOverlay_initial, hstored, eq_of_planned hplan hrecord hc hid]
  obtain ⟨d, hd⟩ := h _ c hstored hstate
  rw [records_importOverlay_initial] at hd
  by_cases htable : c.tableId.name ∈ (importWrites plan.records).map StoreWrite.recordId
  · obtain ⟨write, hwrite, hid, hstored'⟩ := foldl_put_of_mem htable Store.empty
    obtain ⟨record, hrecord, rfl⟩ := List.mem_map.1 hwrite
    rw [hstored'] at hd
    obtain rfl := Option.some.inj hd
    exact ⟨d, hrecord, TableKey.ext hid⟩
  · rw [foldl_put_records_of_notMem fun write hwrite heq =>
      htable (List.mem_map.2 ⟨write, hwrite, heq⟩)] at hd
    cases hd

section

variable {ι : Type} [DecidableEq ι] {verdict : String → String → PolicyVerdict} {n : DatasetNetwork ι}

/-- The invariant of a run, which does not look at the trace. -/
def WorldKeepsDatasets (w : World) (_ : List (Entry ι DatasetOp World)) : Prop := KeepsDatasets w.store

theorem keepsDatasets_of_reached {Imports : List DatasetStateRecord → Prop}
    (hpaired : ∀ records, Imports records → Paired records) (h : ReachedWith Imports verdict n) :
    KeepsDatasets n.shared.store := by
  show WorldKeepsDatasets n.shared n.trace
  refine trace_inv (fun n => guarded_of_advances advances_of_worldChanges) World.Advances.refl
    ⟨fun _ _ hnone => (by cases hnone), fun _ _ hnone => (by cases hnone)⟩ (fun w w' l hw hl => ?_)
    (fun l e hg hl => KeepsDatasets.operate hl hg) h
  obtain ⟨verdict', rfl⟩ | ⟨imported, config, actionId, fingerprint, actor, scope, himports, rfl⟩ := hw
  · exact hl
  · exact KeepsDatasets.importOverlay hl (hpaired _ himports) config actionId fingerprint actor scope

theorem paired_of_reached {Overlays : LegacyPayload → Prop}
    (hall : ∀ n : DatasetNetwork ι, ReachedWith (PlansOf Overlays) verdict n → HasDatasets n.shared.store)
    (hoverlay : Overlays payload) (hplan : planMigration (some payload) sourceDigest = .ok plan) :
    Paired plan.records := by
  refine paired_of_import verdict hplan ?_
  refine hall ⟨_, fun _ => none, []⟩ (Relation.ReflTransGen.single
    (Network.Step.drift (Network.idle (World.initial verdict)) _ (Or.inr ?_)))
  exact ⟨plan.records, plan.config, "", "", none, none,
    ⟨payload, sourceDigest, plan, hoverlay, hplan, rfl⟩, rfl⟩

/-- **Promoted candidates and their Datasets.**  In every network that transitions and imports of a class
of overlays reach, every promoted candidate has its Dataset, exactly if in every overlay of the class
that is accepted no table key names both a promoted candidate and a rejected datasets record. -/
theorem promoted_has_dataset_iff (verdict : String → String → PolicyVerdict) (Overlays : LegacyPayload → Prop) :
    (∀ n : DatasetNetwork ι, ReachedWith (PlansOf Overlays) verdict n → HasDatasets n.shared.store) ↔
      ∀ payload sourceDigest plan, Overlays payload →
        planMigration (some payload) sourceDigest = .ok plan → Consistent payload := by
  constructor
  · intro hall payload sourceDigest plan hoverlay hplan
    exact (plan_pairs_iff hplan).1 (paired_of_reached hall hoverlay hplan)
  · intro hconsistent n h
    refine (keepsDatasets_of_reached (fun records himports => ?_) h).paired
    obtain ⟨payload, sourceDigest, plan, hoverlay, hplan, rfl⟩ := himports
    exact (plan_pairs_iff hplan).2 (hconsistent payload sourceDigest plan hoverlay hplan)

end

def orphaningOverlay : LegacyPayload where
  datasets := .mapping [(.text "orders", .int 1)]
  candidates := .mapping [(.text "orders", .obj [("state", .str "promoted")])]

/-- Its import leaves the promoted candidate without a Dataset. -/
theorem promoted_without_dataset : ¬ ∀ n : DatasetNetwork Unit, ReachedWith (PlansOf fun _ => True) readyVerdict n →
      HasDatasets n.shared.store := by
  intro hall
  have hrecords : (planMigration (some orphaningOverlay) "").toOption.map (fun plan =>
      plan.records.map fun record => (record.datasetId.text, record.currentState)) =
      some [("candidate:orders", "promoted")] := by decide +kernel
  cases hplan : planMigration (some orphaningOverlay) "" with
  | error message =>
    rw [hplan] at hrecords
    cases hrecords
  | ok plan =>
    rw [hplan] at hrecords
    have hpaired := paired_of_reached hall trivial hplan
    have hmap : plan.records.map (fun record => (record.datasetId.text, record.currentState)) =
        [("candidate:orders", "promoted")] := Option.some.inj hrecords
    match hlist : plan.records with
    | [] =>
      rw [hlist] at hmap
      cases hmap
    | _ :: _ :: _ =>
      rw [hlist] at hmap
      exact absurd (congrArg List.length hmap) (by simp)
    | [.dataset d] =>
      rw [hlist] at hmap
      have hstate : d.publicationState.value = "promoted" :=
        (Prod.mk.inj (List.cons.inj hmap).1).2
      cases hpublication : d.publicationState <;> rw [hpublication] at hstate <;>
        exact absurd hstate (by decide)
    | [.candidate c] =>
      rw [hlist] at hmap hpaired
      have hvalue : c.state.value = "promoted" := (Prod.mk.inj (List.cons.inj hmap).1).2
      have hstate : c.state = .promoted := by
        cases hworkflow : c.state with
        | promoted => rfl
        | _ => rw [hworkflow] at hvalue; exact absurd hvalue (by decide)
      obtain ⟨d, hd, -⟩ := hpaired c List.mem_cons_self hstate
      cases List.mem_singleton.1 hd

end Phlo.Dataset
