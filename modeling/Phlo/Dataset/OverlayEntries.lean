import Phlo.Dataset.PromotedDatasets

/-!
# What becomes of each legacy record

A plan has its entries in one dictionary.  A datasets key is its own id; a candidates key that is a table
key has the id `candidate:<key>`, any other one is reported under its own text.

* `merge_precedence_iff` — what a datasets entry states prevails over its promoted candidate, but an entry
  that states no publication state makes a candidate a draft.
-/

namespace Phlo.Dataset

open Phlo.Library
open Phlo.RunEvidence (Dict Json)

/-! ### Overlays read from JSON -/

def textItems (fields : OrderedDict String Json) : LegacyItems :=
  fields.items.map fun item => (.text item.1, item.2)

/-- An overlay whose sections, where there are any, are objects. -/
structure JsonOverlay where
  schemaVersion : Option Json := none
  datasets : Option (OrderedDict String Json) := none
  candidates : Option (OrderedDict String Json) := none
  config : Option Json := none

def textSection : Option (OrderedDict String Json) → Section
  | some fields => .mapping (textItems fields)
  | none => .absent

def JsonOverlay.payload (overlay : JsonOverlay) : LegacyPayload where
  schemaVersion := overlay.schemaVersion
  datasets := textSection overlay.datasets
  candidates := textSection overlay.candidates
  config := overlay.config

def sectionFields (fields : Option (OrderedDict String Json)) : OrderedDict String Json := fields.getD .empty

theorem items_textSection (fields : Option (OrderedDict String Json)) :
    (textSection fields).items = textItems (sectionFields fields) := by
  cases fields <;> rfl

def candidateOutcome (key : String) (record : Json) : MigrationEntry := (candidateItem (.text key, record)).2

def datasetOutcome (key : String) (record : Json) : MigrationEntry := (datasetItem (.text key, record)).2

def candidateRecordId (key : String) : String :=
  if validTableKey key then String.ofList (candidateIdPrefix ++ key.toList) else key

theorem table_text (key : String) :
    (LegacyKey.text key).table? = if h : validTableKey key = true then some ⟨key, h⟩ else none := rfl

theorem candidateItem_text (key : String) (record : Json) :
    candidateItem (.text key, record) = (key, candidateOutcome key record) := by
  refine Prod.ext ?_ rfl
  unfold candidateItem
  rw [table_text]
  split
  · rfl
  next table htable =>
    split at htable
    · cases htable
      dsimp only
      split <;> rfl
    · cases htable

theorem datasetItem_text (key : String) (record : Json) :
    datasetItem (.text key, record) = (key, datasetOutcome key record) := by
  refine Prod.ext ?_ rfl
  unfold datasetItem
  rw [table_text]
  split
  · rfl
  next table htable =>
    split at htable
    · cases htable
      dsimp only
      split
      · rfl
      · split <;> rfl
    · cases htable

theorem recordId_candidateOutcome (key : String) (record : Json) :
    (candidateOutcome key record).recordId = candidateRecordId key := by
  unfold candidateOutcome candidateRecordId candidateItem
  rw [table_text]
  by_cases hvalid : validTableKey key = true
  · rw [dif_pos hvalid, if_pos hvalid]
    dsimp only
    split
    · exact (candidateResult_candidateEntry _ _).recordId
    · rfl
  · rw [dif_neg hvalid, if_neg hvalid]
    rfl

theorem recordId_datasetOutcome (key : String) (record : Json) : (datasetOutcome key record).recordId = key := by
  unfold datasetOutcome datasetItem
  rw [table_text]
  by_cases hvalid : validTableKey key = true
  · rw [dif_pos hvalid]
    dsimp only
    split
    · rfl
    · split <;> rfl
  · rw [dif_neg hvalid]
    rfl

theorem record_candidateOutcome (key : String) (record : Json)
    (h : (candidateOutcome key record).imported = true) : (candidateOutcome key record).record.isSome = true := by
  have hpromoted : ∀ table fields owner approvalState legacy,
      (promotedCandidateEntry table fields owner approvalState legacy).imported = true →
      (promotedCandidateEntry table fields owner approvalState legacy).record.isSome = true := by
    intro table fields owner approvalState legacy himported
    unfold promotedCandidateEntry at himported ⊢
    dsimp only at himported ⊢
    split at himported
    · cases himported
    next hdataset => rw [if_neg hdataset]; rfl
  unfold candidateOutcome candidateItem at h ⊢
  split
  next hnone =>
    rw [hnone] at h
    cases h
  next table htable =>
    simp only [htable] at h
    cases record with
    | obj fields =>
      dsimp only at h ⊢
      unfold candidateEntry at h ⊢
      dsimp only at h ⊢
      split
      next hstate =>
        simp only [hstate] at h
        cases h
      next hstate =>
        simp only [hstate] at h
        exact hpromoted _ _ _ _ _ h
      · rfl
    | _ => cases h

theorem get_ofList_textItems {found : LegacyKey × Json → String × MigrationEntry}
    {outcome : String → Json → MigrationEntry}
    (hfound : ∀ key record, found (.text key, record) = (key, outcome key record))
    (fields : OrderedDict String Json) (key : String) :
    (OrderedDict.ofList ((textItems fields).map found)).get key = (fields.get key).map (outcome key) := by
  have hitems : (textItems fields).map found = fields.items.map fun item => (item.1, outcome item.1 item.2) := by
    rw [textItems, List.map_map]
    exact List.map_congr_left fun item _ => hfound item.1 item.2
  have hnodup : (((OrderedDict.empty : OrderedDict String MigrationEntry).items ++
      (textItems fields).map found).map Prod.fst).Nodup := by
    rw [hitems, List.map_append, List.map_map]
    exact fields.nodup
  have hdict : (OrderedDict.ofList ((textItems fields).map found)).items = (textItems fields).map found :=
    OrderedDict.items_setAll hnodup
  ext entry
  rw [OrderedDict.get_eq_some_iff, hdict, hitems, List.mem_map, Option.map_eq_some_iff]
  constructor
  · intro h
    obtain ⟨item, hitem, hpair⟩ := h
    cases hpair
    exact ⟨item.2, OrderedDict.get_eq_some_iff.2 hitem, rfl⟩
  · intro h
    obtain ⟨record, hrecord, rfl⟩ := h
    exact ⟨(key, record), OrderedDict.get_eq_some_iff.1 hrecord, rfl⟩

theorem candidateResults_text (fields : OrderedDict String Json) (key : String) :
    (candidateResults (textItems fields)).get key = (fields.get key).map (candidateOutcome key) :=
  get_ofList_textItems candidateItem_text fields key

theorem datasetResults_text (fields : OrderedDict String Json) (key : String) :
    (datasetResults (textItems fields)).get key = (fields.get key).map (datasetOutcome key) :=
  get_ofList_textItems datasetItem_text fields key

/-! ### Keys and ids -/

/-- A key of one of the sections. -/
inductive OverlayKey where
  | dataset (key : String)
  | candidate (key : String)
  deriving DecidableEq

def JsonOverlay.record? (overlay : JsonOverlay) : OverlayKey → Option Json
  | .dataset key => (sectionFields overlay.datasets).get key
  | .candidate key => (sectionFields overlay.candidates).get key

def OverlayKey.recordId : OverlayKey → String
  | dataset key => key
  | candidate key => candidateRecordId key

def OverlayKey.outcome : OverlayKey → Json → MigrationEntry
  | dataset key => datasetOutcome key
  | candidate key => candidateOutcome key

/-- An entry stands for a key: the record is imported or rejected as it is on its own, a rejection with
its reason, an import with a record under the id of the key. -/
structure StandsFor (overlay : JsonOverlay) (key : OverlayKey) (entry : MigrationEntry) : Prop where
  recordId : entry.recordId = key.recordId
  action : ∀ record, overlay.record? key = some record → entry.action = (key.outcome record).action
  reason : ∀ record, overlay.record? key = some record → (key.outcome record).imported = false →
    entry.reason = (key.outcome record).reason
  imported : entry.imported = true → entry.record.isSome = true
  datasetId : ∀ record, entry.record = some record → record.datasetId.text = key.recordId

def AccountsFor (overlay : JsonOverlay) (plan : MigrationPlan) : Prop :=
  ∃ entryOf : OverlayKey → MigrationEntry,
    (∀ key, (overlay.record? key).isSome = true →
      entryOf key ∈ plan.entries ∧ StandsFor overlay key (entryOf key)) ∧
    ∀ key key', (overlay.record? key).isSome = true → (overlay.record? key').isSome = true →
      entryOf key = entryOf key' → key = key'

/-- No two keys of the overlay come to one id: `candidate:<key>` is no key of either section where `key`
is a table key of the candidates, and no other key of the candidates is one of the datasets. -/
structure IdsApart (overlay : JsonOverlay) : Prop where
  candidate : ∀ key, (overlay.record? (.candidate key)).isSome = true → validTableKey key = true →
    overlay.record? (.dataset (candidateRecordId key)) = none ∧
      overlay.record? (.candidate (candidateRecordId key)) = none
  invalid : ∀ key, (overlay.record? (.candidate key)).isSome = true → validTableKey key = false →
    overlay.record? (.dataset key) = none

instance (overlay : JsonOverlay) : Decidable (IdsApart overlay) :=
  decidable_of_iff (∀ item ∈ (sectionFields overlay.candidates).items,
      (validTableKey item.1 = true →
        (overlay.record? (.dataset (candidateRecordId item.1))).isNone = true ∧
          (overlay.record? (.candidate (candidateRecordId item.1))).isNone = true) ∧
      (validTableKey item.1 = false → (overlay.record? (.dataset item.1)).isNone = true)) <| by
    have hitem : ∀ key, (overlay.record? (.candidate key)).isSome = true ↔
        ∃ item ∈ (sectionFields overlay.candidates).items, item.1 = key := by
      intro key
      rw [Option.isSome_iff_exists]
      constructor
      · intro h
        obtain ⟨record, hrecord⟩ := h
        exact ⟨(key, record), OrderedDict.get_eq_some_iff.1 hrecord, rfl⟩
      · intro h
        obtain ⟨item, hitem, rfl⟩ := h
        exact ⟨item.2, OrderedDict.get_eq_some_iff.2 hitem⟩
    constructor
    · intro h
      refine ⟨fun key hkey hvalid => ?_, fun key hkey hinvalid => ?_⟩
      · obtain ⟨item, hmem, rfl⟩ := (hitem key).1 hkey
        exact ((h item hmem).1 hvalid).imp Option.isNone_iff_eq_none.1 Option.isNone_iff_eq_none.1
      · obtain ⟨item, hmem, rfl⟩ := (hitem key).1 hkey
        exact Option.isNone_iff_eq_none.1 ((h item hmem).2 hinvalid)
    · intro h item hmem
      have hkey := (hitem item.1).2 ⟨item, hmem, rfl⟩
      exact ⟨fun hvalid => (h.candidate item.1 hkey hvalid).imp Option.isNone_iff_eq_none.2
          Option.isNone_iff_eq_none.2,
        fun hinvalid => Option.isNone_iff_eq_none.2 (h.invalid item.1 hkey hinvalid)⟩

variable {key : String}

theorem candidateRecordId_of_valid (h : validTableKey key = true) :
    candidateRecordId key = (DatasetId.candidate ⟨key, h⟩).text := by
  rw [candidateRecordId, if_pos h]
  rfl

theorem candidateRecordId_of_invalid (h : validTableKey key = false) : candidateRecordId key = key := by
  rw [candidateRecordId, if_neg (by rw [h]; exact Bool.false_ne_true)]

theorem candidateRecordId_invalid (h : validTableKey key = true) : validTableKey (candidateRecordId key) = false := by
  by_contra hvalid
  rw [Bool.not_eq_false] at hvalid
  have htext : (DatasetId.candidate ⟨key, h⟩).text = (DatasetId.promoted ⟨candidateRecordId key, hvalid⟩).text :=
    (candidateRecordId_of_valid h).symm
  cases text_injective htext

theorem IdsApart.injective {overlay : JsonOverlay} (h : IdsApart overlay) {key key' : OverlayKey}
    (hkey : (overlay.record? key).isSome = true) (hkey' : (overlay.record? key').isSome = true)
    (hid : key.recordId = key'.recordId) : key = key' := by
  -- a candidates key against a datasets key
  have hmixed : ∀ c d, (overlay.record? (.candidate c)).isSome = true →
      (overlay.record? (.dataset d)).isSome = true → candidateRecordId c ≠ d := by
    intro c d hc hd heq
    subst heq
    cases hvalid : validTableKey c with
    | true => rw [(h.candidate c hc hvalid).1] at hd; cases hd
    | false => rw [candidateRecordId_of_invalid hvalid, h.invalid c hc hvalid] at hd; cases hd
  -- a table key of the candidates against another key of theirs
  have hcandidates : ∀ c c', (overlay.record? (.candidate c)).isSome = true →
      (overlay.record? (.candidate c')).isSome = true → validTableKey c = true →
      validTableKey c' = false → candidateRecordId c ≠ candidateRecordId c' := by
    intro c c' hc hc' hvalid hinvalid heq
    rw [candidateRecordId_of_invalid hinvalid] at heq
    subst heq
    rw [(h.candidate c hc hvalid).2] at hc'
    cases hc'
  cases key with
  | dataset d =>
    cases key' with
    | dataset d' => exact congrArg OverlayKey.dataset hid
    | candidate c => exact absurd hid.symm (hmixed c d hkey' hkey)
  | candidate c =>
    cases key' with
    | dataset d => exact absurd hid (hmixed c d hkey hkey')
    | candidate c' =>
      have hids : candidateRecordId c = candidateRecordId c' := hid
      cases hvalid : validTableKey c with
      | true =>
        cases hvalid' : validTableKey c' with
        | true =>
          rw [candidateRecordId_of_valid hvalid, candidateRecordId_of_valid hvalid'] at hids
          cases text_injective hids
          rfl
        | false => exact absurd hids (hcandidates c c' hkey hkey' hvalid hvalid')
      | false =>
        cases hvalid' : validTableKey c' with
        | true => exact absurd hids.symm (hcandidates c' c hkey' hkey hvalid' hvalid)
        | false =>
          rw [candidateRecordId_of_invalid hvalid, candidateRecordId_of_invalid hvalid'] at hids
          rw [hids]

theorem idsApart_of_injective {overlay : JsonOverlay}
    (h : ∀ key key', (overlay.record? key).isSome = true → (overlay.record? key').isSome = true →
      key.recordId = key'.recordId → key = key') : IdsApart overlay := by
  refine ⟨fun key hkey hvalid => ⟨?_, ?_⟩, fun key hkey hinvalid => ?_⟩
  · refine Option.not_isSome_iff_eq_none.1 fun hsome => ?_
    cases h (.candidate key) (.dataset (candidateRecordId key)) hkey hsome rfl
  · refine Option.not_isSome_iff_eq_none.1 fun hsome => ?_
    have hid : candidateRecordId key = candidateRecordId (candidateRecordId key) :=
      (candidateRecordId_of_invalid (candidateRecordId_invalid hvalid)).symm
    have hsame := h (.candidate key) (.candidate (candidateRecordId key)) hkey hsome hid
    have hinvalid := candidateRecordId_invalid hvalid
    rw [← OverlayKey.candidate.inj hsame, hvalid] at hinvalid
    cases hinvalid
  · refine Option.not_isSome_iff_eq_none.1 fun hsome => ?_
    cases h (.candidate key) (.dataset key) hkey hsome (candidateRecordId_of_invalid hinvalid)

/-! ### The entries of a plan -/

section

variable {overlay : JsonOverlay} {sourceDigest : String} {plan : MigrationPlan}

theorem planned_entries (h : planMigration (some overlay.payload) sourceDigest = .ok plan) :
    ∃ entries, planEntries (candidateResults (textItems (sectionFields overlay.candidates)))
        (datasetResults (textItems (sectionFields overlay.datasets))) = .ok entries ∧
      ∀ entry, entry ∈ plan.entries ↔ ∃ id, entries.get id = some entry := by
  obtain ⟨entries, hentries, hplan⟩ := planMigration_entries h
  have hcandidates : overlay.payload.candidates.items = textItems (sectionFields overlay.candidates) :=
    items_textSection _
  have hdatasets : overlay.payload.datasets.items = textItems (sectionFields overlay.datasets) :=
    items_textSection _
  rw [hcandidates, hdatasets] at hentries
  refine ⟨entries, hentries, fun entry => ?_⟩
  rw [hplan, List.mem_map]
  constructor
  · intro hmem
    obtain ⟨item, hitem, rfl⟩ := hmem
    exact ⟨item.1, OrderedDict.get_eq_some_iff.2 ((mem_sortBy _ _ _).1 hitem)⟩
  · intro hmem
    obtain ⟨id, hget⟩ := hmem
    exact ⟨(id, entry), (mem_sortBy _ _ _).2 (OrderedDict.get_eq_some_iff.1 hget), rfl⟩

variable {entries : OrderedDict String MigrationEntry}

variable {entry : MigrationEntry} {record : Json}

theorem recordId_merged {fields : OrderedDict String Json} {id : String}
    (h : (datasetResults (textItems fields)).get id = some entry) (candidate : Option CandidateRecord) :
    (mergePromotedSources id candidate entry).recordId = id := by
  rw [datasetResults_text] at h
  obtain ⟨record, -, rfl⟩ := Option.map_eq_some_iff.1 h
  unfold mergePromotedSources
  split
  · split
    · rfl
    · exact recordId_datasetOutcome id record
  · exact recordId_datasetOutcome id record

theorem recordId_of_get
    (h : planEntries (candidateResults (textItems (sectionFields overlay.candidates))) (datasetResults (textItems (sectionFields overlay.datasets))) = .ok entries)
    {id : String} (hentry : entries.get id = some entry) : entry.recordId = id := by
  obtain ⟨promoted, hget, -, hpromoted⟩ := planEntries_get h
  rw [hget] at hentry
  obtain hlast | ⟨-, hother⟩ := Option.or_eq_some_iff.1 hentry
  · exact (mem_values_of_lastOf hlast).2
  · obtain hlast | ⟨-, hmerged⟩ := Option.or_eq_some_iff.1 hother
    · obtain ⟨-, c, -, hok⟩ := hpromoted id entry (OrderedDict.mem_of_lastOf hlast)
      unfold promotedEntry at hok
      dsimp only at hok
      split at hok
      · cases hok
      · cases hok
        rfl
    · obtain ⟨own, hown, rfl⟩ := Option.map_eq_some_iff.1 hmerged
      exact recordId_merged hown _

theorem action_of_imported (h : entry.imported = true) : entry.action = .entryImport := by
  simpa [MigrationEntry.imported] using h

theorem get_candidate
    (h : planEntries (candidateResults (textItems (sectionFields overlay.candidates))) (datasetResults (textItems (sectionFields overlay.datasets))) = .ok entries)
    (hrecord : (sectionFields overlay.candidates).get key = some record)
    (halone : ∀ other record', (sectionFields overlay.candidates).get other = some record' → candidateRecordId other = candidateRecordId key → other = key) :
    entries.get (candidateRecordId key) = some (candidateOutcome key record) := by
  obtain ⟨promoted, hget, -, -⟩ := planEntries_get h
  have hown : (candidateOutcome key record) ∈
      (candidateResults (textItems (sectionFields overlay.candidates))).values :=
    OrderedDict.mem_values.2 ⟨key, by rw [candidateResults_text, hrecord]; rfl⟩
  rw [hget]
  cases hlast : OrderedDict.lastOf (candidateRecordId key)
      (byRecordId (candidateResults (textItems (sectionFields overlay.candidates)))) with
  | none =>
    refine absurd ?_ (OrderedDict.lastOf_eq_none_iff.1 hlast (candidateOutcome key record))
    exact List.mem_map.2 ⟨_, hown, by rw [recordId_candidateOutcome]⟩
  | some entry =>
    obtain ⟨hmem, hid⟩ := mem_values_of_lastOf hlast
    obtain ⟨other, hother⟩ := OrderedDict.mem_values.1 hmem
    rw [candidateResults_text] at hother
    obtain ⟨record', hrecord', rfl⟩ := Option.map_eq_some_iff.1 hother
    rw [recordId_candidateOutcome] at hid
    obtain rfl := halone other record' hrecord' hid
    rw [hrecord] at hrecord'
    cases hrecord'
    rfl

theorem get_dataset
    (h : planEntries (candidateResults (textItems (sectionFields overlay.candidates))) (datasetResults (textItems (sectionFields overlay.datasets))) = .ok entries)
    (hrecord : (sectionFields overlay.datasets).get key = some record)
    (hnone : ∀ other record', (sectionFields overlay.candidates).get other = some record' → candidateRecordId other ≠ key) :
    entries.get key = some (mergePromotedSources key
      ((promotedCandidates (candidateResults (textItems (sectionFields overlay.candidates)))).get key)
      (datasetOutcome key record)) := by
  obtain ⟨promoted, hget, -, hpromoted⟩ := planEntries_get h
  have hdataset : (datasetResults (textItems (sectionFields overlay.datasets))).get key =
      some (datasetOutcome key record) := by
    rw [datasetResults_text, hrecord]
    rfl
  have hcandidates : OrderedDict.lastOf key
      (byRecordId (candidateResults (textItems (sectionFields overlay.candidates)))) = none := by
    refine Option.eq_none_iff_forall_ne_some.2 fun entry hlast => ?_
    obtain ⟨hmem, hid⟩ := mem_values_of_lastOf hlast
    obtain ⟨other, hother⟩ := OrderedDict.mem_values.1 hmem
    rw [candidateResults_text] at hother
    obtain ⟨record', hrecord', rfl⟩ := Option.map_eq_some_iff.1 hother
    rw [recordId_candidateOutcome] at hid
    exact hnone other record' hrecord' hid
  have hfirst : OrderedDict.lastOf key promoted = none := by
    refine OrderedDict.lastOf_eq_none_iff.2 fun entry hentry => ?_
    rw [(hpromoted _ _ hentry).1] at hdataset
    cases hdataset
  rw [hget, hcandidates, hfirst, hdataset]
  rfl

theorem standsFor_candidate (hrecord : overlay.record? (.candidate key) = some record) :
    StandsFor overlay (.candidate key) (candidateOutcome key record) := by
  refine ⟨recordId_candidateOutcome key record, fun record' h => ?_, fun record' h _ => ?_,
    record_candidateOutcome key record, fun r hr => ?_⟩
  · rw [hrecord] at h
    cases h
    rfl
  · rw [hrecord] at h
    cases h
    rfl
  · obtain ⟨-, -, hnone⟩ | ⟨table, hname, hresult⟩ := candidateItem_cases (.text key, record)
    · rw [show (candidateOutcome key record).record = none from hnone] at hr
      cases hr
    · obtain ⟨c, rfl, rfl⟩ := hresult.record r hr
      have hid := recordId_candidateOutcome key record
      rw [show (candidateOutcome key record).recordId = _ from hresult.recordId] at hid
      exact hid

theorem standsFor_dataset (hrecord : overlay.record? (.dataset key) = some record)
    (candidate : Option CandidateRecord) :
    StandsFor overlay (.dataset key) (mergePromotedSources key candidate (datasetOutcome key record)) := by
  have hfound : (datasetResults (textItems (sectionFields overlay.datasets))).get key =
      some (datasetOutcome key record) := by
    rw [datasetResults_text]
    exact congrArg (Option.map (datasetOutcome key)) hrecord
  have hsame : ∀ record', overlay.record? (.dataset key) = some record' → record' = record := by
    intro record' h
    rw [hrecord] at h
    exact (Option.some.inj h).symm
  obtain ⟨hrejected, hmerged, hnone⟩ | ⟨table, hname, himported, himports, d, hd, htable⟩ :=
    mergePromotedSources_cases hfound candidate
  · rw [hmerged]
    refine ⟨recordId_datasetOutcome key record, fun record' h => ?_, fun record' h _ => ?_, fun h => ?_,
      fun r hr => ?_⟩
    · cases hsame record' h
      rfl
    · cases hsame record' h
      rfl
    · rw [hrejected] at h
      cases h
    · rw [hnone] at hr
      cases hr
  · refine ⟨recordId_merged hfound candidate, fun record' h => ?_, fun record' h hno => ?_, fun _ => ?_,
      fun r hr => ?_⟩
    · cases hsame record' h
      exact (action_of_imported himports).trans (action_of_imported himported).symm
    · cases hsame record' h
      rw [show (OverlayKey.dataset key).outcome record = datasetOutcome key record from rfl, himported] at hno
      cases hno
    · rw [hd]
      rfl
    · rw [hd] at hr
      cases hr
      rw [hname, ← htable]
      rfl

/-- Two keys with one id share the entry under it. -/
theorem AccountsFor.idsApart (h : planMigration (some overlay.payload) sourceDigest = .ok plan)
    (haccounts : AccountsFor overlay plan) : IdsApart overlay := by
  obtain ⟨entries, hentries, hplan⟩ := planned_entries h
  obtain ⟨entryOf, hentryOf, hinjective⟩ := haccounts
  refine idsApart_of_injective fun key key' hkey hkey' hid => hinjective key key' hkey hkey' ?_
  obtain ⟨hmem, hstands⟩ := hentryOf key hkey
  obtain ⟨hmem', hstands'⟩ := hentryOf key' hkey'
  obtain ⟨id, hget⟩ := (hplan _).1 hmem
  obtain ⟨id', hget'⟩ := (hplan _).1 hmem'
  have hsame : id = id' := by
    rw [← recordId_of_get hentries hget, ← recordId_of_get hentries hget', hstands.recordId,
      hstands'.recordId, hid]
  rw [hsame, hget'] at hget
  exact (Option.some.inj hget).symm

/-- Every key of an overlay has an entry of its own in the plan exactly when no two keys come to one id. -/
theorem plan_accounts_iff (h : planMigration (some overlay.payload) sourceDigest = .ok plan) :
    AccountsFor overlay plan ↔ IdsApart overlay := by
  obtain ⟨entries, hentries, hplan⟩ := planned_entries h
  constructor
  · exact fun haccounts => haccounts.idsApart h
  · intro hapart
    have hfound : ∀ key, (overlay.record? key).isSome = true →
        ∃ entry, entries.get key.recordId = some entry ∧ StandsFor overlay key entry := by
      intro key hkey
      obtain ⟨record, hrecord⟩ := Option.isSome_iff_exists.1 hkey
      cases key with
      | candidate key =>
        refine ⟨_, get_candidate hentries hrecord fun other record' hother hid => ?_,
          standsFor_candidate hrecord⟩
        have hother' : (overlay.record? (.candidate other)).isSome = true :=
          Option.isSome_iff_exists.2 ⟨record', hother⟩
        exact OverlayKey.candidate.inj (hapart.injective hother' hkey hid)
      | dataset key =>
        refine ⟨_, get_dataset hentries hrecord fun other record' hother hid => ?_,
          standsFor_dataset hrecord _⟩
        have hother' : (overlay.record? (.candidate other)).isSome = true :=
          Option.isSome_iff_exists.2 ⟨record', hother⟩
        cases hapart.injective hother' hkey hid
    have hentryOf : ∀ key, ∃ entry, (overlay.record? key).isSome = true →
        entries.get key.recordId = some entry ∧ StandsFor overlay key entry := by
      intro key
      by_cases hkey : (overlay.record? key).isSome = true
      · obtain ⟨entry, hentry⟩ := hfound key hkey
        exact ⟨entry, fun _ => hentry⟩
      · exact ⟨rejectEntry "" "", fun hsome => absurd hsome hkey⟩
    choose entryOf hentryOf using hentryOf
    refine ⟨entryOf, fun key hkey => ⟨(hplan _).2 ⟨_, (hentryOf key hkey).1⟩, (hentryOf key hkey).2⟩,
      fun key key' hkey hkey' hsame => hapart.injective hkey hkey' ?_⟩
    rw [← (hentryOf key hkey).2.recordId, ← (hentryOf key' hkey').2.recordId, hsame]

/-- An overlay with a claimed candidate and a Dataset of another table. -/
def separateOverlay : JsonOverlay where
  datasets := some (.ofList [("users", .obj [("publication_state", .str "published")])])
  candidates := some (.ofList [("orders", .obj [("state", .str "claimed")]), ("a:b", .null)])

theorem separate_overlay_accounted :
    ∃ plan, planMigration (some separateOverlay.payload) "" = .ok plan ∧ AccountsFor separateOverlay plan := by
  obtain ⟨plan, hplan⟩ : ∃ plan, planMigration (some separateOverlay.payload) "" = .ok plan :=
    exists_of_isOk (by decide +kernel)
  exact ⟨plan, hplan, (plan_accounts_iff hplan).2 (by decide +kernel)⟩

/-- The datasets section has a key in the form of a candidate's id. -/
def prefixedOverlay : JsonOverlay where
  datasets := some (.ofList [("candidate:orders", .obj [("publication_state", .str "published")])])
  candidates := some (.ofList [("orders", .obj [("state", .str "claimed")])])

/-- The rejection of the datasets key is replaced by the candidate. -/
theorem prefixed_key_replaced :
    ∃ plan, planMigration (some prefixedOverlay.payload) "" = .ok plan ∧ ¬AccountsFor prefixedOverlay plan := by
  obtain ⟨plan, hplan⟩ : ∃ plan, planMigration (some prefixedOverlay.payload) "" = .ok plan :=
    exists_of_isOk (by decide +kernel)
  refine ⟨plan, hplan, fun haccounts => ?_⟩
  have hapart := haccounts.idsApart hplan
  revert hapart
  decide +kernel

/-! ### A datasets entry over its promoted candidate -/

def statedPublicationState (record : Dict) : Option PublicationState :=
  match (record.lookup "publication_state").getD .null with
  | .null => none
  | raw => PublicationState.coerce (pyStr raw)

theorem coercedPublicationState_fst (record : Dict) :
    (coercedPublicationState record).1 = (statedPublicationState record).getD .draft := by
  unfold coercedPublicationState statedPublicationState
  cases (record.lookup "publication_state").getD .null with
  | null => rfl
  | _ =>
    dsimp only
    split
    next state hstate => rw [hstate]; rfl
    next hnone => rw [hnone]; rfl

theorem orElse_textField (record : Dict) (key : String) (other : Option String) :
    orElse (textField record key) other = (textField record key).or other := by
  unfold orElse textField
  split
  next s _ =>
    by_cases hs : s = ""
    · rw [if_pos hs]; rfl
    · rw [if_neg hs]; simp [hs]
  · rfl

/-- The record of a table merged by precedence: what the datasets entry states, else the candidate's. -/
structure ByPrecedence (entry : Dict) (candidate : CandidateRecord) (merged : DatasetRecord) : Prop where
  publicationState : some merged.publicationState.value =
    ((statedPublicationState entry).map PublicationState.value).or candidate.publicationState
  owner : merged.owner = (textField entry "owner").or candidate.owner
  approvalState : merged.approvalState = (textField entry "approval_state").or candidate.approvalState

variable {table : TableKey}

theorem publicationState_of_promoted {record : Dict} {candidate : CandidateRecord}
    (h : (candidateEntry table record).promotedCandidate = some candidate) : candidate.tableId = table ∧
      candidate.publicationState = some ((statedPublicationState record).getD .draft).value := by
  obtain ⟨himported, hrecord, hstate⟩ := promotedCandidate_eq_some.1 h
  unfold candidateEntry at hrecord himported
  dsimp only at hrecord himported
  split at hrecord
  · cases hrecord
  next hworkflow =>
    unfold promotedCandidateEntry at hrecord
    dsimp only at hrecord
    split at hrecord
    · cases hrecord
    · cases hrecord
      exact ⟨rfl, by rw [coercedPublicationState_fst]⟩
  next workflowState hpromoted hworkflow =>
    cases hrecord
    exact (hpromoted hstate).elim

theorem candidateOutcome_obj (table : TableKey) (record : Dict) :
    candidateOutcome table.name (.obj record) = candidateEntry table record := by
  unfold candidateOutcome candidateItem
  rw [table_text, dif_pos table.valid]

theorem datasetOutcome_obj (table : TableKey) (record : Dict) :
    datasetOutcome table.name (.obj record) = datasetEntry table record := by
  unfold datasetOutcome datasetItem
  rw [table_text, dif_pos table.valid]
  dsimp only
  rw [promoted_not_candidate, if_neg Bool.false_ne_true]

theorem promotedCandidates_text {fields : OrderedDict String Json} {record : Dict}
    (hrecord : fields.get table.name = some (.obj record)) {c : CandidateRecord}
    (hc : (candidateEntry table record).promotedCandidate = some c) :
    (promotedCandidates (candidateResults (textItems fields))).get table.name = some c := by
  have hown : (candidateResults (textItems fields)).get table.name = some (candidateEntry table record) := by
    rw [candidateResults_text, hrecord, Option.map_some, candidateOutcome_obj]
  have htable := (publicationState_of_promoted hc).1
  obtain ⟨c', hc'⟩ := exists_promotedCandidates_get (OrderedDict.mem_values.2 ⟨_, hown⟩) hc
  rw [htable] at hc'
  rw [hc']
  rw [promotedCandidates, OrderedDict.get_ofList] at hc'
  obtain ⟨other, hother, hpair⟩ := List.mem_map.1 (OrderedDict.mem_of_lastOf hc')
  obtain ⟨entry, hentry, hpromoted⟩ := List.mem_filterMap.1 hother
  obtain ⟨key, hkey⟩ := OrderedDict.mem_values.1 hentry
  obtain ⟨hname, rfl⟩ := Prod.mk.inj hpair
  obtain ⟨himported, hentryRecord, -⟩ := promotedCandidate_eq_some.1 hpromoted
  obtain ⟨-, hrejected, -⟩ | ⟨table', rfl, hresult⟩ := candidateResults_cases hkey
  · rw [himported] at hrejected
    cases hrejected
  · obtain ⟨c'', hcandidate, hsame⟩ := hresult.record _ hentryRecord
    cases hcandidate
    rw [← hsame, hname, hown] at hkey
    cases hkey
    rw [hc] at hpromoted
    exact hpromoted.symm

def datasetOf (table : TableKey) (record : Dict) : DatasetRecord where
  tableId := table
  publicationState := (coercedPublicationState record).1
  owner := textField record "owner"
  approvalState := textField record "approval_state"
  migrationNote := (coercedPublicationState record).2
  legacyFields := legacyFields record

theorem merged_planned (h : planMigration (some overlay.payload) sourceDigest = .ok plan) {entry promoted : Dict}
    (hentry : overlay.record? (.dataset table.name) = some (.obj entry))
    (hpromoted : overlay.record? (.candidate table.name) = some (.obj promoted)) {c : CandidateRecord}
    (hc : (candidateEntry table promoted).promotedCandidate = some c) :
    ∃ own : DatasetRecord, own.publicationState = (statedPublicationState entry).getD .draft ∧
      own.owner = textField entry "owner" ∧ own.approvalState = textField entry "approval_state" ∧
      own.tableId = table ∧ ∀ merged : DatasetRecord, merged.tableId = table →
        (.dataset merged ∈ plan.records ↔ merged = mergedRecord own c) := by
  obtain ⟨entries, hentries, hplan⟩ := planned_entries h
  have hget := get_dataset hentries hentry fun other record' _ hid => by
    cases hvalid : validTableKey other with
    | true =>
      have hinvalid := candidateRecordId_invalid hvalid
      rw [hid, table.valid] at hinvalid
      cases hinvalid
    | false =>
      rw [candidateRecordId_of_invalid hvalid] at hid
      rw [hid, table.valid] at hvalid
      cases hvalid
  rw [promotedCandidates_text hpromoted hc, datasetOutcome_obj] at hget
  refine ⟨datasetOf table entry, coercedPublicationState_fst entry, rfl, rfl, rfl, fun merged hmerged => ?_⟩
  have hmem : .dataset (mergedRecord (datasetOf table entry) c) ∈ plan.records := by
    refine List.mem_filterMap.2 ⟨_, List.mem_filter.2 ⟨(hplan _).2 ⟨_, hget⟩, rfl⟩, rfl⟩
  constructor
  · intro hin
    have hid : DatasetStateRecord.datasetId (.dataset merged) = .promoted table :=
      congrArg DatasetId.promoted hmerged
    exact DatasetStateRecord.dataset.inj (eq_of_planned h hin hmem (by rw [hid]; rfl))
  · intro hsame
    rw [hsame]
    exact hmem

/-- The record of a table follows the precedence exactly when the datasets entry states a publication
state, or the candidate states none, or draft. -/
theorem merge_precedence_iff (h : planMigration (some overlay.payload) sourceDigest = .ok plan)
    (table : TableKey) (entry promoted : Dict) (hentry : overlay.record? (.dataset table.name) = some (.obj entry))
    (hpromoted : overlay.record? (.candidate table.name) = some (.obj promoted)) {c : CandidateRecord}
    (hc : (candidateEntry table promoted).promotedCandidate = some c) :
    (∃ merged : DatasetRecord, .dataset merged ∈ plan.records ∧ merged.tableId = table ∧
        ByPrecedence entry c merged) ↔
      (statedPublicationState entry).isSome = true ∨ statedPublicationState promoted = none ∨
        statedPublicationState promoted = some .draft := by
  obtain ⟨own, hstate, howner, happroval, htable, hplanned⟩ := merged_planned h hentry hpromoted hc
  have hcandidate := (publicationState_of_promoted hc).2
  constructor
  · intro hmerged
    obtain ⟨merged, hmem, hmergedTable, hprecedence⟩ := hmerged
    obtain rfl := (hplanned merged hmergedTable).1 hmem
    have hvalue := hprecedence.publicationState
    rw [show (mergedRecord own c).publicationState = own.publicationState from rfl, hstate, hcandidate] at hvalue
    cases hstated : statedPublicationState entry with
    | some state => exact .inl rfl
    | none =>
      rw [hstated] at hvalue
      cases hpromotedState : statedPublicationState promoted with
      | none => exact .inr (.inl rfl)
      | some state =>
        rw [hpromotedState] at hvalue
        cases state with
        | draft => exact .inr (.inr rfl)
        | published => exact absurd hvalue (by decide)
        | retired => exact absurd hvalue (by decide)
  · intro hcondition
    refine ⟨mergedRecord own c, (hplanned (mergedRecord own c) htable).2 rfl, htable, ?_, ?_, ?_⟩
    · rw [show (mergedRecord own c).publicationState = own.publicationState from rfl, hstate, hcandidate]
      cases hstated : statedPublicationState entry with
      | some state => rfl
      | none =>
        rw [hstated] at hcondition
        obtain hnone | hnone | hdraft := hcondition
        · cases hnone
        · rw [hnone]; rfl
        · rw [hdraft]; rfl
    · rw [← orElse_textField, ← howner]
      rfl
    · rw [← orElse_textField, ← happroval]
      rfl

end

def ordersKey : TableKey := ⟨"orders", by decide +kernel⟩

def publishedCandidate : Dict := [("state", .str "promoted"), ("publication_state", .str "published")]

def publishedOverlay (entry : Dict) : JsonOverlay where
  datasets := some (.ofList [("orders", .obj entry)])
  candidates := some (.ofList [("orders", .obj publishedCandidate)])

theorem retired_over_published : ∃ plan candidate merged,
      planMigration (some (publishedOverlay [("publication_state", .str "retired")]).payload) "" = .ok plan ∧
      (candidateEntry ordersKey publishedCandidate).promotedCandidate = some candidate ∧
      .dataset merged ∈ plan.records ∧ ByPrecedence [("publication_state", .str "retired")] candidate merged := by
  obtain ⟨plan, hplan⟩ : ∃ plan,
      planMigration (some (publishedOverlay [("publication_state", .str "retired")]).payload) "" = .ok plan :=
    exists_of_isOk (by decide +kernel)
  obtain ⟨candidate, hcandidate⟩ : ∃ candidate,
      (candidateEntry ordersKey publishedCandidate).promotedCandidate = some candidate :=
    Option.isSome_iff_exists.1 (by decide +kernel)
  obtain ⟨merged, hmem, -, hprecedence⟩ := (merge_precedence_iff hplan ordersKey
    [("publication_state", .str "retired")] publishedCandidate rfl rfl hcandidate).2 (.inl (by decide +kernel))
  exact ⟨plan, candidate, merged, hplan, hcandidate, hmem, hprecedence⟩

/-- An entry with an owner only makes the published candidate a draft. -/
theorem owner_demotes_published :
    ∃ plan candidate merged, planMigration (some (publishedOverlay [("owner", .str "ops")]).payload) "" = .ok plan ∧
      (candidateEntry ordersKey publishedCandidate).promotedCandidate = some candidate ∧
      .dataset merged ∈ plan.records ∧ merged.tableId = ordersKey ∧
      ¬ByPrecedence [("owner", .str "ops")] candidate merged := by
  obtain ⟨plan, hplan⟩ : ∃ plan,
      planMigration (some (publishedOverlay [("owner", .str "ops")]).payload) "" = .ok plan :=
    exists_of_isOk (by decide +kernel)
  obtain ⟨candidate, hcandidate⟩ : ∃ candidate,
      (candidateEntry ordersKey publishedCandidate).promotedCandidate = some candidate :=
    Option.isSome_iff_exists.1 (by decide +kernel)
  have hentry : (publishedOverlay [("owner", .str "ops")]).record? (.dataset ordersKey.name) =
      some (.obj [("owner", .str "ops")]) := rfl
  obtain ⟨own, hstate, -, -, htable, hplanned⟩ := merged_planned hplan hentry rfl hcandidate
  refine ⟨plan, candidate, mergedRecord own candidate, hplan, hcandidate,
    (hplanned (mergedRecord own candidate) htable).2 rfl, htable, fun hprecedence => ?_⟩
  have hvalue := hprecedence.publicationState
  rw [show (mergedRecord own candidate).publicationState = own.publicationState from rfl, hstate,
    (publicationState_of_promoted hcandidate).2] at hvalue
  revert hvalue
  decide +kernel

end Phlo.Dataset
