import Mathlib.Data.List.Induction
import Phlo.Iceberg.History

/-!
# A batch against a snapshot

What the loops of `_incoming`, `_lookup` and `_compare` compute, apart from the catalog they run over.

* `grouped_groupRows` — the groups are the row numbers of a batch by identity, each once;
* `Found.collect` — a scan for some identities finds what the snapshot holds for them;
* `compared_of_ok` — what a comparison that raises no conflict says.
-/

namespace Phlo.Iceberg

open Phlo.Library

variable {policy : HistoryPolicy}

/-! ### Groups -/

/-- The row numbers of a batch, each in the group of its identity. -/
structure Grouped (policy : HistoryPolicy) (rows : List Row) (groups : Groups) : Prop where
  members : ∀ key indices, groups.get key = some indices → indices ≠ [] ∧
    ∀ i ∈ indices, ∃ row, rows[i]? = some row ∧ policy.identity row = key
  grouped : ∀ i row, rows[i]? = some row → ∃ indices, groups.get (policy.identity row) = some indices ∧
    i ∈ indices
  total : (groups.items.map fun group => group.2.length).sum = rows.length

theorem groupRows_snoc (policy : HistoryPolicy) (rows : List Row) (row : Row) : groupRows policy (rows ++ [row]) =
      (groupRows policy rows).append (policy.identity row) rows.length := by
  rw [groupRows, List.zipIdx_append, List.foldl_append, groupRows]
  simp

theorem get_append (groups : Groups) (key : Identity) (index : ℕ) (k : Identity) : (groups.append key index).get k =
      if k = key then some ((groups.get key).getD [] ++ [index]) else groups.get k :=
  OrderedDict.get_set groups key _ k

theorem total_append (groups : Groups) (key : Identity) (index : ℕ) :
    ((groups.append key index).items.map fun group => group.2.length).sum =
      (groups.items.map fun group => group.2.length).sum + 1 := by
  have hsum := OrderedDict.sum_set List.length groups key ((groups.get key).getD [] ++ [index])
  rw [List.length_append, List.length_singleton] at hsum
  rw [Groups.append]
  cases hget : groups.get key with
  | none =>
    rw [hget] at hsum
    simpa using hsum
  | some indices =>
    rw [hget] at hsum
    simp only [Option.elim_some, Option.getD_some] at hsum ⊢
    omega

/-- The step: one more row. -/
theorem Grouped.snoc {rows : List Row} {groups : Groups} (h : Grouped policy rows groups) (row : Row) :
    Grouped policy (rows ++ [row]) (groups.append (policy.identity row) rows.length) where
  members key indices hget := by
    rw [get_append] at hget
    split at hget
    next hkey =>
      cases hget
      refine ⟨by simp, ?_⟩
      intro i hi
      obtain hold | hnew := List.mem_append.1 hi
      · cases hprev : groups.get (policy.identity row) with
        | none =>
          rw [hprev] at hold
          cases hold
        | some before =>
          rw [hprev] at hold
          obtain ⟨r, hr, hidentity⟩ := (h.members _ before hprev).2 i hold
          have hlt := (List.getElem?_eq_some_iff.1 hr).1
          exact ⟨r, by rw [List.getElem?_append_left hlt, hr], hidentity.trans hkey.symm⟩
      · rw [List.mem_singleton.1 hnew]
        exact ⟨row, List.getElem?_concat_length, hkey.symm⟩
    next hkey =>
      obtain ⟨hne, hmembers⟩ := h.members key indices hget
      refine ⟨hne, fun i hi => ?_⟩
      obtain ⟨r, hr, hidentity⟩ := hmembers i hi
      have hlt := (List.getElem?_eq_some_iff.1 hr).1
      exact ⟨r, by rw [List.getElem?_append_left hlt, hr], hidentity⟩
  grouped i r hr := by
    rw [get_append]
    by_cases hlt : i < rows.length
    · rw [List.getElem?_append_left hlt] at hr
      obtain ⟨indices, hget, hi⟩ := h.grouped i r hr
      split
      next hkey =>
        rw [← hkey, hget]
        exact ⟨_, rfl, List.mem_append_left _ hi⟩
      next => exact ⟨indices, hget, hi⟩
    · have hlen := (List.getElem?_eq_some_iff.1 hr).1
      rw [List.length_append, List.length_singleton] at hlen
      obtain rfl : i = rows.length := by omega
      rw [List.getElem?_concat_length] at hr
      cases hr
      rw [if_pos rfl]
      exact ⟨_, rfl, List.mem_append_right _ List.mem_cons_self⟩
  total := by
    rw [total_append, h.total, List.length_append, List.length_singleton]

theorem grouped_groupRows (policy : HistoryPolicy) (rows : List Row) :
    Grouped policy rows (groupRows policy rows) := by
  induction rows using List.reverseRecOn with
  | nil =>
    refine ⟨fun key indices hget => ?_, fun i row hr => ?_, rfl⟩
    · cases hget
    · cases hr
  | append_singleton rows row ih =>
    rw [groupRows_snoc]
    exact ih.snoc row

/-! ### Batches of identities -/

variable {key : Identity} {row : Row}

theorem mem_lookupBatches {identities : List Identity} :
    key ∈ identities ↔ ∃ batch ∈ lookupBatches identities, key ∈ batch := by
  constructor
  · intro h
    obtain ⟨i, hi⟩ := List.mem_iff_getElem?.1 h
    have hlt := (List.getElem?_eq_some_iff.1 hi).1
    have hdiv := Nat.div_add_mod i LOOKUP_FILTER_BATCH
    have hmod : i % LOOKUP_FILTER_BATCH < LOOKUP_FILTER_BATCH := Nat.mod_lt _ (by decide)
    refine ⟨_, List.mem_map_of_mem (List.mem_range.2 (?_ : i / LOOKUP_FILTER_BATCH < _)), ?_⟩
    · simp only [LOOKUP_FILTER_BATCH]
      omega
    · refine List.mem_of_getElem? (i := i % LOOKUP_FILTER_BATCH) ?_
      rw [List.getElem?_take_of_lt hmod, List.getElem?_drop, Nat.mul_comm, hdiv, hi]
  · intro h
    obtain ⟨batch, hbatch, hkey⟩ := h
    obtain ⟨i, -, rfl⟩ := List.mem_map.1 hbatch
    exact List.mem_of_mem_drop (List.mem_of_mem_take hkey)

theorem identityFilter_matches (policy : HistoryPolicy) (identities : List Identity) (row : Row) :
    (identityFilter policy identities).matches_ row = true ↔ policy.identity row ∈ identities := by
  rw [identityFilter, balancedOr_matches, List.any_map, List.any_eq_true]
  constructor
  · intro h
    obtain ⟨key, hkey, hmatches⟩ := h
    have hsame : policy.identity row = key := by
      simpa [Filter.matches_, HistoryPolicy.identity, Prod.ext_iff] using hmatches
    rwa [hsame]
  · intro h
    refine ⟨_, h, ?_⟩
    simp [Filter.matches_, HistoryPolicy.identity]

/-! ### Lookups -/

/-- What was found for some identities in the rows of a snapshot. -/
structure Found (policy : HistoryPolicy) (rows : List Row) (searched : List Identity)
    (existing : Existing) : Prop where
  sound : ∀ key payloads, existing.get key = some payloads → ∃ row ∈ rows, policy.identity row = key
  complete : ∀ row ∈ rows, policy.identity row ∈ searched →
    ∃ payloads, existing.get (policy.identity row) = some payloads ∧ policy.payload row ∈ payloads

theorem found_empty (policy : HistoryPolicy) (rows : List Row) : Found policy rows [] OrderedDict.empty where
  sound key payloads h := by cases h
  complete row _ h := by cases h

theorem get_collect_singleton (policy : HistoryPolicy) (groups : Groups) (existing : Existing) (row : Row) (key : Identity) :
    (collect policy groups existing [row]).get key = if key = policy.identity row ∧ (groups.get key).isSome then
        some ((existing.get key).getD [] ++ [policy.payload row]) else existing.get key := by
  show (if (groups.get (policy.identity row)).isSome then
    existing.set (policy.identity row) _ else existing).get key = _
  by_cases hgroup : (groups.get (policy.identity row)).isSome
  · rw [if_pos hgroup, OrderedDict.get_set]
    by_cases hkey : key = policy.identity row
    · subst hkey
      rw [if_pos rfl, if_pos ⟨rfl, hgroup⟩]
    · rw [if_neg hkey, if_neg fun h => hkey h.1]
  · rw [if_neg hgroup, if_neg]
    intro h
    rw [h.1] at h
    exact hgroup h.2

theorem collect_cons (groups : Groups) (existing : Existing) (row : Row) (rows : List Row) :
    collect policy groups existing (row :: rows) =
      collect policy groups (collect policy groups existing [row]) rows := rfl

theorem mem_collect_of_mem {groups : Groups} {existing : Existing} {rows : List Row} {payloads : List (List Value)}
    {payload : List Value} (h : existing.get key = some payloads) (hmem : payload ∈ payloads) :
    ∃ payloads', (collect policy groups existing rows).get key = some payloads' ∧ payload ∈ payloads' := by
  induction rows generalizing existing payloads with
  | nil => exact ⟨payloads, h, hmem⟩
  | cons row rows ih =>
    rw [collect_cons]
    have hone := get_collect_singleton policy groups existing row key
    split at hone
    · refine ih hone ?_
      rw [h]
      exact List.mem_append_left _ hmem
    · exact ih (hone.trans h) hmem

theorem mem_collect {groups : Groups} {existing : Existing} {rows : List Row} (hrow : row ∈ rows)
    (hgroup : (groups.get (policy.identity row)).isSome) :
    ∃ payloads, (collect policy groups existing rows).get (policy.identity row) = some payloads ∧
      policy.payload row ∈ payloads := by
  induction rows generalizing existing with
  | nil => cases hrow
  | cons first rows ih =>
    rw [collect_cons]
    obtain rfl | hrow := List.mem_cons.1 hrow
    · have hone := get_collect_singleton policy groups existing row (policy.identity row)
      rw [if_pos ⟨rfl, hgroup⟩] at hone
      exact mem_collect_of_mem hone (List.mem_append_right _ List.mem_cons_self)
    · exact ih hrow

theorem of_get_collect {groups : Groups} {existing : Existing} {rows : List Row}
    (h : ((collect policy groups existing rows).get key).isSome) :
    (existing.get key).isSome ∨ ∃ row ∈ rows, policy.identity row = key := by
  induction rows generalizing existing with
  | nil => exact .inl h
  | cons row rows ih =>
    rw [collect_cons] at h
    obtain hone | ⟨other, hother, hkey⟩ := ih h
    · rw [get_collect_singleton] at hone
      split at hone
      next hcond => exact .inr ⟨row, List.mem_cons_self, hcond.1.symm⟩
      next => exact .inl hone
    · exact .inr ⟨other, List.mem_cons_of_mem _ hother, hkey⟩

def HistoryPolicy.uses (policy : HistoryPolicy) (name : String) : Prop :=
  name ∈ policy.entityKey :: policy.versionKey :: policy.comparisonColumns

theorem policy_congr {row' : Row} (h : ∀ name, policy.uses name → row name = row' name) :
    policy.identity row = policy.identity row' ∧ policy.payload row = policy.payload row' := by
  constructor
  · exact Prod.ext (h _ List.mem_cons_self) (h _ (List.mem_cons_of_mem _ List.mem_cons_self))
  · exact List.map_congr_left fun name hname =>
      h name (List.mem_cons_of_mem _ (List.mem_cons_of_mem _ hname))

theorem restrict_lookupFields {table : LoadedTable}
    (hrow : row.restrict (table.columns.map fun column => column.field.name) = row) {name : String}
    (hname : policy.uses name) : row.restrict (lookupFields policy table) name = row name := by
  by_cases hcolumn : name ∈ table.columns.map fun column => column.field.name
  · refine Row.restrict_of_mem row (List.mem_filter.2 ⟨List.mem_dedup.2 hname, ?_⟩)
    exact decide_eq_true hcolumn
  · have hnull : row name = .null := by
      rw [← hrow]
      exact Row.restrict_of_notMem row hcolumn
    rw [hnull]
    exact Row.restrict_of_notMem row fun hmem =>
      hcolumn (of_decide_eq_true (List.mem_filter.1 hmem).2)

/-- The step: a scan for a batch of identities. -/
theorem Found.collect {rows : List Row} {searched batch : List Identity} {existing : Existing}
    {groups : Groups} {fields : List String} (h : Found policy rows searched existing)
    (hbatch : ∀ key ∈ batch, (groups.get key).isSome)
    (hfields : ∀ row ∈ rows, ∀ name, policy.uses name → row.restrict fields name = row name) :
    Found policy rows (searched ++ batch)
      (Iceberg.collect policy groups existing
        ((rows.filter (identityFilter policy batch).matches_).map (Row.restrict fields))) where
  sound key payloads hget := by
    obtain hold | ⟨read, hread, hkey⟩ := of_get_collect (by rw [hget]; rfl)
    · obtain ⟨before, hbefore⟩ := Option.isSome_iff_exists.1 hold
      exact h.sound key before hbefore
    · obtain ⟨row, hrow, rfl⟩ := List.mem_map.1 hread
      have hmem := (List.mem_filter.1 hrow).1
      exact ⟨row, hmem, (policy_congr (hfields row hmem)).1.symm.trans hkey⟩
  complete row hrow hsearched := by
    obtain hold | hnew := List.mem_append.1 hsearched
    · obtain ⟨payloads, hget, hpayload⟩ := h.complete row hrow hold
      exact mem_collect_of_mem hget hpayload
    · have hmatch := (identityFilter_matches policy batch row).2 hnew
      obtain ⟨hidentity, hpayload⟩ := policy_congr (hfields row hrow)
      have hread : row.restrict fields ∈
          (rows.filter (identityFilter policy batch).matches_).map (Row.restrict fields) :=
        List.mem_map_of_mem (List.mem_filter.2 ⟨hrow, hmatch⟩)
      have hcollected : ∃ payloads, (Iceberg.collect policy groups existing _).get
          (policy.identity (row.restrict fields)) = some payloads ∧ _ :=
        mem_collect hread (hidentity ▸ hbatch _ hnew)
      rwa [hidentity, hpayload] at hcollected

/-! ### Comparison -/

def payloadAt (policy : HistoryPolicy) (rows : List Row) (index : ℕ) : List Value :=
  policy.payload (rows.getD index fun _ => .null)

def Agrees (policy : HistoryPolicy) (rows : List Row) (existing : Existing) (group : Identity × List ℕ) : Prop :=
  ∀ i ∈ group.2, ∀ payload, (payload ∈ group.2.map (payloadAt policy rows) ∨
    payload ∈ (existing.get group.1).getD []) → payloadAt policy rows i = payload

def newIndex (existing : Existing) (group : Identity × List ℕ) : Option ℕ :=
  if (existing.get group.1).isSome then none else group.2.head?

theorem compareGroup_of_agrees {rows : List Row} {existing : Existing} {acc : CompareState}
    {group : Identity × List ℕ} (hne : group.2 ≠ [])
    (h : (compareGroup policy rows existing acc group).conflicting = 0) :
    acc.conflicting = 0 ∧ Agrees policy rows existing group ∧
      compareGroup policy rows existing acc group =
        { indices := acc.indices ++ (newIndex existing group).toList
          skipped := acc.skipped + (group.2.length - (newIndex existing group).toList.length)
          conflicting := 0 } := by
  obtain ⟨key, indices⟩ := group
  cases indices with
  | nil => exact absurd rfl hne
  | cons member members =>
    simp only [compareGroup, List.map_cons] at h ⊢
    split at h
    next hdiffer =>
      simp at h
    next hsame =>
      have hall : ∀ other ∈ members.map (payloadAt policy rows) ++ (existing.get key).getD [],
          payloadAt policy rows member = other := by
        intro other hother
        have hequal : ¬(!equalItems (payloadAt policy rows member) other) = true := fun hbad =>
          hsame (List.any_eq_true.2 ⟨other, hother, hbad⟩)
        rw [Bool.not_eq_true', Bool.not_eq_false] at hequal
        exact (equalItems_iff _ _).1 hequal
      have hagrees : Agrees policy rows existing (key, member :: members) := by
        have hfirst : ∀ payload, (payload ∈ (member :: members).map (payloadAt policy rows) ∨
            payload ∈ (existing.get key).getD []) → payloadAt policy rows member = payload := by
          intro payload hpayload
          obtain hbatch | hstored := hpayload
          · obtain rfl | hother := List.mem_cons.1 hbatch
            · rfl
            · exact hall payload (List.mem_append_left _ hother)
          · exact hall payload (List.mem_append_right _ hstored)
        intro i hi payload hpayload
        rw [← hfirst _ (.inl (List.mem_map_of_mem hi)), hfirst payload hpayload]
      rw [if_neg hsame]
      split at h
      next hfound =>
        have hzero : acc.conflicting = 0 := h
        refine ⟨hzero, hagrees, ?_⟩
        rw [if_pos hfound, newIndex, if_pos hfound]
        simp [hzero]
      next hfound =>
        have hzero : acc.conflicting = 0 := h
        refine ⟨hzero, hagrees, ?_⟩
        rw [if_neg hfound, newIndex, if_neg hfound]
        simp [hzero]

theorem length_newIndex_le (existing : Existing) (group : Identity × List ℕ) (hne : group.2 ≠ []) :
    (newIndex existing group).toList.length ≤ group.2.length := by
  rw [newIndex]
  split
  · exact Nat.zero_le _
  · cases hindices : group.2 with
    | nil => exact absurd hindices hne
    | cons member members => simp

/-- What a comparison that raises no conflict says. -/
structure Compared (policy : HistoryPolicy) (rows : List Row) (groups : List (Identity × List ℕ))
    (existing : Existing) (indices : List ℕ) (skipped : ℕ) : Prop where
  agrees : ∀ group ∈ groups, Agrees policy rows existing group
  indices_eq : indices = groups.filterMap (newIndex existing)
  total : skipped + indices.length = (groups.map fun group => group.2.length).sum

theorem compared_of_foldl {rows : List Row} {existing : Existing} {groups : List (Identity × List ℕ)}
    (hne : ∀ group ∈ groups, group.2 ≠ [])
    (h : (groups.foldl (compareGroup policy rows existing) {}).conflicting = 0) : Compared policy rows groups existing
      (groups.foldl (compareGroup policy rows existing) {}).indices
      (groups.foldl (compareGroup policy rows existing) {}).skipped := by
  induction groups using List.reverseRecOn with
  | nil => exact ⟨fun group hgroup => absurd hgroup List.not_mem_nil, rfl, rfl⟩
  | append_singleton groups group ih =>
    rw [List.foldl_append, List.foldl_cons, List.foldl_nil] at h ⊢
    have hgroup : group.2 ≠ [] := hne group (List.mem_append_right _ List.mem_cons_self)
    obtain ⟨hzero, hagrees, heq⟩ := compareGroup_of_agrees hgroup h
    have hprev := ih (fun g hg => hne g (List.mem_append_left _ hg)) hzero
    have hle := length_newIndex_le existing group hgroup
    rw [heq]
    refine ⟨?_, ?_, ?_⟩
    · intro g hg
      obtain hold | hlast := List.mem_append.1 hg
      · exact hprev.agrees g hold
      · rw [List.mem_singleton.1 hlast]
        exact hagrees
    · rw [List.filterMap_append, ← hprev.indices_eq]
      cases hnew : newIndex existing group <;> simp [hnew]
    · have htotal := hprev.total
      rw [List.map_append, List.sum_append, ← htotal, List.length_append]
      simp only [List.map_cons, List.map_nil, List.sum_cons, List.sum_nil]
      omega

theorem compared_of_ok {rows : List Row} {existing : Existing} {groups : List (Identity × List ℕ)}
    {indices : List ℕ} {metrics : HistoryMetrics} (hne : ∀ group ∈ groups, group.2 ≠ [])
    (h : compare policy rows groups existing = .ok (indices, metrics)) :
    Compared policy rows groups existing indices metrics.rowsSkipped ∧ metrics.rowsInserted = 0 := by
  rw [compare] at h
  split at h
  · cases h
  next hzero =>
    cases h
    exact ⟨compared_of_foldl hne (not_not.1 hzero), rfl⟩

/-! ### The rows to be inserted -/

section

variable {rows stored : List Row} {groups : Groups} {existing : Existing} {indices : List ℕ}
  {skipped : ℕ}

def rowAt (rows : List Row) (index : ℕ) : Row := rows.getD index fun _ => .null

theorem rowAt_eq {i : ℕ} (h : rows[i]? = some row) : rowAt rows i = row := by
  rw [rowAt, List.getD_eq_getElem?_getD, h, Option.getD_some]

/-- The rows to be inserted have the identities that were not found, each once. -/
theorem map_identity_indices (hgroups : Grouped policy rows groups)
    (hcompared : Compared policy rows groups.items existing indices skipped) :
    indices.map (fun i => policy.identity (rowAt rows i)) =
      (groups.items.filter fun group => !(existing.get group.1).isSome).map Prod.fst := by
  rw [hcompared.indices_eq]
  have hitems : ∀ items : List (Identity × List ℕ), (∀ item ∈ items, item ∈ groups.items) →
      (items.filterMap (newIndex existing)).map (fun i => policy.identity (rowAt rows i)) =
        (items.filter fun group => !(existing.get group.1).isSome).map Prod.fst := by
    intro items hsub
    induction items with
    | nil => rfl
    | cons item items ih =>
      have hrest := ih fun other hother => hsub other (List.mem_cons_of_mem _ hother)
      cases hfound : existing.get item.1 with
      | some payloads =>
        have hnone : newIndex existing item = none := by rw [newIndex, hfound]; rfl
        rw [List.filterMap_cons_none hnone, hrest, List.filter_cons_of_neg (by simp [hfound])]
      | none =>
        obtain ⟨hne, hmembers⟩ := hgroups.members item.1 item.2
          (OrderedDict.get_eq_some_iff.2 (hsub item List.mem_cons_self))
        cases hindices : item.2 with
        | nil => exact absurd hindices hne
        | cons member members =>
          have hsome : newIndex existing item = some member := by
            rw [newIndex, hfound, hindices]
            rfl
          obtain ⟨row, hrow, hidentity⟩ := hmembers member (by rw [hindices]; exact List.mem_cons_self)
          rw [List.filterMap_cons_some hsome, List.map_cons, hrest, rowAt_eq hrow, hidentity,
            List.filter_cons_of_pos (by simp [hfound]), List.map_cons]
  exact hitems groups.items fun _ h => h

theorem inserted_identities (hgroups : Grouped policy rows groups)
    (hfound : Found policy stored (groups.items.map Prod.fst) existing)
    (hcompared : Compared policy rows groups.items existing indices skipped) :
    (indices.map fun i => policy.identity (rowAt rows i)).Nodup ∧
      ∀ i ∈ indices, ∀ row ∈ stored, policy.identity row ≠ policy.identity (rowAt rows i) := by
  have hmap := map_identity_indices hgroups hcompared
  constructor
  · rw [hmap]
    exact groups.nodup.sublist (List.filter_sublist.map Prod.fst)
  · intro i hi row hrow hsame
    have hmem : policy.identity (rowAt rows i) ∈
        (groups.items.filter fun group => !(existing.get group.1).isSome).map Prod.fst := by
      rw [← hmap]
      exact List.mem_map_of_mem hi
    obtain ⟨group, hgroup, hkey⟩ := List.mem_map.1 hmem
    obtain ⟨hitem, hnone⟩ := List.mem_filter.1 hgroup
    obtain ⟨payloads, hget, -⟩ := hfound.complete row hrow (by
      rw [hsame, ← hkey]
      exact List.mem_map_of_mem hitem)
    rw [hkey, ← hsame, hget] at hnone
    cases hnone

theorem covered (hgroups : Grouped policy rows groups)
    (hfound : Found policy stored (groups.items.map Prod.fst) existing)
    (hcompared : Compared policy rows groups.items existing indices skipped) (hrow : row ∈ rows) :
    (∃ old ∈ stored, policy.identity old = policy.identity row ∧ policy.payload old = policy.payload row) ∨
      ∃ i ∈ indices, policy.identity (rowAt rows i) = policy.identity row ∧
        policy.payload (rowAt rows i) = policy.payload row := by
  obtain ⟨i, hi⟩ := List.mem_iff_getElem?.1 hrow
  obtain ⟨members, hget, himem⟩ := hgroups.grouped i row hi
  have hitem : (policy.identity row, members) ∈ groups.items := OrderedDict.get_eq_some_iff.1 hget
  have hagrees := hcompared.agrees _ hitem i himem
  rw [payloadAt, show rows.getD i (fun _ => .null) = row from rowAt_eq hi] at hagrees
  cases hexisting : existing.get (policy.identity row) with
  | some payloads =>
    obtain ⟨old, hold, hidentity⟩ := hfound.sound _ _ hexisting
    obtain ⟨payloads', hget', hpayload⟩ := hfound.complete old hold (by
      rw [hidentity]
      exact List.mem_map_of_mem hitem)
    rw [hidentity] at hget'
    refine .inl ⟨old, hold, hidentity, (hagrees _ (.inr ?_)).symm⟩
    rw [hget']
    exact hpayload
  | none =>
    obtain ⟨hne, hmembers⟩ := hgroups.members _ members hget
    cases members with
    | nil => exact absurd rfl hne
    | cons first others =>
      have hindex : first ∈ indices := by
        rw [hcompared.indices_eq]
        refine List.mem_filterMap.2 ⟨_, hitem, ?_⟩
        rw [newIndex, hexisting]
        rfl
      obtain ⟨firstRow, hfirst, hidentity⟩ := hmembers first List.mem_cons_self
      refine .inr ⟨first, hindex, ?_, ?_⟩
      · rw [rowAt_eq hfirst, hidentity]
      · exact (hagrees _ (.inl (List.mem_map_of_mem List.mem_cons_self))).symm

end

end Phlo.Iceberg
