import Phlo.Promotion.Replay

/-!
# Resuming a promotion

What a promotion leaves behind when it crashes after it has been recorded as pending.
-/

namespace Phlo.Promotion

open Phlo.Library

/-! ### Branches and main -/

section

variable (w : Warehouse)

theorem branch_setTable (tableName : String) (table : IcebergTable) (tableName' ref : String) :
    (w.setTable tableName table).branch tableName' ref =
      if tableName' = tableName then table.refs.get ref else w.branch tableName' ref := by
  unfold Warehouse.branch Warehouse.setTable
  dsimp only
  by_cases h : tableName' = tableName
  · rw [h, Function.update_self, if_pos rfl]
    rfl
  · rw [Function.update_of_ne h, if_neg h]

theorem main_setTable (tableName : String) (table : IcebergTable) (tableName' : String) :
    (w.setTable tableName table).main tableName' =
      if tableName' = tableName then table.current else w.main tableName' := by
  unfold Warehouse.main Warehouse.setTable
  dsimp only
  by_cases h : tableName' = tableName
  · rw [h, Function.update_self, if_pos rfl]
    rfl
  · rw [Function.update_of_ne h, if_neg h]

theorem branch_removeBranch (tableName ref tableName' ref' : String) :
    (w.removeBranch tableName ref).branch tableName' ref' =
      if tableName' = tableName ∧ ref' = ref then none else w.branch tableName' ref' := by
  unfold Warehouse.removeBranch
  cases htable : w.tables tableName with
  | none =>
    dsimp only
    split
    next h =>
      rw [h.1, Warehouse.branch, htable]
      rfl
    · rfl
  | some table =>
    dsimp only
    rw [branch_setTable]
    by_cases hname : tableName' = tableName
    · rw [if_pos hname, OrderedDict.get_erase, hname, Warehouse.branch, htable]
      simp
    · rw [if_neg hname, if_neg fun h => hname h.1]

theorem main_removeBranch (tableName ref tableName' : String) :
    (w.removeBranch tableName ref).main tableName' = w.main tableName' := by
  unfold Warehouse.removeBranch
  cases htable : w.tables tableName with
  | none => rfl
  | some table =>
    dsimp only
    rw [main_setTable]
    split
    next h =>
      rw [h, Warehouse.main, htable]
      rfl
    · rfl

variable {w} {w' : Warehouse}

theorem overwrite_eq_some {tableName : String} {current : Option ℕ} {rows : List Iceberg.Row}
    {releaseId : String} {candidate : ℕ} (h : w.overwrite tableName current rows releaseId candidate = some w') :
    (∀ tableName' ref, w'.branch tableName' ref = w.branch tableName' ref) ∧ ∀ tableName', w'.main tableName' =
        if tableName' = tableName then some ⟨w.nextSnapshot, rows, some releaseId, some candidate⟩
        else w.main tableName' := by
  unfold Warehouse.overwrite at h
  cases htable : w.tables tableName with
  | none =>
    rw [htable] at h
    cases h
  | some table =>
    rw [htable] at h
    dsimp only at h
    split at h
    next =>
      cases h
      refine ⟨fun tableName' ref => ?_, fun tableName' => ?_⟩
      · rw [branch_setTable]
        split
        next heq =>
          rw [heq, Warehouse.branch, htable]
          rfl
        · rfl
      · rw [main_setTable]
        rfl
    · cases h

end

/-! ### The validation -/

section

variable {w w' : Warehouse} {call : PromoteCall} {row : CandidateRow} {e : Prepared}

theorem prepareOne_eq {tip : Snapshot} (h : w.branch row.tableName call.ref = some tip) : prepareOne w call row =
      if ¬(((w.main row.tableName).bind Snapshot.releaseId) = some call.releaseId ∧
          ((w.main row.tableName).bind Snapshot.candidateSnapshotId) = some tip.id) ∧
          (w.main row.tableName).map Snapshot.id ≠ some row.snapshotId then .error (.mainChanged row.tableName)
      else .ok ⟨row, w.main row.tableName, tip,
        ((w.main row.tableName).bind Snapshot.releaseId) = some call.releaseId ∧
          ((w.main row.tableName).bind Snapshot.candidateSnapshotId) = some tip.id⟩ := by
  unfold prepareOne
  cases htable : w.tables row.tableName with
  | none =>
    rw [Warehouse.branch, htable] at h
    cases h
  | some table =>
    have hmain : w.main row.tableName = table.current := by
      rw [Warehouse.main, htable]
      rfl
    rw [Warehouse.branch, htable] at h
    have hget : table.refs.get call.ref = some tip := h
    dsimp only
    rw [hget, hmain]

theorem prepareOne_congr (hbranch : w'.branch row.tableName call.ref = w.branch row.tableName call.ref)
    (hmain : w'.main row.tableName = w.main row.tableName) (h : prepareOne w call row = .ok e) :
    prepareOne w' call row = .ok e := by
  have htip := (prepareOne_eq_ok h).2.1
  rw [prepareOne_eq htip] at h
  rw [prepareOne_eq (hbranch.trans htip), hmain]
  exact h

theorem prepareOne_written {tip snapshot : Snapshot} (htip : w.branch row.tableName call.ref = some tip)
    (hmain : w.main row.tableName = some snapshot) (hrelease : snapshot.releaseId = some call.releaseId)
    (hcandidate : snapshot.candidateSnapshotId = some tip.id) :
    prepareOne w call row = .ok ⟨row, some snapshot, tip, true⟩ := by
  have hwritten : ((some snapshot : Option Snapshot).bind Snapshot.releaseId) = some call.releaseId ∧
      ((some snapshot : Option Snapshot).bind Snapshot.candidateSnapshotId) = some tip.id :=
    ⟨hrelease, hcandidate⟩
  rw [prepareOne_eq htip, hmain, if_neg fun h => h.1 hwritten, decide_eq_true hwritten]

end

/-! ### Interrupted promotions -/

/-- The promotion may go on, its candidates pass the validation, and what is pending are their tips. -/
structure Interrupted (w : Warehouse) (call : PromoteCall) : Prop where
  may : MayPromote w.ledger call
  selected : ∀ row ∈ call.selected w.ledger, ∃ e, prepareOne w call row = .ok e ∧
    ∃ p ∈ w.ledger.pendingPromotions, p.tableName = row.tableName ∧ p.snapshotId = e.tip.id
  pending : ∀ p ∈ w.ledger.pendingPromotions, ∃ row ∈ call.selected w.ledger, ∃ e,
    prepareOne w call row = .ok e ∧ p.tableName = row.tableName ∧ p.snapshotId = e.tip.id

section

variable {w w' : Warehouse} {call : PromoteCall}

theorem Interrupted.branch (h : Interrupted w call) {p : PromotionRow} (hp : p ∈ w.ledger.pendingPromotions) :
    ∃ tip, w.branch p.tableName (candidateRefForRun p.runId) = some tip ∧ tip.id = p.snapshotId := by
  obtain ⟨row, -, e, he, hname, htip⟩ := h.pending p hp
  refine ⟨e.tip, ?_, htip.symm⟩
  rw [(h.may.pending_own p hp).2, hname]
  exact (prepareOne_eq_ok he).2.1

theorem Interrupted.pending_ne (h : Interrupted w call) : w.ledger.pendingPromotions ≠ [] := by
  obtain ⟨row, hrow⟩ := List.exists_mem_of_ne_nil _ h.may.selected_ne
  obtain ⟨e, -, p, hp, -⟩ := h.selected row hrow
  exact List.ne_nil_of_mem hp

theorem Interrupted.of_ledger (h : Interrupted w call) (hledger : w'.ledger = w.ledger)
    (hvalid : ∀ row ∈ call.selected w.ledger, ∀ e, prepareOne w call row = .ok e →
      ∃ e', prepareOne w' call row = .ok e' ∧ e'.tip = e.tip) : Interrupted w' call := by
  refine ⟨by rw [hledger]; exact h.may, fun row hrow => ?_, fun p hp => ?_⟩
  · rw [hledger] at hrow ⊢
    obtain ⟨e, he, p, hp, hname, htip⟩ := h.selected row hrow
    obtain ⟨e', he', hsame⟩ := hvalid row hrow e he
    exact ⟨e', he', p, hp, hname, by rw [hsame, htip]⟩
  · rw [hledger] at hp ⊢
    obtain ⟨row, hrow, e, he, hname, htip⟩ := h.pending p hp
    obtain ⟨e', he', hsame⟩ := hvalid row hrow e he
    exact ⟨row, hrow, e', he', hname, by rw [hsame, htip]⟩

end

/-! ### Candidates -/

/-- Each row is kept under its own table and snapshot. -/
def KeyedByCandidate (latest : OrderedDict (String × ℕ) CandidateRow) : Prop :=
  ∀ item ∈ latest.items, item.1 = (item.2.tableName, item.2.snapshotId)

section

variable {latest : OrderedDict (String × ℕ) CandidateRow} {row : CandidateRow}

theorem KeyedByCandidate.set (h : KeyedByCandidate latest) (row : CandidateRow) :
    KeyedByCandidate (latest.set (row.tableName, row.snapshotId) row) := by
  intro item hitem
  have hget := OrderedDict.get_eq_some_iff.2 (show (item.1, item.2) ∈ _ from hitem)
  rw [OrderedDict.get_set] at hget
  split at hget
  next heq =>
    obtain rfl := Option.some.inj hget
    exact heq
  next => exact h item (OrderedDict.get_eq_some_iff.1 hget)

theorem KeyedByCandidate.keepLatest (h : KeyedByCandidate latest) (row : CandidateRow) :
    KeyedByCandidate (Ledger.keepLatest latest row) := by
  unfold Ledger.keepLatest
  split
  · exact h.set row
  · split
    · exact h.set row
    · exact h

theorem keyedByCandidate_foldl (h : KeyedByCandidate latest) (rows : List CandidateRow) :
    KeyedByCandidate (rows.foldl Ledger.keepLatest latest) := by
  induction rows generalizing latest with
  | nil => exact h
  | cons row rows ih => exact ih (h.keepLatest row)

theorem keyedByCandidate_empty : KeyedByCandidate .empty := fun _ h => absurd h List.not_mem_nil

theorem filter_values_set {keep : CandidateRow → Bool} (hrow : keep row = false)
    (hold : ∀ k a, (k, a) ∈ latest.items → k = (row.tableName, row.snapshotId) → keep a = false) :
    (latest.set (row.tableName, row.snapshotId) row).values.filter keep = latest.values.filter keep := by
  rw [OrderedDict.set, OrderedDict.values, OrderedDict.values]
  split
  next =>
    show ((OrderedDict.replaced _ row latest.items).map Prod.snd).filter keep = _
    rw [OrderedDict.replaced, List.map_map]
    generalize latest.items = items at hold ⊢
    induction items with
    | nil => rfl
    | cons item items ih =>
      have hrest := ih fun k a ha => hold k a (List.mem_cons_of_mem item ha)
      rw [List.map_cons, List.map_cons, List.filter_cons, List.filter_cons, hrest]
      by_cases hkey : item.1 = (row.tableName, row.snapshotId)
      · have hitem := hold item.1 item.2 List.mem_cons_self hkey
        simp [hkey, hrow, hitem]
      · simp [hkey]
  next =>
    show ((latest.items ++ [(_, row)]).map Prod.snd).filter keep = _
    rw [List.map_append, List.filter_append, List.map_singleton, List.filter_singleton, hrow]
    exact List.append_nil _

theorem filter_values_foldl {keep : CandidateRow → Bool} (hkeyed : KeyedByCandidate latest)
    (rows : List CandidateRow) (hrows : ∀ row ∈ rows, keep row = false)
    (hother : ∀ row ∈ rows, ∀ a ∈ latest.values.filter keep, a.tableName ≠ row.tableName) :
    (rows.foldl Ledger.keepLatest latest).values.filter keep = latest.values.filter keep := by
  induction rows generalizing latest with
  | nil => rfl
  | cons row rows ih =>
    have hset : (latest.set (row.tableName, row.snapshotId) row).values.filter keep = latest.values.filter keep := by
      refine filter_values_set (hrows row List.mem_cons_self) fun k a ha hk => ?_
      by_contra hkeep
      have hmem : a ∈ latest.values.filter keep :=
        List.mem_filter.2 ⟨List.mem_map.2 ⟨(k, a), ha, rfl⟩, eq_true_of_ne_false hkeep⟩
      refine hother row List.mem_cons_self a hmem ?_
      exact (Prod.mk.inj ((hkeyed (k, a) ha).symm.trans hk)).1
    have hstep : (Ledger.keepLatest latest row).values.filter keep = latest.values.filter keep := by
      unfold Ledger.keepLatest
      split
      · exact hset
      · split
        · exact hset
        · rfl
    rw [List.foldl_cons, ih (hkeyed.keepLatest row) fun r hr => hrows r (List.mem_cons_of_mem row hr), hstep]
    intro r hr a ha
    rw [hstep] at ha
    exact hother r (List.mem_cons_of_mem row hr) a ha

end

def latestRows (l : Ledger) (runId : String) : OrderedDict (String × ℕ) CandidateRow :=
  (l.candidates.filter fun row => row.runId = runId).foldl Ledger.keepLatest .empty

theorem keyed_latestRows (l : Ledger) (runId : String) : KeyedByCandidate (latestRows l runId) :=
  keyedByCandidate_foldl keyedByCandidate_empty _

theorem selected_eq (call : PromoteCall) (l : Ledger) :
    call.selected l = (latestRows l call.runId).values.filter fun row =>
      Ledger.selects call.tables row.tableName && decide (row.status = .opened) :=
  List.filter_filter ..

/-- **Closing candidates of tables that are not selected** does not change the selection. -/
theorem selected_candidateEntries {l : Ledger} {call : PromoteCall} {rows : List CandidateRow}
    (hclosed : ∀ row ∈ rows, row.status ≠ .opened)
    (hother : ∀ row ∈ rows, row.runId = call.runId → ∀ r ∈ call.selected l, r.tableName ≠ row.tableName) :
    call.selected (l ++ candidateEntries rows) = call.selected l := by
  rw [selected_eq, selected_eq]
  have hsplit : latestRows (l ++ candidateEntries rows) call.runId =
      (rows.filter fun row => row.runId = call.runId).foldl Ledger.keepLatest (latestRows l call.runId) := by
    rw [latestRows, candidates_append, candidates_candidateEntries, List.filter_append, List.foldl_append]
    rfl
  rw [hsplit]
  refine filter_values_foldl (keyed_latestRows l call.runId) _ (fun row hrow => ?_) fun row hrow r hr => ?_
  · rw [decide_eq_false (hclosed row (List.mem_of_mem_filter hrow)), Bool.and_false]
  · obtain ⟨hmem, hrun⟩ := List.mem_filter.1 hrow
    rw [← selected_eq] at hr
    exact hother row hmem (of_decide_eq_true hrun) r hr

theorem mem_of_foldl_keepLatest {latest : OrderedDict (String × ℕ) CandidateRow} {rows : List CandidateRow}
    {row : CandidateRow} (h : row ∈ (rows.foldl Ledger.keepLatest latest).values) :
    row ∈ latest.values ∨ row ∈ rows := by
  induction rows generalizing latest with
  | nil => exact .inl h
  | cons r rows ih =>
    obtain hmem | hmem := ih h
    · -- what was there, or the row that has been set
      have hset : row ∈ (latest.set (r.tableName, r.snapshotId) r).values → row ∈ latest.values ∨ row = r := by
        intro hvalue
        obtain ⟨k, hk⟩ := OrderedDict.mem_values.1 hvalue
        rw [OrderedDict.get_set] at hk
        split at hk
        · exact .inr (Option.some.inj hk).symm
        · exact .inl (OrderedDict.mem_values.2 ⟨k, hk⟩)
      have hkept : row ∈ latest.values ∨ row = r := by
        unfold Ledger.keepLatest at hmem
        split at hmem
        · exact hset hmem
        · split at hmem
          · exact hset hmem
          · exact .inl hmem
      obtain hold | rfl := hkept
      · exact .inl hold
      · exact .inr List.mem_cons_self
    · exact .inr (List.mem_cons_of_mem r hmem)

theorem runId_of_mem_open {l : Ledger} {runId : String} {row : CandidateRow}
    (h : row ∈ l.openCandidateRows runId) : row.runId = runId := by
  obtain hnone | hmem := mem_of_foldl_keepLatest (List.mem_of_mem_filter h)
  · cases hnone
  · exact of_decide_eq_true (List.mem_filter.1 hmem).2

theorem selected_pairwise (call : PromoteCall) (l : Ledger) : (call.selected l).Pairwise fun r r' =>
    r.tableName = r'.tableName → r.snapshotId ≠ r'.snapshotId := by
  rw [selected_eq]
  refine List.Pairwise.filter _ ?_
  have hnodup := (latestRows l call.runId).nodup
  have hkeyed := keyed_latestRows l call.runId
  rw [OrderedDict.values, List.pairwise_map]
  rw [List.Nodup, List.pairwise_map] at hnodup
  refine hnodup.imp_of_mem fun {item item'} hitem hitem' hne hname hsnapshot => hne ?_
  rw [hkeyed item hitem, hkeyed item' hitem', hname, hsnapshot]

section

variable {w : Warehouse} {call : PromoteCall} {rows : List CandidateRow}

theorem MayPromote.candidateEntries {l : Ledger} (h : MayPromote l call)
    (hselected : call.selected (l ++ candidateEntries rows) = call.selected l) :
    MayPromote (l ++ candidateEntries rows) call := by
  have hrevision : Ledger.currentRevision (l ++ Promotion.candidateEntries rows) = l.currentRevision :=
    currentRevision_append (states_candidateEntries rows)
  have hpending : Ledger.pendingPromotions (l ++ Promotion.candidateEntries rows) = l.pendingPromotions :=
    pendingPromotions_append (states_candidateEntries rows) (promotions_candidateEntries rows)
  refine ⟨?_, ?_, ?_, ?_, ?_⟩
  · rw [hrevision]
    exact h.expected
  · rw [released_append, released_eq_nil (releases_candidateEntries rows), List.append_nil]
    exact h.unreleased
  · rw [hpending]
    exact h.pending_own
  · rw [hselected]
    exact h.selected_ne
  · rw [hselected, hrevision]
    exact h.revisions

/-- **Closing candidates whose branches are gone** does not matter. -/
theorem Interrupted.close (h : Interrupted w call) (hclosed : ∀ row ∈ rows, row.status ≠ .opened)
    (hgone : ∀ row ∈ rows, row.runId = call.runId → w.branch row.tableName call.ref = none) :
    Interrupted (w.append (candidateEntries rows)) call := by
  have hselected : call.selected (w.ledger ++ candidateEntries rows) = call.selected w.ledger := by
    refine selected_candidateEntries hclosed fun row hrow hrun r hr heq => ?_
    obtain ⟨e, he, -⟩ := h.selected r hr
    have htip := (prepareOne_eq_ok he).2.1
    rw [heq, hgone row hrow hrun] at htip
    cases htip
  have hpending : Ledger.pendingPromotions (w.ledger ++ candidateEntries rows) = w.ledger.pendingPromotions :=
    pendingPromotions_append (states_candidateEntries rows) (promotions_candidateEntries rows)
  refine ⟨h.may.candidateEntries hselected, fun row hrow => ?_, fun p hp => ?_⟩
  · rw [ledger_append, hselected] at hrow
    rw [ledger_append, hpending]
    exact h.selected row hrow
  · rw [ledger_append, hpending] at hp
    rw [ledger_append, hselected]
    exact h.pending p hp

end

/-! ### The retry -/

section

variable {found : Found} {w : Warehouse} {call : PromoteCall} {a : Attempt}

/-- The promotion comes to its end, and answers with its release. -/
def Completes (found : Found) (call : PromoteCall) (w : Warehouse) (stage : PromoteStage) : Prop :=
  ∃ w' records, records ≠ [] ∧ Solo catalog found w' (.released records) w (.promote call stage)

theorem promote_turn (hfault : found.fault = false) (free : Bool) (stage : PromoteStage) :
    catalog.turn free found w (.promote call stage) = (promoteTurn free found w call stage).map (.promote call) := by
  show Process.turn free found w (.promote call stage) = _
  unfold Process.turn Process.proceed
  rw [hfault]
  rfl

theorem Completes.next (hfault : found.fault = false) {w₁ : Warehouse} {stage stage' : PromoteStage}
    (h : Completes found call w₁ stage') (hgo : promoteTurn false found w call stage = .go w₁ stage')
    (hstage : stage' ≠ .enter) : Completes found call w stage := by
  obtain ⟨w', records, hne, hsolo⟩ := h
  have hturn : catalog.turn false found w (.promote call stage) = .go w₁ (.promote call stage') := by
    rw [promote_turn hfault, hgo]
    rfl
  have hholds : catalog.holds (.promote call stage') = true := by
    show Process.holds (.promote call stage') = true
    cases stage' with
    | enter => exact absurd rfl hstage
    | _ => rfl
  exact ⟨w', records, hne, .next hturn hholds rfl hsolo⟩

/-- The branches are removed, and the records are the answer. -/
theorem completes_cleanup (hfault : found.fault = false) {records : List ReleaseRecord}
    (hne : records ≠ []) (todo : List ReleaseRecord) : Completes found call w (.cleanup todo records) := by
  induction todo generalizing w with
  | nil =>
    refine ⟨w, records, hne, .last ?_⟩
    rw [promote_turn hfault]
    rfl
  | cons record todo ih => exact ih.next hfault rfl (by simp)

/-- What is left to write can be written. -/
structure Writable (w : Warehouse) (e : Prepared) : Prop where
  main : w.main e.row.tableName = e.current
  written : e.alreadyWritten = true → e.current ≠ none
  table : w.tables e.row.tableName ≠ none

theorem writeOne_of_writable (call : PromoteCall) (a : Attempt) {e : Prepared} (h : Writable w e) : ∃ w' snapshotId,
    writeOne w call a e = .ok (w', releaseRecord call a e snapshotId) ∧
      w'.ledger = w.ledger ∧ ∀ e', Writable w e' → (e.alreadyWritten = false →
        e'.row.tableName ≠ e.row.tableName) → Writable w' e' := by
  cases hwritten : e.alreadyWritten with
  | true =>
    cases hcurrent : e.current with
    | none => exact absurd hcurrent (h.written hwritten)
    | some snapshot =>
      refine ⟨w, snapshot.id, ?_, rfl, fun e' he' _ => he'⟩
      unfold writeOne
      rw [hwritten, if_pos rfl, hcurrent]
  | false =>
    cases htable : w.tables e.row.tableName with
    | none => exact absurd htable h.table
    | some table =>
      have hmain : table.current = e.current := by
        rw [← h.main, Warehouse.main, htable]
        rfl
      obtain ⟨w', hover, htables⟩ : ∃ w', w.overwrite e.row.tableName (e.current.map Snapshot.id) e.tip.rows
          call.releaseId e.tip.id = some w' ∧
          ∀ tableName, tableName ≠ e.row.tableName → w'.tables tableName = w.tables tableName := by
        unfold Warehouse.overwrite
        rw [htable]
        exact ⟨_, if_pos (congrArg (Option.map Snapshot.id) hmain), fun _ hne => Function.update_of_ne hne ..⟩
      obtain ⟨-, hmains⟩ := overwrite_eq_some hover
      refine ⟨w', w.nextSnapshot, ?_, ledger_overwrite hover, fun e' he' hne => ?_⟩
      · unfold writeOne
        rw [hwritten, hover]
        rfl
      · have hother := hne rfl
        refine ⟨?_, he'.written, ?_⟩
        · rw [hmains, if_neg hother]
          exact he'.main
        · rw [htables _ hother]
          exact he'.table

theorem completes_write (hfault : found.fault = false) (todo : List Prepared) (records : List ReleaseRecord)
    (hversion : w.ledger.length = a.version) (hwritable : ∀ e ∈ todo, Writable w e)
    (hapart : todo.Pairwise fun e e' => e.alreadyWritten = false → e'.row.tableName ≠ e.row.tableName)
    (hne : todo ≠ [] ∨ records ≠ []) : Completes found call w (.write a todo records) := by
  induction todo generalizing w records with
  | nil =>
    have hgo : promoteTurn false found w call (.write a [] records) =
        .go (w.append (receipts records (stateRow call a))) (.cleanup records records) := if_pos hversion
    exact (completes_cleanup hfault (hne.resolve_left fun h => h rfl) records).next hfault hgo (by simp)
  | cons e todo ih =>
    obtain ⟨hfirst, hrest⟩ := List.pairwise_cons.1 hapart
    obtain ⟨w', snapshotId, hwrite, hledger, hkeeps⟩ :=
      writeOne_of_writable call a (hwritable e List.mem_cons_self)
    have hgo : promoteTurn false found w call (.write a (e :: todo) records) =
        .go w' (.write a todo (records ++ [releaseRecord call a e snapshotId])) := by
      unfold promoteTurn
      dsimp only
      rw [hwrite]
    refine Completes.next hfault (ih _ (by rw [hledger]; exact hversion) (fun e' he' => ?_) hrest
      (.inr (by simp))) hgo (by simp)
    exact hkeeps e' (hwritable e' (List.mem_cons_of_mem e he')) fun hnot => hfirst e' he' hnot

theorem completes_prepare (hfault : found.fault = false) (todo : List CandidateRow)
    (prepared : List Prepared) (htodo : ∀ row ∈ todo, ∃ e, prepareOne w call row = .ok e)
    (hprepared : ∀ e ∈ prepared, prepareOne w call e.row = .ok e)
    (hend : ∀ prepared', prepared'.map Prepared.row = prepared.map Prepared.row ++ todo →
      (∀ e ∈ prepared', prepareOne w call e.row = .ok e) → Completes found call w (.prepare a [] prepared')) :
    Completes found call w (.prepare a todo prepared) := by
  induction todo generalizing prepared with
  | nil => exact hend prepared (List.append_nil _).symm hprepared
  | cons row todo ih =>
    obtain ⟨e, he⟩ := htodo row List.mem_cons_self
    have hrow := (prepareOne_eq_ok he).1
    have hgo : promoteTurn false found w call (.prepare a (row :: todo) prepared) =
        .go w (.prepare a todo (prepared ++ [e])) := by
      unfold promoteTurn
      dsimp only
      rw [he]
    refine Completes.next hfault (ih (prepared ++ [e]) (fun r hr => htodo r (List.mem_cons_of_mem row hr))
      (fun e' he' => ?_) fun prepared' hrows hall => hend prepared' ?_ hall) hgo (by simp)
    · obtain he' | he' := List.mem_append.1 he'
      · exact hprepared e' he'
      · obtain rfl := List.mem_singleton.1 he'
        rw [hrow]
        exact he
    · rw [hrows, List.map_append, List.map_singleton, hrow, List.append_assoc]
      rfl

theorem promoteRead_of_may (h : MayPromote w.ledger call) (now : ℤ) : promoteRead now w call =
    .go w (.prepare ⟨w.ledger.currentRevision, w.ledger.pendingPromotions, now, w.ledger.length⟩
      (call.selected w.ledger) []) := by
  unfold promoteRead
  dsimp only
  rw [if_neg (by rw [h.expected]; decide), if_neg (not_not.2 h.unreleased), if_neg, if_neg h.selected_ne,
    if_neg]
  · intro hany
    obtain ⟨row, hrow, hno⟩ := List.any_eq_true.1 hany
    exact of_decide_eq_true hno (h.revisions row hrow)
  · intro hany
    obtain ⟨row, hrow, hno⟩ := List.any_eq_true.1 hany
    rw [Bool.or_eq_true, decide_eq_true_eq, decide_eq_true_eq] at hno
    obtain ⟨hid, hrun⟩ := h.pending_own row hrow
    exact hno.elim (fun hne => hne hid) fun hne => hne hrun

theorem writable_of_prepared {e : Prepared} (h : prepareOne w call e.row = .ok e) : Writable w e := by
  obtain ⟨-, htip, hmain, hwritten, -⟩ := prepareOne_eq_ok h
  refine ⟨hmain, fun hyes hnone => ?_, fun hnone => ?_⟩
  · have hrelease := (hwritten.1 hyes).1
    rw [hnone] at hrelease
    cases hrelease
  · rw [Warehouse.branch, hnone] at htip
    cases htip

theorem apart_of_prepared {e e' : Prepared} (h : prepareOne w call e.row = .ok e)
    (h' : prepareOne w call e'.row = .ok e')
    (hrows : e.row.tableName = e'.row.tableName → e.row.snapshotId ≠ e'.row.snapshotId)
    (hnot : e.alreadyWritten = false) : e'.row.tableName ≠ e.row.tableName := by
  intro hname
  obtain ⟨-, htip, hmain, hwritten, hsnapshot⟩ := prepareOne_eq_ok h
  obtain ⟨-, htip', hmain', hwritten', hsnapshot'⟩ := prepareOne_eq_ok h'
  rw [hname] at htip' hmain'
  have hsame : e.tip = e'.tip := Option.some.inj (htip.symm.trans htip')
  have hcurrent : e.current = e'.current := hmain.symm.trans hmain'
  have hnot' : e'.alreadyWritten = false := by
    rw [Bool.eq_false_iff]
    intro hyes
    have hall := hwritten'.1 hyes
    rw [← hcurrent, ← hsame] at hall
    rw [hwritten.2 hall] at hnot
    cases hnot
  have hid := hsnapshot.resolve_left (by rw [hnot]; decide)
  have hid' := hsnapshot'.resolve_left (by rw [hnot']; decide)
  rw [← hcurrent, hid] at hid'
  exact hrows hname.symm (Option.some.inj hid')

/-- **A promotion that was interrupted completes** from its first read on. -/
theorem Interrupted.completes (h : Interrupted w call) (hfault : found.fault = false) :
    Completes found call w .read := by
  have hgo : promoteTurn false found w call .read = .go w (.prepare
      ⟨w.ledger.currentRevision, w.ledger.pendingPromotions, found.now, w.ledger.length⟩
      (call.selected w.ledger) []) := promoteRead_of_may h.may found.now
  refine Completes.next hfault (completes_prepare hfault _ [] (fun row hrow => ?_)
    (fun _ he => absurd he List.not_mem_nil) fun prepared hrows hall => ?_) hgo (by simp)
  · obtain ⟨e, he, -⟩ := h.selected row hrow
    exact ⟨e, he⟩
  · have hrows' : prepared.map Prepared.row = call.selected w.ledger := hrows
    have hne : prepared ≠ [] := fun hnil => h.may.selected_ne (by rw [← hrows', hnil]; rfl)
    -- what is pending is what has been validated
    have hsame : sameCandidates w.ledger.pendingPromotions prepared = true := by
      rw [sameCandidates, Bool.and_eq_true, List.all_eq_true, List.all_eq_true]
      refine ⟨fun p hp => ?_, fun e he => ?_⟩
      · obtain ⟨row, hrow, e, he, hname, htip⟩ := h.pending p hp
        rw [← hrows'] at hrow
        obtain ⟨e', he', rfl⟩ := List.mem_map.1 hrow
        have heq : e' = e := Except.ok.inj ((hall e' he').symm.trans he)
        subst heq
        exact List.any_eq_true.2 ⟨e', he', by simp [hname, htip]⟩
      · obtain ⟨e', he', p, hp, hname, htip⟩ :=
          h.selected e.row (by rw [← hrows']; exact List.mem_map_of_mem he)
        have heq : e = e' := Except.ok.inj ((hall e he).symm.trans he')
        subst heq
        exact List.any_eq_true.2 ⟨p, hp, by simp [hname, htip]⟩
    have hresume : promoteTurn false found w call (.prepare
        ⟨w.ledger.currentRevision, w.ledger.pendingPromotions, found.now, w.ledger.length⟩ [] prepared) =
        .go w (.write ⟨w.ledger.currentRevision, w.ledger.pendingPromotions, found.now, w.ledger.length⟩
          prepared []) :=
      (if_neg h.pending_ne).trans (if_pos hsame)
    refine Completes.next hfault (completes_write hfault prepared [] rfl
      (fun e he => writable_of_prepared (hall e he)) ?_ (.inl hne)) hresume (by simp)
    have hpairwise := selected_pairwise call w.ledger
    rw [← hrows', List.pairwise_map] at hpairwise
    exact hpairwise.imp_of_mem fun he he' hrows hnot =>
      apart_of_prepared (hall _ he) (hall _ he') hrows hnot

/-- **A client that makes the call again** completes the promotion. -/
theorem Interrupted.retry {ι : Type} [DecidableEq ι] {s : CatalogSite ι} {i : ι}
    (h : Interrupted s.shared call) (hidle : s.processes i = none) (hlock : s.lock = none)
    (hfault : found.fault = false) (hreview : found.secondGoldReviewer = false) :
    ∃ n records, records ≠ [] ∧ (finish (Site.step catalog) s
      (.call i (.promote call) :: List.replicate n (.advance i found))).history =
        (.promote call, .released records) :: s.history := by
  obtain ⟨w', records, hne, hsolo⟩ := h.completes hfault
  -- the client has called, and has the lock
  let entering : CatalogSite ι :=
    { s with processes := Function.update s.processes i (some (.promote call .enter)) }
  have hcall : s.step catalog (.call i (.promote call)) = entering := step_call hidle _
  have hturn : catalog.turn entering.lock.isNone found entering.shared (.promote call .enter) =
      .go s.shared (.promote call .read) := by
    show catalog.turn s.lock.isNone found s.shared (.promote call .enter) = _
    rw [hlock]
    exact (enter_turn call hfault s.shared).trans (if_neg (by rw [hreview]; decide))
  have hgo : entering.step catalog (.advance i found) = reading s i call := by
    refine (step_go (Function.update_self ..) hturn).trans ?_
    rw [reading]
    congr 1
    exact Function.update_idem ..
  obtain ⟨n, hn⟩ := hsolo.run (s := reading s i call) (i := i) (Function.update_self ..) rfl rfl
  refine ⟨n + 1, records, hne, ?_⟩
  rw [finish_cons, hcall, List.replicate_succ, finish_cons, hgo, hn]
  rfl

end

end Phlo.Promotion
