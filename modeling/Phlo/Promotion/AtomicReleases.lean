import Phlo.Promotion.Replay

/-!
# Are releases atomic?

A release id that has been used once can be used again by its run for other tables: the first releases are not
among those the call selects, so a second revision is recorded under the id.
-/

namespace Phlo.Promotion

open Phlo.Library

/-! ### What a promotion adds to the ledger -/

def PromoteStage.intended : PromoteStage → Prop
  | .reread _ _ => True
  | .write _ _ _ => True
  | _ => False

/-- What a promotion relies on: its release id has not been released, and what is recorded as pending under
the id are its tables. -/
structure Covered (l : Ledger) (call : PromoteCall) (stage : PromoteStage) : Prop where
  fresh : ∀ a ∈ stage.attempt?, ∀ record ∈ l.releases, record.releaseId ≠ call.releaseId
  targets_ne : ∀ a ∈ stage.attempt?, stage.targets ≠ []
  preparing : ∀ a todo prepared, stage = .prepare a todo prepared →
    a.pending = l.pendingPromotions ∧ ∀ row ∈ a.pending, row.releaseId = call.releaseId
  intending : ∀ a prepared, stage = .intend a prepared → ∀ row ∈ l.promotions, row.releaseId ≠ call.releaseId
  covers : stage.intended → ∀ t, t ∈ stage.targets ↔
    ∃ row ∈ l.promotions, row.releaseId = call.releaseId ∧ row.tableName = t

def OwnsTables (w : Warehouse) (p : Process) : Prop :=
  ∀ call stage, p = .promote call stage → Covered w.ledger call stage

/-- The releases are atomic, and every state has its releases. -/
structure Atomic (l : Ledger) : Prop where
  gapFree : GapFree l
  released : ∀ st ∈ l.states, ∃ record ∈ l.releases, record.releaseId = st.releaseId

section

variable {free : Bool} {found : Found} {w w' : Warehouse} {l l' : Ledger} {call : PromoteCall}

theorem covered_enter (l : Ledger) (call : PromoteCall) : Covered l call .enter where
  fresh _ h := by cases h
  targets_ne _ h := by cases h
  preparing _ _ _ h := by cases h
  intending _ _ h := by cases h
  covers h := h.elim

theorem Atomic.append {more : Ledger} (h : Atomic l) (hstates : more.states = []) (hreleases : more.releases = [])
    (hpromotions : ∀ row ∈ more.promotions, ∀ record ∈ l.releases, record.releaseId ≠ row.releaseId) :
    Atomic (l ++ more) := by
  obtain ⟨⟨hnumbered, hone, hrevision, hall⟩, hreleased⟩ := h
  refine ⟨⟨hnumbered.append hstates, ?_, ?_, ?_⟩, ?_⟩
  · rw [states_append, hstates, List.append_nil]
    exact hone
  · rw [states_append, hstates, releases_append, hreleases, List.append_nil, List.append_nil]
    exact hrevision
  · rw [releases_append, hreleases, List.append_nil, promotions_append]
    intro a ha t
    rw [hall a ha t]
    refine ⟨fun hrow => ?_, fun hrow => ?_⟩
    · obtain ⟨row, hrow, hid⟩ := hrow
      exact ⟨row, List.mem_append_left _ hrow, hid⟩
    · obtain ⟨row, hrow, hid, ht⟩ := hrow
      obtain hrow | hrow := List.mem_append.1 hrow
      · exact ⟨row, hrow, hid, ht⟩
      · exact absurd hid.symm (hpromotions row hrow a ha)
  · rw [states_append, hstates, List.append_nil, releases_append, hreleases, List.append_nil]
    exact hreleased

theorem Atomic.receipts (h : Atomic l) {a : Attempt} {records : List ReleaseRecord}
    (hcurrent : a.current = l.currentRevision) (hne : records ≠ [])
    (hfresh : ∀ record ∈ l.releases, record.releaseId ≠ call.releaseId)
    (hwritten : ∀ record ∈ records, record.releaseId = call.releaseId ∧ record.revision = a.current + 1)
    (hcovers : ∀ t, t ∈ records.map ReleaseRecord.tableName ↔
      ∃ row ∈ l.promotions, row.releaseId = call.releaseId ∧ row.tableName = t) :
    Atomic (l ++ receipts records (stateRow call a)) := by
  obtain ⟨⟨hnumbered, hone, hrevision, hall⟩, hreleased⟩ := h
  have hstate : (stateRow call a).revision = l.currentRevision + 1 := congrArg (· + 1) hcurrent
  have hfresh' : ∀ st ∈ l.states, st.releaseId ≠ call.releaseId := by
    intro st hst heq
    obtain ⟨record, hrecord, hid⟩ := hreleased st hst
    exact hfresh record hrecord (hid.trans heq)
  refine ⟨⟨hnumbered.receipts records hstate, ?_, ?_, ?_⟩, ?_⟩
  · rw [states_append, states_receipts]
    intro st hst st' hst' heq
    obtain hst | hst := List.mem_append.1 hst
    · obtain hst' | hst' := List.mem_append.1 hst'
      · exact hone st hst st' hst' heq
      · obtain rfl := List.mem_singleton.1 hst'
        exact absurd heq (hfresh' st hst)
    · obtain rfl := List.mem_singleton.1 hst
      obtain hst' | hst' := List.mem_append.1 hst'
      · exact absurd heq.symm (hfresh' st' hst')
      · exact (List.mem_singleton.1 hst').symm
  · rw [states_append, states_receipts, releases_append, releases_receipts]
    intro record hrecord
    obtain hold | hnew := List.mem_append.1 hrecord
    · obtain ⟨st, hst, hid, hsame⟩ := hrevision record hold
      refine ⟨st, List.mem_append_left _ hst, hid, fun b hb hbid => ?_⟩
      obtain hb | hb := List.mem_append.1 hb
      · exact hsame b hb hbid
      · exact absurd (hbid.symm.trans (hwritten b hb).1) (hfresh record hold)
    · obtain ⟨hid, -⟩ := hwritten record hnew
      refine ⟨_, List.mem_append_right _ (List.mem_singleton_self _), hid.symm, fun b hb hbid => ?_⟩
      obtain hb | hb := List.mem_append.1 hb
      · exact absurd (hbid.trans hid) (hfresh b hb)
      · exact (hwritten b hb).2
  · rw [releases_append, releases_receipts, promotions_append, promotions_receipts, List.append_nil]
    intro record hrecord t
    obtain hold | hnew := List.mem_append.1 hrecord
    · rw [← hall record hold t]
      refine ⟨fun hb => ?_, fun hb => ?_⟩
      · obtain ⟨b, hb, hid, ht⟩ := hb
        obtain hb | hb := List.mem_append.1 hb
        · exact ⟨b, hb, hid, ht⟩
        · exact absurd (hid.symm.trans (hwritten b hb).1) (hfresh record hold)
      · obtain ⟨b, hb, hid⟩ := hb
        exact ⟨b, List.mem_append_left _ hb, hid⟩
    · rw [(hwritten record hnew).1, ← hcovers t, List.mem_map]
      refine ⟨fun hb => ?_, fun hb => ?_⟩
      · obtain ⟨b, hb, hid, ht⟩ := hb
        obtain hb | hb := List.mem_append.1 hb
        · exact absurd hid (hfresh b hb)
        · exact ⟨b, hb, ht⟩
      · obtain ⟨b, hb, ht⟩ := hb
        exact ⟨b, List.mem_append_right _ hb, (hwritten b hb).1, ht⟩
  · rw [states_append, states_receipts, releases_append, releases_receipts]
    intro st hst
    obtain hst | hst := List.mem_append.1 hst
    · obtain ⟨record, hrecord, hid⟩ := hreleased st hst
      exact ⟨record, List.mem_append_left _ hrecord, hid⟩
    · obtain rfl := List.mem_singleton.1 hst
      obtain ⟨record, hrecord⟩ := List.exists_mem_of_ne_nil records hne
      exact ⟨record, List.mem_append_right _ hrecord, (hwritten record hrecord).1⟩

theorem atomic_step {p : Process} (h : LedgerStep free l l' p) (hl : Atomic l)
    (hs : ∀ call stage, p = .promote call stage → Sound l call stage)
    (hp : ∀ call stage, p = .promote call stage → Covered l call stage) : Atomic l' := by
  cases h with
  | same _ h => exact h ▸ hl
  | candidates _ rows hfree hp' h =>
    subst h
    refine hl.append (states_candidateEntries rows) (releases_candidateEntries rows) fun row hrow => ?_
    rw [promotions_candidateEntries] at hrow
    cases hrow
  | intents call a prepared h =>
    subst h
    refine hl.append (states_intents _) (releases_intents _) fun row hrow record hrecord => ?_
    rw [promotions_intents] at hrow
    obtain ⟨e, -, rfl⟩ := List.mem_map.1 hrow
    exact (hp call _ rfl).fresh a rfl record hrecord
  | receipts call a records h =>
    subst h
    have hsound := hs call _ rfl
    have hcovered := hp call _ rfl
    have htargets : (PromoteStage.write a [] records).targets = records.map ReleaseRecord.tableName :=
      List.append_nil _
    refine hl.receipts (hsound.current a rfl) (fun hnil => ?_) (hcovered.fresh a rfl)
      (fun record hrecord => ?_) fun t => ?_
    · refine hcovered.targets_ne a rfl ?_
      rw [htargets, hnil]
      rfl
    · obtain ⟨hid, -, hrevision⟩ := hsound.written a rfl record hrecord
      exact ⟨hid, hrevision⟩
    · rw [← htargets]
      exact hcovered.covers trivial t

theorem Atomic.pending_of_fresh (h : Atomic l) (hfresh : ∀ record ∈ l.releases, record.releaseId ≠ call.releaseId)
    {row : PromotionRow} (hrow : row ∈ l.promotions) (hid : row.releaseId = call.releaseId) :
    row ∈ l.pendingPromotions := by
  refine mem_pendingPromotions.2 ⟨hrow, fun st hst heq => ?_⟩
  obtain ⟨record, hrecord, hrelease⟩ := h.released st hst
  exact hfresh record hrecord (hrelease.trans (heq.trans hid))

theorem covered_go {stage stage' : PromoteStage} (h : PromoteGo found call w stage w' stage')
    (hs : Covered w.ledger call stage) (hl : Atomic w.ledger)
    (hread : stage = .read → ∀ record ∈ w.ledger.releases, record.releaseId ≠ call.releaseId) :
    Covered w'.ledger call stage' := by
  cases h with
  | enter =>
    exact ⟨(fun _ h => by cases h), (fun _ h => by cases h), (fun _ _ _ h => by cases h),
      (fun _ _ h => by cases h), fun h => h.elim⟩
  | read hmay =>
    refine ⟨fun _ _ => hread rfl, fun _ _ hnil => hmay.selected_ne (List.map_eq_nil_iff.1 hnil),
      fun a todo prepared heq => ?_, (fun _ _ h => by cases h), fun h => h.elim⟩
    cases heq
    exact ⟨rfl, fun row hrow => (hmay.pending_own row hrow).1⟩
  | prepare a row todo prepared e he =>
    have htargets : (PromoteStage.prepare a todo (prepared ++ [e])).targets =
        (PromoteStage.prepare a (row :: todo) prepared).targets := by
      simp [PromoteStage.targets, (prepareOne_eq_ok he).1]
    refine ⟨hs.fresh, fun b hb => ?_, fun b todo' prepared' heq => ?_, (fun _ _ h => by cases h),
      fun h => h.elim⟩
    · rw [htargets]
      exact hs.targets_ne b hb
    · cases heq
      exact hs.preparing _ _ _ rfl
  | begin_ a prepared hpending =>
    have htargets : (PromoteStage.intend a prepared).targets =
        (PromoteStage.prepare a [] prepared).targets := (List.append_nil _).symm
    refine ⟨hs.fresh, fun b hb => ?_, (fun _ _ _ h => by cases h), fun b prepared' heq row hrow hid => ?_,
      fun h => h.elim⟩
    · rw [htargets]
      exact hs.targets_ne b hb
    · have hmem := hl.pending_of_fresh (hs.fresh a rfl) hrow hid
      rw [← (hs.preparing _ _ _ rfl).1, hpending] at hmem
      cases hmem
  | resume a prepared hpending hsame =>
    obtain ⟨heq, hown⟩ := hs.preparing _ _ _ rfl
    rw [sameCandidates, Bool.and_eq_true, List.all_eq_true, List.all_eq_true] at hsame
    obtain ⟨hto, hfrom⟩ := hsame
    have htargets : (PromoteStage.write a prepared []).targets =
        (PromoteStage.prepare a [] prepared).targets := (List.append_nil _).symm
    refine ⟨hs.fresh, fun b hb => ?_, (fun _ _ _ h => by cases h), (fun _ _ h => by cases h), fun _ t => ?_⟩
    · rw [htargets]
      exact hs.targets_ne b hb
    · show t ∈ prepared.map (fun e => e.row.tableName) ↔ _
      rw [List.mem_map]
      constructor
      · intro hmem
        obtain ⟨e, he, rfl⟩ := hmem
        obtain ⟨row, hrow, hmatch⟩ := List.any_eq_true.1 (hfrom e he)
        rw [Bool.and_eq_true, decide_eq_true_eq] at hmatch
        refine ⟨row, ?_, hown row hrow, hmatch.1.symm⟩
        rw [heq] at hrow
        exact (mem_pendingPromotions.1 hrow).1
      · intro hex
        obtain ⟨row, hrow, hid, rfl⟩ := hex
        have hmem := hl.pending_of_fresh (hs.fresh a rfl) hrow hid
        rw [← heq] at hmem
        obtain ⟨e, he, hmatch⟩ := List.any_eq_true.1 (hto row hmem)
        rw [Bool.and_eq_true, decide_eq_true_eq] at hmatch
        exact ⟨e, he, hmatch.1⟩
  | intend a prepared hversion =>
    refine ⟨fun b hb => ?_, hs.targets_ne, (fun _ _ _ h => by cases h), (fun _ _ h => by cases h),
      fun _ t => ?_⟩
    · rw [ledger_append, releases_append, releases_intents, List.append_nil]
      exact hs.fresh b hb
    · rw [ledger_append, promotions_append, promotions_intents]
      show t ∈ prepared.map (fun e => e.row.tableName) ↔ _
      rw [List.mem_map]
      constructor
      · intro hmem
        obtain ⟨e, he, rfl⟩ := hmem
        exact ⟨_, List.mem_append_right _ (List.mem_map_of_mem he), rfl, rfl⟩
      · intro hex
        obtain ⟨row, hrow, hid, rfl⟩ := hex
        obtain hrow | hrow := List.mem_append.1 hrow
        · exact absurd hid (hs.intending a prepared rfl row hrow)
        · obtain ⟨e, he, rfl⟩ := List.mem_map.1 hrow
          exact ⟨e, he, rfl⟩
  | reread a prepared =>
    have htargets : (PromoteStage.write { a with version := w.ledger.length } prepared []).targets =
        (PromoteStage.reread a prepared).targets := rfl
    refine ⟨fun _ _ => hs.fresh a rfl, fun _ _ => ?_, (fun _ _ _ h => by cases h),
      (fun _ _ h => by cases h), fun _ => ?_⟩
    · rw [htargets]
      exact hs.targets_ne a rfl
    · rw [htargets]
      exact hs.covers trivial
  | write a e todo records w' record hwrite =>
    obtain ⟨hledger, snapshotId, rfl⟩ := writeOne_eq_ok hwrite
    have htargets : (PromoteStage.write a todo (records ++ [releaseRecord call a e snapshotId])).targets =
        (PromoteStage.write a (e :: todo) records).targets := by
      simp [PromoteStage.targets, releaseRecord]
    rw [hledger]
    refine ⟨hs.fresh, fun b hb => ?_, (fun _ _ _ h => by cases h), (fun _ _ h => by cases h), fun _ => ?_⟩
    · rw [htargets]
      exact hs.targets_ne b hb
    · rw [htargets]
      exact hs.covers trivial
  | close a records hversion =>
    exact ⟨(fun _ h => by cases h), (fun _ h => by cases h), (fun _ _ _ h => by cases h),
      (fun _ _ h => by cases h), fun h => h.elim⟩
  | cleanup record todo records =>
    exact ⟨(fun _ h => by cases h), (fun _ h => by cases h), (fun _ _ _ h => by cases h),
      (fun _ _ h => by cases h), fun h => h.elim⟩

theorem ownsTables_other {p q : Process} (h : LedgerStep free w.ledger w'.ledger p) (hq : OwnsTables w q)
    (hholds : q.holds = true → free = false ∧ p.holds = false) : OwnsTables w' q := by
  intro call stage heq
  subst heq
  cases stage with
  | enter => exact covered_enter _ call
  | _ =>
    obtain ⟨hfree, hp⟩ := hholds rfl
    rw [h.of_other hfree hp]
    exact hq call _ rfl

theorem turnKeeps_tables {p : Process} (hl : Atomic w.ledger) (hsound : Owns w p) (hp : OwnsTables w p)
    (hread : ∀ call, p = .promote call .read → (∃ record ∈ w.ledger.releases, record.releaseId = call.releaseId) →
        w.ledger.released call.releaseId call.runId call.tables ≠ []) :
    TurnKeeps catalog (fun w => Atomic w.ledger) OwnsTables (fun _ _ => True) free w p (p.turn free found w) := by
  have hstep := ledgerStep free found w p
  refine ⟨atomic_step hstep hl hsound hp, fun w' p' heq call stage' hp' => ?_, fun _ _ _ => trivial,
    fun q hq hholds => ownsTables_other hstep hq hholds, fun _ _ => trivial⟩
  subst hp'
  obtain ⟨stage, rfl, hgo⟩ := promote_of_go heq
  have hgo' := promoteGo hgo
  refine covered_go hgo' (hp call stage rfl) hl fun hstage record hrecord hid => ?_
  subst hstage
  -- the call has found no release, so there is none under its id
  have hmay := (promoteRead_eq_go hgo).2.1
  exact hread call rfl ⟨record, hrecord, hid⟩ hmay.unreleased

end

/-! ### Runs -/

section

variable {ι : Type} [DecidableEq ι]

def Process.reading? : Process → Option PromoteCall
  | promote call .read => some call
  | _ => none

def FindsItsRelease (s : CatalogSite ι) : CatalogMove ι → Prop
  | .advance i _ => ∀ call ∈ (s.processes i).bind Process.reading?,
      (∃ record ∈ s.shared.ledger.releases, record.releaseId = call.releaseId) →
        s.shared.ledger.released call.releaseId call.runId call.tables ≠ []
  | _ => True

instance (s : CatalogSite ι) : (m : CatalogMove ι) → Decidable (FindsItsRelease s m)
  | .advance i _ => inferInstanceAs (Decidable (∀ call ∈ (s.processes i).bind Process.reading?,
      (∃ record ∈ s.shared.ledger.releases, record.releaseId = call.releaseId) →
        s.shared.ledger.released call.releaseId call.runId call.tables ≠ []))
  | .call _ _ => .isTrue trivial
  | .crash _ => .isTrue trivial

structure AtomicSite (s : CatalogSite ι) : Prop where
  based : Based s
  kept : Kept (fun w => Atomic w.ledger) OwnsTables (fun _ _ => True) s

theorem atomic_nil : Atomic [] where
  gapFree :=
    { numbered := rfl
      one_state := fun _ h => absurd h List.not_mem_nil
      one_revision := fun _ h => absurd h List.not_mem_nil
      all_or_none := fun _ h => absurd h List.not_mem_nil }
  released _ h := absurd h List.not_mem_nil

theorem AtomicSite.step (s : CatalogSite ι) (m : CatalogMove ι) (h : AtomicSite s)
    (hm : FindsItsRelease s m) : AtomicSite (s.step catalog m) where
  based := h.based.step m
  kept := by
    refine h.kept.step h.based.lock m (fun c call stage heq => ?_) fun i e p hmove hp => ?_
    · cases c with
      | promote call' =>
        cases heq
        exact covered_enter _ call
      | _ => cases heq
    · subst hmove
      refine turnKeeps_tables h.kept.shared (h.based.kept.own i p hp) (h.kept.own i p hp) ?_
      intro call heq
      subst heq
      refine hm call ?_
      rw [hp]
      rfl

/-- **Releases are atomic** in every run in which a promotion under a released id finds its release: every
ledger on the way is gap-free, and the release of a table only moves to a newer one. -/
theorem releases_atomic (tables : String → Option IcebergTable) (nextSnapshot : ℕ) (ms : List (CatalogMove ι))
    (h : Along (Site.step catalog) FindsItsRelease (opening tables nextSnapshot) ms) : ∀ ms₁ ms₂, ms = ms₁ ++ ms₂ →
      GapFree (finish (Site.step catalog) (opening tables nextSnapshot) ms₁).shared.ledger ∧ ∀ tableName, Moved
        ((finish (Site.step catalog) (opening tables nextSnapshot) ms₁).shared.ledger.resolveRelease tableName)
        ((finish (Site.step catalog) (opening tables nextSnapshot) ms).shared.ledger.resolveRelease tableName) := by
  intro ms₁ ms₂ heq
  subst heq
  have hopening : AtomicSite (opening tables nextSnapshot : CatalogSite ι) :=
    ⟨based_opening tables nextSnapshot, kept_start atomic_nil⟩
  have hfirst : AtomicSite (finish (Site.step catalog) (opening tables nextSnapshot) ms₁) :=
    h.left.finish AtomicSite.step hopening
  refine ⟨hfirst.kept.shared.gapFree, fun tableName => moved_of_follows ?_ tableName⟩
  have hsplit : finish (Site.step catalog) (opening tables nextSnapshot : CatalogSite ι) (ms₁ ++ ms₂) =
      finish (Site.step catalog) (finish (Site.step catalog) (opening tables nextSnapshot) ms₁) ms₂ :=
    List.foldl_append ..
  rw [hsplit]
  exact (hfirst.based.follows_finish ms₂).2

end

/-! ### Two tables of one run -/

/-- Two tables with a first snapshot each. -/
def releaseTables (name : String) : Option IcebergTable :=
  if name = "bronze.orders" then some ⟨some ⟨11, [], none, none⟩, .empty⟩
  else if name = "bronze.items" then some ⟨some ⟨12, [], none, none⟩, .empty⟩
  else none

/-- A candidate of the table is created, and promoted for this table only. -/
def releaseTable (tableName : String) : List (CatalogMove ℕ) :=
  .call 0 (.create tableName "nightly") :: advances 0 5 ++
    .call 0 (.promote ⟨"pipeline-run-nightly", "nightly", none, some [tableName]⟩) :: advances 0 10

/-- From the candidate on, the release of the table moves to the first one. -/
theorem releases_atomic_orders : GapFree (finish (Site.step catalog) (opening releaseTables 13)
      (.call 0 (.create "bronze.orders" "nightly") :: advances 0 5)).shared.ledger ∧ ∀ tableName, Moved
      ((finish (Site.step catalog) (opening releaseTables 13)
        (.call 0 (.create "bronze.orders" "nightly") :: advances 0 5)).shared.ledger.resolveRelease tableName)
      ((finish (Site.step catalog) (opening releaseTables 13)
        (releaseTable "bronze.orders")).shared.ledger.resolveRelease tableName) :=
  releases_atomic releaseTables 13 (releaseTable "bronze.orders") (by decide +kernel) _ _ rfl

/-- **One release id has two revisions**: the run promotes one of its tables, then the other. -/
theorem one_id_two_revisions : (finish (Site.step catalog) (opening releaseTables 13 : CatalogSite ℕ)
      (releaseTable "bronze.orders" ++ releaseTable "bronze.items")).shared.ledger.releases =
        [⟨"bronze.orders", 13, "nightly", 1, 0, "nightly"⟩, ⟨"bronze.items", 14, "nightly", 2, 0, "nightly"⟩] ∧
    ¬GapFree (finish (Site.step catalog) (opening releaseTables 13 : CatalogSite ℕ)
      (releaseTable "bronze.orders" ++ releaseTable "bronze.items")).shared.ledger := by
  have hreleases : (finish (Site.step catalog) (opening releaseTables 13 : CatalogSite ℕ)
      (releaseTable "bronze.orders" ++ releaseTable "bronze.items")).shared.ledger.releases =
        [⟨"bronze.orders", 13, "nightly", 1, 0, "nightly"⟩, ⟨"bronze.items", 14, "nightly", 2, 0, "nightly"⟩] :=
    rfl
  refine ⟨hreleases, fun h => ?_⟩
  have hone := h.one_revision
  rw [hreleases] at hone
  obtain ⟨st, -, -, hsame⟩ := hone _ List.mem_cons_self
  have hfirst := hsame _ List.mem_cons_self rfl
  have hsecond := hsame _ (List.mem_cons_of_mem _ (List.mem_singleton_self _)) rfl
  rw [← hsecond] at hfirst
  cases hfirst

end Phlo.Promotion
