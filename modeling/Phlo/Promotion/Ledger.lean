import Phlo.Library.OrderedDict
import Phlo.Library.TextLines

/-!
# The release ledger

One append-only table has the candidates, the promotions that have been started, the releases and the state
of the release pointer.  What is open, pending or released is read off its rows.

* `Follows` — a later ledger, with newer releases only.
-/

namespace Phlo.Promotion

open Phlo.Library

/-! ### Rows -/

inductive CandidateStatus where
  | opened
  | aborted
  | pruned
  deriving DecidableEq

structure CandidateRow where
  tableName : String
  snapshotId : ℕ
  revision : Option ℕ
  runId : String
  status : CandidateStatus
  recordedAt : ℤ
  deriving DecidableEq

/-- What is recorded before main is written; its status is `pending`. -/
structure PromotionRow where
  tableName : String
  snapshotId : ℕ
  releaseId : String
  revision : ℕ
  runId : String
  recordedAt : ℤ
  deriving DecidableEq

/-- A release row, and the record that is made of it. -/
structure ReleaseRecord where
  tableName : String
  snapshotId : ℕ
  releaseId : String
  revision : ℕ
  promotedAt : ℤ
  runId : String
  deriving DecidableEq

/-- A position of the release pointer. -/
structure StateRow where
  releaseId : String
  revision : ℕ
  runId : String
  recordedAt : ℤ
  deriving DecidableEq

inductive LedgerRow where
  | candidate (row : CandidateRow)
  | promotion (row : PromotionRow)
  | release (record : ReleaseRecord)
  | state (row : StateRow)
  deriving DecidableEq

abbrev Ledger := List LedgerRow

def LedgerRow.candidate? : LedgerRow → Option CandidateRow
  | .candidate row => some row
  | _ => none

def LedgerRow.promotion? : LedgerRow → Option PromotionRow
  | .promotion row => some row
  | _ => none

def LedgerRow.release? : LedgerRow → Option ReleaseRecord
  | .release record => some record
  | _ => none

def LedgerRow.state? : LedgerRow → Option StateRow
  | .state row => some row
  | _ => none

namespace Ledger

def candidates (rows : Ledger) : List CandidateRow := rows.filterMap LedgerRow.candidate?

def promotions (rows : Ledger) : List PromotionRow := rows.filterMap LedgerRow.promotion?

def releases (rows : Ledger) : List ReleaseRecord := rows.filterMap LedgerRow.release?

def states (rows : Ledger) : List StateRow := rows.filterMap LedgerRow.state?

/-! ### What is read off the rows -/

/-- `_pending_promotions` -/
def pendingPromotions (rows : Ledger) : List PromotionRow :=
  rows.promotions.filter fun row => row.releaseId ∉ rows.states.map StateRow.releaseId

/-- `current_revision` -/
def currentRevision (rows : Ledger) : ℕ := (rows.states.map StateRow.revision).foldl max 0

def keepLatest (latest : OrderedDict (String × ℕ) CandidateRow) (row : CandidateRow) :
    OrderedDict (String × ℕ) CandidateRow :=
  match latest.get (row.tableName, row.snapshotId) with
  | none => latest.set (row.tableName, row.snapshotId) row
  | some current =>
    if current.recordedAt ≤ row.recordedAt then latest.set (row.tableName, row.snapshotId) row else latest

/-- `_open_candidate_rows` -/
def openCandidateRows (rows : Ledger) (runId : String) : List CandidateRow :=
  let latest := (rows.candidates.filter fun row => row.runId = runId).foldl keepLatest .empty
  latest.values.filter fun row => row.status = .opened

/-- `tables is None or table_name in tables` -/
def selects (tables : Option (List String)) (tableName : String) : Bool :=
  tables.all fun names => names.contains tableName

def released (rows : Ledger) (releaseId runId : String) (tables : Option (List String)) : List ReleaseRecord :=
  rows.releases.filter fun record =>
    record.releaseId = releaseId && record.runId = runId && selects tables record.tableName

/-- `max(..., key=revision)` gives the first of the greatest. -/
def newest (best : Option ReleaseRecord) (record : ReleaseRecord) : Option ReleaseRecord :=
  match best with
  | none => some record
  | some b => if b.revision < record.revision then some record else some b

/-- `resolve_release` -/
def resolveRelease (rows : Ledger) (tableName : String) : Option ReleaseRecord :=
  (rows.releases.filter fun record => record.tableName = tableName).foldl newest none

end Ledger

/-! ### Appending -/

section

variable (rows rows' : Ledger)

@[simp] theorem candidates_append :
    Ledger.candidates (rows ++ rows') = rows.candidates ++ rows'.candidates := List.filterMap_append ..

@[simp] theorem promotions_append :
    Ledger.promotions (rows ++ rows') = rows.promotions ++ rows'.promotions := List.filterMap_append ..

@[simp] theorem releases_append :
    Ledger.releases (rows ++ rows') = rows.releases ++ rows'.releases := List.filterMap_append ..

@[simp] theorem states_append :
    Ledger.states (rows ++ rows') = rows.states ++ rows'.states := List.filterMap_append ..

end

/-- Rows of one kind. -/
theorem filterMap_none {α β γ : Type} {f : α → β} {g : β → Option γ} (l : List α) (h : ∀ a, g (f a) = none) :
    (l.map f).filterMap g = [] := by
  rw [List.filterMap_eq_nil_iff]
  intro b hb
  obtain ⟨a, -, rfl⟩ := List.mem_map.1 hb
  exact h a

theorem filterMap_some {α β : Type} {f : α → β} {g : β → Option α} (l : List α)
    (h : ∀ a, g (f a) = some a) : (l.map f).filterMap g = l := by
  have hsome : g ∘ f = some := funext h
  rw [List.filterMap_map, hsome, List.filterMap_some]

def candidateEntries (l : List CandidateRow) : Ledger := l.map .candidate

/-- What is appended before main is written. -/
def intents (l : List PromotionRow) : Ledger := l.map .promotion

def receipts (records : List ReleaseRecord) (state : StateRow) : Ledger :=
  records.map .release ++ [.state state]

section

variable (l : List CandidateRow) (ps : List PromotionRow) (records : List ReleaseRecord) (state : StateRow)

@[simp] theorem candidates_candidateEntries : (candidateEntries l).candidates = l :=
  filterMap_some l fun _ => rfl

@[simp] theorem promotions_candidateEntries : (candidateEntries l).promotions = [] :=
  filterMap_none l fun _ => rfl

@[simp] theorem releases_candidateEntries : (candidateEntries l).releases = [] :=
  filterMap_none l fun _ => rfl

@[simp] theorem states_candidateEntries : (candidateEntries l).states = [] :=
  filterMap_none l fun _ => rfl

@[simp] theorem candidates_intents : (intents ps).candidates = [] := filterMap_none ps fun _ => rfl

@[simp] theorem promotions_intents : (intents ps).promotions = ps := filterMap_some ps fun _ => rfl

@[simp] theorem releases_intents : (intents ps).releases = [] := filterMap_none ps fun _ => rfl

@[simp] theorem states_intents : (intents ps).states = [] := filterMap_none ps fun _ => rfl

@[simp] theorem promotions_receipts : (receipts records state).promotions = [] := by
  rw [receipts, promotions_append, Ledger.promotions, filterMap_none records fun _ => rfl]
  rfl

@[simp] theorem releases_receipts : (receipts records state).releases = records := by
  have hrecords : (records.map LedgerRow.release).filterMap LedgerRow.release? = records :=
    filterMap_some records fun _ => rfl
  rw [receipts, releases_append, Ledger.releases, hrecords]
  exact List.append_nil records

@[simp] theorem states_receipts : (receipts records state).states = [state] := by
  rw [receipts, states_append, Ledger.states, filterMap_none records fun _ => rfl]
  rfl

end

/-! ### What appending does not change -/

section

variable {rows more : Ledger}

theorem released_append (rows more : Ledger) (releaseId runId : String) (tables : Option (List String)) :
    Ledger.released (rows ++ more) releaseId runId tables =
      rows.released releaseId runId tables ++ more.released releaseId runId tables := by
  rw [Ledger.released, releases_append, List.filter_append]
  rfl

theorem released_eq_nil (h : more.releases = []) (releaseId runId : String) (tables : Option (List String)) :
    more.released releaseId runId tables = [] := by
  rw [Ledger.released, h]
  rfl

theorem currentRevision_append (h : more.states = []) :
    Ledger.currentRevision (rows ++ more) = rows.currentRevision := by
  rw [Ledger.currentRevision, states_append, h, List.append_nil]
  rfl

theorem pendingPromotions_append (h : more.states = []) (h' : more.promotions = []) :
    Ledger.pendingPromotions (rows ++ more) = rows.pendingPromotions := by
  rw [Ledger.pendingPromotions, states_append, promotions_append, h, h', List.append_nil, List.append_nil]
  rfl

theorem mem_released {record : ReleaseRecord} {releaseId runId : String} {tables : Option (List String)} :
    record ∈ rows.released releaseId runId tables ↔ record ∈ rows.releases ∧
      record.releaseId = releaseId ∧ record.runId = runId ∧ Ledger.selects tables record.tableName = true := by
  rw [Ledger.released, List.mem_filter, Bool.and_eq_true, Bool.and_eq_true, decide_eq_true_eq,
    decide_eq_true_eq, and_assoc]

theorem mem_pendingPromotions {row : PromotionRow} : row ∈ rows.pendingPromotions ↔
    row ∈ rows.promotions ∧ ∀ st ∈ rows.states, st.releaseId ≠ row.releaseId := by
  rw [Ledger.pendingPromotions, List.mem_filter, decide_eq_true_eq, List.mem_map]
  refine and_congr Iff.rfl ⟨fun h st hst heq => h ⟨st, hst, heq⟩, fun h hex => ?_⟩
  obtain ⟨st, hst, heq⟩ := hex
  exact h st hst heq

end

/-! ### Later ledgers -/

/-- The second ledger has more rows; its further releases are newer than those of the first. -/
def Follows (rows rows' : Ledger) : Prop :=
  ∃ more : Ledger, rows' = rows ++ more ∧
    ∀ a ∈ rows.releases, ∀ b ∈ more.releases, a.revision < b.revision

theorem Follows.refl (rows : Ledger) : Follows rows rows :=
  ⟨[], (List.append_nil rows).symm, fun _ _ _ hb => absurd hb List.not_mem_nil⟩

theorem Follows.trans {rows rows' rows'' : Ledger} (h : Follows rows rows') (h' : Follows rows' rows'') :
    Follows rows rows'' := by
  obtain ⟨more, rfl, hnewer⟩ := h
  obtain ⟨more', rfl, hnewer'⟩ := h'
  refine ⟨more ++ more', List.append_assoc .., fun a ha b hb => ?_⟩
  rw [releases_append] at hb
  obtain hb | hb := List.mem_append.1 hb
  · exact hnewer a ha b hb
  · refine hnewer' a ?_ b hb
    rw [releases_append]
    exact List.mem_append_left _ ha

theorem follows_of_no_release (rows more : Ledger) (h : more.releases = []) : Follows rows (rows ++ more) := by
  refine ⟨more, rfl, fun _ _ b hb => ?_⟩
  rw [h] at hb
  cases hb

/-- The release a table resolves to is the same or a newer one. -/
def Moved (o o' : Option ReleaseRecord) : Prop :=
  o' = o ∨ ∃ b, o' = some b ∧ ∀ a ∈ o, a.revision < b.revision

theorem foldl_newest_mem (a : ReleaseRecord) (l : List ReleaseRecord) :
    ∃ b ∈ a :: l, l.foldl Ledger.newest (some a) = some b := by
  induction l generalizing a with
  | nil => exact ⟨a, List.mem_singleton_self a, rfl⟩
  | cons c l ih =>
    rw [List.foldl_cons, Ledger.newest]
    split
    · obtain ⟨b, hb, heq⟩ := ih c
      exact ⟨b, List.mem_cons_of_mem a hb, heq⟩
    · obtain ⟨b, hb, heq⟩ := ih a
      refine ⟨b, ?_, heq⟩
      obtain rfl | hb := List.mem_cons.1 hb
      · exact List.mem_cons_self
      · exact List.mem_cons_of_mem a (List.mem_cons_of_mem c hb)

theorem mem_of_resolveRelease {rows : Ledger} {tableName : String} {record : ReleaseRecord}
    (h : rows.resolveRelease tableName = some record) : record ∈ rows.releases ∧ record.tableName = tableName := by
  rw [Ledger.resolveRelease] at h
  cases hl : rows.releases.filter fun record => record.tableName = tableName with
  | nil =>
    rw [hl] at h
    cases h
  | cons a l =>
    rw [hl] at h
    obtain ⟨b, hb, heq⟩ := foldl_newest_mem a l
    have hrecord : record = b := Option.some.inj (h.symm.trans heq)
    rw [← hl, ← hrecord] at hb
    obtain ⟨hmem, hname⟩ := List.mem_filter.1 hb
    exact ⟨hmem, of_decide_eq_true hname⟩

/-- **The release of a table only moves to a newer one.** -/
theorem moved_of_follows {rows rows' : Ledger} (h : Follows rows rows') (tableName : String) :
    Moved (rows.resolveRelease tableName) (rows'.resolveRelease tableName) := by
  obtain ⟨more, rfl, hnewer⟩ := h
  have hsplit : Ledger.resolveRelease (rows ++ more) tableName =
      (more.releases.filter fun record => record.tableName = tableName).foldl Ledger.newest
        (rows.resolveRelease tableName) := by
    rw [Ledger.resolveRelease, releases_append, List.filter_append, List.foldl_append]
    rfl
  rw [hsplit]
  cases hl : more.releases.filter fun record => record.tableName = tableName with
  | nil => exact .inl rfl
  | cons c l =>
    have hc : c ∈ more.releases := List.mem_of_mem_filter (hl ▸ List.mem_cons_self)
    -- the first of the new ones is newer than what was there
    have hfirst : Ledger.newest (rows.resolveRelease tableName) c = some c := by
      cases ho : rows.resolveRelease tableName with
      | none => rfl
      | some a => exact if_pos (hnewer a (mem_of_resolveRelease ho).1 c hc)
    obtain ⟨b, hb, heq⟩ := foldl_newest_mem c l
    refine .inr ⟨b, by rw [List.foldl_cons, hfirst, heq], fun a ha => ?_⟩
    rw [← hl] at hb
    exact hnewer a (mem_of_resolveRelease ha).1 b (List.mem_of_mem_filter hb)

/-! ### Revisions -/

def Numbered (rows : Ledger) : Prop :=
  rows.states.map StateRow.revision = List.range' 1 rows.states.length

theorem foldl_max_range (n : ℕ) : (List.range' 1 n).foldl max 0 = n := by
  induction n with
  | zero => rfl
  | succ n ih =>
    rw [List.range'_1_concat, List.foldl_append, ih]
    show max n (1 + n) = n + 1
    omega

theorem Numbered.currentRevision {rows : Ledger} (h : Numbered rows) : rows.currentRevision = rows.states.length := by
  rw [Ledger.currentRevision, h, foldl_max_range]

theorem Numbered.append {rows more : Ledger} (h : Numbered rows) (hmore : more.states = []) :
    Numbered (rows ++ more) := by
  rw [Numbered, states_append, hmore, List.append_nil]
  exact h

theorem Numbered.receipts {rows : Ledger} (h : Numbered rows) (records : List ReleaseRecord)
    {st : StateRow} (hst : st.revision = rows.currentRevision + 1) : Numbered (rows ++ receipts records st) := by
  rw [Numbered, states_append, states_receipts, List.map_append, h, List.length_append, List.length_singleton,
    List.range'_1_concat, List.map_singleton, hst, h.currentRevision, Nat.add_comm 1]

/-- What holds of a ledger whose releases are atomic: the states are numbered without a gap, each with one
release id; the releases of one id have its one revision, and are those of the tables it has been started
for. -/
structure GapFree (rows : Ledger) : Prop where
  numbered : Numbered rows
  one_state : ∀ st ∈ rows.states, ∀ st' ∈ rows.states, st.releaseId = st'.releaseId → st = st'
  one_revision : ∀ a ∈ rows.releases, ∃ st ∈ rows.states,
    st.releaseId = a.releaseId ∧ ∀ b ∈ rows.releases, b.releaseId = a.releaseId → b.revision = st.revision
  all_or_none : ∀ a ∈ rows.releases, ∀ tableName,
    (∃ b ∈ rows.releases, b.releaseId = a.releaseId ∧ b.tableName = tableName) ↔
      ∃ p ∈ rows.promotions, p.releaseId = a.releaseId ∧ p.tableName = tableName

end Phlo.Promotion
