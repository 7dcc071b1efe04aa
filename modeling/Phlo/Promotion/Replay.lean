import Phlo.Promotion.Releases

/-!
# Is a repeated promotion recognised?

A promotion that is repeated, as after an acknowledgement that was lost, finds its release in the ledger.  The
guard on the revision comes first, though, and the first promotion has moved the revision.
-/

namespace Phlo.Promotion

open Phlo.Library

section

variable {ι : Type} [DecidableEq ι]

/-- A client that is not busy repeats a promotion; the lock is free. -/
def repeated (s : CatalogSite ι) (i : ι) (call : PromoteCall) (found found' : Found) : CatalogSite ι :=
  finish (Site.step catalog) s [.call i (.promote call), .advance i found, .advance i found']

/-- The answer is the earlier one, and no table and no ledger row has changed. -/
structure Replays (s : CatalogSite ι) (i : ι) (call : PromoteCall) (found found' : Found)
    (records : List ReleaseRecord) : Prop where
  answer : (repeated s i call found found').history = (.promote call, .released records) :: s.history
  unchanged : (repeated s i call found found').shared = s.shared

/-- The guard on the revision lets the call pass, nobody has to review it, and what it selects has not been
released again under its id. -/
structure Recognised (s : CatalogSite ι) (call : PromoteCall) (found : Found)
    (records : List ReleaseRecord) : Prop where
  expected : call.expectedRevision = none ∨
    call.expectedRevision = some (s.shared.ledger.currentRevision : ℤ)
  unreviewed : found.secondGoldReviewer = false
  newest : ∀ b ∈ s.shared.ledger.releases, b.releaseId = call.releaseId → b.runId = call.runId →
    Ledger.selects call.tables b.tableName = true → ∃ a ∈ records, a.revision = b.revision

variable {s : CatalogSite ι} {i : ι} {call : PromoteCall} {found found' : Found}

theorem enter_turn (call : PromoteCall) (hfault : found.fault = false) (w : Warehouse) :
    catalog.turn true found w (.promote call .enter) =
      if found.secondGoldReviewer = true then .finish w (.raised .independentReviewRequired)
      else .go w (.promote call .read) := by
  show Process.turn true found w (.promote call .enter) = _
  unfold Process.turn Process.proceed promoteTurn
  rw [hfault]
  cases found.secondGoldReviewer <;> rfl

theorem read_turn (call : PromoteCall) (free : Bool) (hfault : found.fault = false) (w : Warehouse) :
    catalog.turn free found w (.promote call .read) = (promoteRead found.now w call).map (.promote call) := by
  show Process.turn free found w (.promote call .read) = _
  unfold Process.turn Process.proceed promoteTurn
  rw [hfault]
  rfl

/-- A promotion that reads either goes on to validate, or answers and leaves everything as it is. -/
theorem promoteRead_shared (now : ℤ) (w : Warehouse) (call : PromoteCall) :
    (∃ stage, promoteRead now w call = .go w stage) ∨ ∃ o, promoteRead now w call = .finish w o := by
  unfold promoteRead
  dsimp only
  repeat' split
  all_goals first | exact .inl ⟨_, rfl⟩ | exact .inr ⟨_, rfl⟩

def reading (s : CatalogSite ι) (i : ι) (call : PromoteCall) : CatalogSite ι :=
  { s with processes := Function.update s.processes i (some (.promote call .read)), lock := some i }

theorem repeated_eq (call : PromoteCall) (found' : Found) (hidle : s.processes i = none)
    (hlock : s.lock = none) (hfault : found.fault = false) :
    repeated s i call found found' =
      if found.secondGoldReviewer = true then
        { s with history := (.promote call, .raised .independentReviewRequired) :: s.history }
      else (reading s i call).step catalog (.advance i found') := by
  -- the client has called
  let entering : CatalogSite ι :=
    { s with processes := Function.update s.processes i (some (.promote call .enter)) }
  have hcall : s.step catalog (.call i (.promote call)) = entering := step_call hidle _
  show ((s.step catalog (.call i (.promote call))).step catalog (.advance i found)).step catalog
    (.advance i found') = _
  rw [hcall]
  have hself : entering.processes i = some (.promote call .enter) := Function.update_self ..
  have hturn : catalog.turn entering.lock.isNone found entering.shared (.promote call .enter) =
      if found.secondGoldReviewer = true then .finish s.shared (.raised .independentReviewRequired)
      else .go s.shared (.promote call .read) := by
    show catalog.turn s.lock.isNone found s.shared (.promote call .enter) = _
    rw [hlock]
    exact enter_turn call hfault s.shared
  have hreleased : entering.released i = s.lock := by
    show (if s.lock = some i then none else s.lock) = s.lock
    rw [hlock]
    rfl
  cases hreview : found.secondGoldReviewer with
  | true =>
    rw [hreview, if_pos rfl] at hturn
    rw [if_pos rfl, step_finish hself hturn]
    refine (step_idle (Function.update_self ..)).trans ?_
    have hprocesses : Function.update entering.processes i none = s.processes := by
      show Function.update (Function.update s.processes i _) i none = s.processes
      rw [Function.update_idem, ← hidle, Function.update_eq_self]
    rw [hprocesses, hreleased]
    rfl
  | false =>
    rw [hreview, if_neg (by decide)] at hturn
    rw [if_neg (by decide), step_go hself hturn]
    have hprocesses : Function.update entering.processes i (some (Process.promote call .read)) =
        Function.update s.processes i (some (.promote call .read)) := Function.update_idem ..
    rw [hprocesses]
    rfl

theorem replays_iff_read (hidle : s.processes i = none) (hlock : s.lock = none)
    (hfault : found.fault = false) (hfault' : found'.fault = false) (records : List ReleaseRecord) :
    Replays s i call found found' records ↔ found.secondGoldReviewer = false ∧
      promoteRead found'.now s.shared call = .finish s.shared (.released records) := by
  have heq := repeated_eq call found' hidle hlock hfault
  have hself : (reading s i call).processes i = some (.promote call .read) := Function.update_self ..
  have hturn := read_turn call (reading s i call).lock.isNone hfault' (reading s i call).shared
  cases hreview : found.secondGoldReviewer with
  | true =>
    rw [hreview, if_pos rfl] at heq
    constructor
    · intro h
      have hanswer := h.answer
      rw [heq] at hanswer
      cases hanswer
    · intro h
      cases h.1
  | false =>
    rw [hreview, if_neg (by decide)] at heq
    obtain ⟨stage, hgo⟩ | ⟨o, hfinish⟩ := promoteRead_shared found'.now s.shared call
    · have hgo' : (promoteRead found'.now s.shared call).map (Process.promote call) =
          .go s.shared (.promote call stage) := by rw [hgo]; rfl
      rw [step_go (M := catalog) hself (hturn.trans hgo')] at heq
      constructor
      · intro h
        have hanswer := h.answer
        rw [heq] at hanswer
        have hlength := congrArg List.length hanswer
        exact absurd hlength (by simp [reading])
      · intro h
        rw [hgo] at h
        cases h.2
    · have hfinish' : (promoteRead found'.now s.shared call).map (Process.promote call) =
          .finish s.shared o := by rw [hfinish]; rfl
      rw [step_finish (M := catalog) hself (hturn.trans hfinish')] at heq
      constructor
      · intro h
        have hanswer := h.answer
        rw [heq] at hanswer
        obtain ⟨-, rfl⟩ := Prod.mk.inj (List.cons.inj hanswer).1
        exact ⟨rfl, hfinish⟩
      · intro h
        rw [hfinish] at h
        cases h.2
        exact ⟨by rw [heq]; rfl, by rw [heq]⟩

/-- The guard on the revision. -/
theorem expects_iff (o : Option ℤ) (current : ℕ) :
    o.any (fun expected => expected ≠ (current : ℤ)) = false ↔ o = none ∨ o = some (current : ℤ) := by
  cases o with
  | none => simp
  | some e => simp

theorem promoteRead_released_iff {now : ℤ} {w : Warehouse} {records : List ReleaseRecord}
    (hne : records ≠ []) : promoteRead now w call = .finish w (.released records) ↔
      (call.expectedRevision = none ∨ call.expectedRevision = some (w.ledger.currentRevision : ℤ)) ∧
        w.ledger.released call.releaseId call.runId call.tables = records := by
  rw [← expects_iff]
  unfold promoteRead
  dsimp only
  constructor
  · intro h
    split at h
    · cases h
    next hexpected =>
      split at h
      next hreleased =>
        cases h
        exact ⟨Bool.eq_false_iff.2 hexpected, rfl⟩
      next =>
        split at h
        · cases h
        · split at h
          · cases h
            exact absurd rfl hne
          · split at h
            · cases h
            · cases h
  · intro h
    obtain ⟨hexpected, hreleased⟩ := h
    rw [if_neg (by rw [hexpected]; decide), if_pos (by rw [hreleased]; exact hne), hreleased]

/-- The earlier records are what is found now, unless something newer is found. -/
theorem released_eq_iff {l : Ledger} {records : List ReleaseRecord}
    (h : Answered l (.promote call, .released records)) (hne : records ≠ []) :
    l.released call.releaseId call.runId call.tables = records ↔
      ∀ b ∈ l.releases, b.releaseId = call.releaseId → b.runId = call.runId →
        Ledger.selects call.tables b.tableName = true → ∃ a ∈ records, a.revision = b.revision := by
  obtain ⟨l₀, ⟨more, rfl, hnewer⟩, rfl⟩ := (h call records rfl).resolve_left hne
  constructor
  · intro heq b hb hid hrun hselects
    refine ⟨b, ?_, rfl⟩
    rw [← heq]
    exact mem_released.2 ⟨hb, hid, hrun, hselects⟩
  · intro hold
    -- nothing newer is selected
    have hnone : more.released call.releaseId call.runId call.tables = [] := by
      refine List.eq_nil_iff_forall_not_mem.2 fun b hb => ?_
      obtain ⟨hmem, hid, hrun, hselects⟩ := mem_released.1 hb
      have hmem' : b ∈ Ledger.releases (l₀ ++ more) := by
        rw [releases_append]
        exact List.mem_append_right _ hmem
      obtain ⟨a, ha, hrevision⟩ := hold b hmem' hid hrun hselects
      have hlt := hnewer a (mem_released.1 ha).1 b hmem
      omega
    rw [released_append, hnone, List.append_nil]

end

def ordersTables (name : String) : Option IcebergTable :=
  if name = "bronze.orders" then some ⟨some ⟨11, [], none, none⟩, .empty⟩ else none

/-- A client goes on for some steps. -/
def advances (i n : ℕ) : List (CatalogMove ℕ) := List.replicate n (.advance i {})

def promoteOrders (call : PromoteCall) : List (CatalogMove ℕ) :=
  .call 0 (.create "bronze.orders" "nightly") :: advances 0 5 ++
    .call 0 (.promote call) :: advances 0 10

def promotedOrders (call : PromoteCall) : CatalogSite ℕ :=
  finish (Site.step catalog) (opening ordersTables 12) (promoteOrders call)

def ordersRelease : ReleaseRecord := ⟨"bronze.orders", 12, "nightly", 1, 0, "nightly"⟩

theorem promotedOrders_reachable (call : PromoteCall) : CatalogReachable ordersTables 12 (promotedOrders call) :=
  Reachable.init.finish _

def promoteNightly (expected : Option ℤ) : PromoteCall := ⟨"pipeline-run-nightly", "nightly", expected, none⟩

end Phlo.Promotion
