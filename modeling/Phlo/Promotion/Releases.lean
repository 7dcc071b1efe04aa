import Phlo.Promotion.Steps

/-!
# Releases in any interleaving

* `based_of_reachable` — what holds of every ledger, promotion and answer, whatever the calls are.
-/

namespace Phlo.Promotion

open Phlo.Library

/-! ### Stages of a promotion -/

namespace PromoteStage

/-- What has been read, while the release is not recorded. -/
def attempt? : PromoteStage → Option Attempt
  | .prepare a _ _ => some a
  | .intend a _ => some a
  | .reread a _ => some a
  | .write a _ _ => some a
  | _ => none

def targets : PromoteStage → List String
  | .prepare _ todo prepared => prepared.map (fun e => e.row.tableName) ++ todo.map CandidateRow.tableName
  | .intend _ prepared => prepared.map fun e => e.row.tableName
  | .reread _ prepared => prepared.map fun e => e.row.tableName
  | .write _ todo records => records.map ReleaseRecord.tableName ++ todo.map fun e => e.row.tableName
  | .cleanup _ records => records.map ReleaseRecord.tableName
  | _ => []

def written : PromoteStage → List ReleaseRecord
  | .write _ _ records => records
  | _ => []

end PromoteStage

/-! ### What holds in any case -/

/-- The states are numbered, and no release is newer than the last state. -/
structure Ordered (l : Ledger) : Prop where
  numbered : Numbered l
  bounded : ∀ record ∈ l.releases, record.revision ≤ l.currentRevision

/-- What a promotion relies on. -/
structure Sound (l : Ledger) (call : PromoteCall) (stage : PromoteStage) : Prop where
  current : ∀ a ∈ stage.attempt?, a.current = l.currentRevision
  unreleased : ∀ a ∈ stage.attempt?, l.released call.releaseId call.runId call.tables = []
  selected : ∀ t ∈ stage.targets, Ledger.selects call.tables t = true
  written : ∀ a ∈ stage.attempt?, ∀ record ∈ stage.written,
    record.releaseId = call.releaseId ∧ record.runId = call.runId ∧ record.revision = a.current + 1
  closed : ∀ todo records, stage = .cleanup todo records →
    records = l.released call.releaseId call.runId call.tables

def Owns (w : Warehouse) (p : Process) : Prop :=
  ∀ call stage, p = .promote call stage → Sound w.ledger call stage

/-- The records are those of an earlier ledger. -/
def Answered (l : Ledger) (answer : Call × Outcome) : Prop :=
  ∀ call records, answer = (.promote call, .released records) → records = [] ∨
    ∃ l₀, Follows l₀ l ∧ records = l₀.released call.releaseId call.runId call.tables

section

variable {free : Bool} {found : Found} {w w' : Warehouse} {l l' : Ledger}

theorem sound_enter (l : Ledger) (call : PromoteCall) : Sound l call .enter where
  current _ h := by cases h
  unreleased _ h := by cases h
  selected _ h := absurd h List.not_mem_nil
  written _ h := by cases h
  closed _ _ h := by cases h

variable {p : Process}

theorem LedgerStep.of_other (h : LedgerStep free l l' p) (hfree : free = false) (hp : p.holds = false) : l' = l := by
  cases h with
  | same _ h => exact h
  | candidates _ rows hfree' _ _ =>
    rw [hfree] at hfree'
    cases hfree'
  | intents call a prepared h => cases hp
  | receipts call a records h => cases hp

theorem ordered_step (h : LedgerStep free l l' p) (hl : Ordered l)
    (hp : ∀ call stage, p = .promote call stage → Sound l call stage) : Ordered l' ∧ Follows l l' := by
  cases h with
  | same _ h =>
    subst h
    exact ⟨hl, .refl l'⟩
  | candidates _ rows hfree hp' h =>
    subst h
    refine ⟨⟨hl.numbered.append (states_candidateEntries rows), fun record hrecord => ?_⟩,
      follows_of_no_release l _ (releases_candidateEntries rows)⟩
    rw [releases_append, releases_candidateEntries, List.append_nil] at hrecord
    rw [currentRevision_append (states_candidateEntries rows)]
    exact hl.bounded record hrecord
  | intents call a prepared h =>
    subst h
    refine ⟨⟨hl.numbered.append (states_intents _), fun record hrecord => ?_⟩,
      follows_of_no_release l _ (releases_intents _)⟩
    rw [releases_append, releases_intents, List.append_nil] at hrecord
    rw [currentRevision_append (states_intents _)]
    exact hl.bounded record hrecord
  | receipts call a records h =>
    subst h
    have hsound := hp call _ rfl
    have hcurrent := hsound.current a rfl
    have hstate : (stateRow call a).revision = l.currentRevision + 1 := congrArg (· + 1) hcurrent
    have hnumbered := hl.numbered.receipts records hstate
    have hnext : Ledger.currentRevision (l ++ receipts records (stateRow call a)) = l.currentRevision + 1 := by
      rw [hnumbered.currentRevision, hl.numbered.currentRevision, states_append, states_receipts,
        List.length_append, List.length_singleton]
    refine ⟨⟨hnumbered, fun record hrecord => ?_⟩, _, rfl, fun b hb record hrecord => ?_⟩
    · rw [hnext]
      rw [releases_append, releases_receipts] at hrecord
      obtain hold | hnew := List.mem_append.1 hrecord
      · exact Nat.le_succ_of_le (hl.bounded record hold)
      · rw [(hsound.written a rfl record hnew).2.2, hcurrent]
    · rw [releases_receipts] at hrecord
      rw [(hsound.written a rfl record hrecord).2.2, hcurrent]
      exact Nat.lt_succ_of_le (hl.bounded b hb)

theorem sound_go {call : PromoteCall} {stage stage' : PromoteStage}
    (h : PromoteGo found call w stage w' stage') (hs : Sound w.ledger call stage) : Sound w'.ledger call stage' := by
  cases h with
  | enter =>
    refine ⟨?_, ?_, ?_, ?_, ?_⟩
    · exact fun _ h => by cases h
    · exact fun _ h => by cases h
    · exact fun _ h => absurd h List.not_mem_nil
    · exact fun _ h => by cases h
    · exact fun _ _ h => by cases h
  | read hmay =>
    refine ⟨fun a ha => ?_, fun _ _ => hmay.unreleased, fun t ht => ?_,
      fun _ _ _ h => absurd h List.not_mem_nil, (fun _ _ h => by cases h)⟩
    · cases ha
      rfl
    · obtain ⟨row, hrow, rfl⟩ := List.mem_map.1 ht
      exact (List.mem_filter.1 hrow).2
  | prepare a row todo prepared e he =>
    have hrow := (prepareOne_eq_ok he).1
    refine ⟨hs.current, hs.unreleased, fun t ht => hs.selected t ?_,
      fun _ _ _ h => absurd h List.not_mem_nil, (fun _ _ h => by cases h)⟩
    simpa [PromoteStage.targets, hrow] using ht
  | begin_ a prepared hpending =>
    refine ⟨hs.current, hs.unreleased, fun t ht => hs.selected t ?_,
      fun _ _ _ h => absurd h List.not_mem_nil, (fun _ _ h => by cases h)⟩
    simpa [PromoteStage.targets] using ht
  | resume a prepared hpending hsame =>
    refine ⟨hs.current, hs.unreleased, fun t ht => hs.selected t ?_,
      fun _ _ _ h => absurd h List.not_mem_nil, (fun _ _ h => by cases h)⟩
    simpa [PromoteStage.targets] using ht
  | intend a prepared hversion =>
    refine ⟨fun b hb => ?_, fun b hb => ?_, hs.selected, fun _ _ _ h => absurd h List.not_mem_nil,
      (fun _ _ h => by cases h)⟩
    · rw [ledger_append, currentRevision_append (states_intents _)]
      exact hs.current b hb
    · rw [ledger_append, released_append, released_eq_nil (releases_intents _), List.append_nil]
      exact hs.unreleased b hb
  | reread a prepared =>
    refine ⟨fun b hb => ?_, fun _ _ => hs.unreleased a rfl, hs.selected,
      fun _ _ _ h => absurd h List.not_mem_nil, (fun _ _ h => by cases h)⟩
    cases hb
    exact hs.current a rfl
  | write a e todo records w' record hwrite =>
    obtain ⟨hledger, snapshotId, rfl⟩ := writeOne_eq_ok hwrite
    rw [hledger]
    refine ⟨hs.current, hs.unreleased, fun t ht => hs.selected t ?_, fun b hb r hr => ?_,
      (fun _ _ h => by cases h)⟩
    · simpa [PromoteStage.targets, releaseRecord] using ht
    · cases hb
      obtain hr | hr := List.mem_append.1 hr
      · exact hs.written a rfl r hr
      · obtain rfl := List.mem_singleton.1 hr
        exact ⟨rfl, rfl, rfl⟩
  | close a records hversion =>
    refine ⟨(fun _ h => by cases h), (fun _ h => by cases h), fun t ht => hs.selected t ?_,
      (fun _ h => by cases h), fun todo records' heq => ?_⟩
    · simpa [PromoteStage.targets] using ht
    · cases heq
      rw [ledger_append, released_append, hs.unreleased a rfl, List.nil_append, Ledger.released,
        releases_receipts]
      refine (List.filter_eq_self.2 fun record hrecord => ?_).symm
      obtain ⟨hid, hrun, -⟩ := hs.written a rfl record hrecord
      have hselects : Ledger.selects call.tables record.tableName = true :=
        hs.selected _ (List.mem_append_left _ (List.mem_map_of_mem hrecord))
      rw [hid, hrun, hselects, decide_eq_true rfl, decide_eq_true rfl]
      rfl
  | cleanup record todo records =>
    have hledger : (if found.fault then w else w.removeBranch record.tableName call.ref).ledger =
        w.ledger := by
      split
      · rfl
      · exact ledger_removeBranch w _ _
    rw [hledger]
    refine ⟨(fun _ h => by cases h), (fun _ h => by cases h), hs.selected, (fun _ h => by cases h),
      fun todo' records' heq => ?_⟩
    cases heq
    exact hs.closed _ _ rfl

theorem Answered.follows {answer : Call × Outcome} (h : Answered l answer) (hl : Follows l l') :
    Answered l' answer := by
  intro call records heq
  obtain hnil | ⟨l₀, hl₀, hrecords⟩ := h call records heq
  · exact .inl hnil
  · exact .inr ⟨l₀, hl₀.trans hl, hrecords⟩

/-- What a process relies on stays, whatever the others do. -/
theorem owns_other {q : Process} (h : LedgerStep free w.ledger w'.ledger p) (hq : Owns w q)
    (hholds : q.holds = true → free = false ∧ p.holds = false) : Owns w' q := by
  intro call stage heq
  subst heq
  cases stage with
  | enter => exact sound_enter _ call
  | _ =>
    obtain ⟨hfree, hp⟩ := hholds rfl
    rw [h.of_other hfree hp]
    exact hq call _ rfl

theorem turnKeeps_owns (hl : Ordered w.ledger) (hp : Owns w p) :
    TurnKeeps catalog (fun w => Ordered w.ledger) Owns (fun w => Answered w.ledger) free w p
      (p.turn free found w) := by
  have hstep := ledgerStep free found w p
  obtain ⟨hordered, hfollows⟩ := ordered_step hstep hl hp
  refine ⟨hordered, fun w' p' heq call stage' hp' => ?_, fun w' o heq call records hanswer => ?_,
    fun q hq hholds => owns_other hstep hq hholds, fun answer hanswer => hanswer.follows hfollows⟩
  · subst hp'
    obtain ⟨stage, rfl, hgo⟩ := promote_of_go heq
    exact sound_go (promoteGo hgo) (hp call stage rfl)
  · obtain ⟨hcall, rfl⟩ := Prod.mk.inj hanswer
    obtain ⟨stage, rfl, hfinish⟩ := promote_of_finish heq hcall
    obtain ⟨rfl, ⟨rfl, rfl | rfl⟩ | rfl⟩ := promoteFinish hfinish
    · exact .inr ⟨_, .refl _, rfl⟩
    · exact .inl rfl
    · exact .inr ⟨_, .refl _, (hp call _ rfl).closed _ _ rfl⟩

end

/-! ### Runs -/

section

variable {ι : Type}

def opening (tables : String → Option IcebergTable) (nextSnapshot : ℕ) : CatalogSite ι where
  shared := ⟨[], tables, nextSnapshot⟩

/-- The lock has one holder, and everybody has what they rely on. -/
structure Based (s : CatalogSite ι) : Prop where
  lock : LockSound catalog s
  kept : Kept (fun w => Ordered w.ledger) Owns (fun w => Answered w.ledger) s

theorem based_opening (tables : String → Option IcebergTable) (nextSnapshot : ℕ) :
    Based (opening tables nextSnapshot : CatalogSite ι) where
  lock := lockSound_start _
  kept := kept_start ⟨rfl, fun _ h => absurd h List.not_mem_nil⟩

variable [DecidableEq ι]

abbrev CatalogReachable (tables : String → Option IcebergTable) (nextSnapshot : ℕ) (s : CatalogSite ι) : Prop :=
  Reachable (Site.step catalog) (opening tables nextSnapshot) s

theorem owns_start (w : Warehouse) (c : Call) : Owns w (Process.start c) := by
  intro call stage heq
  cases c with
  | promote call' =>
    cases heq
    exact sound_enter _ call
  | _ => cases heq

variable {s : CatalogSite ι}

theorem Based.step (h : Based s) (m : CatalogMove ι) : Based (s.step catalog m) where
  lock := h.lock.step catalog_lawful m
  kept := h.kept.step h.lock m (owns_start s.shared) fun _ _ p _ hp =>
    turnKeeps_owns h.kept.shared (h.kept.own _ p hp)

theorem based_of_reachable {tables : String → Option IcebergTable} {nextSnapshot : ℕ}
    (h : CatalogReachable tables nextSnapshot s) : Based s :=
  h.invariant (based_opening tables nextSnapshot) fun _ m hs => hs.step m

/-- **The ledger only grows, by newer releases.** -/
theorem Based.follows (h : Based s) (m : CatalogMove ι) :
    Follows s.shared.ledger (s.step catalog m).shared.ledger := by
  obtain heq | ⟨i, e, p, -, hp, heq⟩ := shared_step catalog s m
  · rw [heq]
    exact .refl _
  · rw [heq]
    exact (ordered_step (ledgerStep s.lock.isNone e s.shared p) h.kept.shared (h.kept.own i p hp)).2

/-- Along a run too. -/
theorem Based.follows_finish (h : Based s) (ms : List (CatalogMove ι)) : Based (finish (Site.step catalog) s ms) ∧
      Follows s.shared.ledger (finish (Site.step catalog) s ms).shared.ledger := by
  induction ms generalizing s with
  | nil => exact ⟨h, .refl _⟩
  | cons m ms ih =>
    obtain ⟨hbased, hfollows⟩ := ih (h.step m)
    exact ⟨hbased, (h.follows m).trans hfollows⟩

end

end Phlo.Promotion
