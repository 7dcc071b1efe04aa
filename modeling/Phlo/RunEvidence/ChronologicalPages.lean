import Phlo.RunEvidence.RunPages
import Phlo.RunEvidence.TimestampOrder

/-!
# The order of the run listing and the order of time

The listing compares the texts of activity times.  A text is written from what a clock read where the
producer was, so the order of the texts is not always the order of the instants.

* `ActivityTime.text_lt_iff` — when the later of two activity times has the greater text;
* `runsDated_trace` — every run of calls with `datetime` arguments stores `datetime` columns.
-/

namespace Phlo.RunEvidence

open Phlo.Library

/-! ### Activity times -/

/-- When a run was last active: a time its producer gave, or one the database filled in. -/
inductive ActivityTime where
  | given (t : Timestamp)
  | filledIn (t : Timestamp)

namespace ActivityTime

def text : ActivityTime → String
  | given t => t.isoformat
  | filledIn t => t.currentTimestampText

/-- The point in time it stands for; the database writes whole seconds. -/
def instant : ActivityTime → ℤ
  | given t => t.instant
  | filledIn t => t.instant / 1000000 * 1000000

def Dated : ActivityTime → Prop
  | given t => t.Datetime
  | filledIn t => t.Datetime ∧ t.shift = 0

/-- What the clocks read has the order of the instants: the later clock reads a later time, or the same
one behind UTC, and a time filled in falls on another day where its form would come first. -/
def ReadsBefore : ActivityTime → ActivityTime → Prop
  | given t, given u => t.wall < u.wall ∨ t.wall = u.wall ∧ u.shift < 0
  | given t, filledIn u => t.wall / dayLength < u.wall / dayLength
  | filledIn t, given u => t.wall / dayLength ≤ u.wall / dayLength
  | filledIn _, filledIn _ => True

instance : ∀ a b : ActivityTime, Decidable (a.ReadsBefore b)
  | given _, given _ => inferInstanceAs (Decidable (_ ∨ _ ∧ _))
  | given _, filledIn _ => inferInstanceAs (Decidable (_ < _))
  | filledIn _, given _ => inferInstanceAs (Decidable (_ ≤ _))
  | filledIn _, filledIn _ => .isTrue trivial

variable {a b : ActivityTime}

/-- The text of the later time is the greater one, or the lesser one. -/
theorem text_cases (ha : a.Dated) (hb : b.Dated) (h : a.instant < b.instant) :
    a.ReadsBefore b ∧ a.text < b.text ∨ ¬a.ReadsBefore b ∧ b.text < a.text := by
  cases a with
  | given t =>
    cases b with
    | given u =>
      have hshift : t.wall = u.wall → u.shift < t.shift := by
        intro hwall
        have hinstant : t.wall - t.shift < u.wall - u.shift := h
        omega
      rw [ReadsBefore, text, text, isoformat_lt_iff ha hb, isoformat_lt_iff hb ha]
      rcases lt_trichotomy t.wall u.wall with hlt | heq | hgt
      · exact Or.inl ⟨Or.inl hlt, Or.inl hlt⟩
      · by_cases hneg : u.shift < 0
        · exact Or.inl ⟨Or.inr ⟨heq, hneg⟩, Or.inr ⟨heq, offsetText_lt (hshift heq) hb.shift_lt hneg⟩⟩
        · refine Or.inr ⟨by omega, Or.inr ⟨heq.symm, ?_⟩⟩
          exact offsetText_gt (hshift heq) ha.shift_lt (by omega)
      · exact Or.inr ⟨by omega, Or.inl hgt⟩
    | filledIn u =>
      rw [ReadsBefore, text, text, isoformat_lt_currentTimestampText_iff ha hb.1.wall,
        currentTimestampText_lt_isoformat_iff hb.1.wall ha]
      omega
  | filledIn t =>
    cases b with
    | given u =>
      rw [ReadsBefore, text, text, currentTimestampText_lt_isoformat_iff ha.1.wall hb,
        isoformat_lt_currentTimestampText_iff hb ha.1.wall]
      omega
    | filledIn u =>
      have hinstant : (t.wall - t.shift) / 1000000 * 1000000 < (u.wall - u.shift) / 1000000 * 1000000 := h
      rw [ha.2, hb.2] at hinstant
      refine Or.inl ⟨trivial, ?_⟩
      rw [text, text, currentTimestampText_lt_iff ha.1.wall hb.1.wall]
      omega

/-- The later of two times has the greater text exactly if its clock reads later. -/
theorem text_lt_iff (ha : a.Dated) (hb : b.Dated) (h : a.instant < b.instant) :
    a.text < b.text ↔ a.ReadsBefore b := by
  rcases text_cases ha hb h with ⟨hreads, hlt⟩ | ⟨hreads, hgt⟩
  · exact iff_of_true hlt hreads
  · exact iff_of_false hgt.not_gt hreads

end ActivityTime

/-- `COALESCE(finished_at, started_at, created_at)` -/
def PipelineRunRow.activityTime (row : PipelineRunRow) : ActivityTime :=
  ((row.finishedAt.or row.startedAt).map .given).getD (.filledIn row.createdAt)

theorem activityTime_text (row : PipelineRunRow) : row.activityTime.text = row.activity := by
  unfold PipelineRunRow.activityTime PipelineRunRow.activity
  cases row.finishedAt with
  | some t => rfl
  | none => cases row.startedAt <;> rfl

theorem null_not_mem_activity (row : PipelineRunRow) : '\x00' ∉ row.activity.toList := by
  rw [← activityTime_text]
  cases row.activityTime with
  | given t => exact t.null_not_mem_isoformat
  | filledIn t => exact t.null_not_mem_currentTimestampText

theorem activityTime_asInstants (row : PipelineRunRow) :
    row.asInstants.activityTime.instant = row.activityTime.instant := by
  unfold PipelineRunRow.activityTime PipelineRunRow.asInstants
  dsimp only
  cases row.finishedAt with
  | some t => exact t.canonical_instant
  | none =>
    cases row.startedAt with
    | some t => exact t.canonical_instant
    | none =>
      show row.createdAt.canonical.instant / 1000000 * 1000000 = _
      rw [Timestamp.canonical_instant]
      rfl

/-! ### Rows with datetimes -/

structure PipelineRunRow.Dated (row : PipelineRunRow) : Prop where
  startedAt : ∀ t ∈ row.startedAt, t.Datetime
  finishedAt : ∀ t ∈ row.finishedAt, t.Datetime
  createdAt : row.createdAt.Datetime
  created_utc : row.createdAt.shift = 0

theorem PipelineRunRow.Dated.activityTime {row : PipelineRunRow} (h : row.Dated) : row.activityTime.Dated := by
  unfold PipelineRunRow.activityTime
  cases hfinished : row.finishedAt with
  | some t => exact h.finishedAt t hfinished
  | none =>
    cases hstarted : row.startedAt with
    | some t => exact h.startedAt t hstarted
    | none => exact ⟨h.createdAt, h.created_utc⟩

def RunsDated (s : Store) : Prop := ∀ row ∈ s.runs.rows, row.Dated

/-- The clock of the database reads UTC. -/
def Clock.Dated (clock : Clock) : Prop := clock.currentTimestamp.Datetime ∧ clock.currentTimestamp.shift = 0

def PipelineRun.Dated (run : PipelineRun) : Prop :=
  (∀ t ∈ run.startedAt, t.Datetime) ∧ ∀ t ∈ run.finishedAt, t.Datetime

def Call.Dated : Call → Prop
  | .appendPipelineRun clock run => clock.Dated ∧ run.Dated
  | .appendEvent clock b => clock.Dated ∧ ∀ run ∈ b.run, run.Dated
  | .reconcileObservation clock _ q => clock.Dated ∧ (observedRun q.observation).Dated
  | _ => True

variable {clock : Clock} {s : Store}

theorem runRow_dated {run : PipelineRun} (hclock : clock.Dated) (hrun : run.Dated) :
    (runRow clock run).Dated := ⟨hrun.1, hrun.2, hclock.1, hclock.2⟩

theorem mergeRun_dated {excluded existing : PipelineRunRow} (h : excluded.Dated) (h' : existing.Dated) :
    (mergeRun clock excluded existing).Dated := by
  have hor : ∀ {x y : Option Timestamp}, (∀ t ∈ x, t.Datetime) → (∀ t ∈ y, t.Datetime) →
      ∀ t ∈ x.or y, t.Datetime := by
    intro x y hx hy t ht
    rcases Option.or_eq_some_iff.1 ht with ht | ⟨-, ht⟩
    · exact hx t ht
    · exact hy t ht
  have hby : ∀ {x y z : Option Timestamp}, (∀ t ∈ x, t.Datetime) → (∀ t ∈ y, t.Datetime) →
      (∀ t ∈ z, t.Datetime) → ∀ t ∈ byAttempt existing excluded x y z, t.Datetime := by
    intro x y z hx hy hz
    unfold byAttempt
    split_ifs
    · exact hx
    · exact hy
    · exact hz
  refine ⟨?_, ?_, h'.createdAt, h'.created_utc⟩
  · exact hby h.startedAt h'.startedAt (hor h'.startedAt h.startedAt)
  · refine hby h.finishedAt h'.finishedAt ?_
    split_ifs
    · exact hor h'.finishedAt h.finishedAt
    · exact hor h.finishedAt h'.finishedAt

theorem upsertRun_dated {run : PipelineRun} (hs : RunsDated s) (hclock : clock.Dated) (hrun : run.Dated) :
    RunsDated (upsertRun s clock run) := by
  intro row hrow
  rcases KeyedTable.mem_upsert hrow with ⟨hrow, -⟩ | ⟨-, rfl⟩ | ⟨old, hold, rfl⟩
  · exact hs row hrow
  · exact runRow_dated hclock hrun
  · exact mergeRun_dated (runRow_dated hclock hrun) (hs old (KeyedTable.mem_of_find hold))

variable {s' : Store}

theorem RunsDated.congr (hs : RunsDated s) (h : s'.runs = s.runs) : RunsDated s' := by
  unfold RunsDated
  rw [h]
  exact hs

/-- Of the records of a bundle only the run is written to the run table. -/
theorem insertDerived_dated {b : EventBundle} (h : b.insertDerived s clock = .ok s') (hs : RunsDated s)
    (hclock : clock.Dated) (hrun : ∀ run ∈ b.run, run.Dated) : RunsDated s' := by
  have hloop : ∀ {α : Type} {f : Store → α → Except StoreError Store} {l : List α} {s s' : Store},
      (∀ s a s', f s a = .ok s' → s'.runs = s.runs) → l.foldlM f s = .ok s' → s'.runs = s.runs :=
    fun hf h => foldlM_rel (R := fun s s' => s'.runs = s.runs) (fun _ => rfl)
      (fun {a b c} (hab : b.runs = a.runs) (hbc : c.runs = b.runs) => hbc.trans hab) hf h
  simp only [EventBundle.insertDerived, bind_eq_ok] at h
  obtain ⟨s₁, h₁, s₂, h₂, s₃, h₃, s₄, h₄, s₅, h₅, h₆⟩ := h
  have hstages := hloop (fun _ _ _ h => by rw [(insertStage_eq_ok.1 h).2]; rfl) h₁
  have hquality := hloop (fun _ _ _ h => by rw [(insertQuality_eq_ok.1 h).2]; rfl) h₂
  have hlineage := hloop (fun _ _ _ h => (insertLineage_growth h).runs) h₃
  have hresources := hloop (fun _ _ _ h => (insertResource_growth h).runs) h₄
  have hcatalog := hloop (fun _ _ _ h => (insertCatalogChange_growth h).runs) h₅
  have hartifacts := hloop (fun _ _ _ h => (insertArtifact_growth h).runs) h₆
  have hupsert : RunsDated (b.run.elim s (upsertRun s clock)) := by
    cases hb : b.run with
    | none => exact hs
    | some run => exact upsertRun_dated hs hclock (hrun run hb)
  refine hupsert.congr ?_
  rw [hartifacts, hcatalog, hresources, hlineage, hquality, hstages]

theorem appendEvent_dated {b : EventBundle} {inserted : Bool} (h : appendEvent s clock b = .ok (s', inserted))
    (hs : RunsDated s) (hclock : clock.Dated) (hrun : ∀ run ∈ b.run, run.Dated) : RunsDated s' := by
  obtain ⟨-, -, -, p, hparent, -, hcases⟩ := appendEvent_cases h
  have hp : RunsDated p := by
    rcases b.ensureParent_cases hparent with ⟨-, rfl⟩ | ⟨-, run, -, rfl⟩
    · exact hs
    · intro row hrow
      rcases (KeyedTable.mem_insertOrIgnore _ _ _).1 hrow with hrow | ⟨-, rfl⟩
      · exact hs row hrow
      · exact ⟨fun _ h => (by cases h), fun _ h => (by cases h), hclock.1, hclock.2⟩
  rcases hcases with ⟨-, -, rfl⟩ | ⟨-, -, hderived⟩
  · exact hp
  · exact insertDerived_dated hderived (hp.congr rfl) hclock hrun

theorem reconcile_dated {scan : Scan} {q : ReconcileRequest} {r : ReconciliationDecision}
    (h : reconcileObservation s clock scan q = .ok (s', r)) (hs : RunsDated s) (hclock : clock.Dated)
    (hrun : (observedRun q.observation).Dated) : RunsDated s' := by
  intro row hrow
  have hfind := KeyedTable.find_of_mem hrow
  by_cases hk : row.key = q.observation.key
  swap
  · rw [reconcile_find_of_ne h hk] at hfind
    exact hs row (KeyedTable.mem_of_find hfind)
  rw [hk] at hfind
  cases hp : q.observation.lookupOutcome with
  | present =>
    have hingested : (ingestedRow s clock q.observation).Dated := by
      unfold ingestedRow
      cases hold : s.runs.find q.observation.key with
      | none => exact runRow_dated hclock hrun
      | some old => exact mergeRun_dated (runRow_dated hclock hrun) (hs old (KeyedTable.mem_of_find hold))
    obtain ⟨i, -, heval, -, ⟨-, hr, hfound⟩ | ⟨-, -, -, hfound⟩⟩ := reconcile_present h hp
    · obtain rfl := Option.some.inj (hfind.symm.trans hfound)
      have hfinished : r.finishedAt = q.observation.finishedAt := by
        rw [hr, ← heval.observation]
        rfl
      generalize ingestedRow s clock q.observation = ingested at hingested
      by_cases hattempt : ingested.attempt = q.observation.attempt
      · rw [decidedRow_of_attempt clock r hattempt]
        split_ifs
        · exact hingested
        · refine ⟨hingested.startedAt, fun t ht => ?_, hingested.createdAt, hingested.created_utc⟩
          obtain ⟨u, hu, rfl⟩ := Option.map_eq_some_iff.1 ht
          exact (hingested.finishedAt u hu).canonical
        · exact ⟨hingested.startedAt, hfinished ▸ hrun.2, hingested.createdAt, hingested.created_utc⟩
      · rw [decidedRow_of_ne clock r hattempt]
        exact hingested
    · obtain rfl := Option.some.inj (hfind.symm.trans hfound)
      unfold replayedRow
      cases s.runs.find q.observation.key with
      | none => exact hingested
      | some old => exact ⟨hingested.startedAt, hingested.finishedAt, hingested.createdAt, hingested.created_utc⟩
  | absent =>
    obtain ⟨old, hold, hfound⟩ := reconcile_absent h hp
    have hdated := hs old (KeyedTable.mem_of_find hold)
    rcases hfound with hfound | hfound
    · obtain rfl := Option.some.inj (hfind.symm.trans hfound)
      exact ⟨hdated.startedAt, hdated.finishedAt, hdated.createdAt, hdated.created_utc⟩
    · obtain rfl := Option.some.inj (hfind.symm.trans hfound)
      exact ⟨hdated.startedAt, hdated.finishedAt, hdated.createdAt, hdated.created_utc⟩

theorem exec_dated {c : Call} (h : exec s c = .ok s') (hs : RunsDated s) (hc : c.Dated) : RunsDated s' := by
  cases c with
  | appendPipelineRun clock run =>
    obtain ⟨rfl, -⟩ := commit_eq_ok.1 h
    exact upsertRun_dated hs hc.1 hc.2
  | appendEvent clock b =>
    obtain ⟨⟨t, inserted⟩, ht, rfl⟩ := map_eq_ok.1 h
    exact appendEvent_dated ht hs hc.1 hc.2
  | appendStage stage =>
    obtain ⟨-, hinsert, -⟩ := insertion_eq_ok.1 h
    exact hs.congr (by rw [(insertStage_eq_ok.1 hinsert).2]; rfl)
  | appendResource r =>
    obtain ⟨-, hinsert, -⟩ := insertion_eq_ok.1 h
    exact hs.congr (insertResource_growth hinsert).runs
  | appendLineageEdge e =>
    obtain ⟨-, hinsert, -⟩ := insertion_eq_ok.1 h
    exact hs.congr (insertLineage_growth hinsert).runs
  | appendQualityResult q =>
    obtain ⟨-, hinsert, -⟩ := insertion_eq_ok.1 h
    exact hs.congr (by rw [(insertQuality_eq_ok.1 hinsert).2]; rfl)
  | appendCatalogChange change =>
    obtain ⟨-, hinsert, -⟩ := insertion_eq_ok.1 h
    exact hs.congr (insertCatalogChange_growth hinsert).runs
  | appendArtifact a =>
    obtain ⟨-, hinsert, -⟩ := insertion_eq_ok.1 h
    exact hs.congr (insertArtifact_growth hinsert).runs
  | reconcileObservation clock scan q =>
    obtain ⟨⟨t, r⟩, ht, rfl⟩ := map_eq_ok.1 h
    exact reconcile_dated ht hs hc.1 hc.2

theorem runsDated_trace {calls : List Call} (hs : RunsDated s) (hcalls : ∀ c ∈ calls, c.Dated) :
    ∀ s' ∈ trace step s calls, RunsDated s' := by
  induction calls generalizing s with
  | nil =>
    intro s' hs'
    rw [List.mem_singleton.1 hs']
    exact hs
  | cons c calls ih =>
    intro s' hs'
    rcases List.mem_cons.1 hs' with rfl | hs'
    · exact hs
    · refine ih ?_ (fun c' hc' => hcalls c' (List.mem_cons_of_mem _ hc')) s' hs'
      cases hexec : exec s c with
      | error e =>
        rw [step_of_error hexec]
        exact hs
      | ok next =>
        rw [step_of_ok hexec]
        exact exec_dated hexec hs (hcalls c List.mem_cons_self)

theorem runsDated_empty : RunsDated Store.empty := fun _ h => (by cases h)

/-! ### Chronological pages -/

def PipelineRunRow.activityInstant (row : PipelineRunRow) : ℤ := row.activityTime.instant

/-- Every page holds the latest of the runs after its cursor, the latest first. -/
def ListsChronologically (s : Store) : Prop :=
  ∀ (limit : ℤ) (cursor : Option RunCursor) (position : Option RunPosition) (page : List RunListing)
    (next : Option RunCursor), decodeRunCursor cursor = .ok position →
    listRunsPage s limit cursor = .ok (page, next) →
    (page.Pairwise fun a b => b.row.activityInstant ≤ a.row.activityInstant) ∧
      ∀ a ∈ page, ∀ row ∈ s.runs.rows, position.all (fun position => position.before row) = true →
        row.listing ∉ page → row.activityInstant ≤ a.row.activityInstant

/-- Of two runs that were active at different instants the later one has the clock that reads later. -/
def ClocksAgree (s : Store) : Prop :=
  ∀ a ∈ s.runs.rows, ∀ b ∈ s.runs.rows, a.activityInstant < b.activityInstant →
    a.activityTime.ReadsBefore b.activityTime

theorem listing_activityInstant (row : PipelineRunRow) : row.listing.row.activityInstant = row.activityInstant :=
  activityTime_asInstants row

def selectedRows (s : Store) (position : Option RunPosition) : List PipelineRunRow :=
  sortBy PipelineRunRow.order (s.runs.rows.filter fun row => position.all fun position => position.before row)

theorem mem_selectedRows {position : Option RunPosition} {row : PipelineRunRow} : row ∈ selectedRows s position ↔
      row ∈ s.runs.rows ∧ position.all (fun position => position.before row) = true := by
  rw [selectedRows, mem_sortBy, List.mem_filter]

theorem listRunsPage_eq {limit : ℤ} {cursor : Option RunCursor} {position : Option RunPosition}
    {page : List RunListing} {next : Option RunCursor} (h : decodeRunCursor cursor = .ok position)
    (hpage : listRunsPage s limit cursor = .ok (page, next)) :
    page = ((selectedRows s position).take (pageSize limit)).map PipelineRunRow.listing := by
  rw [listRunsPage_of_decode s limit h] at hpage
  have hfirst := congrArg Prod.fst (Except.ok.inj hpage)
  rw [← show (selectRunsPage s (pageSize limit) position).1 = page from hfirst]
  show List.take _ (List.map _ (List.take _ _)) = _
  rw [← List.map_take, List.take_take, min_eq_left (Nat.le_succ _)]
  rfl

theorem not_activity_lt_of_order_le {a b : PipelineRunRow} (h : a.order ≤ b.order) : ¬a.activity < b.activity := by
  intro hlt
  have hreverse : b.order < a.order := by
    unfold PipelineRunRow.order runOrder
    exact Prod.Lex.toLex_lt_toLex.2 (Or.inl (OrderDual.toDual_lt_toDual.2 hlt))
  exact hreverse.not_ge h

theorem activityInstant_le_of_order_le (hs : RunsDated s) (hclocks : ClocksAgree s) {a b : PipelineRunRow}
    (ha : a ∈ s.runs.rows) (hb : b ∈ s.runs.rows) (h : a.order ≤ b.order) : b.activityInstant ≤ a.activityInstant := by
  by_contra hlt
  have hinstant : a.activityInstant < b.activityInstant := by omega
  have htext := (ActivityTime.text_lt_iff (hs a ha).activityTime (hs b hb).activityTime hinstant).2
    (hclocks a ha b hb hinstant)
  rw [activityTime_text, activityTime_text] at htext
  exact not_activity_lt_of_order_le h htext

theorem listsChronologically_of_clocksAgree (hs : RunsDated s) (hclocks : ClocksAgree s) : ListsChronologically s := by
  intro limit cursor position page next hcursor hpage
  rw [listRunsPage_eq hcursor hpage]
  have hsorted : (selectedRows s position).Pairwise fun a b => a.order ≤ b.order := pairwise_sortBy _ _
  rw [← List.take_append_drop (pageSize limit) (selectedRows s position)] at hsorted
  obtain ⟨hpairs, -, hrest⟩ := List.pairwise_append.1 hsorted
  have hstored : ∀ {row}, row ∈ (selectedRows s position).take (pageSize limit) → row ∈ s.runs.rows :=
    fun h => (mem_selectedRows.1 (List.mem_of_mem_take h)).1
  refine ⟨List.pairwise_map.2 (hpairs.imp_of_mem fun ha hb hle => ?_), fun a ha row hrow hbefore hout => ?_⟩
  · rw [listing_activityInstant, listing_activityInstant]
    exact activityInstant_le_of_order_le hs hclocks (hstored ha) (hstored hb) hle
  · obtain ⟨first, hfirst, rfl⟩ := List.mem_map.1 ha
    have hselected := mem_selectedRows.2 ⟨hrow, hbefore⟩
    rw [← List.take_append_drop (pageSize limit) (selectedRows s position)] at hselected
    rw [listing_activityInstant]
    rcases List.mem_append.1 hselected with hin | hlater
    · exact absurd (List.mem_map_of_mem hin) hout
    · exact activityInstant_le_of_order_le hs hclocks (hstored hfirst) hrow (hrest _ hfirst _ hlater)

/-- When the clocks disagree on two runs, the page that starts at the earlier one leaves out the later. -/
theorem clocksAgree_of_listsChronologically (hs : RunsDated s) (h : ListsChronologically s) : ClocksAgree s := by
  intro a ha b hb hinstant
  by_contra hreads
  obtain ⟨-, htext⟩ := (ActivityTime.text_cases (hs a ha).activityTime (hs b hb).activityTime hinstant).resolve_left
    fun hboth => hreads hboth.1
  rw [activityTime_text, activityTime_text] at htext
  -- the cursor right above the text of the earlier run
  have hnonempty : a.activity.push '\x00' ≠ "" := fun hempty => by
    have hlength := congrArg String.length hempty
    rw [String.length_push] at hlength
    exact Nat.succ_ne_zero _ hlength
  have hcursor : decodeRunCursor (some (encodeRunCursor (a.activity.push '\x00') "p" "r")) =
      .ok (some ⟨a.activity.push '\x00', "p", "r"⟩) := by
    simp [encodeRunCursor, decodeRunCursor, cursorText, List.lookup_cons, hnonempty]
  have hbefore : ∀ row : PipelineRunRow, row.activity < a.activity.push '\x00' →
      (some (⟨a.activity.push '\x00', "p", "r"⟩ : RunPosition)).all (fun position => position.before row) = true := by
    intro row hrow
    show (decide (row.activity < a.activity.push '\x00') || _) = true
    rw [decide_eq_true hrow, Bool.true_or]
  have hpage := listRunsPage_of_decode s 1 hcursor
  have heq := listRunsPage_eq hcursor (hpage.trans (congrArg Except.ok (Prod.mk.eta (p := selectRunsPage s _ _)).symm))
  obtain ⟨-, hlater⟩ := h 1 _ _ _ _ hcursor
    (hpage.trans (congrArg Except.ok (Prod.mk.eta (p := selectRunsPage s _ _)).symm))
  have hselected : a ∈ selectedRows s (some ⟨a.activity.push '\x00', "p", "r"⟩) :=
    mem_selectedRows.2 ⟨ha, hbefore a ((lt_push_iff _ _).2 (lt_irrefl _))⟩
  have hsorted : (selectedRows s (some ⟨a.activity.push '\x00', "p", "r"⟩)).Pairwise fun a b => a.order ≤ b.order :=
    pairwise_sortBy _ _
  have hsize : pageSize 1 = 1 := rfl
  cases hrows : selectedRows s (some ⟨a.activity.push '\x00', "p", "r"⟩) with
  | nil =>
    rw [hrows] at hselected
    cases hselected
  | cons first rest =>
    rw [heq, hrows, hsize, List.take_succ_cons, List.take_zero, List.map_singleton] at hlater
    have hmem : first ∈ selectedRows s (some ⟨a.activity.push '\x00', "p", "r"⟩) := by
      rw [hrows]
      exact List.mem_cons_self
    obtain ⟨hfirst, hselects⟩ := mem_selectedRows.1 hmem
    have hle : first.order ≤ a.order := by
      rw [hrows] at hselected hsorted
      rcases List.mem_cons.1 hselected with rfl | hmem
      · exact le_rfl
      · exact List.rel_of_pairwise_cons hsorted hmem
    have hbelow : ¬a.activity < first.activity := by
      rw [← lt_push_iff]
      simp only [Option.all_some, RunPosition.before, Bool.or_eq_true, Bool.and_eq_true, decide_eq_true_eq] at hselects
      refine hselects.resolve_right fun hboth => ?_
      have hnull := null_not_mem_activity first
      rw [hboth.1, String.toList_push] at hnull
      exact hnull (List.mem_append_right _ (List.mem_singleton_self _))
    have hsame : first.activity = a.activity :=
      le_antisymm (not_lt.1 hbelow) (not_lt.1 (not_activity_lt_of_order_le hle))
    have hout : b.listing ∉ [first.listing] := by
      rw [List.mem_singleton]
      intro hlisting
      have hactivity : b.activity = first.activity := congrArg RunListing.activity hlisting
      rw [hactivity, hsame] at htext
      exact lt_irrefl _ htext
    have hb' := hlater first.listing (List.mem_singleton_self _) b hb
      (hbefore b ((lt_push_iff _ _).2 htext.not_gt)) hout
    rw [listing_activityInstant] at hb'
    -- one text is written for one instant
    have hnot : ¬a.activityInstant < first.activityInstant := by
      intro hlt
      have hcases := ActivityTime.text_cases (hs a ha).activityTime (hs first hfirst).activityTime hlt
      rw [activityTime_text, activityTime_text, hsame] at hcases
      rcases hcases with ⟨-, hlt⟩ | ⟨-, hlt⟩
      · exact lt_irrefl _ hlt
      · exact lt_irrefl _ hlt
    omega

/-- **The listing is chronological exactly while the clocks agree**: in every state of every run of calls
with aware datetimes, the pages hold the latest runs first if and only if, of any two runs that were active
at different instants, the later one has the clock that reads later. -/
theorem listings_chronological_iff (calls : List Call) (h : ∀ c ∈ calls, c.Dated) :
    ∀ s ∈ trace step Store.empty calls, ListsChronologically s ↔ ClocksAgree s := by
  intro s hs
  have hdated := runsDated_trace runsDated_empty h s hs
  exact ⟨clocksAgree_of_listsChronologically hdated, listsChronologically_of_clocksAgree hdated⟩

/-! ### Two runs in two time zones -/

def newYear (hour ahead : ℤ) : Timestamp := ⟨1767225600000000 + hour * 3600000000, some (ahead * 3600000000)⟩

def finishedRunCall (runId : String) (finishedAt : Timestamp) : Call :=
  .appendPipelineRun ⟨newYear 12 0, newYear 12 0⟩
    { projectId := "p", runId := runId, status := .success, finishedAt := some finishedAt }

theorem newYear_datetime {hour ahead : ℤ} (hhour : 0 ≤ hour ∧ hour < 24) (hahead : -12 ≤ ahead ∧ ahead ≤ 14) :
    (newYear hour ahead).Datetime where
  aware := rfl
  shift_lt := by
    show ((ahead * 3600000000).natAbs : ℤ) < 86400000000
    omega
  wall := by
    show InCalendar (1767225600000000 + hour * 3600000000)
    unfold InCalendar firstDay lastDay dayLength
    omega
  instant := by
    show InCalendar (1767225600000000 + hour * 3600000000 - ahead * 3600000000)
    unfold InCalendar firstDay lastDay dayLength
    omega

theorem finishedRunCall_dated {runId : String} {finishedAt : Timestamp} (h : finishedAt.Datetime) :
    (finishedRunCall runId finishedAt).Dated :=
  ⟨⟨newYear_datetime (by decide) (by decide), rfl⟩, fun _ h => (by cases h),
    fun t ht => Option.some.inj ht ▸ h⟩

theorem listings_chronological_utc : ListsChronologically (step (step Store.empty (finishedRunCall "a" (newYear 9 0)))
        (finishedRunCall "b" (newYear 10 0))) ↔
      ClocksAgree (step (step Store.empty (finishedRunCall "a" (newYear 9 0)))
        (finishedRunCall "b" (newYear 10 0))) := by
  refine listings_chronological_iff [finishedRunCall "a" (newYear 9 0), finishedRunCall "b" (newYear 10 0)] ?_ _ ?_
  · intro c hc
    rcases List.mem_cons.1 hc with rfl | hc
    · exact finishedRunCall_dated (newYear_datetime (by decide) (by decide))
    · rw [List.mem_singleton.1 hc]
      exact finishedRunCall_dated (newYear_datetime (by decide) (by decide))
  · exact List.mem_cons_of_mem _ (List.mem_cons_of_mem _ (List.mem_singleton_self _))

/-- The run that finished at 05:00 UTC on a clock five hours ahead is listed before the one that finished at
09:00 UTC. -/
theorem clock_ahead_lists_earlier_run_first : ¬∀ calls : List Call, (∀ c ∈ calls, c.Dated) →
      ∀ s ∈ trace step Store.empty calls, ListsChronologically s := by
  intro hclaim
  have hcalls : ∀ c ∈ [finishedRunCall "a" (newYear 10 5), finishedRunCall "b" (newYear 9 0)], c.Dated := by
    intro c hc
    rcases List.mem_cons.1 hc with rfl | hc
    · exact finishedRunCall_dated (newYear_datetime (by decide) (by decide))
    · rw [List.mem_singleton.1 hc]
      exact finishedRunCall_dated (newYear_datetime (by decide) (by decide))
  have htimes : (step (step Store.empty (finishedRunCall "a" (newYear 10 5)))
      (finishedRunCall "b" (newYear 9 0))).runs.rows.map PipelineRunRow.activityTime =
        [.given (newYear 10 5), .given (newYear 9 0)] := by rfl
  have hlast : step (step Store.empty (finishedRunCall "a" (newYear 10 5))) (finishedRunCall "b" (newYear 9 0)) ∈
      trace step Store.empty [finishedRunCall "a" (newYear 10 5), finishedRunCall "b" (newYear 9 0)] :=
    List.mem_cons_of_mem _ (List.mem_cons_of_mem _ (List.mem_singleton_self _))
  have hclocks := clocksAgree_of_listsChronologically (runsDated_trace runsDated_empty hcalls _ hlast)
    (hclaim _ hcalls _ hlast)
  have hall : ∀ x ∈ [ActivityTime.given (newYear 10 5), .given (newYear 9 0)],
      ∀ y ∈ [ActivityTime.given (newYear 10 5), .given (newYear 9 0)], x.instant < y.instant → x.ReadsBefore y := by
    rw [← htimes]
    intro x hx y hy
    obtain ⟨a, ha, rfl⟩ := List.mem_map.1 hx
    obtain ⟨b, hb, rfl⟩ := List.mem_map.1 hy
    exact hclocks a ha b hb
  have hreads := hall (.given (newYear 10 5)) List.mem_cons_self (.given (newYear 9 0))
    (List.mem_cons_of_mem _ (List.mem_singleton_self _)) (by decide)
  exact absurd hreads (by decide)

end Phlo.RunEvidence
