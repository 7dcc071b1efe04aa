import Phlo.Library.VersionedMerge
import Phlo.RunEvidence.StageCoherence

/-!
# Run upserts commute

The columns that describe an attempt form a register whose version is the attempt: a higher attempt
starts over, a lower one is ignored and a write of the stored attempt is merged in (`mergeRun_attemptAt`).
-/

namespace Phlo.RunEvidence

open Phlo.Library

/-! ### The columns of an attempt -/

/-- What a run row says about its attempt. -/
structure AttemptColumns where
  status : RunStatus
  startedAt : Option Timestamp
  finishedAt : Option Timestamp

namespace AttemptColumns

def blank : AttemptColumns := ⟨.running, none, none⟩

/-- A write of the stored attempt: a terminal status stays, missing times are filled in. -/
def fill (existing excluded : AttemptColumns) : AttemptColumns :=
  if existing.status.isTerminal then
    ⟨existing.status, existing.startedAt.or excluded.startedAt,
      existing.finishedAt.or excluded.finishedAt⟩
  else
    ⟨excluded.status, existing.startedAt.or excluded.startedAt,
      excluded.finishedAt.or existing.finishedAt⟩

variable {c : AttemptColumns}

theorem fill_of_terminal (h : c.status.isTerminal = true) (w : AttemptColumns) :
    fill c w = ⟨c.status, c.startedAt.or w.startedAt, c.finishedAt.or w.finishedAt⟩ := if_pos h

theorem fill_of_nonterminal (h : c.status.isTerminal = false) (w : AttemptColumns) :
    fill c w = ⟨w.status, c.startedAt.or w.startedAt, w.finishedAt.or c.finishedAt⟩ := by
  unfold fill
  rw [h]
  rfl

theorem fill_blank (w : AttemptColumns) : fill blank w = w := by
  rw [fill_of_nonterminal rfl]
  simp only [blank, Option.none_or, Option.or_none]

theorem or_findSome_cons {β γ : Type} (f : β → Option γ) (c : Option γ) (b : β) (l : List β) :
    (c.or (f b)).or (l.findSome? f) = c.or ((b :: l).findSome? f) := by
  rw [Option.or_assoc, List.findSome?_cons]
  cases f b <;> rfl

/-- A terminal attempt only gains times it does not have. -/
theorem foldl_fill_terminal (h : c.status.isTerminal = true) (l : List AttemptColumns) :
    l.foldl fill c = ⟨c.status, c.startedAt.or (l.findSome? startedAt),
      c.finishedAt.or (l.findSome? finishedAt)⟩ := by
  induction l generalizing c with
  | nil =>
    show c = _
    rw [List.findSome?_nil, List.findSome?_nil, Option.or_none, Option.or_none]
  | cons w l ih =>
    have hw : (fill c w).status.isTerminal = true := by
      rw [fill_of_terminal h]
      exact h
    rw [List.foldl_cons, ih hw, fill_of_terminal h, or_findSome_cons startedAt,
      or_findSome_cons finishedAt]

/-- The writes of one attempt: their terminal status is `status`, and only writes of that status carry a
finish time. -/
structure Agree (status : RunStatus) (l : List AttemptColumns) : Prop where
  terminal : ∀ w ∈ l, w.status.isTerminal = true → w.status = status
  finished : ∀ w ∈ l, w.finishedAt.isSome = true → w.status.isTerminal = true

/-- **The writes of an attempt that has not ended**, the terminal one among them, give it that status,
the first start time and the first finish time. -/
theorem foldl_fill_settled {status : RunStatus} {l : List AttemptColumns} (hl : Agree status l)
    (hterminal : ∃ w ∈ l, w.status.isTerminal = true) (hc : c.status.isTerminal = false)
    (hfinished : c.finishedAt = none ∨ ∃ b, ∀ w ∈ l, w.status.isTerminal = true → w.finishedAt.isSome = b) :
    l.foldl fill c = ⟨status, c.startedAt.or (l.findSome? startedAt), (l.findSome? finishedAt).or c.finishedAt⟩ := by
  induction l generalizing c with
  | nil =>
    obtain ⟨w, hw, -⟩ := hterminal
    cases hw
  | cons w l ih =>
    have hrest : Agree status l := ⟨fun v hv => hl.terminal v (List.mem_cons_of_mem w hv),
      fun v hv => hl.finished v (List.mem_cons_of_mem w hv)⟩
    rw [List.foldl_cons, fill_of_nonterminal hc]
    cases hw : w.status.isTerminal with
    | true =>
      -- the first terminal write: what follows can only add a finish time
      rw [foldl_fill_terminal
          (c := ⟨w.status, c.startedAt.or w.startedAt, w.finishedAt.or c.finishedAt⟩) hw,
        hl.terminal w List.mem_cons_self hw, or_findSome_cons startedAt,
        List.findSome?_cons (f := finishedAt)]
      cases hfin : w.finishedAt with
      | some t => rfl
      | none =>
        rcases hfinished with hnone | ⟨b, hb⟩
        · rw [hnone]
          simp only [Option.none_or, Option.or_none]
        · have hlast : l.findSome? finishedAt = none := by
            rw [List.findSome?_eq_none_iff]
            intro v hv
            have hb' : b = false := by
              rw [← hb w List.mem_cons_self hw, hfin]
              rfl
            cases hvfin : v.finishedAt with
            | none => rfl
            | some t =>
              have hvterminal := hrest.finished v hv (by rw [hvfin]; rfl)
              have hvb := hb v (List.mem_cons_of_mem w hv) hvterminal
              rw [hvfin, hb'] at hvb
              cases hvb
          rw [hlast]
          simp only [Option.none_or, Option.or_none]
    | false =>
      have hfin : w.finishedAt = none := by
        cases hfin : w.finishedAt with
        | none => rfl
        | some t =>
          have hwterminal := hl.finished w List.mem_cons_self (by rw [hfin]; rfl)
          rw [hw] at hwterminal
          cases hwterminal
      have hlater : ∃ v ∈ l, v.status.isTerminal = true := by
        obtain ⟨v, hv, hvterminal⟩ := hterminal
        rcases List.mem_cons.1 hv with rfl | hv
        · rw [hw] at hvterminal
          cases hvterminal
        · exact ⟨v, hv, hvterminal⟩
      have hfinished' : c.finishedAt = none ∨ ∃ b, ∀ v ∈ l, v.status.isTerminal = true → v.finishedAt.isSome = b := by
        rcases hfinished with hnone | ⟨b, hb⟩
        · exact Or.inl hnone
        · exact Or.inr ⟨b, fun v hv => hb v (List.mem_cons_of_mem w hv)⟩
      rw [hfin, Option.none_or,
        ih (c := ⟨w.status, c.startedAt.or w.startedAt, c.finishedAt⟩) hrest hlater hw hfinished',
        or_findSome_cons startedAt, List.findSome?_cons (f := finishedAt), hfin]

/-- The status and the times, as `view` shows them. -/
def view {V : Type} (view : Timestamp → V) (c : AttemptColumns) : RunStatus × Option V × Option V :=
  (c.status, c.startedAt.map view, c.finishedAt.map view)

/-- All writes that give the time in question show the same one. -/
def OneTime {V : Type} (view : Timestamp → V) (column : AttemptColumns → Option Timestamp)
    (l : List AttemptColumns) : Prop :=
  ∀ a ∈ l, ∀ b ∈ l, ∀ x y, column a = some x → column b = some y → view x = view y

/-- The order and the repetitions of the writes of an attempt do not show. -/
theorem foldl_fill_congr {V : Type} {view : Timestamp → V} {status : RunStatus} {l l' : List AttemptColumns}
    (hmem : ∀ w, w ∈ l ↔ w ∈ l') (hl : Agree status l) (hterminal : ∃ w ∈ l, w.status.isTerminal = true)
    (hstarted : OneTime view startedAt l) (hfinished : OneTime view finishedAt l)
    (hc : c.status.isTerminal = false → c.finishedAt = none ∨ ∃ b, ∀ w ∈ l, w.status.isTerminal = true → w.finishedAt.isSome = b) :
    (l.foldl fill c).view view = (l'.foldl fill c).view view := by
  have hs := map_findSome_congr hmem view hstarted
  have hf := map_findSome_congr hmem view hfinished
  cases hcterminal : c.status.isTerminal with
  | true =>
    rw [foldl_fill_terminal hcterminal, foldl_fill_terminal hcterminal]
    unfold AttemptColumns.view
    rw [Option.map_or, Option.map_or, Option.map_or, Option.map_or, hs, hf]
  | false =>
    have hl' : Agree status l' :=
      ⟨fun w hw => hl.terminal w ((hmem w).2 hw), fun w hw => hl.finished w ((hmem w).2 hw)⟩
    have hterminal' : ∃ w ∈ l', w.status.isTerminal = true := by
      obtain ⟨w, hw, hwterminal⟩ := hterminal
      exact ⟨w, (hmem w).1 hw, hwterminal⟩
    have hc' : c.finishedAt = none ∨ ∃ b, ∀ w ∈ l', w.status.isTerminal = true → w.finishedAt.isSome = b := by
      rcases hc hcterminal with hnone | ⟨b, hb⟩
      · exact Or.inl hnone
      · exact Or.inr ⟨b, fun w hw => hb w ((hmem w).2 hw)⟩
    rw [foldl_fill_settled hl hterminal hcterminal (hc hcterminal),
      foldl_fill_settled hl' hterminal' hcterminal hc']
    unfold AttemptColumns.view
    rw [Option.map_or, Option.map_or, Option.map_or, Option.map_or, hs, hf]

end AttemptColumns

/-! ### The register of a run -/

def PipelineRunRow.attemptAt (row : PipelineRunRow) : Register ℕ AttemptColumns :=
  ⟨row.attempt, ⟨row.status, row.startedAt, row.finishedAt⟩⟩

def PipelineRun.attemptAt (run : PipelineRun) : Register ℕ AttemptColumns :=
  ⟨run.attempt, ⟨run.status, run.startedAt, run.finishedAt⟩⟩

def Store.attemptAt (s : Store) (k : String × String) : Register ℕ AttemptColumns :=
  (s.runs.find k).elim ⟨0, AttemptColumns.blank⟩ PipelineRunRow.attemptAt

/-- **The CASE expressions of `_upsert_run` refine a merging write** of the columns of the attempt. -/
theorem mergeRun_attemptAt (clock : Clock) (excluded existing : PipelineRunRow) :
    (mergeRun clock excluded existing).attemptAt =
      Register.mergeWrite AttemptColumns.fill existing.attemptAt excluded.attemptAt := by
  unfold Register.mergeWrite mergeRun byAttempt
  by_cases hlt : existing.attempt < excluded.attempt
  · have hnot : ¬ existing.attempt > excluded.attempt := by omega
    simp [PipelineRunRow.attemptAt, hlt, hnot]
  · by_cases hgt : excluded.attempt < existing.attempt
    · simp [PipelineRunRow.attemptAt, hlt, hgt]
    · have heq : existing.attempt = excluded.attempt := by omega
      cases ht : existing.status.isTerminal with
      | true =>
        simp [PipelineRunRow.attemptAt, heq, RunStatus.isSqlTerminal_eq, AttemptColumns.fill, ht]
      | false =>
        simp [PipelineRunRow.attemptAt, heq, RunStatus.isSqlTerminal_eq, AttemptColumns.fill, ht]

theorem upsertRun_attemptAt (s : Store) (clock : Clock) (run : PipelineRun) :
    (upsertRun s clock run).attemptAt (run.projectId, run.runId) =
      Register.mergeWrite AttemptColumns.fill (s.attemptAt (run.projectId, run.runId)) run.attemptAt := by
  unfold Store.attemptAt
  rw [upsertRun_find_self]
  cases s.runs.find (run.projectId, run.runId) with
  | none => exact (Register.mergeWrite_of_lt run.attempt_pos).symm
  | some row => exact mergeRun_attemptAt clock (runRow clock run) row

variable {s : Store}

theorem step_appendPipelineRun (hs : ReachableStore s) (clock : Clock) (run : PipelineRun) :
    step s (.appendPipelineRun clock run) = upsertRun s clock run := by
  have hintegral : Integral s := reachable_integral hs
  exact step_of_ok (commit_eq_ok.2 ⟨rfl, hintegral⟩)

def appendRuns (ws : List (Clock × PipelineRun)) : List Call :=
  ws.map fun w => .appendPipelineRun w.1 w.2

variable {ws : List (Clock × PipelineRun)}

theorem finish_appendRuns_attemptAt (hs : ReachableStore s) {k : String × String}
    (hk : ∀ w ∈ ws, (w.2.projectId, w.2.runId) = k) : (finish step s (appendRuns ws)).attemptAt k =
      (ws.map fun w => w.2.attemptAt).foldl (Register.mergeWrite AttemptColumns.fill) (s.attemptAt k) := by
  induction ws generalizing s with
  | nil => rfl
  | cons w ws ih =>
    have hw := hk w List.mem_cons_self
    show (finish step (step s (.appendPipelineRun w.1 w.2)) (appendRuns ws)).attemptAt k = _
    rw [ih (hs.step _) fun v hv => hk v (List.mem_cons_of_mem w hv), step_appendPipelineRun hs,
      List.map_cons, List.foldl_cons, ← hw, upsertRun_attemptAt]

/-! ### Writes in any order -/

/-- The writes of one run with at most one outcome: `t` is a terminal write of the highest attempt, and
the writes of that attempt have one terminal status, one start time and one finish time, which only
terminal writes carry.  Times are compared as `view` shows them. -/
structure OneOutcome {V : Type} (view : Timestamp → V) (runs : List PipelineRun) (t : PipelineRun) :
    Prop where
  mem : t ∈ runs
  sameRun : ∀ w ∈ runs, (w.projectId, w.runId) = (t.projectId, t.runId)
  highest : ∀ w ∈ runs, w.attempt ≤ t.attempt
  terminal : t.status.isTerminal = true
  status : ∀ w ∈ runs, w.attempt = t.attempt → w.status.isTerminal = true → w.status = t.status
  startedAt : ∀ w ∈ runs, ∀ w' ∈ runs, w.attempt = t.attempt → w'.attempt = t.attempt →
    ∀ x y, w.startedAt = some x → w'.startedAt = some y → view x = view y
  finishedAt : ∀ w ∈ runs, ∀ w' ∈ runs, w.attempt = t.attempt → w'.attempt = t.attempt →
    ∀ x y, w.finishedAt = some x → w'.finishedAt = some y → view x = view y
  finished : ∀ w ∈ runs, w.attempt = t.attempt → w.finishedAt.isSome = true →
    w.status.isTerminal = true

/-- The row stored before the writes does not carry a finish time of the attempt without its end, or
else the terminal writes all bring one or all bring none.  A run that is not stored yet meets this. -/
def NoStrayFinish (s : Store) (runs : List PipelineRun) (t : PipelineRun) : Prop :=
  ∀ row, s.runs.find (t.projectId, t.runId) = some row → row.attempt = t.attempt →
    row.status.isTerminal = false → row.finishedAt = none ∨ ∃ b, ∀ w ∈ runs,
      w.attempt = t.attempt → w.status.isTerminal = true → w.finishedAt.isSome = b

theorem mem_valuesAt_writes {n : ℕ} {c : AttemptColumns} : c ∈ Register.valuesAt n (ws.map fun w => w.2.attemptAt) ↔
      ∃ run ∈ ws.map Prod.snd, run.attempt = n ∧ run.attemptAt.value = c := by
  rw [Register.mem_valuesAt, List.mem_map]
  constructor
  · intro h
    obtain ⟨w, hw, hwc⟩ := h
    exact ⟨w.2, List.mem_map_of_mem hw, congrArg Register.version hwc, congrArg Register.value hwc⟩
  · intro h
    obtain ⟨run, hrun, rfl, rfl⟩ := h
    obtain ⟨w, hw, rfl⟩ := List.mem_map.1 hrun
    exact ⟨w, hw, rfl⟩

theorem exists_row_of_attemptAt {k : String × String} (h : 0 < (s.attemptAt k).version) :
    ∃ row, s.runs.find k = some row ∧ row.attemptAt = s.attemptAt k := by
  cases hfind : s.runs.find k with
  | none =>
    rw [Store.attemptAt, hfind] at h
    exact absurd h (Nat.lt_irrefl 0)
  | some row =>
    refine ⟨row, rfl, ?_⟩
    rw [Store.attemptAt, hfind]
    rfl

theorem foldl_writes_congr {V : Type} {view : Timestamp → V} {ws' : List (Clock × PipelineRun)} {t : PipelineRun}
    (h : OneOutcome view (ws.map Prod.snd) t) (hsame : ∀ run, run ∈ ws.map Prod.snd ↔ run ∈ ws'.map Prod.snd)
    (hstored : NoStrayFinish s (ws.map Prod.snd) t) {r r' : Register ℕ AttemptColumns}
    (hr : r = (ws.map fun w => w.2.attemptAt).foldl (Register.mergeWrite AttemptColumns.fill) (s.attemptAt (t.projectId, t.runId)))
    (hr' : r' = (ws'.map fun w => w.2.attemptAt).foldl (Register.mergeWrite AttemptColumns.fill) (s.attemptAt (t.projectId, t.runId))) :
    0 < r.version ∧ r.version = r'.version ∧ r.value.view view = r'.value.view view := by
  have hversion : ∀ {vs : List (Clock × PipelineRun)},
      (∀ run, run ∈ ws.map Prod.snd ↔ run ∈ vs.map Prod.snd) →
      (∀ w ∈ vs.map fun w => w.2.attemptAt, w.version ≤ t.attempt) ∧
        ∃ w ∈ vs.map fun w => w.2.attemptAt, w.version = t.attempt := by
    intro vs hvs
    refine ⟨?_, ?_⟩
    · intro w hw
      obtain ⟨v, hv, rfl⟩ := List.mem_map.1 hw
      exact h.highest v.2 ((hvs v.2).2 (List.mem_map_of_mem hv))
    · obtain ⟨v, hv, hvt⟩ := List.mem_map.1 ((hvs t).1 h.mem)
      exact ⟨v.2.attemptAt, List.mem_map_of_mem hv, congrArg PipelineRun.attempt hvt⟩
  obtain ⟨hle, hreach⟩ := hversion fun _ => Iff.rfl
  obtain ⟨hle', hreach'⟩ := hversion hsame
  by_cases habove : t.attempt < (s.attemptAt (t.projectId, t.runId)).version
  · -- the stored attempt is later than all writes
    rw [Register.foldl_merge_above fun w hw => (hle w hw).trans_lt habove] at hr
    rw [Register.foldl_merge_above fun w hw => (hle' w hw).trans_lt habove] at hr'
    rw [hr, hr']
    exact ⟨Nat.zero_lt_of_lt habove, rfl, rfl⟩
  · have hbelow : (s.attemptAt (t.projectId, t.runId)).version ≤ t.attempt := not_lt.1 habove
    rw [Register.foldl_merge_eq AttemptColumns.fill_blank hle hbelow (Or.inr hreach)] at hr
    rw [Register.foldl_merge_eq AttemptColumns.fill_blank hle' hbelow (Or.inr hreach')] at hr'
    rw [hr, hr']
    refine ⟨t.attempt_pos, rfl, ?_⟩
    have hagree : AttemptColumns.Agree t.status
        (Register.valuesAt t.attempt (ws.map fun w => w.2.attemptAt)) := by
      refine ⟨?_, ?_⟩
      · intro c hc
        obtain ⟨run, hrun, hattempt, rfl⟩ := mem_valuesAt_writes.1 hc
        exact h.status run hrun hattempt
      · intro c hc
        obtain ⟨run, hrun, hattempt, rfl⟩ := mem_valuesAt_writes.1 hc
        exact h.finished run hrun hattempt
    refine AttemptColumns.foldl_fill_congr ?_ hagree ?_ ?_ ?_ ?_
    · intro c
      rw [mem_valuesAt_writes, mem_valuesAt_writes]
      simp only [hsame]
    · exact ⟨t.attemptAt.value, mem_valuesAt_writes.2 ⟨t, h.mem, rfl, rfl⟩, h.terminal⟩
    · intro a ha b hb
      obtain ⟨run, hrun, hattempt, rfl⟩ := mem_valuesAt_writes.1 ha
      obtain ⟨run', hrun', hattempt', rfl⟩ := mem_valuesAt_writes.1 hb
      exact h.startedAt run hrun run' hrun' hattempt hattempt'
    · intro a ha b hb
      obtain ⟨run, hrun, hattempt, rfl⟩ := mem_valuesAt_writes.1 ha
      obtain ⟨run', hrun', hattempt', rfl⟩ := mem_valuesAt_writes.1 hb
      exact h.finishedAt run hrun run' hrun' hattempt hattempt'
    · by_cases hn : (s.attemptAt (t.projectId, t.runId)).version = t.attempt
      · rw [if_pos hn]
        intro hnonterminal
        obtain ⟨row, hrow, hrowAt⟩ := exists_row_of_attemptAt (hn ▸ t.attempt_pos)
        rw [← hrowAt] at hn hnonterminal ⊢
        rcases hstored row hrow hn hnonterminal with hnone | ⟨b, hb⟩
        · exact Or.inl hnone
        · refine Or.inr ⟨b, fun c hc => ?_⟩
          obtain ⟨run, hrun, hattempt, rfl⟩ := mem_valuesAt_writes.1 hc
          exact hb run hrun hattempt
      · rw [if_neg hn]
        intro _
        exact Or.inl rfl

/-- **Run upserts commute.**  Two sequences of `append_pipeline_run` calls with the same writes, in
whatever order and however often repeated, end with the same attempt, status, start and finish time. -/
theorem upserts_commute {V : Type} {view : Timestamp → V} {s : Store} (hs : ReachableStore s)
    {ws ws' : List (Clock × PipelineRun)} {t : PipelineRun} (h : OneOutcome view (ws.map Prod.snd) t)
    (hsame : ∀ run, run ∈ ws.map Prod.snd ↔ run ∈ ws'.map Prod.snd) (hstored : NoStrayFinish s (ws.map Prod.snd) t) :
    ∃ row row', (finish step s (appendRuns ws)).runs.find (t.projectId, t.runId) = some row ∧
      (finish step s (appendRuns ws')).runs.find (t.projectId, t.runId) = some row' ∧
      row.attempt = row'.attempt ∧ row.status = row'.status ∧ row.startedAt.map view = row'.startedAt.map view ∧
      row.finishedAt.map view = row'.finishedAt.map view := by
  have hkey : ∀ w ∈ ws, (w.2.projectId, w.2.runId) = (t.projectId, t.runId) :=
    fun w hw => h.sameRun w.2 (List.mem_map_of_mem hw)
  have hkey' : ∀ w ∈ ws', (w.2.projectId, w.2.runId) = (t.projectId, t.runId) :=
    fun w hw => h.sameRun w.2 ((hsame w.2).2 (List.mem_map_of_mem hw))
  obtain ⟨hpos, hversion, hview⟩ := foldl_writes_congr h hsame hstored
    (finish_appendRuns_attemptAt hs hkey) (finish_appendRuns_attemptAt hs hkey')
  obtain ⟨row, hrow, hrowAt⟩ := exists_row_of_attemptAt hpos
  obtain ⟨row', hrow', hrowAt'⟩ := exists_row_of_attemptAt (hversion ▸ hpos)
  rw [← hrowAt, ← hrowAt'] at hversion hview
  obtain ⟨hstatus, hstarted, hfinished⟩ : row.status = row'.status ∧
      row.startedAt.map view = row'.startedAt.map view ∧ row.finishedAt.map view = row'.finishedAt.map view := by
    simpa only [PipelineRunRow.attemptAt, AttemptColumns.view, Prod.mk.injEq] using hview
  exact ⟨row, row', hrow, hrow', hversion, hstatus, hstarted, hfinished⟩

/-- A start, a retry of an earlier attempt and the end of a run. -/
def orderedWrites : List (Clock × PipelineRun) :=
  let clock : Clock := ⟨⟨0, some 0⟩, ⟨0, some 0⟩⟩
  [(clock, { projectId := "p", runId := "r", attempt := 2, startedAt := some ⟨5, some 0⟩,
             attempt_pos := Nat.two_pos }),
    (clock, { projectId := "p", runId := "r", attempt := 1, status := .failed,
              finishedAt := some ⟨3, some 0⟩ }),
    (clock, { projectId := "p", runId := "r", attempt := 2, status := .success,
              finishedAt := some ⟨9, some 0⟩, attempt_pos := Nat.two_pos })]

theorem upserts_commute_reversed :
    ∃ row row', (finish step Store.empty (appendRuns orderedWrites)).runs.find ("p", "r") = some row ∧
      (finish step Store.empty (appendRuns (orderedWrites.reverse ++ orderedWrites))).runs.find
        ("p", "r") = some row' ∧ row.attempt = row'.attempt ∧ row.status = row'.status ∧
      row.startedAt.map Timestamp.canonical = row'.startedAt.map Timestamp.canonical ∧
      row.finishedAt.map Timestamp.canonical = row'.finishedAt.map Timestamp.canonical := by
  refine upserts_commute Reachable.init
    (t := { projectId := "p", runId := "r", attempt := 2, status := .success,
            finishedAt := some ⟨9, some 0⟩ }) ⟨?_, ?_, ?_, rfl, ?_, ?_, ?_, ?_⟩ ?_ ?_
  · decide
  · decide
  · decide
  · decide
  · simp [orderedWrites]
  · simp [orderedWrites]
  · simp [orderedWrites, RunStatus.isTerminal]
  · intro run
    simp only [List.map_append, List.map_reverse, List.mem_append, List.mem_reverse, or_self]
  · intro row hrow
    cases hrow

end Phlo.RunEvidence
