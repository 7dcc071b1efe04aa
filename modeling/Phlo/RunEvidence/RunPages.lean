import Phlo.Library.KeysetPagination
import Phlo.RunEvidence.SettledRow
import Phlo.RunEvidence.TimestampText

/-!
# Listing the runs page by page

`listRunsPage` selects the runs after the position of a cursor, newest activity first, and makes a
cursor of the last one while there are more.  A cursor is base64 text of a JSON object; the decoder
takes back only a cursor whose three texts are not empty, and one it refuses counts as no cursor.

* `selectRunsPage_eq` — the keyset predicate, the ORDER BY and the cursor are those of one key.
-/

namespace Phlo.RunEvidence

open Phlo.Library

/-! ### Rows and their order -/

/-- `COALESCE(finished_at, started_at, created_at)`, as the text that SQL compares. -/
def PipelineRunRow.activity (row : PipelineRunRow) : String :=
  ((row.finishedAt.map Timestamp.isoformat).or (row.startedAt.map Timestamp.isoformat)).getD
    row.createdAt.currentTimestampText

/-- What ORDER BY compares: activity descending, then project and run. -/
abbrev RunOrder := Lex (Stringᵒᵈ × Lex (String × String))

def runOrder (activity projectId runId : String) : RunOrder :=
  toLex (OrderDual.toDual activity, toLex (projectId, runId))

/-- `ORDER BY activity DESC, project_id ASC, run_id ASC` -/
def PipelineRunRow.order (row : PipelineRunRow) : RunOrder :=
  runOrder row.activity row.projectId row.runId

/-- A row of a page, with the column `_activity`. -/
structure RunListing where
  row : PipelineRunRow
  activity : String
  deriving DecidableEq

/-- `_row_dict`: timestamps are read back in UTC, `_activity` as it is. -/
def PipelineRunRow.listing (row : PipelineRunRow) : RunListing := ⟨row.asInstants, row.activity⟩

/-! ### Cursors -/

/-- A cursor text: one that is no base64 of a JSON document, or the document. -/
inductive RunCursor where
  | undecodable
  | document (payload : Json)

/-- `_encode_run_cursor` -/
def encodeRunCursor (activity projectId runId : String) : RunCursor :=
  .document
    (.obj [("activity", .str activity), ("project_id", .str projectId), ("run_id", .str runId)])

structure RunPosition where
  activity : String
  projectId : String
  runId : String
  deriving DecidableEq

/-- `payload.get` of a JSON document that is not an object. -/
inductive CursorError where
  | attributeError
  deriving DecidableEq, Repr

/-- `isinstance(value, str) and value` -/
def cursorText (payload : Dict) (name : String) : Option String :=
  match payload.lookup name with
  | some (.str value) => if value = "" then none else some value
  | _ => none

/-- `_decode_run_cursor` -/
def decodeRunCursor : Option RunCursor → Except CursorError (Option RunPosition)
  | none => .ok none
  | some .undecodable => .ok none
  | some (.document (.obj payload)) =>
    .ok (match cursorText payload "activity", cursorText payload "project_id",
          cursorText payload "run_id" with
      | some activity, some projectId, some runId => some ⟨activity, projectId, runId⟩
      | _, _, _ => none)
  | some (.document _) => .error .attributeError

/-! ### Pages -/

/-- The WHERE clause of a page after a position. -/
def RunPosition.before (position : RunPosition) (row : PipelineRunRow) : Bool :=
  row.activity < position.activity ||
    (row.activity = position.activity &&
      (position.projectId < row.projectId ||
        (row.projectId = position.projectId && position.runId < row.runId)))

/-- `max(1, min(limit, 500))` -/
def pageSize (limit : ℤ) : ℕ := (max 1 (min limit 500)).toNat

/-- The page of at most `limit` runs after the position, and the cursor of its last run while there
are more. -/
def selectRunsPage (s : Store) (limit : ℕ) (position : Option RunPosition) : List RunListing × Option RunCursor :=
  let selected := sortBy PipelineRunRow.order (s.runs.rows.filter fun row =>
    position.all fun position => position.before row)
  let rows := (selected.take (limit + 1)).map PipelineRunRow.listing
  let page := rows.take limit
  (page,
    if limit < rows.length then
      page.getLast?.map fun last => encodeRunCursor last.activity last.row.projectId last.row.runId
    else none)

/-- `list_runs_page` -/
def listRunsPage (s : Store) (limit : ℤ) (cursor : Option RunCursor) :
    Except CursorError (List RunListing × Option RunCursor) := do
  let position ← decodeRunCursor cursor
  return selectRunsPage s (pageSize limit) position

/-- The pages a client collects that feeds every cursor back. -/
def drainRuns (s : Store) (limit : ℤ) : ℕ → Option RunCursor → Option (List (List RunListing))
  | 0, _ => none
  | fuel + 1, cursor =>
    match listRunsPage s limit cursor with
    | .error _ => none
    | .ok (page, none) => some [page]
    | .ok (page, some next) => (drainRuns s limit fuel (some next)).map (page :: ·)

/-! ### The cursor of a row -/

theorem pageSize_pos (limit : ℤ) : 0 < pageSize limit := by
  unfold pageSize
  omega

theorem activity_ne_empty (row : PipelineRunRow) : row.activity ≠ "" := by
  unfold PipelineRunRow.activity
  cases row.finishedAt with
  | some t => exact t.isoformat_ne_empty
  | none =>
    cases row.startedAt with
    | some t => exact t.isoformat_ne_empty
    | none => exact row.createdAt.currentTimestampText_ne_empty

def PipelineRunRow.Named (row : PipelineRunRow) : Prop := row.projectId ≠ "" ∧ row.runId ≠ ""

instance (row : PipelineRunRow) : Decidable row.Named := inferInstanceAs (Decidable (_ ∧ _))

def PipelineRunRow.position (row : PipelineRunRow) : RunPosition :=
  ⟨row.activity, row.projectId, row.runId⟩

def PipelineRunRow.cursor (row : PipelineRunRow) : RunCursor :=
  encodeRunCursor row.activity row.projectId row.runId

/-- The cursor of a run without an identifier is refused, every other one is taken back. -/
theorem decodeRunCursor_cursor (row : PipelineRunRow) :
    decodeRunCursor (some row.cursor) = .ok (if row.Named then some row.position else none) := by
  have hactivity := activity_ne_empty row
  by_cases hproject : row.projectId = ""
  · simp [PipelineRunRow.cursor, encodeRunCursor, decodeRunCursor, cursorText, PipelineRunRow.Named,
      hproject, List.lookup_cons]
  · by_cases hrun : row.runId = ""
    · simp [PipelineRunRow.cursor, encodeRunCursor, decodeRunCursor, cursorText,
        PipelineRunRow.Named, hrun, List.lookup_cons]
    · simp [PipelineRunRow.cursor, encodeRunCursor, decodeRunCursor, cursorText,
        PipelineRunRow.Named, PipelineRunRow.position, hproject, hrun, hactivity, List.lookup_cons]

/-! ### One key behind predicate, order and cursor -/

def RunPosition.order (position : RunPosition) : RunOrder :=
  runOrder position.activity position.projectId position.runId

theorem before_eq_decide (position : RunPosition) (row : PipelineRunRow) :
    position.before row = decide (position.order < row.order) := by
  rw [Bool.eq_iff_iff, decide_eq_true_eq]
  unfold RunPosition.order PipelineRunRow.order runOrder
  rw [Prod.Lex.toLex_lt_toLex, Prod.Lex.toLex_lt_toLex]
  simp only [RunPosition.before, Bool.or_eq_true, Bool.and_eq_true, decide_eq_true_eq,
    OrderDual.toDual_lt_toDual, OrderDual.toDual_inj]
  exact or_congr Iff.rfl (and_congr eq_comm (or_congr Iff.rfl (and_congr eq_comm Iff.rfl)))

theorem cursor_listing (limit : ℕ) (rows : List PipelineRunRow) :
    (if limit < (rows.map PipelineRunRow.listing).length then
        ((rows.map PipelineRunRow.listing).take limit).getLast?.map fun last =>
          encodeRunCursor last.activity last.row.projectId last.row.runId
      else none) =
      (if limit < rows.length then (rows.take limit).getLast? else none).map
        PipelineRunRow.cursor := by
  rw [List.length_map]
  by_cases hmore : limit < rows.length
  · rw [if_pos hmore, if_pos hmore, ← List.map_take, List.getLast?_map, Option.map_map]
    rfl
  · rw [if_neg hmore, if_neg hmore, Option.map_none]

theorem selectRunsPage_eq (s : Store) (limit : ℕ) (position : Option RunPosition) : selectRunsPage s limit position =
      ((Keyset.page PipelineRunRow.order limit (position.map RunPosition.order)
          s.runs.rows).1.map PipelineRunRow.listing,
        (Keyset.page PipelineRunRow.order limit (position.map RunPosition.order)
          s.runs.rows).2.map PipelineRunRow.cursor) := by
  have hselected : (s.runs.rows.filter fun row => position.all fun position => position.before row) =
      s.runs.rows.filter fun row =>
        (position.map RunPosition.order).all fun k => decide (k < row.order) := by
    apply List.filter_congr
    intro row _
    cases position with
    | none => rfl
    | some position => exact before_eq_decide position row
  rw [selectRunsPage, hselected]
  exact Prod.ext List.map_take.symm (cursor_listing limit _)

theorem listRunsPage_of_decode (s : Store) (limit : ℤ) {cursor : Option RunCursor}
    {position : Option RunPosition} (h : decodeRunCursor cursor = .ok position) :
    listRunsPage s limit cursor = .ok (selectRunsPage s (pageSize limit) position) := by
  rw [listRunsPage, h]
  rfl

def resumeRun (row : PipelineRunRow) : Option RunOrder :=
  if row.Named then some row.order else none

theorem resumes_resumeRun : Keyset.Resumes PipelineRunRow.order resumeRun := by
  intro row
  by_cases h : row.Named
  · exact Or.inr (if_pos h)
  · exact Or.inl (if_neg h)

theorem nodup_order (s : Store) : (s.runs.rows.map PipelineRunRow.order).Nodup := by
  have hkey : (s.runs.rows.map PipelineRunRow.key).Nodup := s.runs.unique
  rw [List.nodup_map_iff_inj_on (List.Nodup.of_map _ hkey)]
  intro a ha b hb hab
  have hpair : (a.projectId, a.runId) = (b.projectId, b.runId) :=
    congrArg (fun k : RunOrder => ofLex (ofLex k).2) hab
  exact s.runs.eq_of_key_eq ha hb hpair

theorem drainRuns_eq (s : Store) (limit : ℤ) :
    ∀ (fuel : ℕ) (cursor : Option RunCursor) (position : Option RunPosition), decodeRunCursor cursor = .ok position →
        drainRuns s limit fuel cursor = (Keyset.drain PipelineRunRow.order (pageSize limit) resumeRun s.runs.rows fuel
            (position.map RunPosition.order)).map (List.map (List.map PipelineRunRow.listing)) := by
  intro fuel
  induction fuel with
  | zero =>
    intro cursor position h
    rfl
  | succ fuel ih =>
    intro cursor position h
    rw [drainRuns, listRunsPage_of_decode s limit h, selectRunsPage_eq, Keyset.drain]
    rcases Keyset.page PipelineRunRow.order (pageSize limit) (position.map RunPosition.order)
      s.runs.rows with ⟨rows, next⟩
    cases next with
    | none => rfl
    | some last =>
      have hresume : (if last.Named then some last.position else none).map RunPosition.order =
          resumeRun last := by
        unfold resumeRun
        by_cases hnamed : last.Named
        · rw [if_pos hnamed, if_pos hnamed]
          rfl
        · rw [if_neg hnamed, if_neg hnamed]
          rfl
      simp only [Option.map_some]
      rw [ih (some last.cursor) _ (decodeRunCursor_cursor last), hresume, Option.map_map, Option.map_map]
      rfl

/-! ### Exact pagination -/

def PagesExact (s : Store) (pages : List (List RunListing)) : Prop :=
  ∃ rows : List PipelineRunRow, rows.Perm s.runs.rows ∧
    (rows.Pairwise fun a b => a.order < b.order) ∧ pages.flatten = rows.map PipelineRunRow.listing

theorem resumeRun_ne_none (row : PipelineRunRow) : resumeRun row ≠ none ↔ row.Named := by
  unfold resumeRun
  by_cases h : row.Named
  · simp [h]
  · simp [h]

/-- Iteration from the first page ends exactly when no cursor it hands out is refused. -/
theorem exists_drainRuns_iff (s : Store) (limit : ℤ) : (∃ fuel pages, drainRuns s limit fuel none = some pages) ↔
      ∀ row, Keyset.EndsPage PipelineRunRow.order (pageSize limit) s.runs.rows row → row.Named := by
  have hiff := Keyset.exists_drain_iff (nodup_order s) (pageSize_pos limit) resumes_resumeRun
  simp only [resumeRun_ne_none] at hiff
  rw [← hiff]
  constructor
  · intro h
    obtain ⟨fuel, pages, hdrain⟩ := h
    rw [drainRuns_eq s limit fuel none none rfl] at hdrain
    obtain ⟨rows, hrows, -⟩ := Option.map_eq_some_iff.1 hdrain
    exact ⟨fuel, rows, hrows⟩
  · intro h
    obtain ⟨fuel, pages, hdrain⟩ := h
    refine ⟨fuel, pages.map (List.map PipelineRunRow.listing), ?_⟩
    rw [drainRuns_eq s limit fuel none none rfl]
    exact Option.map_eq_some_iff.2 ⟨pages, hdrain, rfl⟩

theorem drainRuns_exact {s : Store} {limit : ℤ} {fuel : ℕ} {pages : List (List RunListing)}
    (h : drainRuns s limit fuel none = some pages) : PagesExact s pages := by
  have hn := nodup_order s
  rw [drainRuns_eq s limit fuel none none rfl] at h
  obtain ⟨rows, hrows, rfl⟩ := Option.map_eq_some_iff.1 h
  refine ⟨sortBy PipelineRunRow.order s.runs.rows, sortBy_perm _ _, Keyset.strict_sortBy _ hn, ?_⟩
  rw [← List.map_flatten, Keyset.drain_sorted hn (pageSize_pos limit) resumes_resumeRun hrows]

/-- Iteration from the first page ends, with pages that hold every run once and in order, exactly
when each run that ends a page before the last has both identifiers. -/
theorem pagination_exact_iff (s : Store) (limit : ℤ) :
    (∃ fuel pages, drainRuns s limit fuel none = some pages ∧ PagesExact s pages) ↔
      ∀ row, Keyset.EndsPage PipelineRunRow.order (pageSize limit) s.runs.rows row → row.Named := by
  rw [← exists_drainRuns_iff]
  constructor
  · intro h
    obtain ⟨fuel, pages, hdrain, -⟩ := h
    exact ⟨fuel, pages, hdrain⟩
  · intro h
    obtain ⟨fuel, pages, hdrain⟩ := h
    exact ⟨fuel, pages, hdrain, drainRuns_exact hdrain⟩

/-- A run of a project without a name, which `append_pipeline_run` accepts. -/
def namelessRun (runId : String) : Call :=
  .appendPipelineRun ⟨⟨0, some 0⟩, ⟨0, some 0⟩⟩ { projectId := "", runId := runId }

/-- With two such runs and pages of one row, the cursor of the first page leads back to it. -/
theorem nameless_project_starts_over : ¬ ∀ (s : Store) (limit : ℤ), ReachableStore s →
      ∃ fuel pages, drainRuns s limit fuel none = some pages ∧ PagesExact s pages := by
  intro hexact
  have hrows : (step (step Store.empty (namelessRun "a")) (namelessRun "b")).runs.rows.map
      PipelineRunRow.projectId = ["", ""] := by decide
  generalize hs : step (step Store.empty (namelessRun "a")) (namelessRun "b") = s at hrows
  have hreachable : ReachableStore s := hs ▸ (Reachable.init.step _).step _
  obtain ⟨fuel, pages, hdrain, -⟩ := hexact s 1 hreachable
  have hlen : s.runs.rows.length = 2 := by
    rw [← List.length_map (f := PipelineRunRow.projectId), hrows]
    rfl
  obtain ⟨last, hlast⟩ := Keyset.exists_last PipelineRunRow.order (l := s.runs.rows) (i := 1) (by omega)
    (by omega)
  have hnamed := (exists_drainRuns_iff s 1).1 ⟨fuel, pages, hdrain⟩ last
    ⟨1, Nat.one_pos, by rw [hlen]; decide, hlast⟩
  have hmem : last ∈ s.runs.rows :=
    (mem_sortBy _ _ _).1 (List.mem_of_mem_take (List.mem_of_getLast? hlast))
  have hproject : last.projectId ∈ ["", ""] := hrows ▸ List.mem_map_of_mem hmem
  have hempty : last.projectId = "" := by simpa using hproject
  exact hnamed.1 hempty

end Phlo.RunEvidence
