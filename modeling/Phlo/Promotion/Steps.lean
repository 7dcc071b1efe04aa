import Phlo.Promotion.Catalog

/-!
# What the steps of the catalog do

* `catalog_lawful` — the lock is taken only when it is free;
* `promoteGo`, `promoteFinish` — from stage to stage of a promotion, and its end.
-/

namespace Phlo.Promotion

open Phlo.Library

/-! ### The lock -/

variable {call : PromoteCall} {stage' : PromoteStage}

variable {stage : PromoteStage} {tableName : String}

theorem promoteTurn_go {free : Bool} {found : Found} {w w' : Warehouse}
    (h : promoteTurn free found w call stage = .go w' stage') (hstage : stage = .enter) : free = true := by
  subst hstage
  unfold promoteTurn at h
  cases free with
  | true => rfl
  | false => cases h

theorem proceed_of_go {free : Bool} {found : Found} {w w' : Warehouse} {p p' : Process}
    (h : p.turn free found w = .go w' p') : p.proceed free found w = .go w' p' := by
  unfold Process.turn at h
  split at h
  · cases h
  · exact h

theorem catalog_lawful : catalog.Lawful where
  start_holds c := by cases c <;> rfl
  turn_holds := by
    intro found w p w' p' h hholds
    have h' : p.proceed false found w = .go w' p' := proceed_of_go h
    cases p with
    | create tableName runId stage =>
      obtain ⟨stage', -, rfl⟩ := Turn.map_eq_go h'
      cases hholds
    | merge tableName runId rows uniqueKey stage =>
      obtain ⟨stage', -, rfl⟩ := Turn.map_eq_go h'
      cases hholds
    | promote call stage =>
      obtain ⟨stage', hgo, rfl⟩ := Turn.map_eq_go h'
      cases stage with
      | enter => exact absurd (promoteTurn_go hgo rfl) (by decide)
      | _ => rfl
    | abort namespaceName stage =>
      obtain ⟨stage', -, rfl⟩ := Turn.map_eq_go h'
      cases hholds
    | prune olderThan stage =>
      obtain ⟨stage', -, rfl⟩ := Turn.map_eq_go h'
      cases hholds

theorem promote_of_go {free : Bool} {found : Found} {w w' : Warehouse} {p : Process}
    (h : p.turn free found w = .go w' (.promote call stage')) :
    ∃ stage, p = .promote call stage ∧ promoteTurn free found w call stage = .go w' stage' := by
  have h' := proceed_of_go h
  cases p with
  | create tableName runId stage =>
    obtain ⟨stage', -, heq⟩ := Turn.map_eq_go h'
    cases heq
  | merge tableName runId rows uniqueKey stage =>
    obtain ⟨stage', -, heq⟩ := Turn.map_eq_go h'
    cases heq
  | promote call' stage =>
    obtain ⟨stage'', hgo, heq⟩ := Turn.map_eq_go h'
    cases heq
    exact ⟨stage, rfl, hgo⟩
  | abort namespaceName stage =>
    obtain ⟨stage', -, heq⟩ := Turn.map_eq_go h'
    cases heq
  | prune olderThan stage =>
    obtain ⟨stage', -, heq⟩ := Turn.map_eq_go h'
    cases heq

theorem promote_of_finish {free : Bool} {found : Found} {w w' : Warehouse} {p : Process}
    {records : List ReleaseRecord} (h : p.turn free found w = .finish w' (.released records))
    (hcall : p.call = .promote call) : ∃ stage, p = .promote call stage ∧
      promoteTurn free found w call stage = .finish w' (.released records) := by
  unfold Process.turn at h
  split at h
  · cases h
  · cases p with
    | promote call' stage =>
      cases hcall
      exact ⟨stage, rfl, Turn.map_eq_finish h⟩
    | _ => cases hcall

/-! ### The ledger -/

section

variable (w : Warehouse)

@[simp] theorem ledger_append (rows : Ledger) : (w.append rows).ledger = w.ledger ++ rows := rfl

@[simp] theorem ledger_removeBranch (tableName ref : String) : (w.removeBranch tableName ref).ledger = w.ledger := by
  unfold Warehouse.removeBranch
  split <;> rfl

end

variable {free : Bool} {found : Found} {w w' : Warehouse}

theorem ledger_createBranch {ref : String} {snapshot : Snapshot}
    (h : w.createBranch tableName ref snapshot = some w') : w'.ledger = w.ledger := by
  unfold Warehouse.createBranch at h
  split at h
  · cases h
  · split at h
    · cases h
    · cases h
      rfl

theorem ledger_appendToBranch {ref : String} {tip : ℕ} {rows : List Iceberg.Row}
    (h : w.appendToBranch tableName ref tip rows = some w') : w'.ledger = w.ledger := by
  unfold Warehouse.appendToBranch at h
  split at h
  · cases h
  · split at h
    · cases h
    · split at h
      · cases h
        rfl
      · cases h

theorem ledger_overwrite {current : Option ℕ} {rows : List Iceberg.Row} {releaseId : String} {candidate : ℕ}
    (h : w.overwrite tableName current rows releaseId candidate = some w') : w'.ledger = w.ledger := by
  unfold Warehouse.overwrite at h
  split at h
  · cases h
  · split at h
    · cases h
      rfl
    · cases h

theorem writeOne_eq_ok {a : Attempt} {e : Prepared} {record : ReleaseRecord}
    (h : writeOne w call a e = .ok (w', record)) :
    w'.ledger = w.ledger ∧ ∃ snapshotId, record = releaseRecord call a e snapshotId := by
  unfold writeOne at h
  split at h
  · split at h
    · cases h
    · cases h
      exact ⟨rfl, _, rfl⟩
  · split at h
    · cases h
    next hcommit =>
      cases h
      exact ⟨ledger_overwrite hcommit, _, rfl⟩

/-- What a step does to the ledger: rows of candidates are appended only when the lock is free, and by a
process that does not hold it; the other rows by a promotion at its two stages. -/
inductive LedgerStep (free : Bool) (l l' : Ledger) : Process → Prop
  | same (p : Process) (h : l' = l) : LedgerStep free l l' p
  | candidates (p : Process) (rows : List CandidateRow) (hfree : free = true) (hp : p.holds = false)
      (h : l' = l ++ candidateEntries rows) : LedgerStep free l l' p
  | intents (call : PromoteCall) (a : Attempt) (prepared : List Prepared)
      (h : l' = l ++ intents (intentRows call a prepared)) :
      LedgerStep free l l' (.promote call (.intend a prepared))
  | receipts (call : PromoteCall) (a : Attempt) (records : List ReleaseRecord)
      (h : l' = l ++ receipts records (stateRow call a)) :
      LedgerStep free l l' (.promote call (.write a [] records))

theorem ledger_createTurn (free : Bool) (found : Found) (w : Warehouse) (tableName runId : String)
    (stage : CreateStage) : ((createTurn free found w tableName runId stage).after w).ledger = w.ledger ∨
      free = true ∧ ∃ rows, ((createTurn free found w tableName runId stage).after w).ledger =
        w.ledger ++ candidateEntries rows := by
  cases stage with
  | start =>
    left
    unfold createTurn
    dsimp only
    split <;> rfl
  | reopen =>
    left
    unfold createTurn
    dsimp only
    split <;> rfl
  | revision => exact .inl rfl
  | load revision =>
    left
    unfold createTurn
    dsimp only
    repeat' split
    all_goals rfl
  | branch revision snapshot =>
    left
    unfold createTurn
    dsimp only
    split
    · rfl
    next h => exact ledger_createBranch h
  | record revision snapshot =>
    cases free with
    | true => exact .inr ⟨rfl, _, rfl⟩
    | false => exact .inl rfl

theorem ledger_mergeTurn (w : Warehouse) (tableName runId : String) (rows : List Record)
    (uniqueKey : List String) (stage : MergeStage) : ((mergeTurn w tableName runId rows uniqueKey stage).after w).ledger = w.ledger := by
  cases stage with
  | load =>
    unfold mergeTurn
    dsimp only
    repeat' split
    all_goals rfl
  | commit tip fresh =>
    unfold mergeTurn
    dsimp only
    split
    · rfl
    next h => exact ledger_appendToBranch h

theorem ledger_abortTurn (free : Bool) (found : Found) (w : Warehouse) (runId : String) (stage : AbortStage) :
    ((abortTurn free found w runId stage).after w).ledger = w.ledger ∨
      free = true ∧ ∃ rows, ((abortTurn free found w runId stage).after w).ledger =
        w.ledger ++ candidateEntries rows := by
  cases stage with
  | check =>
    left
    unfold abortTurn
    dsimp only
    split <;> rfl
  | list => exact .inl rfl
  | remove todo rows =>
    left
    unfold abortTurn
    cases todo with
    | nil =>
      dsimp only
      split <;> rfl
    | cons row todo =>
      dsimp only
      split
      · rfl
      · exact ledger_removeBranch w _ _
  | record rows =>
    cases free with
    | true => exact .inr ⟨rfl, _, rfl⟩
    | false => exact .inl rfl

theorem ledger_pruneTurn (free : Bool) (found : Found) (w : Warehouse) (olderThan : ℤ) (stage : PruneStage) :
    ((pruneTurn free found w olderThan stage).after w).ledger = w.ledger ∨
      free = true ∧ ∃ rows, ((pruneTurn free found w olderThan stage).after w).ledger =
        w.ledger ++ candidateEntries rows := by
  cases stage with
  | start => exact .inl rfl
  | check runs pruned =>
    left
    unfold pruneTurn
    cases runs with
    | nil => rfl
    | cons runId runs =>
      dsimp only
      split <;> rfl
  | list runId runs pruned =>
    left
    unfold pruneTurn
    dsimp only
    split <;> rfl
  | remove runId todo expired failed runs pruned =>
    left
    unfold pruneTurn
    cases todo with
    | nil =>
      dsimp only
      split <;> rfl
    | cons row todo =>
      dsimp only
      split
      · rfl
      · exact ledger_removeBranch w _ _
  | record runId expired runs pruned =>
    cases free with
    | true => exact .inr ⟨rfl, _, rfl⟩
    | false => exact .inl rfl

theorem ledger_promoteTurn (free : Bool) (found : Found) (w : Warehouse) (call : PromoteCall) (stage : PromoteStage) :
    LedgerStep free w.ledger ((promoteTurn free found w call stage).after w).ledger (.promote call stage) := by
  cases stage with
  | enter =>
    refine .same _ ?_
    unfold promoteTurn
    dsimp only
    repeat' split
    all_goals rfl
  | read =>
    refine .same _ ?_
    unfold promoteTurn promoteRead
    dsimp only
    repeat' split
    all_goals rfl
  | prepare a todo prepared =>
    refine .same _ ?_
    unfold promoteTurn
    cases todo with
    | nil =>
      dsimp only
      repeat' split
      all_goals rfl
    | cons row todo =>
      dsimp only
      split <;> rfl
  | intend a prepared =>
    unfold promoteTurn
    dsimp only
    split
    · exact .intents call a prepared rfl
    · exact .same _ rfl
  | reread a prepared => exact .same _ rfl
  | write a todo records =>
    unfold promoteTurn
    cases todo with
    | nil =>
      dsimp only
      split
      · exact .receipts call a records rfl
      · exact .same _ rfl
    | cons e todo =>
      dsimp only
      split
      · exact .same _ rfl
      next h => exact .same _ (writeOne_eq_ok h).1
  | cleanup todo records =>
    refine .same _ ?_
    unfold promoteTurn
    cases todo with
    | nil => rfl
    | cons record todo =>
      dsimp only
      split
      · rfl
      · exact ledger_removeBranch w _ _

/-- **What a step does to the ledger.** -/
theorem ledgerStep (free : Bool) (found : Found) (w : Warehouse) (p : Process) :
    LedgerStep free w.ledger ((p.turn free found w).after w).ledger p := by
  unfold Process.turn
  split
  · exact .same p rfl
  · unfold Process.proceed
    cases p with
    | create tableName runId stage =>
      dsimp only
      rw [Turn.after_map]
      obtain h | ⟨hfree, rows, h⟩ := ledger_createTurn free found w tableName runId stage
      · exact .same _ h
      · exact .candidates _ rows hfree rfl h
    | merge tableName runId rows uniqueKey stage =>
      dsimp only
      rw [Turn.after_map]
      exact .same _ (ledger_mergeTurn w tableName runId rows uniqueKey stage)
    | promote call stage =>
      dsimp only
      rw [Turn.after_map]
      exact ledger_promoteTurn free found w call stage
    | abort namespaceName stage =>
      dsimp only
      rw [Turn.after_map]
      obtain h | ⟨hfree, rows, h⟩ := ledger_abortTurn free found w (runIdFromNamespace namespaceName) stage
      · exact .same _ h
      · exact .candidates _ rows hfree rfl h
    | prune olderThan stage =>
      dsimp only
      rw [Turn.after_map]
      obtain h | ⟨hfree, rows, h⟩ := ledger_pruneTurn free found w olderThan stage
      · exact .same _ h
      · exact .candidates _ rows hfree rfl h

/-! ### Promotions -/

/-- The ledger allows the promotion, and selects candidates. -/
structure MayPromote (l : Ledger) (call : PromoteCall) : Prop where
  expected : call.expectedRevision.any (fun expected => expected ≠ (l.currentRevision : ℤ)) = false
  unreleased : l.released call.releaseId call.runId call.tables = []
  pending_own : ∀ row ∈ l.pendingPromotions, row.releaseId = call.releaseId ∧ row.runId = call.runId
  selected_ne : call.selected l ≠ []
  revisions : ∀ row ∈ call.selected l, row.revision = some l.currentRevision

/-- From stage to stage. -/
inductive PromoteGo (found : Found) (call : PromoteCall) (w : Warehouse) :
    PromoteStage → Warehouse → PromoteStage → Prop
  | enter : PromoteGo found call w .enter w .read
  | read (h : MayPromote w.ledger call) : PromoteGo found call w .read w
      (.prepare ⟨w.ledger.currentRevision, w.ledger.pendingPromotions, found.now, w.ledger.length⟩
        (call.selected w.ledger) [])
  | prepare (a : Attempt) (row : CandidateRow) (todo : List CandidateRow) (prepared : List Prepared)
      (e : Prepared) (h : prepareOne w call row = .ok e) :
      PromoteGo found call w (.prepare a (row :: todo) prepared) w (.prepare a todo (prepared ++ [e]))
  | begin_ (a : Attempt) (prepared : List Prepared) (h : a.pending = []) :
      PromoteGo found call w (.prepare a [] prepared) w (.intend a prepared)
  | resume (a : Attempt) (prepared : List Prepared) (hpending : a.pending ≠ [])
      (h : sameCandidates a.pending prepared = true) :
      PromoteGo found call w (.prepare a [] prepared) w (.write a prepared [])
  | intend (a : Attempt) (prepared : List Prepared) (h : w.ledger.length = a.version) :
      PromoteGo found call w (.intend a prepared) (w.append (intents (intentRows call a prepared)))
        (.reread a prepared)
  | reread (a : Attempt) (prepared : List Prepared) :
      PromoteGo found call w (.reread a prepared) w (.write { a with version := w.ledger.length } prepared [])
  | write (a : Attempt) (e : Prepared) (todo : List Prepared) (records : List ReleaseRecord)
      (w' : Warehouse) (record : ReleaseRecord) (h : writeOne w call a e = .ok (w', record)) :
      PromoteGo found call w (.write a (e :: todo) records) w' (.write a todo (records ++ [record]))
  | close (a : Attempt) (records : List ReleaseRecord) (h : w.ledger.length = a.version) :
      PromoteGo found call w (.write a [] records) (w.append (receipts records (stateRow call a)))
        (.cleanup records records)
  | cleanup (record : ReleaseRecord) (todo records : List ReleaseRecord) :
      PromoteGo found call w (.cleanup (record :: todo) records)
        (if found.fault then w else w.removeBranch record.tableName call.ref) (.cleanup todo records)

theorem promoteRead_eq_go {now : ℤ} (h : promoteRead now w call = .go w' stage') : w' = w ∧ MayPromote w.ledger call ∧
      stage' = .prepare ⟨w.ledger.currentRevision, w.ledger.pendingPromotions, now, w.ledger.length⟩
        (call.selected w.ledger) [] := by
  unfold promoteRead at h
  dsimp only at h
  split at h
  · cases h
  next hexpected =>
    split at h
    · cases h
    next hreleased =>
      split at h
      · cases h
      next hpending =>
        split at h
        · cases h
        next hselected =>
          split at h
          · cases h
          next hrevision =>
            cases h
            refine ⟨rfl, ⟨Bool.eq_false_iff.2 hexpected, not_not.1 hreleased, fun row hrow => ?_,
              hselected, fun row hrow => ?_⟩, rfl⟩
            · by_contra hno
              refine hpending (List.any_eq_true.2 ⟨row, hrow, ?_⟩)
              rw [Bool.or_eq_true, decide_eq_true_eq, decide_eq_true_eq]
              exact not_and_or.1 hno
            · by_contra hno
              exact hrevision (List.any_eq_true.2 ⟨row, hrow, decide_eq_true hno⟩)

/-- A round of the validation: the branch is there, and main is as it was or has been written already. -/
theorem prepareOne_eq_ok {row : CandidateRow} {e : Prepared} (h : prepareOne w call row = .ok e) :
    e.row = row ∧ w.branch row.tableName call.ref = some e.tip ∧ w.main row.tableName = e.current ∧
      (e.alreadyWritten = true ↔ (e.current.bind Snapshot.releaseId) = some call.releaseId ∧
        (e.current.bind Snapshot.candidateSnapshotId) = some e.tip.id) ∧
      (e.alreadyWritten = true ∨ e.current.map Snapshot.id = some row.snapshotId) := by
  unfold prepareOne at h
  split at h
  · cases h
  next table htable =>
    split at h
    · cases h
    next tip htip =>
      dsimp only at h
      split at h
      · cases h
      next hmain =>
        cases h
        refine ⟨rfl, ?_, ?_, decide_eq_true_iff, ?_⟩
        · rw [Warehouse.branch, htable]
          exact htip
        · rw [Warehouse.main, htable]
          rfl
        · rw [decide_eq_true_iff]
          by_contra hno
          exact hmain (not_or.1 hno)

/-- **From stage to stage.** -/
theorem promoteGo (h : promoteTurn free found w call stage = .go w' stage') :
    PromoteGo found call w stage w' stage' := by
  unfold promoteTurn at h
  cases stage with
  | enter =>
    dsimp only at h
    split at h
    · cases h
    · split at h
      · cases h
      · cases h
        exact .enter
  | read =>
    obtain ⟨rfl, hmay, rfl⟩ := promoteRead_eq_go h
    exact .read hmay
  | prepare a todo prepared =>
    cases todo with
    | nil =>
      dsimp only at h
      split at h
      next hpending =>
        cases h
        exact .begin_ a prepared hpending
      next hpending =>
        split at h
        next hsame =>
          cases h
          exact .resume a prepared hpending hsame
        · cases h
    | cons row todo =>
      dsimp only at h
      split at h
      · cases h
      next e he =>
        cases h
        exact .prepare a row todo prepared e he
  | intend a prepared =>
    dsimp only at h
    split at h
    next hversion =>
      cases h
      exact .intend a prepared hversion
    · cases h
  | reread a prepared =>
    cases h
    exact .reread a prepared
  | write a todo records =>
    cases todo with
    | nil =>
      dsimp only at h
      split at h
      next hversion =>
        cases h
        exact .close a records hversion
      · cases h
    | cons e todo =>
      dsimp only at h
      split at h
      · cases h
      next hwrite =>
        cases h
        exact .write a e todo records _ _ hwrite
  | cleanup todo records =>
    cases todo with
    | nil => cases h
    | cons record todo =>
      cases h
      exact .cleanup record todo records

/-- The records a promotion answers with: those found, none, or those it has released. -/
theorem promoteFinish {records : List ReleaseRecord}
    (h : promoteTurn free found w call stage = .finish w' (.released records)) :
    w' = w ∧ (stage = .read ∧ (records = w.ledger.released call.releaseId call.runId call.tables ∨
      records = []) ∨ stage = .cleanup [] records) := by
  unfold promoteTurn at h
  cases stage with
  | enter =>
    dsimp only at h
    split at h
    · cases h
    · split at h
      · cases h
      · cases h
  | read =>
    unfold promoteRead at h
    dsimp only at h
    split at h
    · cases h
    · split at h
      · cases h
        exact ⟨rfl, .inl ⟨rfl, .inl rfl⟩⟩
      · split at h
        · cases h
        · split at h
          · cases h
            exact ⟨rfl, .inl ⟨rfl, .inr rfl⟩⟩
          · split at h
            · cases h
            · cases h
  | prepare a todo prepared =>
    cases todo with
    | nil =>
      dsimp only at h
      split at h
      · cases h
      · split at h
        · cases h
        · cases h
    | cons row todo =>
      dsimp only at h
      split at h
      · cases h
      · cases h
  | intend a prepared =>
    dsimp only at h
    split at h
    · cases h
    · cases h
  | reread a prepared => cases h
  | write a todo records =>
    cases todo with
    | nil =>
      dsimp only at h
      split at h
      · cases h
      · cases h
    | cons e todo =>
      dsimp only at h
      split at h
      · cases h
      · cases h
  | cleanup todo records =>
    cases todo with
    | nil =>
      cases h
      exact ⟨rfl, .inr rfl⟩
    | cons record todo => cases h

end Phlo.Promotion
