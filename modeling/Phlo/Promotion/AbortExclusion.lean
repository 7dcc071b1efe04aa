import Phlo.Promotion.Resumption

/-!
# Aborting against publishing

Aborting and pruning look for a pending promotion once, and then remove branches without the lock.  A promotion
that has read the branches in the meantime goes on to publish them.
-/

namespace Phlo.Promotion

open Phlo.Library

/-! ### Removals -/

def PromoteStage.validated : PromoteStage → List String
  | .prepare _ _ prepared => prepared.map fun e => e.row.tableName
  | .intend _ prepared => prepared.map fun e => e.row.tableName
  | .reread _ prepared => prepared.map fun e => e.row.tableName
  | .write _ todo records => records.map ReleaseRecord.tableName ++ todo.map fun e => e.row.tableName
  | _ => []

def Process.validated (ref : String) : Process → List String
  | promote call stage => if call.ref = ref then stage.validated else []
  | _ => []

def Process.drops? : Process → Option (String × String)
  | abort namespaceName (.remove (row :: _) _) =>
    some (row.tableName, candidateRefForRun (runIdFromNamespace namespaceName))
  | prune _ (.remove runId (row :: _) _ _ _ _) => some (row.tableName, candidateRefForRun runId)
  | _ => none

def Process.contends : Process → Bool
  | create .. => false
  | merge .. => false
  | _ => true

section

variable {ι : Type}

def dropped? (s : CatalogSite ι) : CatalogMove ι → Option (String × String)
  | .advance i found =>
    if found.fault then none
    else ((s.processes i).bind Process.drops?).filter fun d => (s.shared.branch d.1 d.2).isSome
  | _ => none

/-- No promotion is pending on the branch, and none that is under way has validated it. -/
def Unclaimed (s : CatalogSite ι) (tableName ref : String) : Prop :=
  (∀ row ∈ s.shared.ledger.pendingPromotions, row.tableName = tableName →
    candidateRefForRun row.runId ≠ ref) ∧
  ∀ i, ∀ p ∈ s.processes i, tableName ∉ p.validated ref

def contending : CatalogMove ι → Bool
  | .call _ c => (Process.start c).contends
  | _ => true

/-- Only promotions, aborts and prunings are called, and a branch is removed only while it is unclaimed. -/
def Careful (s : CatalogSite ι) (m : CatalogMove ι) : Prop :=
  contending m = true ∧ ∀ d ∈ dropped? s m, Unclaimed s d.1 d.2

end

/-! ### What the processes rely on -/

/-- Nothing is pending, or what is pending is a promotion that can be resumed. -/
def Resumable (w : Warehouse) : Prop :=
  w.ledger.pendingPromotions = [] ∨ ∃ call, Interrupted w call

/-- The candidates are of the run, and the branches of those that are done with are gone. -/
def Cleared (w : Warehouse) (runId : String) (rows todo : List CandidateRow) : Prop :=
  ∀ row ∈ rows, row.runId = runId ∧
    (row ∈ todo ∨ w.branch row.tableName (candidateRefForRun runId) = none)

def Publishing (w : Warehouse) (call : PromoteCall) : PromoteStage → Prop
  | .prepare a todo prepared => MayPromote w.ledger call ∧ a.pending = w.ledger.pendingPromotions ∧
      prepared.map Prepared.row ++ todo = call.selected w.ledger ∧
      ∀ e ∈ prepared, prepareOne w call e.row = .ok e
  | .intend _ prepared => MayPromote w.ledger call ∧ w.ledger.pendingPromotions = [] ∧
      prepared.map Prepared.row = call.selected w.ledger ∧ ∀ e ∈ prepared, prepareOne w call e.row = .ok e
  | .reread _ prepared => (w.ledger.pendingPromotions = [] ∨ Interrupted w call) ∧
      ∀ e ∈ prepared, w.branch e.row.tableName call.ref = some e.tip
  | .write _ todo records => (w.ledger.pendingPromotions = [] ∨ Interrupted w call) ∧
      (∀ e ∈ todo, w.branch e.row.tableName call.ref = some e.tip) ∧
      ∀ record ∈ records, record.runId = call.runId
  | .cleanup _ _ => w.ledger.pendingPromotions = []
  | _ => True

def Aborting (w : Warehouse) (runId : String) : AbortStage → Prop
  | .remove todo rows => Cleared w runId rows todo
  | .record rows => Cleared w runId rows []
  | _ => True

def Pruning (w : Warehouse) : PruneStage → Prop
  | .remove runId todo expired failed _ _ => failed = true ∨ Cleared w runId expired todo
  | .record runId expired _ _ => Cleared w runId expired []
  | _ => True

def Relies (w : Warehouse) : Process → Prop
  | .promote call stage => Publishing w call stage
  | .abort namespaceName stage => Aborting w (runIdFromNamespace namespaceName) stage
  | .prune _ stage => Pruning w stage
  | _ => False

/-- No branch has appeared. -/
def Shrinks (w w' : Warehouse) : Prop :=
  ∀ tableName ref, w.branch tableName ref = none → w'.branch tableName ref = none

section

variable {free : Bool} {found : Found} {w w' : Warehouse} {call : PromoteCall} {tableName ref : String}

variable {rows : List CandidateRow} {runId : String} {p : Process}

theorem Cleared.shrinks {todo : List CandidateRow} (h : Cleared w runId rows todo) (hw : Shrinks w w') :
    Cleared w' runId rows todo := by
  intro row hrow
  obtain ⟨hrun, htodo | hgone⟩ := h row hrow
  · exact ⟨hrun, .inl htodo⟩
  · exact ⟨hrun, .inr (hw _ _ hgone)⟩

theorem shrinks_removeBranch (w : Warehouse) (tableName ref : String) : Shrinks w (w.removeBranch tableName ref) := by
  intro tableName' ref' h
  rw [branch_removeBranch]
  split
  · rfl
  · exact h

theorem Cleared.next {row : CandidateRow} {todo : List CandidateRow} (h : Cleared w runId rows (row :: todo)) :
    Cleared (w.removeBranch row.tableName (candidateRefForRun runId)) runId rows todo := by
  intro r hr
  obtain ⟨hrun, htodo | hgone⟩ := h r hr
  · obtain rfl | htodo := List.mem_cons.1 htodo
    · refine ⟨hrun, .inr ?_⟩
      rw [branch_removeBranch, if_pos ⟨rfl, rfl⟩]
    · exact ⟨hrun, .inl htodo⟩
  · exact ⟨hrun, .inr (shrinks_removeBranch w _ _ _ _ hgone)⟩

theorem cleared_all (h : ∀ row ∈ rows, row.runId = runId) : Cleared w runId rows rows :=
  fun row hrow => ⟨h row hrow, .inl hrow⟩

/-! ### Aborting and pruning -/

/-- What an abort or a pruning does in a step. -/
inductive Effect (free : Bool) (found : Found) (w w' : Warehouse) (p : Process) : Prop
  | same (h : w' = w) : Effect free found w w' p
  | removed (d : String × String) (hd : p.drops? = some d) (hfault : found.fault = false)
      (h : w' = w.removeBranch d.1 d.2) : Effect free found w w' p
  | closed (rows : List CandidateRow) (hfree : free = true) (hclosed : ∀ row ∈ rows, row.status ≠ .opened)
      (hgone : ∀ row ∈ rows, w.branch row.tableName (candidateRefForRun row.runId) = none)
      (h : w' = w.append (candidateEntries rows)) : Effect free found w w' p

/-- The effect of a step, and what is relied on afterwards. -/
structure Beside (free : Bool) (found : Found) (w : Warehouse) (p : Process)
    (t : Turn Warehouse Process Outcome) : Prop where
  next : ∀ w' p', t = .go w' p' → Relies w' p'
  effect : Effect free found w (t.after w) p

theorem beside_finish (o : Outcome) : Beside free found w p (.finish w o) where
  next _ _ h := by cases h
  effect := .same rfl

theorem beside_wait : Beside free found w p .wait where
  next _ _ h := by cases h
  effect := .same rfl

theorem beside_go {p' : Process} (h : Relies w p') : Beside free found w p (.go w p') where
  next _ _ heq := by
    cases heq
    exact h
  effect := .same rfl

theorem effect_closed {status : CandidateStatus} {now : ℤ} (hstatus : status ≠ .opened) (h : Cleared w runId rows []) :
    Effect true found w (w.append (candidateEntries (closed status now rows))) p := by
  refine .closed _ rfl (fun row hrow => ?_) (fun row hrow => ?_) rfl
  · obtain ⟨r, -, rfl⟩ := List.mem_map.1 hrow
    exact hstatus
  · obtain ⟨r, hr, rfl⟩ := List.mem_map.1 hrow
    obtain ⟨hrun, hnone | hgone⟩ := h r hr
    · cases hnone
    · show w.branch r.tableName (candidateRefForRun r.runId) = none
      rw [hrun]
      exact hgone

theorem fault_of_answered {missing : Bool} (h : ¬(found.fault || missing) = true) : found.fault = false := by
  rw [Bool.or_eq_true] at h
  exact Bool.eq_false_iff.2 fun hfault => h (.inl hfault)

theorem beside_abort {namespaceName : String} {stage : AbortStage}
    (h : Aborting w (runIdFromNamespace namespaceName) stage) :
    Beside free found w (.abort namespaceName stage) ((abortTurn free found w
      (runIdFromNamespace namespaceName) stage).map (.abort namespaceName)) := by
  unfold abortTurn
  cases stage with
  | check =>
    dsimp only
    split
    · exact beside_finish _
    · exact beside_go trivial
  | list => exact beside_go (cleared_all fun row hrow => runId_of_mem_open hrow)
  | remove todo rows =>
    cases todo with
    | nil =>
      dsimp only
      split
      · exact beside_finish _
      · exact beside_go h
    | cons row todo =>
      dsimp only
      split
      · exact beside_finish _
      next hok =>
        refine ⟨fun _ _ heq => ?_, .removed _ rfl (fault_of_answered hok) rfl⟩
        cases heq
        exact Cleared.next h
  | record rows =>
    cases free with
    | true => exact ⟨(fun _ _ heq => by cases heq), effect_closed (by decide) h⟩
    | false => exact beside_wait

theorem beside_prune {olderThan : ℤ} {stage : PruneStage} (h : Pruning w stage) :
    Beside free found w (.prune olderThan stage) ((pruneTurn free found w olderThan stage).map
      (.prune olderThan)) := by
  unfold pruneTurn
  cases stage with
  | start => exact beside_go trivial
  | check runs pruned =>
    cases runs with
    | nil => exact beside_finish _
    | cons runId runs =>
      dsimp only
      split
      · exact beside_go trivial
      · exact beside_go trivial
  | list runId runs pruned =>
    dsimp only
    split
    · exact beside_go trivial
    · exact beside_go (.inr (cleared_all fun row hrow => runId_of_mem_open (List.mem_of_mem_filter hrow)))
  | remove runId todo expired failed runs pruned =>
    cases todo with
    | nil =>
      dsimp only
      split
      · exact beside_go trivial
      next hfailed => exact beside_go (h.resolve_left hfailed)
    | cons row todo =>
      dsimp only
      split
      · exact beside_go (.inl rfl)
      next hok =>
        refine ⟨fun _ _ heq => ?_, .removed _ rfl (fault_of_answered hok) rfl⟩
        cases heq
        exact h.imp_right Cleared.next
  | record runId expired runs pruned =>
    cases free with
    | true =>
      refine ⟨fun _ _ heq => ?_, effect_closed (by decide) h⟩
      cases heq
      trivial
    | false => exact beside_wait

/-- **A step of a process without the lock.** -/
theorem beside_turn (free : Bool) (found : Found) (hholds : p.holds = false) (h : Relies w p) :
    Beside free found w p (p.turn free found w) := by
  unfold Process.turn
  split
  · exact beside_finish _
  · unfold Process.proceed
    cases p with
    | create tableName runId stage => exact h.elim
    | merge tableName runId rows uniqueKey stage => exact h.elim
    | promote call stage =>
      cases stage with
      | enter =>
        unfold promoteTurn
        dsimp only
        split
        · exact beside_wait
        · split
          · exact beside_finish _
          · exact beside_go trivial
      | _ => cases hholds
    | abort namespaceName stage => exact beside_abort h
    | prune olderThan stage => exact beside_prune h

/-! ### A branch is removed -/

/-- Any other branch stays. -/
theorem branch_spared {tip : Snapshot} {tableName' ref' : String} (h : w.branch tableName' ref' = some tip)
    (hspared : (w.branch tableName ref).isSome = true → ¬(tableName' = tableName ∧ ref' = ref)) :
    (w.removeBranch tableName ref).branch tableName' ref' = w.branch tableName' ref' := by
  rw [branch_removeBranch, if_neg]
  intro hsame
  obtain ⟨rfl, rfl⟩ := hsame
  exact hspared (by rw [h]; rfl) ⟨rfl, rfl⟩

theorem prepareOne_spared {row : CandidateRow} {e : Prepared} (h : prepareOne w call row = .ok e)
    (hspared : (w.branch tableName ref).isSome = true → ¬(row.tableName = tableName ∧ call.ref = ref)) :
    prepareOne (w.removeBranch tableName ref) call row = .ok e :=
  prepareOne_congr (branch_spared (prepareOne_eq_ok h).2.1 hspared) (main_removeBranch w ..) h

/-- No pending row names the branch. -/
def NotPending (w : Warehouse) (tableName ref : String) : Prop :=
  ∀ row ∈ w.ledger.pendingPromotions, row.tableName = tableName → candidateRefForRun row.runId ≠ ref

theorem Interrupted.remove (h : Interrupted w call)
    (hpending : (w.branch tableName ref).isSome = true → NotPending w tableName ref) :
    Interrupted (w.removeBranch tableName ref) call := by
  refine h.of_ledger (ledger_removeBranch w ..) fun row hrow e he => ⟨e, ?_, rfl⟩
  refine prepareOne_spared he fun hsome hsame => ?_
  obtain ⟨-, -, p, hp, hname, -⟩ := h.selected row hrow
  refine hpending hsome p hp (hname.trans hsame.1) ?_
  rw [(h.may.pending_own p hp).2]
  exact hsame.2

variable {stage : PromoteStage}

theorem Publishing.remove (h : Publishing w call stage)
    (hclaim : (w.branch tableName ref).isSome = true → NotPending w tableName ref ∧ tableName ∉ (Process.promote call stage).validated ref) :
    Publishing (w.removeBranch tableName ref) call stage := by
  have hledger : (w.removeBranch tableName ref).ledger = w.ledger := ledger_removeBranch w ..
  have hspared : (w.branch tableName ref).isSome = true → ∀ t ∈ stage.validated,
      ¬(t = tableName ∧ call.ref = ref) := by
    intro hsome t ht hsame
    refine (hclaim hsome).2 ?_
    rw [Process.validated, if_pos hsame.2, ← hsame.1]
    exact ht
  have hrecover : w.ledger.pendingPromotions = [] ∨ Interrupted w call →
      (w.removeBranch tableName ref).ledger.pendingPromotions = [] ∨
        Interrupted (w.removeBranch tableName ref) call := by
    rw [hledger]
    exact Or.imp_right fun hint => hint.remove fun hsome => (hclaim hsome).1
  cases stage with
  | enter => trivial
  | read => trivial
  | prepare a todo prepared =>
    obtain ⟨hmay, hpending, hrows, hvalid⟩ := h
    rw [← hledger] at hmay hpending hrows
    refine ⟨hmay, hpending, hrows, fun e he => prepareOne_spared (hvalid e he) fun hsome => ?_⟩
    exact hspared hsome _ (List.mem_map_of_mem he)
  | intend a prepared =>
    obtain ⟨hmay, hpending, hrows, hvalid⟩ := h
    rw [← hledger] at hmay hpending hrows
    refine ⟨hmay, hpending, hrows, fun e he => prepareOne_spared (hvalid e he) fun hsome => ?_⟩
    exact hspared hsome _ (List.mem_map_of_mem he)
  | reread a prepared =>
    refine ⟨hrecover h.1, fun e he => ?_⟩
    rw [branch_spared (h.2 e he) fun hsome => hspared hsome _ (List.mem_map_of_mem he)]
    exact h.2 e he
  | write a todo records =>
    obtain ⟨hint, htips, hruns⟩ := h
    refine ⟨hrecover hint, fun e he => ?_, hruns⟩
    rw [branch_spared (htips e he) fun hsome =>
      hspared hsome _ (List.mem_append_right _ (List.mem_map_of_mem he))]
    exact htips e he
  | cleanup todo records =>
    show (w.removeBranch tableName ref).ledger.pendingPromotions = []
    rw [hledger]
    exact h

/-! ### Publishing -/

/-- What is recorded as pending can be resumed. -/
theorem interrupted_intend {a : Attempt} {prepared : List Prepared} (hmay : MayPromote w.ledger call)
    (hpending : w.ledger.pendingPromotions = []) (hrows : prepared.map Prepared.row = call.selected w.ledger)
    (hvalid : ∀ e ∈ prepared, prepareOne w call e.row = .ok e) :
    (w.append (intents (intentRows call a prepared))).ledger.pendingPromotions = [] ∨
      Interrupted (w.append (intents (intentRows call a prepared))) call := by
  have hselected : call.selected (w.ledger ++ intents (intentRows call a prepared)) = call.selected w.ledger := by
    rw [selected_eq, selected_eq, latestRows, candidates_append, candidates_intents, List.append_nil]
    rfl
  -- a row that is pending now has just been recorded
  have hnew : ∀ p ∈ Ledger.pendingPromotions (w.ledger ++ intents (intentRows call a prepared)),
      p ∈ intentRows call a prepared := by
    intro p hp
    obtain ⟨hmem, hopen⟩ := mem_pendingPromotions.1 hp
    rw [promotions_append, promotions_intents] at hmem
    refine (List.mem_append.1 hmem).resolve_left fun hold => ?_
    have hbefore : p ∈ w.ledger.pendingPromotions := by
      refine mem_pendingPromotions.2 ⟨hold, fun st hst => hopen st ?_⟩
      rw [states_append]
      exact List.mem_append_left _ hst
    rw [hpending] at hbefore
    cases hbefore
  by_cases hdone : ∃ st ∈ w.ledger.states, st.releaseId = call.releaseId
  · -- the id has been released before, and so nothing counts as pending
    obtain ⟨st, hst, hid⟩ := hdone
    refine .inl (List.eq_nil_iff_forall_not_mem.2 fun p hp => ?_)
    obtain ⟨e, -, rfl⟩ := List.mem_map.1 (hnew p hp)
    refine (mem_pendingPromotions.1 hp).2 st ?_ hid
    rw [ledger_append, states_append]
    exact List.mem_append_left _ hst
  · have hall : ∀ p ∈ intentRows call a prepared,
        p ∈ Ledger.pendingPromotions (w.ledger ++ intents (intentRows call a prepared)) := by
      intro p hp
      refine mem_pendingPromotions.2 ⟨?_, fun st hst heq => ?_⟩
      · rw [promotions_append, promotions_intents]
        exact List.mem_append_right _ hp
      · rw [states_append, states_intents, List.append_nil] at hst
        obtain ⟨e, -, rfl⟩ := List.mem_map.1 hp
        exact hdone ⟨st, hst, heq⟩
    have hrevision : Ledger.currentRevision (w.ledger ++ intents (intentRows call a prepared)) =
        w.ledger.currentRevision := currentRevision_append (states_intents _)
    refine .inr ⟨⟨?_, ?_, fun p hp => ?_, ?_, ?_⟩, fun row hrow => ?_, fun p hp => ?_⟩
    · rw [ledger_append, hrevision]
      exact hmay.expected
    · rw [ledger_append, released_append, released_eq_nil (releases_intents _), List.append_nil]
      exact hmay.unreleased
    · obtain ⟨e, -, rfl⟩ := List.mem_map.1 (hnew p hp)
      exact ⟨rfl, rfl⟩
    · rw [ledger_append, hselected]
      exact hmay.selected_ne
    · rw [ledger_append, hselected, hrevision]
      exact hmay.revisions
    · rw [ledger_append, hselected, ← hrows] at hrow
      obtain ⟨e, he, rfl⟩ := List.mem_map.1 hrow
      exact ⟨e, hvalid e he, _, hall _ (List.mem_map_of_mem he), rfl, rfl⟩
    · obtain ⟨e, he, rfl⟩ := List.mem_map.1 (hnew p hp)
      refine ⟨e.row, ?_, e, hvalid e he, rfl, rfl⟩
      rw [ledger_append, hselected, ← hrows]
      exact List.mem_map_of_mem he

theorem interrupted_resume {prepared : List Prepared} (hmay : MayPromote w.ledger call)
    (hsame : sameCandidates w.ledger.pendingPromotions prepared = true)
    (hrows : prepared.map Prepared.row = call.selected w.ledger)
    (hvalid : ∀ e ∈ prepared, prepareOne w call e.row = .ok e) : Interrupted w call := by
  rw [sameCandidates, Bool.and_eq_true, List.all_eq_true, List.all_eq_true] at hsame
  refine ⟨hmay, fun row hrow => ?_, fun p hp => ?_⟩
  · rw [← hrows] at hrow
    obtain ⟨e, he, rfl⟩ := List.mem_map.1 hrow
    obtain ⟨p, hp, hmatch⟩ := List.any_eq_true.1 (hsame.2 e he)
    rw [Bool.and_eq_true, decide_eq_true_eq, decide_eq_true_eq] at hmatch
    exact ⟨e, hvalid e he, p, hp, hmatch.1.symm, hmatch.2.symm⟩
  · obtain ⟨e, he, hmatch⟩ := List.any_eq_true.1 (hsame.1 p hp)
    rw [Bool.and_eq_true, decide_eq_true_eq, decide_eq_true_eq] at hmatch
    exact ⟨e.row, hrows ▸ List.mem_map_of_mem he, e, hvalid e he, hmatch.1.symm, hmatch.2.symm⟩

theorem write_keeps {a : Attempt} {e : Prepared} {record : ReleaseRecord}
    (h : writeOne w call a e = .ok (w', record)) (htip : w.branch e.row.tableName call.ref = some e.tip) :
    (∀ t r, w'.branch t r = w.branch t r) ∧ record.runId = call.runId ∧
      (Interrupted w call → Interrupted w' call) := by
  obtain ⟨hledger, snapshotId, rfl⟩ := writeOne_eq_ok h
  unfold writeOne at h
  split at h
  next =>
    split at h
    · cases h
    · cases h
      exact ⟨fun _ _ => rfl, rfl, id⟩
  next =>
    split at h
    · cases h
    next hcommit =>
      cases h
      obtain ⟨hbranches, hmains⟩ := overwrite_eq_some hcommit
      refine ⟨hbranches, rfl, fun hint => hint.of_ledger hledger fun row _ e' he' => ?_⟩
      have htip' := (prepareOne_eq_ok he').2.1
      by_cases hname : row.tableName = e.row.tableName
      · -- main has now what the branch has
        have hsame : e'.tip = e.tip := by
          rw [hname] at htip'
          exact Option.some.inj (htip'.symm.trans htip)
        have hmain := hmains row.tableName
        rw [if_pos hname] at hmain
        refine ⟨_, prepareOne_written ((hbranches _ _).trans htip') hmain rfl ?_, rfl⟩
        rw [hsame]
      · have hmain := hmains row.tableName
        rw [if_neg hname] at hmain
        exact ⟨e', prepareOne_congr (hbranches _ _) hmain he', rfl⟩

theorem pending_receipts (a : Attempt) (records : List ReleaseRecord)
    (h : w.ledger.pendingPromotions = [] ∨ Interrupted w call) :
    Ledger.pendingPromotions (w.ledger ++ receipts records (stateRow call a)) = [] := by
  refine List.eq_nil_iff_forall_not_mem.2 fun p hp => ?_
  obtain ⟨hmem, hopen⟩ := mem_pendingPromotions.1 hp
  rw [promotions_append, promotions_receipts, List.append_nil] at hmem
  rw [states_append, states_receipts] at hopen
  have hbefore : p ∈ w.ledger.pendingPromotions :=
    mem_pendingPromotions.2 ⟨hmem, fun st hst => hopen st (List.mem_append_left _ hst)⟩
  obtain hnil | hint := h
  · rw [hnil] at hbefore
    cases hbefore
  · refine hopen _ (List.mem_append_right _ (List.mem_singleton_self _)) ?_
    exact ((hint.may.pending_own p hbefore).1).symm

/-- **From stage to stage** of a promotion: what it relies on, what can be resumed, and the branches. -/
theorem publishing_go {stage' : PromoteStage} (h : PromoteGo found call w stage w' stage')
    (hs : Publishing w call stage) (hw : Resumable w) : Publishing w' call stage' ∧ Resumable w' ∧ Shrinks w w' := by
  cases h with
  | enter => exact ⟨trivial, hw, fun _ _ h => h⟩
  | read hmay =>
    exact ⟨⟨hmay, rfl, rfl, fun _ he => absurd he List.not_mem_nil⟩, hw, fun _ _ h => h⟩
  | prepare a row todo prepared e he =>
    obtain ⟨hmay, hpending, hrows, hvalid⟩ := hs
    have hrow := (prepareOne_eq_ok he).1
    refine ⟨⟨hmay, hpending, ?_, fun e' he' => ?_⟩, hw, fun _ _ h => h⟩
    · rw [← hrows, List.map_append, List.map_singleton, hrow, List.append_assoc]
      rfl
    · obtain he' | he' := List.mem_append.1 he'
      · exact hvalid e' he'
      · obtain rfl := List.mem_singleton.1 he'
        rw [hrow]
        exact he
  | begin_ a prepared hnil =>
    obtain ⟨hmay, hpending, hrows, hvalid⟩ := hs
    rw [List.append_nil] at hrows
    exact ⟨⟨hmay, hpending.symm.trans hnil, hrows, hvalid⟩, hw, fun _ _ h => h⟩
  | resume a prepared hne hsame =>
    obtain ⟨hmay, hpending, hrows, hvalid⟩ := hs
    rw [List.append_nil] at hrows
    rw [hpending] at hsame
    exact ⟨⟨.inr (interrupted_resume hmay hsame hrows hvalid), fun e he => (prepareOne_eq_ok (hvalid e he)).2.1,
      fun _ hr => absurd hr List.not_mem_nil⟩, hw, fun _ _ h => h⟩
  | intend a prepared hversion =>
    obtain ⟨hmay, hpending, hrows, hvalid⟩ := hs
    have hint := interrupted_intend (a := a) hmay hpending hrows hvalid
    exact ⟨⟨hint, fun e he => (prepareOne_eq_ok (hvalid e he)).2.1⟩, hint.imp_right fun h => ⟨call, h⟩,
      fun _ _ h => h⟩
  | reread a prepared =>
    exact ⟨⟨hs.1, hs.2, fun _ hr => absurd hr List.not_mem_nil⟩, hw, fun _ _ h => h⟩
  | write a e todo records w' record hwrite =>
    obtain ⟨hint, htips, hruns⟩ := hs
    obtain ⟨hbranches, hrun, hkeeps⟩ := write_keeps hwrite (htips e List.mem_cons_self)
    have hledger := (writeOne_eq_ok hwrite).1
    have hint' : w'.ledger.pendingPromotions = [] ∨ Interrupted w' call := by
      rw [hledger]
      exact hint.imp_right hkeeps
    refine ⟨⟨hint', fun e' he' => ?_, fun r hr => ?_⟩, hint'.imp_right fun h => ⟨call, h⟩, fun t r hnone => ?_⟩
    · rw [hbranches]
      exact htips e' (List.mem_cons_of_mem e he')
    · obtain hr | hr := List.mem_append.1 hr
      · exact hruns r hr
      · obtain rfl := List.mem_singleton.1 hr
        exact hrun
    · rw [hbranches]
      exact hnone
  | close a records hversion =>
    have hnil := pending_receipts a records hs.1
    exact ⟨hnil, .inl hnil, fun _ _ h => h⟩
  | cleanup record todo records =>
    have hnil : w.ledger.pendingPromotions = [] := hs
    split
    · exact ⟨hnil, .inl hnil, fun _ _ h => h⟩
    · have hnil' : (w.removeBranch record.tableName call.ref).ledger.pendingPromotions = [] := by
        rw [ledger_removeBranch]
        exact hnil
      exact ⟨hnil', .inl hnil', shrinks_removeBranch w _ _⟩

/-- A process without the lock relies only on branches that are gone. -/
theorem relies_shrinks {q : Process} (hholds : q.holds = false) (h : Relies w q) (hw : Shrinks w w') :
    Relies w' q := by
  cases q with
  | create tableName runId stage => exact h
  | merge tableName runId rows uniqueKey stage => exact h
  | promote call stage =>
    cases stage with
    | enter => trivial
    | _ => cases hholds
  | abort namespaceName stage =>
    cases stage with
    | remove todo rows => exact Cleared.shrinks h hw
    | record rows => exact Cleared.shrinks h hw
    | _ => trivial
  | prune olderThan stage =>
    cases stage with
    | remove runId todo expired failed runs pruned => exact h.imp_right fun hc => hc.shrinks hw
    | record runId expired runs pruned => exact Cleared.shrinks h hw
    | _ => trivial

theorem promote_of_holds (h : p.holds = true) : ∃ call stage, p = .promote call stage := by
  cases p with
  | promote call stage => exact ⟨call, stage, rfl⟩
  | _ => cases h

/-- A promotion leaves everything as it is when it ends or waits. -/
theorem promote_rests (free : Bool) (found : Found) (w : Warehouse) (call : PromoteCall)
    (stage : PromoteStage) : (∃ w' stage', promoteTurn free found w call stage = .go w' stage') ∨
      (promoteTurn free found w call stage).after w = w := by
  unfold promoteTurn
  cases stage with
  | enter =>
    dsimp only
    split
    · exact .inr rfl
    · split
      · exact .inr rfl
      · exact .inl ⟨_, _, rfl⟩
  | read =>
    obtain ⟨stage', h⟩ | ⟨o, h⟩ := promoteRead_shared found.now w call
    · exact .inl ⟨_, _, h⟩
    · refine .inr ?_
      dsimp only
      rw [h]
      rfl
  | prepare a todo prepared =>
    cases todo with
    | nil =>
      dsimp only
      split
      · exact .inl ⟨_, _, rfl⟩
      · split
        · exact .inl ⟨_, _, rfl⟩
        · exact .inr rfl
    | cons row todo =>
      dsimp only
      split
      · exact .inr rfl
      · exact .inl ⟨_, _, rfl⟩
  | intend a prepared =>
    dsimp only
    split
    · exact .inl ⟨_, _, rfl⟩
    · exact .inr rfl
  | reread a prepared => exact .inl ⟨_, _, rfl⟩
  | write a todo records =>
    cases todo with
    | nil =>
      dsimp only
      split
      · exact .inl ⟨_, _, rfl⟩
      · exact .inr rfl
    | cons e todo =>
      dsimp only
      split
      · exact .inr rfl
      · exact .inl ⟨_, _, rfl⟩
  | cleanup todo records =>
    cases todo with
    | nil => exact .inr rfl
    | cons record todo => exact .inl ⟨_, _, rfl⟩

/-- **A step of a promotion.** -/
theorem publishing_turn (free : Bool) (found : Found) (hs : Publishing w call stage) (hw : Resumable w) :
    (∀ w' p', (Process.promote call stage).turn free found w = .go w' p' → Relies w' p') ∧
      Resumable (((Process.promote call stage).turn free found w).after w) ∧
      Shrinks w (((Process.promote call stage).turn free found w).after w) := by
  unfold Process.turn
  split
  · exact ⟨(fun _ _ h => by cases h), hw, fun _ _ h => h⟩
  · unfold Process.proceed
    dsimp only
    rw [Turn.after_map]
    refine ⟨fun w' p' heq => ?_, ?_⟩
    · obtain ⟨stage', hgo, rfl⟩ := Turn.map_eq_go heq
      exact (publishing_go (promoteGo hgo) hs hw).1
    · obtain ⟨w', stage', hgo⟩ | hrest := promote_rests free found w call stage
      · rw [hgo]
        exact (publishing_go (promoteGo hgo) hs hw).2
      · rw [hrest]
        exact ⟨hw, fun _ _ h => h⟩

end

/-! ### Runs -/

section

variable {ι : Type} {s : CatalogSite ι}

/-- Nobody is at work, and what is pending can be resumed. -/
structure Settled (s : CatalogSite ι) : Prop where
  idle : ∀ i, s.processes i = none
  lock : s.lock = none
  resumable : Resumable s.shared

/-- The lock has one holder, what is pending can be resumed, and everybody has what they rely on. -/
structure Contended (s : CatalogSite ι) : Prop where
  lock : LockSound catalog s
  kept : Kept Resumable Relies (fun _ _ => True) s

theorem Settled.contended (h : Settled s) : Contended s where
  lock :=
    { holder := fun i p hp => by
        rw [h.idle i] at hp
        cases hp
      held := fun i hi => by
        rw [h.lock] at hi
        cases hi }
  kept :=
    { shared := h.resumable
      own := fun i p hp => by
        rw [h.idle i] at hp
        cases hp
      right := fun _ _ => trivial }

/-- The branch that is removed is the one of `dropped?`. -/
theorem dropped_eq {i : ι} {found : Found} {p : Process} {d : String × String} (hp : s.processes i = some p)
    (hfault : found.fault = false) (hd : p.drops? = some d) (hsome : (s.shared.branch d.1 d.2).isSome = true) :
    dropped? s (.advance i found) = some d := by
  rw [dropped?, hfault, if_neg (by decide), hp, Option.bind_some, hd, Option.filter_some, if_pos hsome]

theorem relies_start {c : Call} (hc : (Process.start c).contends = true) (w : Warehouse) :
    Relies w (Process.start c) := by
  cases c with
  | create tableName runId => cases hc
  | merge tableName runId rows uniqueKey => cases hc
  | promote call => trivial
  | abort namespaceName => trivial
  | prune olderThan => trivial

theorem relies_effect {i j : ι} {found : Found} {p q : Process} {w' : Warehouse}
    (hm : ∀ d ∈ dropped? s (.advance i found), Unclaimed s d.1 d.2)
    (hp : s.processes i = some p) (hq : s.processes j = some q)
    (h : Effect s.lock.isNone found s.shared w' p) (hrelies : Relies s.shared q)
    (hholds : q.holds = true → s.lock.isNone = false) : Relies w' q := by
  cases h with
  | same h => exact h ▸ hrelies
  | removed d hd hfault h =>
    subst h
    cases hq' : q.holds with
    | false => exact relies_shrinks hq' hrelies (shrinks_removeBranch s.shared d.1 d.2)
    | true =>
      obtain ⟨call, stage, rfl⟩ := promote_of_holds hq'
      refine Publishing.remove hrelies fun hsome => ?_
      have hclaim := hm d (dropped_eq hp hfault hd hsome)
      exact ⟨hclaim.1, hclaim.2 j _ hq⟩
  | closed rows hfree hclosed hgone h =>
    subst h
    have hq' : q.holds = false := Bool.eq_false_iff.2 fun htrue => by
      have hlocked := hholds htrue
      rw [hfree] at hlocked
      cases hlocked
    exact relies_shrinks hq' hrelies fun _ _ h => h

theorem resumable_effect {i : ι} {found : Found} {p : Process} {w' : Warehouse}
    (hm : ∀ d ∈ dropped? s (.advance i found), Unclaimed s d.1 d.2) (hp : s.processes i = some p)
    (h : Effect s.lock.isNone found s.shared w' p) (hw : Resumable s.shared) : Resumable w' := by
  cases h with
  | same h => exact h ▸ hw
  | removed d hd hfault h =>
    subst h
    obtain hnil | ⟨call, hint⟩ := hw
    · left
      rw [ledger_removeBranch]
      exact hnil
    · exact .inr ⟨call, hint.remove fun hsome => (hm d (dropped_eq hp hfault hd hsome)).1⟩
  | closed rows hfree hclosed hgone h =>
    subst h
    obtain hnil | ⟨call, hint⟩ := hw
    · left
      rw [ledger_append, pendingPromotions_append (states_candidateEntries rows)
        (promotions_candidateEntries rows)]
      exact hnil
    · refine .inr ⟨call, hint.close hclosed fun row hrow hrun => ?_⟩
      have hnone := hgone row hrow
      rw [hrun] at hnone
      exact hnone

variable [DecidableEq ι]

/-- **A careful step** keeps what is pending resumable. -/
theorem Contended.step (s : CatalogSite ι) (m : CatalogMove ι) (h : Contended s) (hm : Careful s m) :
    Contended (s.step catalog m) where
  lock := h.lock.step catalog_lawful m
  kept := by
    refine h.kept.step_beside h.lock m (fun i c heq => relies_start (heq ▸ hm.1 : contending (.call i c) = true) _)
      (fun i found p heq hp => ?_) fun i found p j q heq hp hq hrelies hlock => ?_
    · subst heq
      have hp' := h.kept.own i p hp
      cases hholds : p.holds with
      | true =>
        obtain ⟨call, stage, rfl⟩ := promote_of_holds hholds
        obtain ⟨hnext, hw, -⟩ := publishing_turn s.lock.isNone found hp' h.kept.shared
        exact ⟨hw, hnext, fun _ _ _ => trivial, fun _ _ => trivial⟩
      | false =>
        have hbeside := beside_turn s.lock.isNone found hholds hp'
        exact ⟨resumable_effect hm.2 hp hbeside.effect h.kept.shared, hbeside.next, fun _ _ _ => trivial,
          fun _ _ => trivial⟩
    · subst heq
      have hp' := h.kept.own i p hp
      cases hholds : p.holds with
      | true =>
        -- the others do not have the lock
        have hq' : q.holds = false := Bool.eq_false_iff.2 fun htrue => by
          have hno := (hlock htrue).2
          rw [show catalog.holds p = p.holds from rfl, hholds] at hno
          cases hno
        obtain ⟨call, stage, rfl⟩ := promote_of_holds hholds
        obtain ⟨-, -, hshrinks⟩ :=
          publishing_turn s.lock.isNone found hp' h.kept.shared
        exact relies_shrinks hq' hrelies hshrinks
      | false =>
        have hbeside := beside_turn s.lock.isNone found hholds hp'
        exact relies_effect hm.2 hp hq hbeside.effect hrelies fun htrue => (hlock htrue).1

end

/-! ### After a removal -/

/-- No release of the table by a run of the branch is recorded. -/
def Unreleased (tableName ref : String) (w : Warehouse) : Prop :=
  ∀ record ∈ w.ledger.releases, record.tableName = tableName → candidateRefForRun record.runId ≠ ref

/-- The branch is not there, and has not been released. -/
structure Gone (tableName ref : String) (w : Warehouse) : Prop where
  branch : w.branch tableName ref = none
  unreleased : Unreleased tableName ref w

def Barred (tableName ref : String) : Process → Prop
  | .promote call stage => (call.ref = ref → tableName ∉ stage.validated) ∧
      ∀ record ∈ stage.written, record.runId = call.runId
  | .abort _ _ => True
  | .prune _ _ => True
  | _ => False

section

variable {free : Bool} {found : Found} {w w' : Warehouse} {call : PromoteCall} {tableName ref : String}

theorem barred_go {stage stage' : PromoteStage} (h : PromoteGo found call w stage w' stage')
    (hgone : w.branch tableName ref = none) (hs : Barred tableName ref (.promote call stage)) :
    Barred tableName ref (.promote call stage') := by
  obtain ⟨hnot, hruns⟩ := hs
  cases h with
  | enter => exact ⟨fun _ => List.not_mem_nil, fun _ hr => absurd hr List.not_mem_nil⟩
  | read hmay => exact ⟨fun _ => List.not_mem_nil, fun _ hr => absurd hr List.not_mem_nil⟩
  | prepare a row todo prepared e he =>
    refine ⟨fun href hmem => ?_, fun _ hr => absurd hr List.not_mem_nil⟩
    obtain ⟨hrow, htip, -⟩ := prepareOne_eq_ok he
    obtain ⟨e', he', hname⟩ := List.mem_map.1 hmem
    obtain he' | he' := List.mem_append.1 he'
    · exact hnot href (List.mem_map.2 ⟨e', he', hname⟩)
    · obtain rfl := List.mem_singleton.1 he'
      rw [← hrow, hname, href, hgone] at htip
      cases htip
  | begin_ a prepared hnil => exact ⟨hnot, fun _ hr => absurd hr List.not_mem_nil⟩
  | resume a prepared hne hsame => exact ⟨hnot, fun _ hr => absurd hr List.not_mem_nil⟩
  | intend a prepared hversion => exact ⟨hnot, fun _ hr => absurd hr List.not_mem_nil⟩
  | reread a prepared => exact ⟨hnot, fun _ hr => absurd hr List.not_mem_nil⟩
  | write a e todo records w' record hwrite =>
    obtain ⟨-, snapshotId, rfl⟩ := writeOne_eq_ok hwrite
    refine ⟨fun href hmem => hnot href ?_, fun r hr => ?_⟩
    · simpa [PromoteStage.validated, releaseRecord] using hmem
    · obtain hr | hr := List.mem_append.1 hr
      · exact hruns r hr
      · obtain rfl := List.mem_singleton.1 hr
        rfl
  | close a records hversion => exact ⟨fun _ => List.not_mem_nil, fun _ hr => absurd hr List.not_mem_nil⟩
  | cleanup record todo records =>
    exact ⟨fun _ => List.not_mem_nil, fun _ hr => absurd hr List.not_mem_nil⟩

theorem barred_next {p p' : Process} (h : p.turn free found w = .go w' p')
    (hgone : p.holds = true → w.branch tableName ref = none) (hp : Barred tableName ref p) :
    Barred tableName ref p' := by
  have h' := proceed_of_go h
  cases p with
  | create tableName runId stage => exact hp.elim
  | merge tableName runId rows uniqueKey stage => exact hp.elim
  | promote call stage =>
    obtain ⟨stage', hgo, rfl⟩ := Turn.map_eq_go h'
    cases stage with
    | enter =>
      cases promoteGo hgo
      exact ⟨fun _ => List.not_mem_nil, fun _ hr => absurd hr List.not_mem_nil⟩
    | _ => exact barred_go (promoteGo hgo) (hgone rfl) hp
  | abort namespaceName stage =>
    obtain ⟨stage', -, rfl⟩ := Turn.map_eq_go h'
    trivial
  | prune olderThan stage =>
    obtain ⟨stage', -, rfl⟩ := Turn.map_eq_go h'
    trivial

/-- The receipts are of what has been validated. -/
theorem unreleased_step {l' : Ledger} {p : Process} (h : LedgerStep free w.ledger l' p)
    (hw : Unreleased tableName ref w) (hp : Barred tableName ref p) :
    ∀ record ∈ l'.releases, record.tableName = tableName → candidateRefForRun record.runId ≠ ref := by
  cases h with
  | same _ h => exact h ▸ hw
  | candidates _ rows hfree hp' h =>
    rw [h, releases_append, releases_candidateEntries, List.append_nil]
    exact hw
  | intents call a prepared h =>
    rw [h, releases_append, releases_intents, List.append_nil]
    exact hw
  | receipts call a records h =>
    rw [h, releases_append, releases_receipts]
    intro record hrecord hname href
    obtain hold | hnew := List.mem_append.1 hrecord
    · exact hw record hold hname href
    · have hrun := hp.2 record hnew
      rw [hrun] at href
      refine hp.1 href (List.mem_append_left _ ?_)
      rw [← hname]
      exact List.mem_map_of_mem hnew

theorem after_drop (free : Bool) {p : Process} {d : String × String} (hd : p.drops? = some d) (hfault : found.fault = false)
    (hsome : (w.branch d.1 d.2).isSome = true) : (p.turn free found w).after w = w.removeBranch d.1 d.2 := by
  have htable : ∀ t r, (w.branch t r).isSome = true → (w.tables t).isNone = false := by
    intro t r h
    unfold Warehouse.branch at h
    cases ht : w.tables t with
    | none =>
      rw [ht] at h
      cases h
    | some table => rfl
  unfold Process.turn
  rw [hfault]
  cases p with
  | abort namespaceName stage =>
    cases stage with
    | remove todo rows =>
      cases todo with
      | nil => cases hd
      | cons row todo =>
        cases hd
        unfold Process.proceed abortTurn
        dsimp only
        rw [hfault, htable _ _ hsome]
        rfl
    | _ => cases hd
  | prune olderThan stage =>
    cases stage with
    | remove runId todo expired failed runs pruned =>
      cases todo with
      | nil => cases hd
      | cons row todo =>
        cases hd
        unfold Process.proceed pruneTurn
        dsimp only
        rw [hfault, htable _ _ hsome]
        rfl
    | _ => cases hd
  | _ => cases hd

end

section

variable {ι : Type} {tableName ref : String}

abbrev Excluded (tableName ref : String) (s : CatalogSite ι) : Prop :=
  Kept (Gone tableName ref) (fun _ p => Barred tableName ref p) (fun _ _ => True) s

theorem Effect.shrinks {free : Bool} {found : Found} {w w' : Warehouse} {p : Process}
    (h : Effect free found w w' p) : Shrinks w w' := by
  cases h with
  | same h => exact h ▸ fun _ _ h => h
  | removed d _ _ h => exact h ▸ shrinks_removeBranch w d.1 d.2
  | closed rows _ _ _ h => exact h ▸ fun _ _ h => h

/-- No step makes a branch. -/
theorem Contended.shrinks {s : CatalogSite ι} (h : Contended s) {i : ι} {p : Process} (found : Found)
    (hp : s.processes i = some p) : Shrinks s.shared ((p.turn s.lock.isNone found s.shared).after s.shared) := by
  have hp' := h.kept.own i p hp
  cases hholds : p.holds with
  | true =>
    obtain ⟨call, stage, rfl⟩ := promote_of_holds hholds
    exact (publishing_turn s.lock.isNone found hp' h.kept.shared).2.2
  | false => exact (beside_turn s.lock.isNone found hholds hp').effect.shrinks

variable [DecidableEq ι]

/-- **What is gone stays gone**, and is not released. -/
theorem Excluded.step {s : CatalogSite ι} (he : Excluded tableName ref s) (h : Contended s) {m : CatalogMove ι}
    (hm : Careful s m) : Excluded tableName ref (s.step catalog m) := by
  refine he.step_beside h.lock m (fun i c heq => ?_) (fun i found p heq hp => ?_)
    fun _ _ _ _ _ _ _ _ hq _ => hq
  · have hstart := hm.1
    rw [heq] at hstart
    cases c with
    | create tableName runId => cases hstart
    | merge tableName runId rows uniqueKey => cases hstart
    | promote call => exact ⟨fun _ => List.not_mem_nil, fun _ hr => absurd hr List.not_mem_nil⟩
    | abort namespaceName => trivial
    | prune olderThan => trivial
  · have hbarred := he.own i p hp
    refine ⟨⟨h.shrinks found hp _ _ he.shared.branch, ?_⟩, fun w' p' hgo => ?_, fun _ _ _ => trivial,
      fun _ _ => trivial⟩
    · exact unreleased_step (ledgerStep _ found s.shared p) he.shared.unreleased hbarred
    · exact barred_next hgo (fun _ => he.shared.branch) hbarred

/-- Nobody publishes a branch when it is removed. -/
theorem excluded_of_dropped {s : CatalogSite ι} (h : Contended s) {m : CatalogMove ι} (hm : Careful s m)
    (hdrop : dropped? s m = some (tableName, ref)) (hunreleased : Unreleased tableName ref s.shared) :
    Excluded tableName ref (s.step catalog m) := by
  have hclaim : Unclaimed s tableName ref := hm.2 _ hdrop
  cases m with
  | call i c => cases hdrop
  | crash i => cases hdrop
  | advance i found =>
    -- the process that removes the branch
    unfold dropped? at hdrop
    dsimp only at hdrop
    split at hdrop
    · cases hdrop
    next hfault =>
      obtain ⟨hbind, hsome⟩ := Option.filter_eq_some_iff.1 hdrop
      obtain ⟨p, hp, hd⟩ := Option.bind_eq_some_iff.1 hbind
      have hfault' := Bool.eq_false_iff.2 hfault
      have hbarred : ∀ j q, s.processes j = some q → Barred tableName ref q := by
        intro j q hq
        have hrelies := h.kept.own j q hq
        cases q with
        | create tableName runId stage => exact hrelies.elim
        | merge tableName runId rows uniqueKey stage => exact hrelies.elim
        | promote call stage =>
          refine ⟨fun href => ?_, fun record hrecord => ?_⟩
          · have hnot := hclaim.2 j _ hq
            rw [Process.validated, if_pos href] at hnot
            exact hnot
          · cases stage with
            | write a todo records => exact hrelies.2.2 record hrecord
            | _ => cases hrecord
        | abort namespaceName stage => trivial
        | prune olderThan stage => trivial
      have hkept : Kept (Unreleased tableName ref) (fun _ q => Barred tableName ref q) (fun _ _ => True) s :=
        ⟨hunreleased, hbarred, fun _ _ => trivial⟩
      have hafter := after_drop s.lock.isNone hd hfault' hsome
      have hnext : Kept (Unreleased tableName ref) (fun _ q => Barred tableName ref q) (fun _ _ => True)
          (s.step catalog (.advance i found)) := by
        refine hkept.step_beside h.lock _ (fun _ _ heq => by cases heq) (fun j found' q heq hq => ?_)
          fun _ _ _ _ _ _ _ _ hq _ => hq
        cases heq
        obtain rfl := Option.some.inj (hp.symm.trans hq)
        refine ⟨?_, fun w' p' hgo => ?_, fun _ _ _ => trivial, fun _ _ => trivial⟩
        · exact unreleased_step (ledgerStep _ found s.shared p) hunreleased (hbarred i p hp)
        · refine barred_next hgo (fun hholds => ?_) (hbarred i p hp)
          obtain ⟨call, stage, rfl⟩ := promote_of_holds hholds
          cases hd
      refine ⟨⟨?_, hnext.shared⟩, hnext.own, hnext.right⟩
      rw [shared_advance hp]
      show ((p.turn s.lock.isNone found s.shared).after s.shared).branch tableName ref = none
      rw [hafter, branch_removeBranch, if_pos ⟨rfl, rfl⟩]

theorem Excluded.finish {s : CatalogSite ι} (he : Excluded tableName ref s) (h : Contended s)
    {ms : List (CatalogMove ι)} (hms : Along (Site.step catalog) Careful s ms) :
    Excluded tableName ref (finish (Site.step catalog) s ms) := by
  induction ms generalizing s with
  | nil => exact he
  | cons m ms ih => exact ih (he.step h hms.1) (h.step s m hms.1) hms.2

/-- What the pending rows name is there, and a call of the same release and run completes the promotion. -/
structure CanResume (s : CatalogSite ι) : Prop where
  branches : ∀ row ∈ s.shared.ledger.pendingPromotions, ∃ tip,
    s.shared.branch row.tableName (candidateRefForRun row.runId) = some tip ∧ tip.id = row.snapshotId
  retry : s.shared.ledger.pendingPromotions ≠ [] → ∃ call : PromoteCall,
    (∀ row ∈ s.shared.ledger.pendingPromotions, row.releaseId = call.releaseId ∧ row.runId = call.runId) ∧
    ∀ (i : ι) (found : Found), s.processes i = none → s.lock = none → found.fault = false →
      found.secondGoldReviewer = false → ∃ n records, records ≠ [] ∧ (Library.finish (Site.step catalog) s
        (.call i (.promote call) :: List.replicate n (.advance i found))).history =
          (.promote call, .released records) :: s.history

theorem Contended.canResume {s : CatalogSite ι} (h : Contended s) : CanResume s := by
  obtain hnil | ⟨call, hint⟩ := h.kept.shared
  · refine ⟨fun row hrow => ?_, fun hne => absurd hnil hne⟩
    rw [hnil] at hrow
    cases hrow
  · exact ⟨fun row hrow => hint.branch hrow, fun _ => ⟨call, hint.may.pending_own,
      fun i found hidle hlock hfault hreview => hint.retry hidle hlock hfault hreview⟩⟩

/-- **What is removed is never released, and what is pending can be resumed**, in every run of promotions,
aborts and prunings in which a branch is removed only while it is unclaimed. -/
theorem abort_or_publish (s : CatalogSite ι) (hs : Settled s) (ms : List (CatalogMove ι))
    (h : Along (Site.step catalog) Careful s ms) : CanResume (finish (Site.step catalog) s ms) ∧
    ∀ ms₁ m ms₂, ms = ms₁ ++ m :: ms₂ → ∀ tableName ref,
      dropped? (finish (Site.step catalog) s ms₁) m = some (tableName, ref) →
      Unreleased tableName ref (finish (Site.step catalog) s ms₁).shared →
      Unreleased tableName ref (finish (Site.step catalog) s ms).shared := by
  refine ⟨(h.finish Contended.step hs.contended).canResume, ?_⟩
  intro ms₁ m ms₂ heq tableName ref hdrop hunreleased
  subst heq
  have hfirst : Contended (finish (Site.step catalog) s ms₁) := h.left.finish Contended.step hs.contended
  obtain ⟨hm, hrest⟩ := h.right
  have hsplit : finish (Site.step catalog) s (ms₁ ++ m :: ms₂) =
      finish (Site.step catalog) ((finish (Site.step catalog) s ms₁).step catalog m) ms₂ :=
    List.foldl_append ..
  rw [hsplit]
  exact ((excluded_of_dropped hfirst hm hdrop hunreleased).finish (hfirst.step _ m hm) hrest).shared.unreleased

end

/-! ### One candidate, an abort and a promotion -/

instance (s : CatalogSite Bool) (tableName ref : String) : Decidable (Unclaimed s tableName ref) :=
  inferInstanceAs (Decidable ((∀ row ∈ s.shared.ledger.pendingPromotions, row.tableName = tableName →
    candidateRefForRun row.runId ≠ ref) ∧ ∀ i, ∀ p ∈ s.processes i, tableName ∉ p.validated ref))

instance (s : CatalogSite Bool) (m : CatalogMove Bool) : Decidable (Careful s m) :=
  inferInstanceAs (Decidable (contending m = true ∧ ∀ d ∈ dropped? s m, Unclaimed s d.1 d.2))

/-- A client goes on for some steps. -/
def goes (i : Bool) (n : ℕ) : List (CatalogMove Bool) := List.replicate n (.advance i {})

/-- A candidate of the table is open, and nobody is at work. -/
def stagedOrders : CatalogSite Bool :=
  finish (Site.step catalog) (opening ordersTables 12)
    (.call true (.create "bronze.orders" "nightly") :: goes true 5)

theorem settled_stagedOrders : Settled stagedOrders where
  idle i := by cases i <;> rfl
  lock := rfl
  resumable := .inl rfl

def abortFirst : List (CatalogMove Bool) :=
  .call false (.abort "pipeline-run-nightly") :: goes false 5 ++
    .call true (.promote (promoteNightly none)) :: goes true 10

theorem abort_or_publish_abortFirst : CanResume (finish (Site.step catalog) stagedOrders abortFirst) ∧
    ∀ ms₁ m ms₂, abortFirst = ms₁ ++ m :: ms₂ → ∀ tableName ref,
      dropped? (finish (Site.step catalog) stagedOrders ms₁) m = some (tableName, ref) →
      Unreleased tableName ref (finish (Site.step catalog) stagedOrders ms₁).shared →
      Unreleased tableName ref (finish (Site.step catalog) stagedOrders abortFirst).shared :=
  abort_or_publish stagedOrders settled_stagedOrders abortFirst (by decide +kernel)

/-- The abort has looked for pending promotions, and the promotion records that it is pending. -/
def race : List (CatalogMove Bool) :=
  .call false (.abort "pipeline-run-nightly") :: goes false 2 ++
    .call true (.promote (promoteNightly none)) :: goes true 5

/-- **The race.**  The abort removes the branch that is pending, and main does not have its rows, so that a
retry is refused; if the promotion goes on, the candidate is released, and the abort answers that it is done. -/
theorem aborted_and_released : Settled stagedOrders ∧
    dropped? (finish (Site.step catalog) stagedOrders race) (.advance false {}) =
      some ("bronze.orders", "phlo-wap-nightly") ∧
    Unreleased "bronze.orders" "phlo-wap-nightly" (finish (Site.step catalog) stagedOrders race).shared ∧
    (finish (Site.step catalog) stagedOrders (race ++ goes false 1)).shared.ledger.pendingPromotions =
      [⟨"bronze.orders", 11, "nightly", 0, "nightly", 0⟩] ∧
    (finish (Site.step catalog) stagedOrders (race ++ goes false 1)).shared.branch "bronze.orders"
      (candidateRefForRun "nightly") = none ∧
    ((finish (Site.step catalog) stagedOrders (race ++ goes false 1)).shared.main "bronze.orders").bind
      Snapshot.releaseId = none ∧ (finish (Site.step catalog) stagedOrders (race ++ goes false 1 ++ .crash true ::
      .call true (.promote (promoteNightly none)) :: goes true 3)).history.head? =
        some (.promote (promoteNightly none), .raised (.branchMissing "phlo-wap-nightly")) ∧
    (.abort "pipeline-run-nightly", .aborted true) ∈
      (finish (Site.step catalog) stagedOrders (race ++ goes false 1 ++ goes true 5 ++ goes false 2)).history ∧
    ¬Unreleased "bronze.orders" "phlo-wap-nightly"
      (finish (Site.step catalog) stagedOrders (race ++ goes false 1 ++ goes true 5 ++ goes false 2)).shared := by
  have hbefore : (finish (Site.step catalog) stagedOrders race).shared.ledger.releases = [] := rfl
  have hafter : (finish (Site.step catalog) stagedOrders
      (race ++ goes false 1 ++ goes true 5 ++ goes false 2)).shared.ledger.releases = [ordersRelease] := rfl
  refine ⟨settled_stagedOrders, rfl, fun record hrecord => ?_, rfl, rfl, rfl, rfl, List.mem_cons_self,
    fun h => ?_⟩
  · rw [hbefore] at hrecord
    cases hrecord
  · exact h ordersRelease (by rw [hafter]; exact List.mem_singleton_self _) rfl rfl

end Phlo.Promotion
