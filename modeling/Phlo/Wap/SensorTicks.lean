import Phlo.Library.Sessions
import Phlo.Wap.PromotedFinal

/-!
# Ticks of the sensors

The three sensors tick one after the other.  A tick may break off anywhere, and between two operations
everything but the report files may change.
-/

namespace Phlo.Wap

open Phlo.Library
open Phlo.Library.Raising

variable {E : Type} {surroundings : Surroundings E} {id : String} {config : WapConfig} {run : Run}

/-! ### The cleanup sensors -/

theorem tag_of_expectedTags {branchName : String} {tags : List (String × String)}
    (h : expectedTags config run branchName = some tags) : run.tags.get WAP_RUN_ID_TAG = some (logicalRunId run) := by
  unfold expectedTags at h
  split at h
  · dsimp only at h
    split at h
    next hexpected => exact hexpected.2.2 (WAP_RUN_ID_TAG, logicalRunId run) List.mem_cons_self
    · cases h
  · cases h

theorem spares_checkWapRunContext_of_tag (config : WapConfig) (branchName : String)
    (htag : run.tags.get WAP_RUN_ID_TAG = some id) :
    Spares surroundings (opened id) (checkWapRunContext config run branchName) := by
  cases htags : expectedTags config run branchName with
  | none =>
    have hskipped : checkWapRunContext config run branchName = pure false := by
      unfold checkWapRunContext verifyWapLaunchManifest
      rw [htags]
      rfl
    rw [hskipped]
    exact spares_pure false
  | some tags =>
    have hid : id = logicalRunId run := Option.some.inj (htag.symm.trans (tag_of_expectedTags htags))
    rw [hid]
    exact spares_checkWapRunContext config run branchName

theorem logicalRunId_cleanupRun (htag : run.tags.get WAP_RUN_ID_TAG = some id) :
    logicalRunId (cleanupRun id run) = id := by
  show (if id = "" then "" else (nonEmpty (run.tags.get WAP_RUN_ID_TAG)).getD id) = id
  split
  next hempty => exact hempty.symm
  next hid =>
    rw [htag, nonEmpty, Option.filter_some, if_pos (decide_eq_true hid)]
    rfl

theorem ends_exactMatches {I : WapAssertion E} (hI : Framed I) (id branchName : String) :
    Ends (wapSemantics surroundings) Untouched I (exactMatches id branchName)
      (fun runs => I.withFact (∀ run ∈ runs, run.tags.get WAP_RUN_ID_TAG = some id)) I := by
  refine Ends.bind SameReports.refl (keeps_outside hI _) fun runs => ?_
  refine Ends.pure _ fun past w h => ⟨h, fun run hrun => ?_⟩
  have hmatch := List.of_mem_filter hrun
  rw [Bool.and_eq_true] at hmatch
  exact of_decide_eq_true hmatch.1

theorem spares_recordCleanup (config : WapConfig) (branchName incomplete : String)
    (htag : run.tags.get WAP_RUN_ID_TAG = some id) (runStatus : String) (hash : Option String) (complete : Bool) :
    Spares surroundings (opened id) (recordCleanup config id branchName incomplete run runStatus hash complete) := by
  unfold recordCleanup
  refine spares_bind (keeps_status id _ (by split <;> nofun)) fun _ => ?_
  split
  · exact spares_emitWapObservation config (logicalRunId_cleanupRun htag)
  · exact spares_pure ()

theorem spares_recordAmbiguity (id branchName : String) (runs : List Run) :
    Spares surroundings (opened id) (recordAmbiguity id branchName runs) := by
  unfold recordAmbiguity
  dsimp only
  split <;> exact spares_recordUncorrelatedGap id branchName _ _

theorem spares_removeBranch (config : WapConfig) (branch : Branch)
    (htag : run.tags.get WAP_RUN_ID_TAG = some id) (runStatus : String) :
    Spares surroundings (opened id) (removeBranch config branch id run runStatus) := by
  unfold removeBranch
  refine spares_bind (keeps_readWapReport (framed_opened id) id) fun report => ?_
  split
  · exact spares_pure ()
  · split
    · exact spares_pure ()
    · refine spares_bind (spares_cleanupOwnedWapBranch (framed_opened id) config _ _) fun complete => ?_
      exact spares_recordCleanup config branch.name _ htag runStatus branch.hash complete

theorem spares_cleanupMatchedBranch (config : WapConfig) (branch : Branch)
    (htag : run.tags.get WAP_RUN_ID_TAG = some id) :
    Spares surroundings (opened id) (cleanupMatchedBranch config branch id run) := by
  unfold cleanupMatchedBranch
  refine spares_bind (spares_checkWapRunContext_of_tag config branch.name htag) fun valid => ?_
  split
  · split
    · exact spares_recordUncorrelatedGap id _ _ _
    · split
      · exact spares_removeBranch config branch htag _
      · exact spares_recordUncorrelatedGap id _ _ _
  · exact spares_pure ()

theorem spares_cleanupMatchedCandidates (config : WapConfig) (branchName : String)
    (htag : run.tags.get WAP_RUN_ID_TAG = some id) :
    Spares surroundings (opened id) (cleanupMatchedCandidates config branchName id run) := by
  unfold cleanupMatchedCandidates
  refine spares_bind (spares_checkWapRunContext_of_tag config branchName htag) fun valid => ?_
  split
  · split
    · exact spares_pure ()
    · refine spares_bind (spares_cleanupOwnedCandidates (framed_opened id) branchName) fun complete => ?_
      exact spares_recordCleanup config branchName _ htag _ none complete
  · exact spares_pure ()

theorem spares_cleanupBranch (config : WapConfig) (branch : Branch) :
    Spares surroundings Assertion.top (cleanupBranch config branch) := by
  unfold cleanupBranch
  refine Ends.bind SameReports.refl (ends_turn _) fun _ => closes_of_spares ?_
  refine Ends.bind SameReports.refl (ends_exactMatches (framed_opened _) _ _) fun runs =>
    Ends.withFact fun htags => ?_
  split
  · exact spares_recordUncorrelatedGap _ _ _ _
  next run => exact spares_cleanupMatchedBranch config branch (htags run List.mem_cons_self)
  · exact spares_recordAmbiguity _ _ _

theorem spares_cleanupCandidates (config : WapConfig) (branchName id : String) :
    Spares surroundings Assertion.top (cleanupCandidates config branchName id) := by
  unfold cleanupCandidates
  refine Ends.bind SameReports.refl (ends_turn _) fun _ => closes_of_spares ?_
  refine Ends.bind SameReports.refl (ends_exactMatches (framed_opened _) _ _) fun runs =>
    Ends.withFact fun htags => ?_
  split
  next run => exact spares_cleanupMatchedCandidates config branchName (htags run List.mem_cons_self)
  · exact spares_recordUncorrelatedGap _ _ _ _

theorem spares_wapBranchCleanupSensor (config : WapConfig) :
    Spares surroundings Assertion.top (wapBranchCleanupSensor config) := by
  refine spares_bind (keeps_outside framed_top _) fun now => ?_
  refine spares_bind (keeps_outside framed_top _) fun branches => ?_
  exact Keeping.each SameReports.refl fun branch _ => spares_cleanupBranch config branch

theorem spares_wapCandidateCleanupSensor (config : WapConfig) :
    Spares surroundings Assertion.top (wapCandidateCleanupSensor config) := by
  refine spares_bind (keeps_outside framed_top _) fun now => ?_
  refine spares_bind (Ends.call fun past w hw => ⟨fun _ h => h.elim, trivial⟩) fun reports => ?_
  exact Keeping.each SameReports.refl fun stale _ => spares_cleanupCandidates config stale.1 stale.2

/-! ### Sequences of ticks -/

/-- A tick of one of the sensors. -/
inductive SensorTick where
  | promotion (config : WapConfig) (cursor : Option ℤ)
  | branchCleanup (config : WapConfig)
  | candidateCleanup (config : WapConfig)

def SensorTick.sensor : SensorTick → Sensor Unit
  | promotion config cursor => do
    let _ ← wapAutoPromotionSensor config cursor
    pure ()
  | branchCleanup config => wapBranchCleanupSensor config
  | candidateCleanup config => wapCandidateCleanupSensor config

def IsTick (p : Program WapOp (Except Raised Unit)) : Prop := ∃ tick : SensorTick, p = tick.sensor.run

/-- Ticks one after the other, and the changes around them. -/
abbrev Ticking (E : Type) := Network Unit WapOp (WapWorld E) (Except Raised Unit)

abbrev TickStep (surroundings : Surroundings E) : Ticking E → Ticking E → Prop :=
  Network.Step (wapSemantics surroundings) IsTick SameReports

theorem spares_tick (tick : SensorTick) : Spares surroundings Assertion.top tick.sensor := by
  cases tick with
  | promotion config cursor =>
    exact spares_bind (spares_wapAutoPromotionSensor config cursor) fun _ => spares_pure ()
  | branchCleanup config => exact spares_wapBranchCleanupSensor config
  | candidateCleanup config => exact spares_wapCandidateCleanupSensor config

variable {w₀ : WapWorld E} {n n' : Ticking E}

theorem untouched_of_reachable (h : Network.Reachable (wapSemantics surroundings) IsTick SameReports w₀ n) :
    ∀ e ∈ n.trace, Untouched e.past e.moment := by
  refine guarantee_of_reachable SameReports.refl (fun a b c hab hbc => ?_) (fun _ _ hs => hs)
    (fun p hp w => ?_) h (Q := outcomeHolds (fun _ => (Assertion.top : WapAssertion E)) Assertion.top)
  · exact hbc.trans hab
  · have ⟨tick, htick⟩ := hp
    rw [htick]
    exact spares_tick tick [] w trivial

/-- An operation that does not replace the report of a run. -/
theorem isPromoted_exec {β : Type} (op : WapOp β) {w : WapWorld E} (hpromoted : isPromoted w.reports id = true)
    (hover : ¬Overwriting id ⟨op, w⟩) : isPromoted ((wapSemantics surroundings).exec op w).1.reports id = true := by
  cases op with
  | inr op => exact hpromoted
  | inl op =>
    cases op with
    | read _ => exact hpromoted
    | files => exact hpromoted
    | turn _ => exact hpromoted
    | replace replaced report =>
      have hne : id ≠ replaced := fun heq => hover ⟨heq.symm, hpromoted⟩
      have hset : isPromoted (w.reports.set replaced report) id = true := by
        rw [isPromoted, OrderedDict.get_set, if_neg hne]
        exact hpromoted
      show isPromoted (execReport surroundings (.replace replaced report) w).1.reports id = true
      rw [execReport]
      cases surroundings.fate replaced w.env with
      | refused => exact hpromoted
      | written => exact hset
      | unconfirmed => exact hset

theorem steps_tick (surroundings : Surroundings E) (n : Ticking E) (tick : SensorTick) :
    ∃ n', Relation.ReflTransGen (TickStep surroundings) n n' ∧
      n'.shared = (tick.sensor.run.alone (wapSemantics surroundings) n.shared).1 :=
  steps_call () ⟨tick, rfl⟩

/-- A report that says `promoted` says so for good, if no sensor ever turns to its run while it does. -/
theorem promoted_stays (h : Network.Reachable (wapSemantics surroundings) IsTick SameReports w₀ n)
    (hsteps : Relation.ReflTransGen (TickStep surroundings) n n')
    (hturn : ∀ e ∈ n'.trace, ¬Turning id e.moment) (hpromoted : isPromoted n.shared.reports id = true) :
    isPromoted n'.shared.reports id = true := by
  induction hsteps with
  | refl => exact hpromoted
  | @tail m m' hsteps hstep ih =>
    have hreach : Network.Reachable (wapSemantics surroundings) IsTick SameReports w₀ m' :=
      (Relation.ReflTransGen.trans h hsteps).tail hstep
    have huntouched := untouched_of_reachable hreach
    have hlinear := linear_of_reachable hreach
    cases hstep with
    | start i p hp => exact ih hturn
    | drift s hs =>
      show isPromoted s.reports id = true
      rw [show s.reports = m.shared.reports from hs]
      exact ih hturn
    | operate i op rest past hi =>
      refine isPromoted_exec op (ih fun e he => hturn e (List.mem_cons_of_mem _ he)) fun hover => ?_
      have ⟨t, ht, hturning⟩ := huntouched _ List.mem_cons_self id hover
      have ⟨f, hf, hmoment⟩ := hlinear.exists_of_past List.mem_cons_self ht
      exact hturn f hf (hmoment ▸ hturning)

/-! ### A candidate cleanup after a promotion -/

/-- A warehouse under the snapshot strategy, with one run that has succeeded and one candidate. -/
structure Lakehouse where
  clock : ℤ
  revision : ℤ
  /-- the run carries `phlo/wap_promoted` -/
  marked : Bool

def dailyTags : List (String × String) :=
  [(WAP_RUN_ID_TAG, "r1"), (WAP_BRANCH_TAG, "pipeline-run-r1"), (WAP_REF_TAG, "pipeline-run-r1"),
    (WAP_PROJECT_ID_TAG, "shop"), (WAP_ATTEMPT_TAG, "1"), ("environment", "dev")]

def dailyRun (marked : Bool) : Run where
  runId := "d1"
  tags := OrderedDict.empty.setAll (dailyTags ++ if marked then [("phlo/wap_promoted", "true")] else [])
  status := .success
  updated := 0

def dailyContext : Fields := [("environment", .str "dev"), ("target_ref", .str "main"), ("strategy", .str "snapshot")]

def dailyBinding : Report :=
  OrderedDict.empty.setAll [("schema_version", .str "phlo.wap_launch_manifest.v2"), ("logical_run_id", .str "r1"),
    ("dagster_run_id", .str "d1"), ("branch", .str "pipeline-run-r1"),
    ("tags", .obj (dailyTags.map fun item => (item.1, .str item.2))), ("source_hash", .null),
    ("target_branch", .str "main"), ("target_hash_before", .str "3"), ("context", .obj dailyContext)]

def dailyReport : Report :=
  OrderedDict.empty.setAll [("status", .str "launched"), ("strategy", .str "snapshot"),
    ("branch", .str "pipeline-run-r1"), ("launch_tags", .obj (dailyTags.map fun item => (item.1, .str item.2))),
    ("launch_source_hash", .null), ("launch_target_hash_before", .str "3"), ("source_hash", .null),
    ("target_branch", .str "main"), ("target_hash_before", .str "3"), ("dagster_run_id", .str "d1"),
    ("context", .obj dailyContext),
    ("launch_manifest_checksum", .str "0000000000000000000000000000000000000000000000000000000000000000"),
    ("created_at", .str "1970-01-01T00:00:00+00:00"), ("schema_version", .str "phlo.wap_report.v2"),
    ("run_id", .str "r1"), ("updated_at", .str "1970-01-01T00:00:00+00:00")]

/-- Every call succeeds. -/
def lakehouseAnswer : {β : Type} → OutsideOp β → Lakehouse → Lakehouse × β
  | _, .now, w => (w, .ok w.clock)
  | _, .launchManifest _ _, w => (w, .ok (some dailyBinding))
  | _, .runs, w => (w, .ok [dailyRun w.marked])
  | _, .addRunTag _ _ _, w => ({ w with marked := true }, .ok ())
  | _, .checkRecords _, w => (w, .ok [⟨some "1", true, "ERROR", none⟩])
  | _, .qualityResults _ _ _ passed checks, w => (w, .ok [⟨"q1", "wap.aggregate", passed, checks⟩])
  | _, .operationalSettings, w => (w, .ok (some ⟨false, false, 1⟩))
  | _, .validateContext _ _, w => (w, .ok none)
  | _, .reconcile _, w => (w, .ok ())
  | _, .emitObservation _, w => (w, .ok ())
  | _, .listBranches, w => (w, .ok [])
  | _, .branchHash _, w => (w, .ok none)
  | _, .mergeBranch _ _ _ _ _, w => (w, .ok (.published false))
  | _, .deleteBranch _ _, w => (w, .ok false)
  | _, .dropRefQueryCatalog _, w => (w, .ok ())
  | _, .releaseRevision, w => (w, .ok w.revision)
  | _, .listCandidates _, w => (w, .ok [⟨"orders", "7"⟩])
  | _, .resolveRelease _, w => (w, .ok none)
  | _, .promoteCandidates _ _ _, w => ({ w with revision := w.revision + 1 }, .ok (.published true))
  | _, .abortCandidates _, w => (w, .ok true)

def lakehouse : Surroundings Lakehouse where
  answer := lakehouseAnswer
  readable _ _ := true
  fate _ _ := .written
  tick w := w

def snapshotConfig : WapConfig := { project := some "shop", strategy := "snapshot" }

def launchedWorld : WapWorld Lakehouse := ⟨OrderedDict.empty.set "r1" dailyReport, ⟨60000000, 3, false⟩⟩

def promotedWorld : WapWorld Lakehouse :=
  ((SensorTick.promotion snapshotConfig none).sensor.run.alone (wapSemantics lakehouse) launchedWorld).1

/-- Two days later. -/
def agedWorld : WapWorld Lakehouse := ⟨promotedWorld.reports, { promotedWorld.env with clock := 2 * 86400000000 }⟩

def cleanedWorld : WapWorld Lakehouse :=
  ((SensorTick.candidateCleanup snapshotConfig).sensor.run.alone (wapSemantics lakehouse) agedWorld).1

set_option maxRecDepth 10000 in
theorem isPromoted_promotedWorld : isPromoted promotedWorld.reports "r1" = true := by decide +kernel

set_option maxRecDepth 10000 in
theorem isPromoted_cleanedWorld : isPromoted cleanedWorld.reports "r1" = false := by decide +kernel

/-- The candidate cleanup puts `cleanup_complete` over `promoted`. -/
theorem cleanup_over_promoted : ¬∀ (w₀ : WapWorld Lakehouse) (n n' : Ticking Lakehouse),
    Network.Reachable (wapSemantics lakehouse) IsTick SameReports w₀ n →
      Relation.ReflTransGen (TickStep lakehouse) n n' → isPromoted n.shared.reports "r1" = true →
        isPromoted n'.shared.reports "r1" = true := by
  intro h
  have ⟨n, hn, hpromoted⟩ := steps_tick lakehouse (Network.idle launchedWorld)
    (.promotion snapshotConfig none)
  have hshared : n.shared = promotedWorld := by
    rw [promotedWorld]
    exact hpromoted
  have hsame : SameReports n.shared agedWorld := by
    rw [SameReports, hshared, agedWorld]
  have haged : TickStep lakehouse n { n with shared := agedWorld } := Network.Step.drift n agedWorld hsame
  have ⟨n', hn', hcleaned⟩ := steps_tick lakehouse { n with shared := agedWorld }
    (.candidateCleanup snapshotConfig)
  have hends : n'.shared = cleanedWorld := by
    rw [cleanedWorld]
    exact hcleaned
  have hfinal := h launchedWorld n n' hn (Relation.ReflTransGen.head haged hn')
    (by rw [hshared]; exact isPromoted_promotedWorld)
  rw [hends, isPromoted_cleanedWorld] at hfinal
  cases hfinal

/-- A report that says `promoted` while the branch cleanup finds no branches. -/
theorem promoted_stays_lakehouse : ∃ n : Ticking Lakehouse, n.trace.length = 2 ∧
    isPromoted n.shared.reports "r1" = true := by
  let p := (SensorTick.branchCleanup snapshotConfig).sensor.run
  let n := (((Network.idle promotedWorld : Ticking Lakehouse).call () p).tick (wapSemantics lakehouse) ()).tick
    (wapSemantics lakehouse) ()
  have hsteps : Relation.ReflTransGen (TickStep lakehouse) (Network.idle promotedWorld) n :=
    ((Network.Reachable.init.call () ⟨_, rfl⟩).tick ()).tick ()
  refine ⟨n, rfl, promoted_stays Network.Reachable.init hsteps (fun e he => ?_) isPromoted_promotedWorld⟩
  rcases List.mem_cons.1 he with he | he
  · rw [he]
    exact fun h => h
  · rw [List.mem_singleton.1 he]
    exact fun h => h

end Phlo.Wap
