import Phlo.Wap.PublicationGate

/-!
# What a tick knows when it removes

The cleanup sensors remove branches and abort candidates of runs past the retention period.

* `removed_when_cleared` — every removal is cleared, and a cleanup neither merges nor releases.
-/

namespace Phlo.Wap

open Phlo.Library

variable {told : Set (Told WapOp)} {run : Run} {branchName id : String} {config : WapConfig}

/-- What a listing of the runs has of the branch. -/
def Matched (told : Set (Told WapOp)) (id branchName : String) (matched : List Run) : Prop := ∃ runs,
  ⟨.inr .runs, .ok runs⟩ ∈ told ∧ (runs.filter fun run =>
    run.tags.get WAP_RUN_ID_TAG = some id && run.tags.get WAP_BRANCH_TAG = some branchName) = matched

/-- Exactly one run has the tags, it has ended, and its launch and context stand. -/
structure Retired (told : Set (Told WapOp)) (id branchName : String) (run : Run) : Prop where
  sole : Matched told id branchName [run]
  ended : run.status.normalized ≠ none
  launched : Launched told run branchName
  validated : Validated told run

/-- The branch was listed, and is past the retention period. -/
def StaleBranch (config : WapConfig) (told : Set (Told WapOp)) (branchName : String) : Prop := ∃ now branches branch,
  ⟨.inr .now, .ok now⟩ ∈ told ∧ ⟨.inr .listBranches, .ok branches⟩ ∈ told ∧ branch ∈ branches ∧
    branch.name = branchName ∧ isStaleBranch (retentionCutoff config now) branch = true

/-- A report of the branch and the run was found, past the retention period. -/
def StaleReport (config : WapConfig) (told : Set (Told WapOp)) (branchName id : String) : Prop := ∃ now reports,
  ⟨.inr .now, .ok now⟩ ∈ told ∧ ⟨.inl .files, reports⟩ ∈ told ∧
    ∃ report ∈ reports, staleReport (retentionCutoff config now) report = some (branchName, id)

/-- Nothing of the run waits for a review or for the outcome of a merge.  After a merge the branch stands where the
report says that it was merged. -/
def Settled (told : Set (Told WapOp)) (id branchName : String) (expected : Option String) : Prop := ∃ report,
  WasRead told id report ∧ report.any (Report.flag · "review_required") = false ∧
    inMergeState report "merge_started" = false ∧
      expected = (if inMergeState report "merged" then report.bind fun report => report.text? "source_hash" else none) ∧
        ∀ hash ∈ expected, ⟨.inr (.branchHash branchName), .ok (some hash)⟩ ∈ told

/-- What a tick has been told when a catalog is asked to remove something. -/
def ClearedToRemove (config : WapConfig) : Caution WapOp := fun told {_} op =>
  match op with
  | .inr (.deleteBranch branchName expected) => StaleBranch config told branchName ∧
      (∃ run, Retired told (branchRunId branchName) branchName run ∧
        nonEmpty (projectIdForRun config (cleanupRun (branchRunId branchName) run)) ≠ none ∧
        attemptForRun (cleanupRun (branchRunId branchName) run) ≠ none) ∧
      Settled told (branchRunId branchName) branchName expected
  | .inr (.abortCandidates branchName) => isOwnedWapBranch branchName = true ∧
      ∃ id, StaleReport config told branchName id ∧ ∃ run, Retired told id branchName run
  | .inr (.mergeBranch ..) => False
  | .inr (.promoteCandidates ..) => False
  | _ => True

section

variable {told' : Set (Told WapOp)}

theorem Retired.mono (hsub : told ⊆ told') (h : Retired told id branchName run) : Retired told' id branchName run := by
  obtain ⟨⟨runs, hruns, hsole⟩, hended, hlaunched, hvalidated⟩ := h
  exact ⟨⟨runs, hsub hruns, hsole⟩, hended, hlaunched.mono hsub, hvalidated.mono hsub⟩

theorem StaleBranch.mono (hsub : told ⊆ told') (h : StaleBranch config told branchName) :
    StaleBranch config told' branchName := by
  obtain ⟨now, branches, branch, hnow, hbranches, hbranch⟩ := h
  exact ⟨now, branches, branch, hsub hnow, hsub hbranches, hbranch⟩

theorem StaleReport.mono (hsub : told ⊆ told') (h : StaleReport config told branchName id) :
    StaleReport config told' branchName id := by
  obtain ⟨now, reports, hnow, hreports, hreport⟩ := h
  exact ⟨now, reports, hsub hnow, hsub hreports, hreport⟩

theorem WasRead.mono {prior : Option Report} (hsub : told ⊆ told') (h : WasRead told id prior) :
    WasRead told' id prior := by
  unfold WasRead at *
  split
  next hpath => exact hsub (by simpa [hpath] using h)
  next hpath => simpa [hpath] using h

end

abbrev Careful {α : Type} (config : WapConfig) (told : Set (Told WapOp)) (p : Sensor α) : Prop :=
  Learns (ClearedToRemove config) told p fun _ _ => True

theorem permits_clearedToRemove : Permits (ClearedToRemove config) := fun told _ op h => by
  unfold ClearedToRemove
  split
  · exact absurd trivial h
  · exact absurd trivial h
  · exact absurd trivial h
  · exact absurd trivial h
  · trivial

theorem careful_of_silent {α : Type} {p : Sensor α} (h : Silent ChangesRefs p) : Careful config told p :=
  learns_of_silent permits_clearedToRemove h

theorem learns_exactMatches : Learns (ClearedToRemove config) told (exactMatches id branchName) fun told matched =>
    Matched told id branchName matched :=
  (learns_callOrRaise trivial).bind fun runs _ _ hruns => learns_pure ⟨runs, hruns, rfl⟩

theorem careful_checked {p : Bool → Sensor Unit} (hsole : Matched told id branchName [run])
    (hfalse : Silent ChangesRefs (p false)) (htrue : ∀ told', told ⊆ told' →
      (run.status.normalized ≠ none → Retired told' id branchName run) → Careful config told' (p true)) :
    Careful config told (checkWapRunContext config run branchName >>= p) := by
  refine (learns_checkWapRunContext permits_clearedToRemove).bind fun valid told' hsub hvalid => ?_
  cases valid with
  | false => exact careful_of_silent hfalse
  | true =>
    obtain ⟨runs, hruns, hfound⟩ := hsole
    obtain ⟨hlaunched, hvalidated⟩ := hvalid rfl
    exact htrue told' hsub fun hended => ⟨⟨runs, hsub hruns, hfound⟩, hended, hlaunched, hvalidated⟩

/-! ### Branches -/

theorem careful_cleanupOwnedWapBranch {expected : Option String} (h : ∀ told', told ⊆ told' →
      (∀ hash ∈ expected, ⟨.inr (.branchHash branchName), .ok (some hash)⟩ ∈ told') →
      ClearedToRemove config told' (.inr (.deleteBranch branchName expected))) :
    Careful config told (cleanupOwnedWapBranch config branchName expected) := by
  unfold cleanupOwnedWapBranch
  split
  · have hcurrent : Learns (ClearedToRemove config) told (onlyIf expected.isSome (branchHash branchName) none)
        fun told current => ∀ hash ∈ current, ⟨.inr (.branchHash branchName), .ok (some hash)⟩ ∈ told := by
      unfold onlyIf
      split
      · exact learns_branchHash permits_clearedToRemove branchName
      · refine learns_pure fun hash hhash => ?_
        cases hhash
    refine hcurrent.bind fun current told₁ h₁ hcurrent => ?_
    split
    · exact learns_pure trivial
    next hsame =>
      refine (careful_of_silent (by simp)).bind fun dropped told₂ h₂ _ => ?_
      cases dropped with
      | none => exact learns_pure trivial
      | some _ =>
        refine (learns_callOrRaise (h told₂ (h₁.trans h₂) fun hash hhash => h₂ (hcurrent hash ?_))).attempt.bind
          fun deleted _ _ _ => learns_pure trivial
        have hequal : current = expected := not_not.1 fun hne => hsame ⟨by simp [Option.mem_def.1 hhash], hne⟩
        exact hequal ▸ hhash
  · exact learns_pure trivial

theorem careful_removeBranch {branch : Branch} {runStatus : String} (hid : branchRunId branch.name = id)
    (hstale : StaleBranch config told branch.name) (hrun : Retired told id branch.name run)
    (hproject : nonEmpty (projectIdForRun config (cleanupRun id run)) ≠ none)
    (hattempt : attemptForRun (cleanupRun id run) ≠ none) :
    Careful config told (removeBranch config branch id run runStatus) := by
  unfold removeBranch
  refine (learns_readWapReport permits_clearedToRemove _).bind fun report told₁ h₁ hread => ?_
  split
  · exact learns_pure trivial
  next hreview =>
    split
    · exact learns_pure trivial
    next hmerge =>
      refine (careful_cleanupOwnedWapBranch fun told₂ h₂ hhash => ?_).bind fun complete _ _ _ =>
        careful_of_silent (by simp [recordCleanup])
      rw [ClearedToRemove, hid]
      exact ⟨hstale.mono (h₁.trans h₂), ⟨run, hrun.mono (h₁.trans h₂), hproject, hattempt⟩, report, hread.mono h₂,
        Bool.eq_false_iff.2 hreview, Bool.eq_false_iff.2 hmerge, rfl, hhash⟩

theorem careful_cleanupBranch {branch : Branch} (hstale : StaleBranch config told branch.name) :
    Careful config told (cleanupBranch config branch) := by
  unfold cleanupBranch
  generalize hid : branchRunId branch.name = id
  refine (learns_call trivial).bind fun _ told₁ h₁ _ => ?_
  refine learns_exactMatches.bind fun runs told₂ h₂ hmatched => ?_
  split
  · exact careful_of_silent (by simp)
  next run =>
    refine careful_checked hmatched (silent_pure _) fun told₃ h₃ hretired => ?_
    rw [if_pos rfl]
    split
    · exact careful_of_silent (by simp)
    next runStatus hstatus =>
      have hrun := hretired (hstatus ▸ Option.some_ne_none _)
      split
      next hproject hattempt =>
        exact careful_removeBranch hid (hstale.mono (h₁.trans (h₂.trans h₃))) hrun (hproject ▸ Option.some_ne_none _)
          (hattempt ▸ Option.some_ne_none _)
      · exact careful_of_silent (by simp)
  · exact careful_of_silent (by unfold recordAmbiguity; simp)

theorem careful_wapBranchCleanupSensor (config : WapConfig) : Careful config ∅ (wapBranchCleanupSensor config) := by
  refine (learns_callOrRaise trivial).bind fun now told₁ _ hnow => ?_
  refine (learns_callOrRaise trivial).bind fun branches told₂ h₂ hbranches => ?_
  refine Learns.each fun branch hbranch told₃ h₃ => ?_
  obtain ⟨hlisted, hstale⟩ := List.mem_filter.1 hbranch
  exact careful_cleanupBranch ⟨now, branches, branch, h₃ (h₂ hnow), h₃ hbranches, hlisted, rfl, hstale⟩

/-! ### Candidates -/

theorem careful_cleanupCandidates (hstale : StaleReport config told branchName id) :
    Careful config told (cleanupCandidates config branchName id) := by
  refine (learns_call trivial).bind fun _ told₁ h₁ _ => learns_exactMatches.bind fun runs told₂ h₂ hmatched => ?_
  split
  next run =>
    refine careful_checked hmatched (silent_pure _) fun told₃ h₃ hretired => ?_
    rw [if_pos rfl]
    split
    · exact learns_pure trivial
    next runStatus hstatus =>
      refine Learns.bind (R := fun _ _ => True) ?_ fun complete _ _ _ => careful_of_silent (by simp [recordCleanup])
      unfold cleanupOwnedCandidates
      split
      next howned =>
        refine (learns_callOrRaise ⟨howned, id, hstale.mono (h₁.trans (h₂.trans h₃)), run, hretired ?_⟩).attempt.bind
          fun aborted _ _ _ => learns_pure trivial
        rw [hstatus]
        exact Option.some_ne_none _
      · exact learns_pure trivial
  · exact careful_of_silent (by simp)

theorem careful_wapCandidateCleanupSensor (config : WapConfig) :
    Careful config ∅ (wapCandidateCleanupSensor config) := by
  refine (learns_callOrRaise trivial).bind fun now told₁ _ hnow => ?_
  refine (learns_call trivial).bind fun reports told₂ h₂ hreports => ?_
  refine Learns.each fun stale hstale told₃ h₃ => ?_
  obtain ⟨report, hreport, hstale⟩ := List.mem_filterMap.1 hstale
  exact careful_cleanupCandidates ⟨now, reports, h₃ (h₂ hnow), h₃ hreports, report, hreport, hstale⟩

/-! ### Any number of ticks -/

def IsCleanupTick (config : WapConfig) (p : Program WapOp (Except Raised Unit)) : Prop :=
  p = (wapBranchCleanupSensor config).run ∨ p = (wapCandidateCleanupSensor config).run

/-- **The cleanup gate.**  Whatever happens around any number of cleanup ticks, and whatever they are told, a branch is
deleted and candidates are aborted only past the retention period, for the one run with the tags, which has ended. -/
theorem removed_when_cleared {E ι : Type} [DecidableEq ι] {surroundings : Surroundings E}
    {Drift : WapWorld E → WapWorld E → Prop} {w₀ : WapWorld E} {n : Network ι WapOp (WapWorld E) (Except Raised Unit)}
    (h : Network.Reachable (wapSemantics surroundings) (IsCleanupTick config) Drift w₀ n) :
    ∀ e ∈ n.trace, ClearedToRemove config (toldBy (wapSemantics surroundings) e.past) e.moment.op := by
  refine told_of_reachable (fun p hp => ?_) h
  rcases hp with rfl | rfl
  · exact Cautious.mono (careful_wapBranchCleanupSensor config) fun _ _ _ => trivial
  · exact Cautious.mono (careful_wapCandidateCleanupSensor config) fun _ _ _ => trivial

def isAbort {β : Type} : WapOp β → Bool
  | .inr (.abortCandidates ..) => true
  | _ => false

/-- A tick that aborts the candidates of a run, two days after its promotion. -/
def lakehouseCleanup : Ticking Lakehouse :=
  (List.replicate 20 ()).foldl (Network.tick (wapSemantics lakehouse))
    ((Network.idle agedWorld).call () (wapCandidateCleanupSensor snapshotConfig).run)

set_option maxRecDepth 10000 in
theorem removed_when_cleared_lakehouse : lakehouseCleanup.trace.any (fun e => isAbort e.moment.op) = true ∧
      ∀ e ∈ lakehouseCleanup.trace,
        ClearedToRemove snapshotConfig (toldBy (wapSemantics lakehouse) e.past) e.moment.op :=
  ⟨by decide +kernel, removed_when_cleared (show Network.Reachable _ (IsCleanupTick snapshotConfig)
    (fun _ _ => True) _ _ from (Network.Reachable.init.call () (.inr rfl)).schedule _)⟩

end Phlo.Wap
