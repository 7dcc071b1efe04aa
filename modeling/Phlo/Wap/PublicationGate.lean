import Phlo.Library.AnsweredCalls
import Phlo.Wap.SensorTicks

/-!
# What a tick knows when it publishes

Only the promotion sensor asks a catalog to merge a branch or to release candidates.  Reports, checks, refs and
settings may change at any moment, other ticks may run at the same time, and calls may raise: what holds of such a
request is what its own tick has been told before it.

* `published_when_cleared` — every merge and every release is cleared.
-/

namespace Phlo.Wap

open Phlo.Library

variable {told : Set (Told WapOp)} {run : Run} {branchName : String} {report : Report}

/-- The tags of the run and what its launch has bound agree on the branch. -/
def Bound (run : Run) (branchName : String) (binding : Report) : Prop :=
  ∃ config tags manifest hashes context, expectedTags config run branchName = some tags ∧
    isBound run branchName tags manifest binding hashes context = true

/-- The launch of the run has been verified. -/
def Launched (told : Set (Told WapOp)) (run : Run) (branchName : String) : Prop :=
  ∃ checksum binding, ⟨.inr (.launchManifest (logicalRunId run) checksum), .ok (some binding)⟩ ∈ told ∧
    Bound run branchName binding

/-- The check of the launch context raised no error. -/
def Validated (told : Set (Told WapOp)) (run : Run) : Prop :=
  ∃ binding, ⟨.inr (.validateContext run binding), .ok none⟩ ∈ told

theorem Launched.mono {told' : Set (Told WapOp)} (h : Launched told run branchName) (hsub : told ⊆ told') :
    Launched told' run branchName := by
  obtain ⟨checksum, binding, hbinding, hbound⟩ := h
  exact ⟨checksum, binding, hsub hbinding, hbound⟩

theorem Validated.mono {told' : Set (Told WapOp)} (h : Validated told run) (hsub : told ⊆ told') :
    Validated told' run := h.imp fun _ hcontext => hsub hcontext

/-- No check that was read has failed, warnings apart. -/
def ChecksPassed (told : Set (Told WapOp)) (run : Run) : Prop :=
  ∃ records, ⟨.inr (.checkRecords run.runId), .ok records⟩ ∈ told ∧
    ∀ record ∈ records, record.passed = true ∨ severityLabel record.severity = "warn"

/-- The aggregate decision was handed to the store, which has it. -/
def Decided (told : Set (Told WapOp)) (run : Run) : Prop := ∃ projectId attempt passed checks results,
  ⟨.inr (.qualityResults projectId (logicalRunId run) attempt passed checks), .ok results⟩ ∈ told ∧
    ∃ result ∈ results, result.checkId = "wap.aggregate" ∧ result.passed = passed

/-- What a tick has been told of a run, with the report that it read. -/
structure Cleared (told : Set (Told WapOp)) (run : Run) (branchName : String) (report : Report) : Prop where
  listed : ∃ runs, ⟨.inr .runs, .ok runs⟩ ∈ told ∧ run ∈ runs
  succeeded : run.status = .success
  owned : isOwnedWapBranch branchName = true
  launched : Launched told run branchName
  validated : Validated told run
  checked : ChecksPassed told run
  decided : Decided told run
  read : ⟨.inl (.read (logicalRunId run)), some report⟩ ∈ told
  automatic : ∃ governance, ⟨.inr .operationalSettings, .ok (some governance)⟩ ∈ told ∧
    governance.secondGoldReviewer = false

/-- The run was cleared, and the intent to publish it has been written. -/
def Intended (told : Set (Told WapOp)) (run : Run) (branchName : String) (report : Report) : Prop :=
  (∃ before ⊆ told, Cleared before run branchName report) ∧
    ∃ intent : Report, ⟨.inl (.replace (logicalRunId run) intent), true⟩ ∈ told ∧
      intent.text? "merge_state" = some "merge_started"

/-- What a tick has been told when a catalog is asked to publish: of a merge both hashes, the one of the target as the
launch found it; of a release the revision that the launch found. -/
def ClearedToPublish : Caution WapOp := fun told {_} op =>
  match op with
  | .inr (.mergeBranch branchName target _ (some t) (some s)) => ∃ run report, Intended told run branchName report ∧
      ⟨.inr (.branchHash target), .ok (some t)⟩ ∈ told ∧ ⟨.inr (.branchHash branchName), .ok (some s)⟩ ∈ told ∧
      report.text? "launch_target_hash_before" = some t ∧
      (requiresBoundChecks (some report) = true → ∃ checks,
        ⟨.inr (.checkRecords run.runId), .ok checks⟩ ∈ told ∧ unboundChecks branchName (some s) checks = none)
  | .inr (.mergeBranch ..) => False
  | .inr (.promoteCandidates branchName releaseId revision) => ∃ run report, Intended told run branchName report ∧
      releaseId = logicalRunId run ∧ ⟨.inr .releaseRevision, .ok revision⟩ ∈ told ∧ 0 ≤ revision ∧
      launchRevision (some report) = revision
  | _ => True

/-! ### What changes no refs -/

/-- A catalog is asked to change its refs. -/
def ChangesRefs (β : Type) (op : WapOp β) : Prop :=
  match op with
  | .inr (.mergeBranch ..) => True
  | .inr (.promoteCandidates ..) => True
  | .inr (.deleteBranch ..) => True
  | .inr (.abortCandidates ..) => True
  | _ => False

/-- A catalog is asked to publish. -/
def Publishes (β : Type) (op : WapOp β) : Prop :=
  match op with
  | .inr (.mergeBranch ..) => True
  | .inr (.promoteCandidates ..) => True
  | _ => False

attribute [simp] ChangesRefs.eq_def Publishes.eq_def

section

variable {P : (β : Type) → WapOp β → Prop}

@[simp] theorem silent_outside {β : Type} {op : OutsideOp (Except Raised β)} :
    Silent P (outside op) ↔ ¬P _ (.inr op) := silent_callOrRaise

@[simp] theorem silent_attempted {β : Type} {op : OutsideOp (Except Raised β)} :
    Silent P (attempted op) ↔ ¬P _ (.inr op) := silent_attempt.trans silent_outside

@[simp] theorem silent_onReports {β : Type} {op : ReportOp β} : Silent P (onReports op) ↔ ¬P _ (.inl op) := silent_call

@[simp] theorem silent_onlyIf {α : Type} {c : Prop} [Decidable c] {p : Sensor α} {otherwise : α} :
    Silent P (onlyIf c p otherwise) ↔ (c → Silent P p) := by simp [onlyIf]

/-- Calls that change refs. -/
def OnRefs (P : (β : Type) → WapOp β → Prop) : Prop := ∀ β op, P β op → ChangesRefs β op

@[simp] theorem onRefs_changesRefs : OnRefs ChangesRefs := fun _ _ => id

@[simp] theorem onRefs_publishes : OnRefs Publishes := fun β op => by
  unfold Publishes
  split <;> simp

variable {config : WapConfig} {id : String} {status : Option WapStatus} {fields : Fields}

@[simp] theorem silent_readWapReport (hP : OnRefs P) : Silent P (readWapReport id) :=
  Avoids.mono hP (show Silent ChangesRefs _ by simp [readWapReport])

@[simp] theorem silent_writeWapReport (hP : OnRefs P) : Silent P (writeWapReport id status fields) :=
  Avoids.mono hP (show Silent ChangesRefs _ by simp [writeWapReport])

@[simp] theorem silent_recordUncorrelatedGap (hP : OnRefs P) (missing : List String) (reason : String) :
    Silent P (recordUncorrelatedGap id branchName missing reason) := by simp [recordUncorrelatedGap, hP]

@[simp] theorem silent_emitWapObservation (hP : OnRefs P) (observation : Observation) :
    Silent P (emitWapObservation config observation) := by
  refine Avoids.mono hP (show Silent ChangesRefs _ from ?_)
  unfold emitWapObservation
  dsimp only
  split
  · simp
  · split <;> simp

@[simp] theorem silent_bindingOf (hP : OnRefs P) : Silent P (bindingOf id report) := by
  refine Avoids.mono hP (show Silent ChangesRefs _ from ?_)
  unfold bindingOf
  split <;> simp [readWapLaunchManifest]

@[simp] theorem silent_launchHashes (hP : OnRefs P) (binding : Report) : Silent P (launchHashes id report binding) := by
  refine Avoids.mono hP (show Silent ChangesRefs _ from ?_)
  unfold launchHashes
  split <;> simp

end

section

variable {config : WapConfig} {id target text : String} {p : Publication} {prior : Option Report}
  {hash hash' decision : Option String}

@[simp] theorem silent_publicationTarget : Silent Publishes (publicationTarget run) := by
  unfold publicationTarget
  refine silent_bind.2 ⟨by simp, fun report _ => silent_bind.2 ⟨by simp, fun binding _ => ?_⟩⟩
  split <;> simp

@[simp] theorem silent_qualityEvidence : Silent Publishes (qualityEvidence config run) := by
  unfold qualityEvidence persistAggregateQualityDecision
  simp only [silent_ite, silent_bind]
  refine ⟨fun _ => ⟨by simp, fun report _ => ⟨by simp, fun _ => ⟨by simp, fun checks _ => ?_⟩⟩⟩, by simp⟩
  split <;> simp

@[simp] theorem silent_branchHash (name : String) : Silent Publishes (branchHash name) := by simp [branchHash]

@[simp] theorem silent_cleanupOwnedWapBranch : Silent Publishes (cleanupOwnedWapBranch config branchName hash) := by
  unfold cleanupOwnedWapBranch
  simp only [silent_ite, silent_bind]
  refine ⟨fun _ => ⟨by simp, fun current _ => ⟨by simp, fun _ => ⟨by simp, fun dropped _ => ?_⟩⟩⟩, by simp⟩
  cases dropped <;> simp

@[simp] theorem silent_finalizeWapPromotion : Silent Publishes (finalizeWapPromotion config run branchName text p) := by
  simp [finalizeWapPromotion, acknowledgePromotion]

@[simp] theorem silent_finishBranchPromotion (merged : Bool) :
    Silent Publishes (finishBranchPromotion config run branchName prior hash hash' merged) := by
  simp [finishBranchPromotion, settleBranch, branchIsGone, reconcilePromotedWapRun]

@[simp] theorem silent_releasesResolved (candidates : List CandidateSnapshot) :
    Silent Publishes (releasesResolved id candidates) := by
  induction candidates with
  | nil => simp [releasesResolved]
  | cons candidate candidates ih => simp [releasesResolved, ih]

@[simp] theorem silent_releaseResolvedForRun : Silent Publishes (releaseResolvedForRun branchName id) := by
  refine silent_bind.2 ⟨by simp, fun candidates _ => ?_⟩
  split <;> simp

@[simp] theorem silent_releaseRevision : Silent Publishes releaseRevision := by simp [releaseRevision]

@[simp] theorem silent_settleCandidates : Silent Publishes (settleCandidates run branchName prior p) := by
  simp [settleCandidates, cleanupOwnedCandidates]

end

/-! ### What a tick is told -/

section

/-- A caution that concerns changes of refs only. -/
def Permits (G : Caution WapOp) : Prop := ∀ told {β : Type} (op : WapOp β), ¬ChangesRefs β op → G told op

variable {G : Caution WapOp} {config : WapConfig}

theorem learns_of_silent {α : Type} {p : Sensor α} (hG : Permits G) (h : Silent ChangesRefs p) :
    Learns G told p fun _ _ => True := h.learns hG

theorem learns_branchHash (hG : Permits G) (name : String) : Learns G told (branchHash name) fun told hash =>
    ∀ t ∈ hash, ⟨.inr (.branchHash name), .ok (some t)⟩ ∈ told := by
  refine (learns_callOrRaise (hG _ _ id)).attempt.bind fun hash told' _ hhash => learns_pure fun t ht => ?_
  cases hash with
  | none => cases ht
  | some hash =>
    rw [← show hash = some t from (Option.filter_eq_some_iff.1 ht).1]
    exact hhash hash rfl

/-- The report of a run as it was read, or none without a path. -/
def WasRead (told : Set (Told WapOp)) (id : String) (prior : Option Report) : Prop :=
  if hasReportPath id then ⟨.inl (.read id), prior⟩ ∈ told else prior = none

theorem WasRead.read {id : String} {prior : Option Report} (h : WasRead told id prior) (hprior : report ∈ prior) :
    ⟨.inl (.read id), some report⟩ ∈ told := by
  cases hprior
  unfold WasRead at h
  split at h
  · exact h
  · cases h

theorem learns_readWapReport (hG : Permits G) (runId : String) :
    Learns G told (readWapReport runId) fun told prior => WasRead told runId prior := by
  unfold readWapReport WasRead
  split
  · exact learns_call (hG _ _ id)
  · exact learns_pure rfl

theorem learns_verifyWapLaunchManifest (hG : Permits G) : Learns G told (verifyWapLaunchManifest config run branchName)
    fun told verified => verified ≠ none → Launched told run branchName := by
  unfold verifyWapLaunchManifest
  split
  · exact learns_pure (absurd rfl)
  next tags htags =>
    refine (learns_of_silent hG (by simp)).bind fun manifest told₁ _ _ => ?_
    cases manifest with
    | none => exact learns_pure (absurd rfl)
    | some manifest =>
      have hbinding : Learns G told₁ (bindingOf (logicalRunId run) manifest) fun told binding => ∀ b ∈ binding,
          ∃ checksum, ⟨.inr (.launchManifest (logicalRunId run) checksum), .ok (some b)⟩ ∈ told := by
        unfold bindingOf readWapLaunchManifest
        split
        next checksum _ =>
          split
          · refine (learns_callOrRaise (hG _ _ id)).mono fun told binding h => ?_
            rintro b rfl
            exact ⟨checksum, h⟩
          · exact learns_pure nofun
        · exact learns_pure nofun
      refine hbinding.bind fun binding told₂ _ hbinding => ?_
      cases binding with
      | none => exact learns_pure (absurd rfl)
      | some binding =>
        refine (learns_of_silent hG (by simp)).bind fun found told₃ hsub _ => ?_
        split
        · split
          next hbound =>
            have ⟨checksum, hchecksum⟩ := hbinding binding rfl
            exact learns_pure fun _ => ⟨checksum, binding, hsub hchecksum, config, tags, _, _, _, htags, hbound⟩
          · exact learns_pure (absurd rfl)
        · exact learns_pure (absurd rfl)

theorem learns_checkWapRunContext (hG : Permits G) : Learns G told (checkWapRunContext config run branchName)
    fun told valid => valid = true → Launched told run branchName ∧ Validated told run := by
  refine (learns_verifyWapLaunchManifest hG).bind fun verified told₁ _ hlaunched => ?_
  cases verified with
  | none => exact learns_pure nofun
  | some verified =>
    refine (learns_of_silent hG (by simp)).bind fun binding told₂ h₂ _ => ?_
    refine (learns_callOrRaise (hG _ _ id)).bind fun error told₃ h₃ hcontext => ?_
    cases error with
    | some text => exact (learns_of_silent hG (by simp)).bind fun _ _ _ _ => learns_pure nofun
    | none =>
      exact learns_pure fun _ => ⟨(hlaunched nofun).mono (h₂.trans h₃), _, hcontext⟩

end

/-! ### What publishes -/

/-- What a part of a tick has been told when it returns; it asks to publish only what is cleared. -/
abbrev Hears {α : Type} (told : Set (Told WapOp)) (p : Sensor α) (Q : Set (Told WapOp) → α → Prop) : Prop :=
  Learns ClearedToPublish told p Q

abbrev Gated {α : Type} (told : Set (Told WapOp)) (p : Sensor α) : Prop := Hears told p fun _ _ => True

variable {α : Type} {config : WapConfig} {target : String} {prior : Option Report} {decision message : Option String}

theorem cleared_of_not_publishes (told : Set (Told WapOp)) {β : Type} (op : WapOp β) (h : ¬Publishes β op) :
    ClearedToPublish told op := by
  unfold ClearedToPublish
  split
  · exact absurd trivial h
  · exact absurd trivial h
  · exact absurd trivial h
  · trivial

theorem permits_clearedToPublish : Permits ClearedToPublish := fun told _ op h =>
  cleared_of_not_publishes told op fun hop => h (onRefs_publishes _ op hop)

theorem gated_of_silent {p : Sensor α} (h : Silent Publishes p) : Gated told p := h.learns cleared_of_not_publishes

theorem hears_releaseRevision : Hears told releaseRevision fun told revision =>
    0 ≤ revision → ⟨.inr .releaseRevision, .ok revision⟩ ∈ told := by
  refine (learns_callOrRaise trivial).attempt.bind fun revision told' _ hrevision => learns_pure fun hpos => ?_
  cases revision with
  | none => exact absurd hpos (by decide)
  | some revision => exact hrevision revision rfl

theorem hears_allChecksPassed : Hears told (allChecksPassed run.runId) fun told passed =>
    passed = true → ChecksPassed told run := by
  refine (learns_callOrRaise trivial).attempt.bind fun records told' _ hrecords => ?_
  cases records with
  | none => exact learns_pure nofun
  | some records => exact learns_pure fun hpassed => ⟨records, hrecords records rfl, by simpa using hpassed⟩

theorem hears_qualityEvidence : Hears told (qualityEvidence config run) fun told decision =>
    decision ≠ none → Decided told run := by
  unfold qualityEvidence
  split
  · refine (learns_call trivial).bind fun report told₁ _ _ => ?_
    split
    · exact learns_pure (absurd rfl)
    · refine (learns_callOrRaise trivial).attempt.bind fun checks told₂ _ _ => ?_
      split
      next checks projectId attempt _ _ _ =>
        unfold persistAggregateQualityDecision
        split
        · exact learns_pure (absurd rfl)
        · refine (learns_callOrRaise trivial).attempt.bind fun results told₃ _ hresults => ?_
          refine learns_pure fun hdecided => ?_
          have ⟨result, hresult⟩ := Option.ne_none_iff_exists'.1 (mt Option.map_eq_none_iff.2 hdecided)
          have hprops := List.find?_some hresult
          simp only [Bool.and_eq_true, decide_eq_true_eq] at hprops
          cases results with
          | none => cases hresult
          | some results =>
            exact ⟨projectId, attempt, _, checks, results, hresults results rfl, result,
              List.mem_of_find?_eq_some hresult, hprops.1.1, hprops.1.2⟩
      · exact learns_pure (absurd rfl)
  · exact nofun

theorem gated_write {id : String} {status : Option WapStatus} {fields : Fields} {f : Bool → Sensor α}
    (hfalse : Silent Publishes (f false)) (htrue : ∀ prior now told', told ⊆ told' →
      ⟨.inl (.replace id (updatedReport prior id status fields now)), true⟩ ∈ told' → Gated told' (f true)) :
    Gated told (writeWapReport id status fields >>= f) := by
  have hwrite : Hears told (writeWapReport id status fields) fun told written => written = true → ∃ prior now,
      ⟨.inl (.replace id (updatedReport prior id status fields now)), true⟩ ∈ told := by
    unfold writeWapReport
    split
    · refine (learns_call trivial).bind fun prior _ _ _ => (learns_callOrRaise trivial).bind fun now _ _ _ => ?_
      refine (learns_call trivial).mono fun told written h => ?_
      rintro rfl
      exact ⟨prior, now, h⟩
    · exact learns_pure nofun
  refine hwrite.bind fun written told' hsub hwritten => ?_
  cases written with
  | false => exact gated_of_silent hfalse
  | true =>
    have ⟨prior, now, h⟩ := hwritten rfl
    exact htrue prior now told' hsub h

theorem mergeState_updatedReport (prior : Option Report) (id state : String) {status : WapStatus} {fields : Fields}
    (now : ℤ) (hstatus : status ≠ .promoted) (hfields : ∀ field ∈ fields, field.1 ≠ "merge_state") :
    (updatedReport prior id status (("merge_state", .str state) :: fields) now).text? "merge_state" = some state := by
  have hnone : OrderedDict.lastOf "merge_state" fields = none :=
    OrderedDict.lastOf_eq_none_iff.2 fun value hvalue => hfields _ hvalue rfl
  have hget : (updatedReport prior id status (("merge_state", .str state) :: fields) now).get "merge_state" =
      (applyUpdates (prior.getD .empty) status (("merge_state", .str state) :: fields)).get "merge_state" := by
    rw [updatedReport, OrderedDict.get_setAll]
    simp [OrderedDict.lastOf]
  rw [Report.text?, hget, applyUpdates]
  simp [OrderedDict.lastOf_cons, hstatus, OrderedDict.get_set, OrderedDict.get_setAll, hnone]

theorem gated_mergeWithIntent {s t : String} {before : Set (Told WapOp)}
    (hcleared : Cleared before run branchName report) (hbefore : before ⊆ told)
    (ht : ⟨.inr (.branchHash target), .ok (some t)⟩ ∈ told)
    (hs : ⟨.inr (.branchHash branchName), .ok (some s)⟩ ∈ told)
    (hlaunch : report.text? "launch_target_hash_before" = some t)
    (hbound : requiresBoundChecks (some report) = true → ∃ checks,
      ⟨.inr (.checkRecords run.runId), .ok checks⟩ ∈ told ∧ unboundChecks branchName (some s) checks = none) :
    Gated told (mergeWithIntent config run branchName target prior message (some s) (some t)) := by
  refine gated_write (silent_pure _) fun prior' now told' hsub hintent => ?_
  have hintended : Intended told' run branchName report := ⟨⟨before, hbefore.trans hsub, hcleared⟩, _, hintent,
    mergeState_updatedReport prior' _ _ now (by decide) (by simp)⟩
  refine (learns_callOrRaise ⟨run, report, hintended, hsub ht, hsub hs, hlaunch, fun hrequired =>
    (hbound hrequired).imp fun checks h => ⟨hsub h.1, h.2⟩⟩).bind fun answer told'' _ _ => gated_of_silent ?_
  rcases answer with (_ | _) | text <;> simp [recordMergeFailure]

theorem gated_mergeFreshBranch {sourceHash targetHashBefore : Option String}
    (hclear : ∀ report ∈ prior, ∃ before ⊆ told, Cleared before run branchName report)
    (hsource : ∀ s ∈ sourceHash, ⟨.inr (.branchHash branchName), .ok (some s)⟩ ∈ told)
    (htarget : ∀ t ∈ targetHashBefore, ⟨.inr (.branchHash target), .ok (some t)⟩ ∈ told) :
    Gated told (mergeFreshBranch config run branchName target prior message sourceHash targetHashBefore) := by
  unfold mergeFreshBranch
  dsimp only
  split
  · exact gated_of_silent (by simp)
  next hhashes =>
    split
    · exact gated_of_silent (by simp [blockRun])
    next hdrift =>
      -- both hashes are there, and the target stands where the launch found it
      have ⟨s, hs⟩ := Option.ne_none_iff_exists'.1 fun h => hhashes (.inl h)
      have ⟨t, ht⟩ := Option.ne_none_iff_exists'.1 fun h => hhashes (.inr h)
      have hlaunch : nonEmpty (prior.bind fun report => report.text? "launch_target_hash_before") = some t := by
        rw [← ht]
        exact (not_not.1 fun h => hdrift (.inr h)).symm
      have ⟨report, hreport, htext⟩ := Option.bind_eq_some_iff.1 (Option.filter_eq_some_iff.1 hlaunch).1
      have ⟨before, hbefore, hcleared⟩ := hclear report hreport
      rw [hs, ht, hreport]
      unfold boundCheckFailure
      split
      · refine Learns.bind (R := fun told failure => failure = none → ∃ checks,
          ⟨.inr (.checkRecords run.runId), .ok checks⟩ ∈ told ∧ unboundChecks branchName (some s) checks = none)
          ((learns_callOrRaise trivial).attempt.bind fun checks told' _ hchecks => learns_pure fun hnone => ?_)
          fun failure told' hsub hfailure => ?_
        · cases checks with
          | none => cases hnone
          | some checks => exact ⟨checks, hchecks checks rfl, hnone⟩
        · cases failure with
          | some reason => exact gated_of_silent (by simp [blockRun])
          | none =>
            exact gated_mergeWithIntent hcleared (hbefore.trans hsub) (hsub (htarget t ht)) (hsub (hsource s hs)) htext
              fun _ => hfailure rfl
      next hfree =>
        exact gated_mergeWithIntent hcleared hbefore (htarget t ht) (hsource s hs) htext fun h => absurd h hfree

theorem gated_promoteBranch (hclear : inMergeState prior "merged" = false →
      ∀ report ∈ prior, ∃ before ⊆ told, Cleared before run branchName report) :
    Gated told (promoteBranch config run branchName prior message) := by
  refine (gated_of_silent (by simp)).bind fun target told₁ h₁ _ => ?_
  refine (learns_branchHash permits_clearedToPublish _).bind fun sourceHash told₂ h₂ hsource => ?_
  refine (learns_branchHash permits_clearedToPublish _).bind fun targetHashBefore told₃ h₃ htarget => ?_
  split
  · exact gated_of_silent (by simp)
  next hfresh =>
    split
    · exact gated_of_silent (by simp)
    · refine gated_mergeFreshBranch (fun report hreport => ?_) (fun s hs => h₃ (hsource s hs)) htarget
      have ⟨before, hbefore, hcleared⟩ := hclear (Bool.eq_false_iff.2 hfresh) report hreport
      exact ⟨before, hbefore.trans (h₁.trans (h₂.trans h₃)), hcleared⟩

theorem gated_releaseCandidates {revision : ℤ} {candidates : List CandidateSnapshot}
    (hclear : ∀ report ∈ prior, ∃ before ⊆ told, Cleared before run branchName report)
    (hrevision : 0 ≤ revision → ⟨.inr .releaseRevision, .ok revision⟩ ∈ told) :
    Gated told (releaseCandidates config run branchName prior revision candidates decision) := by
  unfold releaseCandidates
  dsimp only
  split
  · exact gated_of_silent (by simp)
  next hlaunch =>
    rw [not_or, not_lt, not_not] at hlaunch
    cases prior with
    | none => exact absurd hlaunch.1 (by decide)
    | some report =>
      have ⟨before, hbefore, hcleared⟩ := hclear report rfl
      refine gated_write (silent_pure _) fun prior' now told' hsub hintent => ?_
      have hintended : Intended told' run branchName report := ⟨⟨before, hbefore.trans hsub, hcleared⟩, _, hintent,
        mergeState_updatedReport prior' _ _ now (by decide) (by simp)⟩
      have hheard := hsub (hrevision (hlaunch.2 ▸ hlaunch.1))
      rw [← hlaunch.2] at hheard
      refine (learns_callOrRaise ⟨run, report, hintended, rfl, hheard, hlaunch.1, rfl⟩).attempt.bind
        fun answer told'' _ _ => gated_of_silent ?_
      rcases answer with _ | (_ | _) | text <;> simp

theorem gated_advancePromotion {strategy : String} (hclear : inMergeState prior "merged" = false →
      ∀ report ∈ prior, ∃ before ⊆ told, Cleared before run branchName report) :
    Gated told (advancePromotion config run branchName strategy prior decision message) := by
  unfold advancePromotion
  split
  · have hadvance : Gated told (advanceSnapshotPromotion config run branchName prior decision) := by
      refine hears_releaseRevision.bind fun revision told₁ h₁ hrevision => ?_
      refine (gated_of_silent (by simp)).bind fun listed told₂ h₂ _ => ?_
      refine (gated_of_silent (by simp)).bind fun resolved told₃ h₃ _ => ?_
      split
      · exact gated_of_silent (by simp)
      next hfresh =>
        split
        · exact gated_of_silent (by simp [recordReleaseConflict])
        · refine gated_releaseCandidates (fun report hreport => ?_) fun hpos => h₃ (h₂ (hrevision hpos))
          obtain ⟨before, hbefore, hcleared⟩ := hclear (Bool.eq_false_iff.2 fun h => hfresh (.inl h)) report hreport
          exact ⟨before, hbefore.trans (h₁.trans (h₂.trans h₃)), hcleared⟩
    exact hadvance.bind fun advance _ _ _ => gated_of_silent (by cases advance <;> simp)
  · exact gated_promoteBranch hclear

theorem gated_promoteValidatedRun {strategy : String} (hclear : ∀ report told', told ⊆ told' →
      ⟨.inl (.read (logicalRunId run)), some report⟩ ∈ told' →
      (∃ governance, ⟨.inr .operationalSettings, .ok (some governance)⟩ ∈ told' ∧
        governance.secondGoldReviewer = false) →
      Cleared told' run branchName report) :
    Gated told (promoteValidatedRun config run branchName strategy decision) := by
  refine (learns_readWapReport permits_clearedToPublish _).bind fun prior told₁ h₁ hread => ?_
  split
  next hmerged => exact gated_advancePromotion fun h => absurd (hmerged.symm.trans h) (by decide)
  · refine (learns_callOrRaise trivial).bind fun governance told₂ h₂ hgovernance => ?_
    cases governance with
    | none => exact gated_of_silent (by simp [blockRun])
    | some governance =>
      dsimp only
      split
      · exact gated_of_silent (by simp [blockRun])
      next hautomatic =>
        exact gated_advancePromotion fun _ report hreport => ⟨told₂, le_refl _, hclear report told₂ (h₁.trans h₂)
          (h₂ (hread.read hreport)) ⟨governance, hgovernance, Bool.eq_false_iff.2 hautomatic⟩⟩

theorem gated_promoteSucceededRun {strategy : String} (hlisted : ∃ runs, ⟨.inr .runs, .ok runs⟩ ∈ told ∧ run ∈ runs)
    (hstatus : run.status = .success) (howned : isOwnedWapBranch branchName = true)
    (hlaunched : Launched told run branchName) (hvalidated : Validated told run) :
    Gated told (promoteSucceededRun config run branchName target strategy) := by
  refine hears_allChecksPassed.bind fun passed told₁ h₁ hpassed => ?_
  refine hears_qualityEvidence.bind fun decision told₂ h₂ hdecided => ?_
  cases decision with
  | none => exact gated_of_silent (by simp [rejectQuality, currentHashes])
  | some decision =>
    dsimp only
    split
    next hyes =>
      refine gated_promoteValidatedRun fun report told' h₃ hread hautomatic => ?_
      have hall := h₁.trans (h₂.trans h₃)
      obtain ⟨runs, hruns, hmem⟩ := hlisted
      obtain ⟨records, hrecords, hclean⟩ := hpassed hyes
      obtain ⟨projectId, attempt, verdict, checks, results, hresults, hdecision⟩ := hdecided (Option.some_ne_none _)
      exact ⟨⟨runs, hall hruns, hmem⟩, hstatus, howned, hlaunched.mono hall, hvalidated.mono hall,
        ⟨records, h₃ (h₂ hrecords), hclean⟩,
        ⟨projectId, attempt, verdict, checks, results, h₃ hresults, hdecision⟩, hread, hautomatic⟩
    · exact gated_of_silent (by simp [rejectQuality, currentHashes])

theorem gated_promoteVerifiedRun {manifest : String × Report}
    (hlisted : ∃ runs, ⟨.inr .runs, .ok runs⟩ ∈ told ∧ run ∈ runs)
    (hended : run.status = .success ∨ run.status = .failure ∨ run.status = .canceled)
    (howned : isOwnedWapBranch branchName = true) : Gated told (promoteVerifiedRun config run branchName manifest) := by
  refine (learns_checkWapRunContext permits_clearedToPublish).bind fun valid told₁ h₁ hvalid => ?_
  cases valid with
  | false => exact gated_of_silent (silent_pure _)
  | true =>
    refine (gated_of_silent (by simp)).bind (x := publicationTarget run) fun target told₂ h₂ _ => ?_
    dsimp only
    split
    · exact gated_of_silent (by simp)
    · split
      · exact gated_of_silent (by simp)
      · exact gated_of_silent (by simp)
      next hfailure hcanceled =>
        have hstatus := hended.resolve_right fun h => h.elim hfailure hcanceled
        have ⟨runs, hruns, hmem⟩ := hlisted
        have ⟨hlaunched, hvalidated⟩ := hvalid rfl
        exact gated_promoteSucceededRun ⟨runs, h₂ (h₁ hruns), hmem⟩ hstatus howned (hlaunched.mono h₂)
          (hvalidated.mono h₂)

theorem gated_wapAutoPromotionSensor (config : WapConfig) (cursor : Option ℤ) :
    Gated ∅ (wapAutoPromotionSensor config cursor) := by
  refine (learns_callOrRaise trivial).bind fun now told₁ _ _ => ?_
  refine (learns_callOrRaise trivial).bind fun runs told₂ _ hruns => ?_
  refine (Learns.each fun run hrun told₃ h₃ => ?_).bind fun _ _ _ _ => learns_pure trivial
  refine (Learns.attempt (R := fun _ _ => True) ?_).bind fun _ _ _ _ => learns_pure trivial
  have ⟨hlisted, hterminal⟩ := List.mem_filter.1 hrun
  have hended : run.status = .success ∨ run.status = .failure ∨ run.status = .canceled := by
    simpa [isTerminalAfter, or_assoc] using (Bool.and_eq_true_iff.1 hterminal).1
  unfold promoteTerminalRun
  split
  · exact learns_pure trivial
  next branchName _ =>
    split
    · exact learns_pure trivial
    next howned =>
      split
      · exact learns_pure trivial
      · refine (learns_call trivial).bind fun _ told₄ h₄ _ => ?_
        refine (learns_verifyWapLaunchManifest permits_clearedToPublish).bind fun manifest told₅ h₅ _ => ?_
        cases manifest with
        | none => exact gated_of_silent (by simp [blockRun])
        | some manifest =>
          exact gated_promoteVerifiedRun ⟨runs, h₅ (h₄ (h₃ hruns)), hlisted⟩ hended (Bool.not_eq_false _ ▸ howned)

def IsPromotionTick (p : Program WapOp (Except Raised ℤ)) : Prop :=
  ∃ config cursor, p = (wapAutoPromotionSensor config cursor).run

/-- **The publication gate.**  Whatever happens around any number of promotion ticks, and whatever they are told, each
merge and each release that one of them asks for is cleared. -/
theorem published_when_cleared {E ι : Type} [DecidableEq ι] {surroundings : Surroundings E}
    {Drift : WapWorld E → WapWorld E → Prop} {w₀ : WapWorld E} {n : Network ι WapOp (WapWorld E) (Except Raised ℤ)}
    (h : Network.Reachable (wapSemantics surroundings) IsPromotionTick Drift w₀ n) :
    ∀ e ∈ n.trace, ClearedToPublish (toldBy (wapSemantics surroundings) e.past) e.moment.op := by
  refine told_of_reachable (fun p hp => ?_) h
  have ⟨config, cursor, hp⟩ := hp
  rw [hp]
  exact Cautious.mono (gated_wapAutoPromotionSensor config cursor) fun _ _ _ => trivial

def isRelease {β : Type} : WapOp β → Bool
  | .inr (.promoteCandidates ..) => true
  | _ => false

/-- A tick that releases the candidates of a run. -/
def lakehouseTick : Network Unit WapOp (WapWorld Lakehouse) (Except Raised ℤ) :=
  (List.replicate 40 ()).foldl (Network.tick (wapSemantics lakehouse))
    ((Network.idle launchedWorld).call () (wapAutoPromotionSensor snapshotConfig none).run)

set_option maxRecDepth 10000 in
theorem published_when_cleared_lakehouse : lakehouseTick.trace.any (fun e => isRelease e.moment.op) = true ∧
      ∀ e ∈ lakehouseTick.trace, ClearedToPublish (toldBy (wapSemantics lakehouse) e.past) e.moment.op :=
  ⟨by decide +kernel, published_when_cleared (show Network.Reachable _ IsPromotionTick (fun _ _ => True) _ _
    from (Network.Reachable.init.call () ⟨_, _, rfl⟩).schedule _)⟩

end Phlo.Wap
