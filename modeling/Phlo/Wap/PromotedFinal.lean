import Phlo.Wap.CleanupSensors

/-!
# Promoted is final

Ticks of the sensors come one after the other, each of them may break off anywhere, and everything around them
may answer what it likes.  When does a report that says `promoted` say so from then on?

* `untouched_of_reachable` — until that happens, no report that says `promoted` is replaced.
-/

namespace Phlo.Wap

open Phlo.Library
open Phlo.Library.Raising

/-- The report of a run says `promoted`. -/
def isPromoted (reports : OrderedDict String Report) (id : String) : Bool :=
  (reports.get id).any fun report => report.text? "status" = some WapStatus.promoted.text

variable {E : Type}

/-- A sensor turns to a run whose report says `promoted`. -/
def Turning (id : String) : Moment WapOp (WapWorld E) → Prop
  | ⟨.inl (.turn turned), w⟩ => turned = id ∧ isPromoted w.reports id = true
  | _ => False

/-- A report that says `promoted` is replaced. -/
def Overwriting (id : String) : Moment WapOp (WapWorld E) → Prop
  | ⟨.inl (.replace replaced _), w⟩ => replaced = id ∧ isPromoted w.reports id = true
  | _ => False

/-- A program replaces a report that says `promoted` only if it has turned to its run when it did. -/
def Untouched (past : List (Moment WapOp (WapWorld E))) (m : Moment WapOp (WapWorld E)) : Prop :=
  ∀ id, Overwriting id m → ∃ t ∈ past, Turning id t

/-- What is around the sensors does not touch the reports. -/
def SameReports (w w' : WapWorld E) : Prop := w'.reports = w.reports

theorem SameReports.refl (w : WapWorld E) : SameReports w w := rfl

/-! ### Steps that write no report -/

abbrev WapAssertion (E : Type) := Assertion WapOp (SameReports : WapWorld E → WapWorld E → Prop)

/-- What is said of the reports, or is said of the past for good. -/
def Framed (I : WapAssertion E) : Prop :=
  ∀ past m w w', I.holds past w → w'.reports = w.reports → I.holds (m :: past) w'

/-- The report of a run does not say `promoted`, unless the program has turned to one that did. -/
def opened (id : String) : WapAssertion E where
  holds past w := (∃ t ∈ past, Turning id t) ∨ isPromoted w.reports id = false
  stable past w w' h hsame := by
    rw [hsame]
    exact h

theorem framed_opened (id : String) : Framed (opened id : WapAssertion E) := by
  intro past m w w' h hsame
  rcases h with ⟨t, ht, hturning⟩ | hopen
  · exact .inl ⟨t, List.mem_cons_of_mem m ht, hturning⟩
  · exact .inr (by rw [hsame]; exact hopen)

theorem framed_top : Framed (Assertion.top : WapAssertion E) := fun _ _ _ _ _ _ => trivial

variable {surroundings : Surroundings E} {I : WapAssertion E}

/-- A procedure keeps an assertion, and touches no report that says `promoted`. -/
abbrev Spares {α : Type} (surroundings : Surroundings E) (I : WapAssertion E) (p : Sensor α) : Prop :=
  Keeping (wapSemantics surroundings) Untouched I p

variable {β α : Type}

theorem keeps_outside (hI : Framed I) (op : OutsideOp (Except Raised β)) : Spares surroundings I (outside op) := by
  refine Ends.callOrRaise fun past w hw => ⟨fun _ h => h.elim, ?_⟩
  have hafter : I.holds (⟨.inr op, w⟩ :: past) ((wapSemantics surroundings).exec (.inr op) w).1 :=
    hI past _ w _ hw rfl
  cases hanswer : ((wapSemantics surroundings).exec (.inr op) w).2 with
  | ok a => exact hafter
  | error e => exact hafter

theorem keeps_attempted (hI : Framed I) (op : OutsideOp (Except Raised β)) : Spares surroundings I (attempted op) :=
  Keeping.attempt SameReports.refl (keeps_outside hI op)

theorem keeps_read (hI : Framed I) (id : String) : Spares surroundings I (onReports (.read id)) :=
  Ends.call fun past w hw => ⟨fun _ h => h.elim, hI past _ w _ hw rfl⟩

theorem keeps_readWapReport (hI : Framed I) (id : String) : Spares surroundings I (readWapReport id) := by
  unfold readWapReport
  split
  · exact keeps_read hI id
  · exact Keeping.pure none

/-! ### Writes -/

/-- What was read of the report does not say `promoted`. -/
def saysPromoted (prior : Option Report) : Bool :=
  prior.any fun report => report.text? "status" = some WapStatus.promoted.text

theorem text_ne_promoted {status : WapStatus} (h : status ≠ .promoted) : status.text ≠ WapStatus.promoted.text := by
  cases status <;> first | exact absurd rfl h | decide

/-- An update that does not promote leaves a report that does not say `promoted`. -/
theorem updatedReport_unpromoted {prior : Option Report} {status : Option WapStatus} {fields : Fields}
    (hstatus : status ≠ some .promoted) (hfields : status = none → ∀ field ∈ fields, field.1 ≠ "status")
    (hprior : saysPromoted prior = false) (id : String) (now : ℤ) :
    (updatedReport prior id status fields now).text? "status" ≠ some WapStatus.promoted.text := by
  rw [Report.text?, get_status_updatedReport]
  cases status with
  | some status =>
    rw [get_status_applyUpdates_some]
    exact fun heq => text_ne_promoted (fun heq => hstatus (congrArg some heq)) (Option.some.inj heq)
  | none =>
    rw [get_status_applyUpdates_none _ (hfields rfl)]
    cases prior with
    | none => exact nofun
    | some report => exact of_decide_eq_false hprior

/-- The report does not say `promoted`, and neither does what was read of it. -/
def readOpen (id : String) (prior : Option Report) : WapAssertion E where
  holds past w := (∃ t ∈ past, Turning id t) ∨ isPromoted w.reports id = false ∧ saysPromoted prior = false
  stable past w w' h hsame := by
    rw [hsame]
    exact h

theorem framed_readOpen (id : String) (prior : Option Report) : Framed (readOpen id prior : WapAssertion E) := by
  intro past m w w' h hsame
  rcases h with ⟨t, ht, hturning⟩ | hopen
  · exact .inl ⟨t, List.mem_cons_of_mem m ht, hturning⟩
  · exact .inr (by rw [hsame]; exact hopen)

theorem ends_read (id : String) : Ends (wapSemantics surroundings) Untouched (opened id) (onReports (.read id))
    (fun prior => readOpen id prior) (opened id) := by
  refine Ends.call fun past w hw => ⟨fun _ h => h.elim, ?_⟩
  rcases hw with ⟨t, ht, hturning⟩ | hopen
  · exact .inl ⟨t, List.mem_cons_of_mem _ ht, hturning⟩
  · refine .inr ⟨hopen, ?_⟩
    show saysPromoted (if surroundings.readable id w.env then w.reports.get id else none) = false
    split
    · exact hopen
    · rfl

theorem isPromoted_replace {id : String} {report : Report} {w : WapWorld E}
    (hreport : report.text? "status" ≠ some WapStatus.promoted.text) (hopen : isPromoted w.reports id = false) :
    isPromoted (execReport surroundings (.replace id report) w).1.reports id = false := by
  have hset : isPromoted (w.reports.set id report) id = false := by
    rw [isPromoted, OrderedDict.get_set, if_pos rfl]
    exact decide_eq_false hreport
  rw [execReport]
  cases surroundings.fate id w.env with
  | refused => exact hopen
  | written => exact hset
  | unconfirmed => exact hset

/-- The replacement of a report that does not say `promoted`, or whose run has been turned to. -/
theorem untouched_replace {id : String} {w : WapWorld E} {past : List (Moment WapOp (WapWorld E))}
    (h : (opened id : WapAssertion E).holds past w) (report : Report) :
    Untouched past (⟨.inl (.replace id report), w⟩ : Moment WapOp (WapWorld E)) := by
  intro turned hover
  have hid : id = turned := hover.1
  have hpromoted : isPromoted w.reports turned = true := hover.2
  subst hid
  rcases h with hturning | hopen
  · exact hturning
  · rw [hpromoted] at hopen
    cases hopen

theorem ends_replace {id : String} {prior : Option Report} {report : Report}
    (h : saysPromoted prior = false → report.text? "status" ≠ some WapStatus.promoted.text) :
    Ends (wapSemantics surroundings) Untouched (readOpen id prior) (onReports (.replace id report))
      (fun _ => opened id) (opened id) := by
  refine Ends.call fun past w hw => ⟨untouched_replace (hw.imp_right And.left) report, ?_⟩
  rcases hw with ⟨t, ht, hturning⟩ | ⟨hopen, hprior⟩
  · exact .inl ⟨t, List.mem_cons_of_mem _ ht, hturning⟩
  · exact .inr (isPromoted_replace (h hprior) hopen)

theorem keeps_writeWapReport (id : String) {status : Option WapStatus} (fields : Fields)
    (hstatus : status ≠ some .promoted) (hfields : status = none → ∀ field ∈ fields, field.1 ≠ "status") :
    Spares surroundings (opened id) (writeWapReport id status fields) := by
  unfold writeWapReport
  split
  · refine Ends.bind SameReports.refl (ends_read id) fun prior => ?_
    refine Ends.bind SameReports.refl ((keeps_outside (framed_readOpen id prior) .now).mono
      (fun _ _ h => h) (fun _ _ _ h => h) fun past w h => h.imp_right And.left) fun now => ?_
    exact ends_replace fun hprior => updatedReport_unpromoted hstatus hfields hprior id now
  · exact Keeping.pure false

/-- An update with a status other than `promoted`. -/
theorem keeps_status (id : String) {status : WapStatus} (fields : Fields) (h : status ≠ .promoted) :
    Spares surroundings (opened id) (writeWapReport id (some status) fields) :=
  keeps_writeWapReport id fields (fun heq => h (Option.some.inj heq)) nofun

/-- The promotion itself: nothing is said of the report from then on. -/
theorem ends_promotion (id : String) (fields : Fields) : Ends (wapSemantics surroundings) Untouched (opened id)
    (writeWapReport id (some .promoted) fields) (fun _ => Assertion.top) Assertion.top := by
  unfold writeWapReport
  split
  · refine Ends.bind SameReports.refl ((keeps_read (framed_opened id) id).mono (fun _ _ h => h) (fun _ _ _ h => h)
      fun _ _ _ => trivial) fun prior => ?_
    refine Ends.bind SameReports.refl ((keeps_outside (framed_opened id) .now).mono (fun _ _ h => h)
      (fun _ _ _ h => h) fun _ _ _ => trivial) fun now => ?_
    exact Ends.call fun past w hw => ⟨untouched_replace hw _, trivial⟩
  · exact Ends.pure false fun _ _ _ => trivial

/-! ### What the sensors ask of a run -/

variable {id : String} {config : WapConfig} {run : Run}

theorem spares_bind {x : Sensor α} {f : α → Sensor β} (hx : Spares surroundings I x)
    (hf : ∀ a, Spares surroundings I (f a)) : Spares surroundings I (x >>= f) :=
  Keeping.bind SameReports.refl hx hf

theorem spares_pure (a : α) : Spares surroundings I (pure a : Sensor α) := Keeping.pure a

theorem spares_recordUncorrelatedGap (id branch : String) (missing : List String) (reason : String) :
    Spares surroundings (opened id) (recordUncorrelatedGap id branch missing reason) :=
  spares_bind (keeps_status id _ nofun) fun _ => spares_pure ()

theorem spares_onlyIf {c : Prop} [Decidable c] {p : Sensor α} (h : Spares surroundings I p) (otherwise : α) :
    Spares surroundings I (onlyIf c p otherwise) := by
  unfold onlyIf
  split
  · exact h
  · exact spares_pure otherwise

def Identified (config : WapConfig) (run : Run) : Prop :=
  (nonEmpty (projectIdForRun config run)).isSome ∧ (attemptForRun run).isSome

theorem spares_emitWapObservation (config : WapConfig) {observation : Observation}
    (h : logicalRunId observation.run = id) :
    Spares surroundings (opened id) (emitWapObservation config observation) := by
  rw [← h]
  unfold emitWapObservation
  dsimp only
  split
  · exact spares_pure ()
  · split
    · exact keeps_outside (framed_opened _) _
    · exact spares_recordUncorrelatedGap _ _ _ _

/-- The evidence of a run that names its project and its attempt goes to the evidence store. -/
theorem spares_emitWapObservation_of_identified (hI : Framed I) {observation : Observation}
    (h : Identified config observation.run) : Spares surroundings I (emitWapObservation config observation) := by
  have ⟨hproject, hattempt⟩ := h
  unfold emitWapObservation
  dsimp only
  split
  · exact spares_pure ()
  · split
    · exact keeps_outside hI _
    next hnone =>
      have ⟨project, hproject⟩ := Option.isSome_iff_exists.1 hproject
      have ⟨attempt, hattempt⟩ := Option.isSome_iff_exists.1 hattempt
      exact absurd hattempt (hnone project attempt hproject)

theorem spares_readWapLaunchManifest (hI : Framed I) (id checksum : String) :
    Spares surroundings I (readWapLaunchManifest id checksum) := by
  unfold readWapLaunchManifest
  split
  · exact keeps_outside hI _
  · exact spares_pure none

theorem spares_bindingOf (hI : Framed I) (id : String) (manifest : Report) :
    Spares surroundings I (bindingOf id manifest) := by
  unfold bindingOf
  split
  · exact spares_readWapLaunchManifest hI id _
  · exact spares_pure none

theorem spares_launchHashes (id : String) (manifest binding : Report) :
    Spares surroundings (opened id) (launchHashes id manifest binding) := by
  unfold launchHashes
  split
  · refine spares_bind (keeps_writeWapReport id _ nofun fun _ field hfield => ?_) fun written => ?_
    · rcases List.mem_cons.1 hfield with hfield | hfield
      · rw [hfield]
        show "launch_source_hash" ≠ "status"
        decide
      · rw [List.mem_singleton.1 hfield]
        show "launch_target_hash_before" ≠ "status"
        decide
    · split
      · exact spares_bind (keeps_readWapReport (framed_opened id) id) fun _ => spares_pure _
      · exact spares_pure none
  · exact spares_pure _
  · exact spares_pure none

theorem identified_of_expectedTags {branchName : String} {tags : List (String × String)}
    (h : expectedTags config run branchName = some tags) : Identified config run := by
  unfold expectedTags at h
  split at h
  next hproject hattempt => exact ⟨by rw [hproject]; rfl, by rw [hattempt]; rfl⟩
  · cases h

def NamesRun (config : WapConfig) (run : Run) (verified : Option (String × Report)) : Prop :=
  ∀ v, verified = some v → v.1 = logicalRunId run ∧ Identified config run

theorem ends_verifyBinding (h : Identified config run) (branchName : String) (tags : List (String × String))
    (manifest binding : Report) : Ends (wapSemantics surroundings) Untouched (opened (logicalRunId run))
      (verifyBinding run branchName tags manifest binding)
      (fun verified => (opened (logicalRunId run)).withFact (NamesRun config run verified))
      (opened (logicalRunId run)) := by
  unfold verifyBinding
  refine Ends.bind SameReports.refl (spares_launchHashes _ manifest binding) fun found => ?_
  split
  · split
    · exact Ends.pure _ fun _ _ hopen => ⟨hopen, fun v hv => ⟨by rw [← Option.some.inj hv], h⟩⟩
    · exact Ends.pure _ fun _ _ hopen => ⟨hopen, nofun⟩
  · exact Ends.pure _ fun _ _ hopen => ⟨hopen, nofun⟩

theorem ends_verifyWapLaunchManifest (config : WapConfig) (run : Run) (branchName : String) :
    Ends (wapSemantics surroundings) Untouched (opened (logicalRunId run))
      (verifyWapLaunchManifest config run branchName)
      (fun verified => (opened (logicalRunId run)).withFact (NamesRun config run verified))
      (opened (logicalRunId run)) := by
  unfold verifyWapLaunchManifest
  split
  · exact Ends.pure _ fun _ _ h => ⟨h, nofun⟩
  next tags htags =>
    refine Ends.bind SameReports.refl (keeps_readWapReport (framed_opened _) _) fun manifest => ?_
    split
    · exact Ends.pure _ fun _ _ h => ⟨h, nofun⟩
    · refine Ends.bind SameReports.refl (spares_bindingOf (framed_opened _) _ _) fun binding => ?_
      split
      · exact Ends.pure _ fun _ _ h => ⟨h, nofun⟩
      · exact ends_verifyBinding (identified_of_expectedTags htags) branchName _ _ _

theorem spares_validateContext (run : Run) (verified : String × Report) :
    Spares surroundings (opened verified.1) (validateContext run verified) := by
  unfold validateContext
  refine spares_bind (spares_bindingOf (framed_opened _) _ _) fun binding => ?_
  refine spares_bind (keeps_outside (framed_opened _) _) fun error => ?_
  split
  · exact spares_bind (keeps_status _ _ nofun) fun _ => spares_pure false
  · exact spares_pure true

theorem spares_checkWapRunContext (config : WapConfig) (run : Run) (branchName : String) :
    Spares surroundings (opened (logicalRunId run)) (checkWapRunContext config run branchName) := by
  unfold checkWapRunContext
  refine Ends.bind SameReports.refl (ends_verifyWapLaunchManifest config run branchName) fun verified =>
    Ends.withFact fun hnames => ?_
  split
  · exact spares_pure false
  next v =>
    rw [← (hnames v rfl).1]
    exact spares_validateContext run v

theorem spares_publicationTarget (hI : Framed I) (run : Run) : Spares surroundings I (publicationTarget run) := by
  unfold publicationTarget
  refine spares_bind (keeps_readWapReport hI _) fun report => ?_
  refine spares_bind (spares_bindingOf hI _ _) fun binding => ?_
  split
  · exact spares_pure _
  · exact Keeping.throw _

theorem spares_allChecksPassed (hI : Framed I) (runId : String) : Spares surroundings I (allChecksPassed runId) := by
  unfold allChecksPassed
  refine spares_bind (keeps_attempted hI _) fun records => ?_
  split <;> exact spares_pure _

theorem spares_persistAggregateQualityDecision (hI : Framed I) (projectId runId : String) (attempt : ℕ)
    (checks : List CheckRecord) :
    Spares surroundings I (persistAggregateQualityDecision projectId runId attempt checks) := by
  unfold persistAggregateQualityDecision
  split
  · exact spares_pure none
  · exact spares_bind (keeps_attempted hI _) fun _ => spares_pure _

theorem spares_qualityEvidence (hI : Framed I) (config : WapConfig) (run : Run) :
    Spares surroundings I (qualityEvidence config run) := by
  unfold qualityEvidence
  split
  · refine spares_bind (keeps_read hI _) fun report => ?_
    split
    · exact spares_pure none
    · refine spares_bind (keeps_attempted hI _) fun checks => ?_
      split
      · exact spares_persistAggregateQualityDecision hI _ _ _ _
      · exact spares_pure none
  · exact Keeping.throw _

/-! ### The promotion sensor -/

/-- A procedure that works on a report that does not say `promoted`, and may promote it in the end. -/
abbrev Closes {α : Type} (surroundings : Surroundings E) (id : String) (p : Sensor α) : Prop :=
  Ends (wapSemantics surroundings) Untouched (opened id) p (fun _ => Assertion.top) Assertion.top

theorem closes_of_spares {p : Sensor α} (h : Spares surroundings (opened id) p) : Closes surroundings id p :=
  Ends.mono h (fun _ _ h => h) (fun _ _ _ _ => trivial) fun _ _ _ => trivial

theorem closes_bind {x : Sensor α} {f : α → Sensor β} (hx : Spares surroundings (opened id) x)
    (hf : ∀ a, Closes surroundings id (f a)) : Closes surroundings id (x >>= f) :=
  Ends.bind SameReports.refl (Ends.mono hx (fun _ _ h => h) (fun _ _ _ h => h) fun _ _ _ => trivial) hf

theorem closes_pure (a : α) : Closes surroundings id (pure a : Sensor α) :=
  closes_of_spares (spares_pure a)

theorem closes_map {x : Sensor α} (hx : Closes surroundings id x) (f : α → β) :
    Closes surroundings id (x >>= fun a => pure (f a)) :=
  Ends.bind SameReports.refl hx fun _ => spares_pure _

theorem spares_branchHash (hI : Framed I) (name : String) : Spares surroundings I (branchHash name) :=
  spares_bind (keeps_attempted hI _) fun _ => spares_pure _

theorem spares_releaseRevision (hI : Framed I) : Spares surroundings I releaseRevision :=
  spares_bind (keeps_attempted hI _) fun _ => spares_pure _

theorem spares_cleanupOwnedCandidates (hI : Framed I) (branchName : String) :
    Spares surroundings I (cleanupOwnedCandidates branchName) := by
  unfold cleanupOwnedCandidates
  split
  · exact spares_bind (keeps_attempted hI _) fun _ => spares_pure _
  · exact spares_pure false

theorem spares_cleanupOwnedWapBranch (hI : Framed I) (config : WapConfig) (branchName : String)
    (expectedHash : Option String) : Spares surroundings I (cleanupOwnedWapBranch config branchName expectedHash) := by
  unfold cleanupOwnedWapBranch
  split
  · refine spares_bind (spares_onlyIf (spares_branchHash hI branchName) none) fun current => ?_
    split
    · exact spares_pure false
    · refine spares_bind (spares_onlyIf (keeps_attempted hI _) _) fun dropped => ?_
      split
      · exact spares_pure false
      · exact spares_bind (keeps_attempted hI _) fun _ => spares_pure _
  · exact spares_pure false

/-- After the terminal report no report is written. -/
theorem spares_acknowledgePromotion (hI : Framed I) (h : Identified config run) (branchName catalogRef : String)
    (p : Publication) : Spares surroundings I (acknowledgePromotion config run branchName catalogRef p) := by
  refine spares_bind (keeps_outside hI _) fun _ => ?_
  refine spares_bind (spares_qualityEvidence hI config run) fun _ => ?_
  refine spares_bind (spares_emitWapObservation_of_identified hI h) fun _ => ?_
  exact spares_bind (spares_emitWapObservation_of_identified hI h) fun _ => spares_pure true

theorem closes_finalizeWapPromotion (h : Identified config run) (branchName catalogRef : String) (p : Publication) :
    Closes surroundings (logicalRunId run) (finalizeWapPromotion config run branchName catalogRef p) := by
  refine closes_bind (spares_publicationTarget (framed_opened _) run) fun target => ?_
  refine Ends.bind SameReports.refl (ends_promotion _ _) fun written => ?_
  split
  · exact spares_acknowledgePromotion framed_top h branchName catalogRef p
  · exact spares_pure false

theorem spares_releasesResolved (hI : Framed I) (releaseId : String) (candidates : List CandidateSnapshot) :
    Spares surroundings I (releasesResolved releaseId candidates) := by
  induction candidates with
  | nil => exact spares_pure true
  | cons candidate candidates ih =>
    refine spares_bind (keeps_attempted hI _) fun release => ?_
    split
    · exact ih
    · exact spares_pure false

theorem spares_releaseResolvedForRun (hI : Framed I) (branchName releaseId : String) :
    Spares surroundings I (releaseResolvedForRun branchName releaseId) := by
  refine spares_bind (keeps_attempted hI _) fun candidates => ?_
  split
  · exact spares_pure false
  · exact spares_releasesResolved hI releaseId _

theorem spares_settleCandidates (run : Run) (branchName : String) (prior : Option Report) (p : Publication) :
    Spares surroundings (opened (logicalRunId run)) (settleCandidates run branchName prior p) := by
  refine spares_bind (spares_onlyIf (spares_cleanupOwnedCandidates (framed_opened _) branchName) true)
    fun deleted => ?_
  refine spares_bind (keeps_status _ _ nofun) fun written => ?_
  split <;> exact spares_pure _

theorem spares_recordReleaseConflict (config : WapConfig) (run : Run) (branchName : String) (prior : Option Report)
    (sourceHash decision : Option String) : Spares surroundings (opened (logicalRunId run))
      (recordReleaseConflict config run branchName prior sourceHash decision) := by
  refine spares_bind (keeps_status _ _ nofun) fun _ => ?_
  exact spares_bind (spares_emitWapObservation config rfl) fun _ => spares_pure none

theorem spares_releaseCandidates (config : WapConfig) (run : Run) (branchName : String) (prior : Option Report)
    (revision : ℤ) (candidates : List CandidateSnapshot) (decision : Option String) :
    Spares surroundings (opened (logicalRunId run))
      (releaseCandidates config run branchName prior revision candidates decision) := by
  unfold releaseCandidates
  dsimp only
  split
  · exact spares_bind (keeps_status _ _ nofun) fun _ => spares_pure none
  · refine spares_bind (keeps_status _ _ nofun) fun intended => ?_
    split
    · refine spares_bind (keeps_attempted (framed_opened _) _) fun answer => ?_
      split
      · exact spares_bind (keeps_status _ _ nofun) fun _ => spares_pure none
      · refine spares_bind (spares_releaseRevision (framed_opened _)) fun after => ?_
        refine spares_bind (keeps_status _ _ nofun) fun received => ?_
        split
        · exact spares_settleCandidates run branchName prior _
        · exact spares_pure none
      · refine spares_bind (keeps_status _ _ nofun) fun _ => ?_
        exact spares_bind (spares_emitWapObservation config rfl) fun _ => spares_pure none
    · exact spares_pure none

theorem spares_advanceSnapshotPromotion (config : WapConfig) (run : Run) (branchName : String)
    (prior : Option Report) (decision : Option String) : Spares surroundings (opened (logicalRunId run))
      (advanceSnapshotPromotion config run branchName prior decision) := by
  unfold advanceSnapshotPromotion
  refine spares_bind (spares_releaseRevision (framed_opened _)) fun revision => ?_
  refine spares_bind (keeps_attempted (framed_opened _) _) fun listed => ?_
  dsimp only
  refine spares_bind (spares_onlyIf (spares_releaseResolvedForRun (framed_opened _) branchName _) false)
    fun resolved => ?_
  split
  · refine spares_bind (spares_releaseRevision (framed_opened _)) fun after => ?_
    exact spares_settleCandidates run branchName prior _
  · split
    · exact spares_recordReleaseConflict config run branchName prior _ decision
    · exact spares_releaseCandidates config run branchName prior revision _ decision

/-! ### Branches -/

theorem spares_branchIsGone (hI : Framed I) (name : String) : Spares surroundings I (branchIsGone name) :=
  spares_bind (spares_branchHash hI name) fun _ => spares_pure _

theorem spares_reconcilePromotedWapRun (hI : Framed I) (config : WapConfig) (run : Run) :
    Spares surroundings I (reconcilePromotedWapRun config run) := by
  unfold reconcilePromotedWapRun
  split
  · exact spares_pure false
  · exact spares_bind (keeps_attempted hI _) fun _ => spares_pure _

theorem closes_settleBranch (h : Identified config run) (branchName target : String) (prior : Option Report)
    (alreadyMerged : Bool) (p : Publication) :
    Closes surroundings (logicalRunId run) (settleBranch config run branchName target prior alreadyMerged p) := by
  unfold settleBranch
  refine closes_bind (spares_onlyIf (spares_branchIsGone (framed_opened _) branchName) _) fun gone => ?_
  refine closes_bind (spares_onlyIf (spares_cleanupOwnedWapBranch (framed_opened _) config branchName _) true)
    fun deleted => ?_
  refine closes_bind (keeps_status _ _ nofun) fun written => ?_
  split
  · refine closes_bind (spares_reconcilePromotedWapRun (framed_opened _) config run) fun reconciled => ?_
    split
    · exact closes_finalizeWapPromotion h branchName target _
    · exact closes_pure false
  · exact closes_pure false

theorem closes_finishBranchPromotion (h : Identified config run) (branchName : String) (prior : Option Report)
    (sourceHash targetHashBefore : Option String) (alreadyMerged : Bool) : Closes surroundings (logicalRunId run)
      (finishBranchPromotion config run branchName prior sourceHash targetHashBefore alreadyMerged) := by
  unfold finishBranchPromotion
  refine closes_bind (spares_publicationTarget (framed_opened _) run) fun target => ?_
  have hpending : WapStatus.promotionPending ≠ .promoted := nofun
  refine closes_bind (spares_onlyIf (keeps_status _ _ hpending) true) fun received => ?_
  split
  · exact closes_settleBranch h branchName target prior alreadyMerged _
  · exact closes_pure false

theorem spares_boundCheckFailure (hI : Framed I) (run : Run) (branchName : String) (prior : Option Report)
    (sourceHash : Option String) : Spares surroundings I (boundCheckFailure run branchName prior sourceHash) := by
  unfold boundCheckFailure
  split
  · exact spares_bind (keeps_attempted hI _) fun _ => spares_pure _
  · exact spares_pure none

theorem spares_recordMergeFailure (config : WapConfig) (run : Run) (branchName target : String)
    (sourceHash targetHashBefore : Option String) : Spares surroundings (opened (logicalRunId run))
      (recordMergeFailure config run branchName target sourceHash targetHashBefore) := by
  refine spares_bind (keeps_status _ _ nofun) fun _ => ?_
  refine spares_bind (spares_qualityEvidence (framed_opened _) config run) fun _ => ?_
  exact spares_emitWapObservation config rfl

theorem spares_blockRun (run : Run) (fields : Fields) :
    Spares surroundings (opened (logicalRunId run)) (blockRun run fields) :=
  spares_bind (keeps_status _ _ nofun) fun _ => spares_pure _

theorem closes_mergeWithIntent (h : Identified config run) (branchName target : String) (prior : Option Report)
    (message sourceHash targetHashBefore : Option String) : Closes surroundings (logicalRunId run)
      (mergeWithIntent config run branchName target prior message sourceHash targetHashBefore) := by
  unfold mergeWithIntent
  refine closes_bind (keeps_status _ _ nofun) fun intended => ?_
  split
  · refine closes_bind (keeps_outside (framed_opened _) _) fun answer => ?_
    split
    · exact closes_bind (keeps_status _ _ nofun) fun _ => closes_pure _
    · exact closes_map (closes_finishBranchPromotion h branchName prior _ _ false) _
    · exact closes_bind (spares_recordMergeFailure config run branchName target _ _) fun _ => closes_pure _
  · exact closes_pure _

theorem closes_mergeFreshBranch (h : Identified config run) (branchName target : String) (prior : Option Report)
    (message sourceHash targetHashBefore : Option String) : Closes surroundings (logicalRunId run)
      (mergeFreshBranch config run branchName target prior message sourceHash targetHashBefore) := by
  unfold mergeFreshBranch
  dsimp only
  split
  · exact closes_bind (keeps_status _ _ nofun) fun _ => closes_pure _
  · split
    · exact closes_of_spares (spares_blockRun run _)
    · refine closes_bind (spares_boundCheckFailure (framed_opened _) run branchName prior _) fun failure => ?_
      split
      · exact closes_of_spares (spares_blockRun run _)
      · exact closes_mergeWithIntent h branchName target prior message _ _

theorem closes_promoteBranch (h : Identified config run) (branchName : String) (prior : Option Report)
    (message : Option String) :
    Closes surroundings (logicalRunId run) (promoteBranch config run branchName prior message) := by
  unfold promoteBranch
  refine closes_bind (spares_publicationTarget (framed_opened _) run) fun target => ?_
  refine closes_bind (spares_branchHash (framed_opened _) branchName) fun sourceHash => ?_
  refine closes_bind (spares_branchHash (framed_opened _) target) fun targetHashBefore => ?_
  split
  · exact closes_map (closes_finishBranchPromotion h branchName prior _ _ true) _
  · split
    · exact closes_bind (keeps_status _ _ nofun) fun _ => closes_pure _
    · exact closes_mergeFreshBranch h branchName target prior message _ _

/-! ### One run -/

theorem closes_advancePromotion (h : Identified config run) (branchName reportStrategy : String)
    (prior : Option Report) (decision message : Option String) : Closes surroundings (logicalRunId run)
      (advancePromotion config run branchName reportStrategy prior decision message) := by
  unfold advancePromotion
  split
  · refine closes_bind (spares_advanceSnapshotPromotion config run branchName prior decision) fun advance => ?_
    split
    · exact closes_pure _
    · exact closes_map (closes_finalizeWapPromotion h branchName _ _) _
  · exact closes_promoteBranch h branchName prior message

theorem closes_promoteValidatedRun (h : Identified config run) (branchName reportStrategy : String)
    (decision : Option String) : Closes surroundings (logicalRunId run)
      (promoteValidatedRun config run branchName reportStrategy decision) := by
  unfold promoteValidatedRun
  refine closes_bind (keeps_readWapReport (framed_opened _) _) fun prior => ?_
  split
  · exact closes_advancePromotion h branchName reportStrategy prior decision none
  · refine closes_bind (keeps_outside (framed_opened _) _) fun governance => ?_
    split
    · exact closes_of_spares (spares_blockRun run _)
    · split
      · exact closes_of_spares (spares_blockRun run _)
      · exact closes_advancePromotion h branchName reportStrategy prior decision _

theorem spares_currentHashes (hI : Framed I) (branchName target : String) :
    Spares surroundings I (currentHashes branchName target) := by
  refine spares_bind (spares_branchHash hI branchName) fun source => ?_
  exact spares_bind (spares_branchHash hI target) fun before => spares_pure _

theorem spares_rejectQuality (config : WapConfig) (run : Run) (branchName target reason status outcome : String)
    (decision : Option String) : Spares surroundings (opened (logicalRunId run))
      (rejectQuality config run branchName target reason status outcome decision) := by
  unfold rejectQuality
  refine spares_bind (spares_onlyIf (spares_currentHashes (framed_opened _) branchName target) []) fun hashes => ?_
  refine spares_bind (keeps_status _ _ nofun) fun _ => ?_
  refine spares_bind (spares_branchHash (framed_opened _) branchName) fun source => ?_
  refine spares_bind (spares_branchHash (framed_opened _) target) fun before => ?_
  exact spares_bind (spares_emitWapObservation config rfl) fun _ => spares_pure _

theorem closes_promoteSucceededRun (h : Identified config run) (branchName target reportStrategy : String) :
    Closes surroundings (logicalRunId run) (promoteSucceededRun config run branchName target reportStrategy) := by
  unfold promoteSucceededRun
  refine closes_bind (spares_allChecksPassed (framed_opened _) _) fun passed => ?_
  refine closes_bind (spares_qualityEvidence (framed_opened _) config run) fun decision => ?_
  split
  · exact closes_of_spares (spares_rejectQuality config run branchName target _ _ _ none)
  · split
    · exact closes_promoteValidatedRun h branchName reportStrategy _
    · exact closes_of_spares (spares_rejectQuality config run branchName target _ _ _ _)

theorem closes_promoteVerifiedRun (h : Identified config run) (branchName : String) {manifest : String × Report}
    (hnames : manifest.1 = logicalRunId run) :
    Closes surroundings (logicalRunId run) (promoteVerifiedRun config run branchName manifest) := by
  unfold promoteVerifiedRun
  refine closes_bind (spares_checkWapRunContext config run branchName) fun valid => ?_
  split
  · refine closes_bind (spares_publicationTarget (framed_opened _) run) fun target => ?_
    dsimp only
    split
    · rw [hnames]
      exact closes_bind (keeps_status _ _ nofun) fun _ => closes_pure _
    · split
      · exact closes_bind (keeps_status _ _ (by split <;> nofun)) fun _ => closes_pure _
      · exact closes_bind (keeps_status _ _ (by split <;> nofun)) fun _ => closes_pure _
      · exact closes_promoteSucceededRun h branchName target _
  · exact closes_pure _

theorem ends_turn (id : String) : Ends (wapSemantics surroundings) Untouched Assertion.top (onReports (.turn id))
    (fun _ => opened id) Assertion.top := by
  refine Ends.call fun past w _ => ⟨fun _ h => h.elim, ?_⟩
  cases hturning : isPromoted w.reports id with
  | true => exact .inl ⟨_, List.mem_cons_self, rfl, hturning⟩
  | false => exact .inr hturning

theorem spares_promoteTerminalRun (config : WapConfig) (run : Run) :
    Spares surroundings Assertion.top (promoteTerminalRun config run) := by
  unfold promoteTerminalRun
  split
  · exact spares_pure _
  next branchName _ =>
    split
    · exact spares_pure _
    · split
      · exact spares_pure _
      · refine Ends.bind SameReports.refl (ends_turn _) fun _ => ?_
        refine Ends.bind SameReports.refl (Ends.mono (ends_verifyWapLaunchManifest config run branchName)
          (fun _ _ h => h) (fun _ _ _ h => h) fun _ _ _ => trivial) fun manifest => Ends.withFact fun hnames => ?_
        split
        · split
          · exact closes_pure _
          · exact closes_of_spares (spares_blockRun run _)
        next manifest =>
          obtain ⟨hid, hidentified⟩ := hnames manifest rfl
          exact closes_promoteVerifiedRun hidentified branchName hid

theorem spares_wapAutoPromotionSensor (config : WapConfig) (cursor : Option ℤ) :
    Spares surroundings Assertion.top (wapAutoPromotionSensor config cursor) := by
  unfold wapAutoPromotionSensor
  refine spares_bind (keeps_outside framed_top _) fun evaluationTime => ?_
  dsimp only
  refine spares_bind (keeps_outside framed_top _) fun runs => ?_
  refine spares_bind (Keeping.each SameReports.refl fun run _ => ?_) fun _ => spares_pure _
  exact spares_bind (Keeping.attempt SameReports.refl (spares_promoteTerminalRun config run)) fun _ => spares_pure ()

end Phlo.Wap
