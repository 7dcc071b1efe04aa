import Phlo.RunEvidence.StageCoherence

/-!
# At-least-once delivery of an event bundle

`Recorded` is what an accepted bundle leaves in the store and no later call takes away: the parent
run, the event row and the stage at its attempt.  A replay then passes every check except one: the
stage the *quality result* names.

The stage identifier of a quality result is redacted in its checksum, so a result whose identifier is
taken is accepted under another stage identifier that redacts to the same text, and the bundle's own
identifier is written nowhere.  A stage of another attempt may take that identifier later.

* `different_delivery` — another event under the same identity is refused as a conflict.
-/

namespace Phlo.RunEvidence

open Phlo.Library

/-- The errors of a delivery that contradicts the stored event: `IdempotencyConflict` or the
`ValueError` of a stage at another attempt. -/
def StoreError.IsConflict : StoreError → Prop
  | .idempotencyConflict _ | .stageAttempt _ => True
  | _ => False

/-- The plain `ValueError` of a malformed argument. -/
def StoreError.IsValueError : StoreError → Prop
  | .valueError _ => True
  | _ => False

namespace EventBundle

variable (b : EventBundle)

/-! ### What the input validation says -/

theorem require_raises (c : Prop) [Decidable c] (message : String) :
    Raises StoreError.IsValueError (require c (StoreError.valueError message)) :=
  raises_require trivial

theorem require_conflict_raises (c : Prop) [Decidable c] (message : String) :
    Raises StoreError.IsConflict (require c (StoreError.idempotencyConflict message)) :=
  raises_require trivial

theorem requireId_raises (name value : String) :
    Raises StoreError.IsValueError (requireId name value) := require_raises _ _

theorem validateObject_raises (label projectId runId : String) (attempt : ℕ) (objectId : Option String) :
    Raises StoreError.IsValueError (b.validateObject label projectId runId attempt objectId) := by
  apply (require_raises _ _).bind
  intro _ _
  apply (require_raises _ _).bind
  intro _ _
  cases objectId with
  | none => exact raises_ok
  | some objectId => exact requireId_raises _ _

/-- A refused argument raises a plain `ValueError`. -/
theorem validateInputs_raises : Raises StoreError.IsValueError b.validateInputs := by
  apply (requireId_raises _ _).bind
  intro _ _
  apply (requireId_raises _ _).bind
  intro _ _
  apply (requireId_raises _ _).bind
  intro _ _
  apply (requireId_raises _ _).bind
  intro _ _
  apply (raises_optionForM fun r _ => b.validateObject_raises _ _ _ _ _).bind
  intro _ _
  apply (raises_optionForM fun r _ => b.validateObject_raises _ _ _ _ _).bind
  intro _ _
  apply (raises_optionForM fun r _ => b.validateObject_raises _ _ _ _ _).bind
  intro _ _
  apply (require_raises _ _).bind
  intro _ _
  apply (raises_listForM fun r _ => b.validateObject_raises _ _ _ _ _).bind
  intro _ _
  apply (raises_listForM fun r _ => b.validateObject_raises _ _ _ _ _).bind
  intro _ _
  apply (raises_optionForM fun r _ => b.validateObject_raises _ _ _ _ _).bind
  intro _ _
  exact raises_listForM fun r _ => b.validateObject_raises _ _ _ _ _

theorem validateObject_eq_ok {label projectId runId : String} {attempt : ℕ} {objectId : Option String} {u : Unit}
    (h : b.validateObject label projectId runId attempt objectId = .ok u) :
    projectId = b.event.projectId ∧ runId = b.event.runId ∧ attempt = b.event.attempt := by
  simp only [validateObject, bind_eq_ok, require_eq_ok] at h
  obtain ⟨-, ⟨hproject, hrun⟩, -, hattempt, -⟩ := h
  exact ⟨hproject, hrun, hattempt⟩

/-- What later steps use of a validated bundle. -/
structure Valid : Prop where
  eventId : isBlank b.event.eventId = false
  producer : isBlank b.event.producer = false
  stage : ∀ stage ∈ b.stage, stage.projectId = b.event.projectId ∧
    stage.runId = b.event.runId ∧ stage.attempt = b.event.attempt

theorem valid_of_validateInputs {u : Unit} (h : b.validateInputs = .ok u) : b.Valid := by
  simp only [validateInputs, bind_eq_ok, requireId_eq_ok, optionForM_eq_ok] at h
  obtain ⟨-, -, -, -, -, hevent, -, hproducer, -, -, -, hstage, -⟩ := h
  exact ⟨hevent, hproducer, fun stage hs => b.validateObject_eq_ok (hstage stage hs)⟩

/-! ### What an accepted bundle leaves behind -/

structure Recorded (s : Store) : Prop where
  valid : b.validateInputs = .ok ()
  parent : (s.runs.find (b.event.projectId, b.event.runId)).isSome = true
  event : s.events.find b.eventKey = some (eventRow b.event)
  stage : ∀ stage ∈ b.stage, ∃ row,
    s.stages.find (b.event.projectId, b.event.runId, stage.stageId) = some row ∧
      row.attempt = b.event.attempt

variable {b}

variable {s : Store} {stored : EventRow}

theorem Recorded.mono {s' : Store} (h : b.Recorded s) (hs : Growth s s') : b.Recorded s' where
  valid := h.valid
  parent := by
    obtain ⟨row, hrow⟩ := Option.isSome_iff_exists.1 h.parent
    obtain ⟨row', hrow'⟩ := hs.runs _ row hrow
    rw [hrow']
    rfl
  event := KeyedTable.find_mono hs.events h.event
  stage stage hstage := by
    obtain ⟨row, hrow, hattempt⟩ := h.stage stage hstage
    obtain ⟨row', hrow', hattempt', -⟩ := hs.stages _ row hrow
    exact ⟨row', hrow', hattempt'.trans hattempt⟩

theorem withStage_attempt {stage : RunStage} (h : StageFits s stage) :
    ∃ row, (withStage s stage).stages.find (stageRow stage).key = some row ∧ row.attempt = stage.attempt := by
  refine ⟨_, KeyedTable.find_upsert_self s.stages (stageRow stage), ?_⟩
  cases hfind : s.stages.find (stageRow stage).key with
  | none => rfl
  | some stored => exact h.references.stored stored hfind

theorem insertDerived_stage {s' : Store} {clock : Clock} (h : b.insertDerived s clock = .ok s') :
    ∀ stage ∈ b.stage, ∃ row, s'.stages.find (stageRow stage).key = some row ∧ row.attempt = stage.attempt := by
  intro stage hstage
  simp only [insertDerived, bind_eq_ok] at h
  obtain ⟨s₁, h₁, s₂, h₂, s₃, h₃, s₄, h₄, s₅, h₅, h₆⟩ := h
  have hs₁ : ∃ row, s₁.stages.find (stageRow stage).key = some row ∧ row.attempt = stage.attempt := by
    have hb : b.stage = some stage := hstage
    simp only [hb, Option.toList, List.foldlM_cons, List.foldlM_nil, bind_eq_ok] at h₁
    obtain ⟨t, ht, hresult⟩ := h₁
    cases hresult
    obtain ⟨hfits, rfl⟩ := insertStage_eq_ok.1 ht
    exact withStage_attempt hfits
  have hrest : Growth s₁ s' := by
    have hquality := foldlM_recording (fun _ _ _ => insertQuality_recording) h₂
    have hlineage := foldlM_recording (fun _ _ _ h => (insertLineage_growth h).recording) h₃
    have hresources := foldlM_recording (fun _ _ _ h => (insertResource_growth h).recording) h₄
    have hcatalog := foldlM_recording (fun _ _ _ h => (insertCatalogChange_growth h).recording) h₅
    have hartifacts := foldlM_recording (fun _ _ _ h => (insertArtifact_growth h).recording) h₆
    exact (hquality.trans (hlineage.trans (hresources.trans
      (hcatalog.trans hartifacts)))).toGrowth
  obtain ⟨row, hrow, hattempt⟩ := hs₁
  obtain ⟨row', hrow', hattempt', -⟩ := hrest.stages _ row hrow
  exact ⟨row', hrow', hattempt'.trans hattempt⟩

theorem recorded_of_accepted {s' : Store} {clock : Clock} (h : appendEvent s clock b = .ok (s', true)) :
    b.Recorded s' := by
  obtain ⟨hvalid, -, -, p, hparent, hfits, hcases⟩ := appendEvent_cases h
  obtain ⟨-, hflag, -⟩ | ⟨hnew, -, hderived⟩ := hcases
  · cases hflag
  have hgrowth := (insertDerived_recording hderived).toGrowth
  have hp : (p.runs.find (b.event.projectId, b.event.runId)).isSome = true := by
    rcases b.ensureParent_cases hparent with ⟨hsome, rfl⟩ | ⟨-, run, -, rfl⟩
    · exact hsome
    · have hself := KeyedTable.find_insertOrIgnore_self s.runs (b.placeholder clock run)
      rw [show (b.placeholder clock run).key = (b.event.projectId, b.event.runId) from rfl] at hself
      rw [hself]
      rfl
  refine ⟨hvalid, ?_, ?_, ?_⟩
  · obtain ⟨row, hrow⟩ := Option.isSome_iff_exists.1 hp
    obtain ⟨row', hrow'⟩ := hgrowth.runs _ row hrow
    rw [hrow']
    rfl
  · apply KeyedTable.find_mono hgrowth.events
    have hself := KeyedTable.find_insertOrIgnore_self p.events (eventRow b.event)
    have hevents : p.events = s.events := by rw [b.ensureParent_frame hparent]
    have hkey : (eventRow b.event).key = b.eventKey := rfl
    rw [hkey, hevents, hnew] at hself
    rw [← hevents] at hself
    exact hself
  · intro stage hstage
    obtain ⟨hproject, hrun, hattempt⟩ := (b.valid_of_validateInputs hvalid).stage stage hstage
    obtain ⟨row, hrow, hrowAttempt⟩ := insertDerived_stage hderived stage hstage
    refine ⟨row, ?_, hrowAttempt.trans hattempt⟩
    rw [← hproject, ← hrun]
    exact hrow

/-! ### Replaying it -/

def QualityStageFree (b : EventBundle) (s : Store) : Prop :=
  ∀ quality ∈ b.qualityResult, ∀ stageId ∈ quality.stageId,
    StageAgrees s b.event.projectId b.event.runId stageId b.event.attempt

theorem Recorded.event_stage (h : b.Recorded s) (hs : Coherent s) : ∀ stageId ∈ b.event.stageId,
      StageAgrees s b.event.projectId b.event.runId stageId b.event.attempt := by
  intro stageId hstage
  exact hs.events (eventRow b.event) (KeyedTable.mem_of_find h.event) stageId hstage

/-- The stage of the bundle is still acceptable: whatever refers to it has its attempt. -/
theorem Recorded.stage_references (h : b.Recorded s) (hs : Coherent s) :
    ∀ stage ∈ b.stage, ReferencesAgree s stage := by
  intro stage hstage
  obtain ⟨hproject, hrun, hattempt⟩ := (b.valid_of_validateInputs h.valid).stage stage hstage
  obtain ⟨stored, hstored, hstoredAttempt⟩ := h.stage stage hstage
  have hfind : s.stages.find (stage.projectId, stage.runId, stage.stageId) = some stored := by
    rw [hproject, hrun]
    exact hstored
  have hsame : stored.attempt = stage.attempt := hstoredAttempt.trans hattempt.symm
  refine ⟨?_, ?_, ?_⟩
  · intro row hrow
    rw [hfind] at hrow
    cases hrow
    exact hsame
  · intro row hrow hp hr hid
    have hagree := hs.events row hrow stage.stageId hid
    rw [hp, hr] at hagree
    exact (hagree stored hfind).symm.trans hsame
  · intro row hrow hp hr hid
    have hagree := hs.qualityResults row hrow stage.stageId hid
    rw [hp, hr] at hagree
    exact (hagree stored hfind).symm.trans hsame

theorem Recorded.referencesFit_iff (h : b.Recorded s) (hs : Coherent s) :
    b.ReferencesFit s ↔ b.QualityStageFree s := by
  constructor
  · intro href quality hquality stageId hstage
    apply href.named
    rw [List.mem_append]
    right
    rw [Option.mem_toList, Option.bind_eq_some_iff]
    exact ⟨quality, hquality, hstage⟩
  · intro hfree
    refine ⟨?_, h.stage_references hs⟩
    intro stageId hmem
    rw [List.mem_append, Option.mem_toList, Option.mem_toList, Option.bind_eq_some_iff] at hmem
    rcases hmem with hevent | ⟨quality, hquality, hstage⟩
    · exact h.event_stage hs stageId hevent
    · exact hfree quality hquality stageId hstage

theorem Recorded.eventFits (h : b.Recorded s) (hs : Coherent s) : EventFits s b.event where
  eventId := (b.valid_of_validateInputs h.valid).eventId
  producer := (b.valid_of_validateInputs h.valid).producer
  replayed := by
    intro stored hstored
    have hfind : s.events.find (eventRow b.event).key = some (eventRow b.event) := h.event
    rw [hfind] at hstored
    cases hstored
    exact ⟨rfl, rfl⟩
  stage := h.event_stage hs

/-- **A replay.**  It returns `False` and changes nothing exactly when the stage of the quality
result is free. -/
theorem replay_eq_ok_iff (h : b.Recorded s) (hcoherent : Coherent s) (hintegral : Integral s) (clock : Clock) :
    appendEvent s clock b = .ok (s, false) ↔ b.QualityStageFree s := by
  rw [← h.referencesFit_iff hcoherent]
  constructor
  · intro hok
    exact (appendEvent_cases hok).2.1
  · intro href
    have hsame : (s.events.find b.eventKey).any (·.runId != b.event.runId) = false := by
      rw [h.event]
      simp [eventRow]
    have hknown : (s.events.find (eventRow b.event).key).isSome = true := by
      rw [show (eventRow b.event).key = b.eventKey from rfl, h.event]
      rfl
    have hinsert : insertEvent s b.event = .ok (s, false) := by
      refine insertEvent_eq_ok.2 ⟨h.eventFits hcoherent, (withEvent_of_find hknown).symm, ?_⟩
      rw [show (eventRow b.event).key = b.eventKey from rfl, h.event]
      rfl
    unfold appendEvent
    rw [hsame]
    simp only [bind_eq_ok, Bool.false_eq_true, if_false]
    refine ⟨(), h.valid, (), b.validateStageReferences_eq_ok.2 href, s,
      b.ensureParent_of_some h.parent, (), lockRun_eq_ok.2 h.parent, (),
      b.validateStageReferences_eq_ok.2 href, (s, false), hinsert, s, ?_, s,
      commit_eq_ok.2 ⟨rfl, hintegral⟩, ?_⟩
    · rw [Bool.and_false]
      rfl
    · rw [Bool.and_false]
      rfl

/-! ### Another event under the same identity -/

theorem stageAttempt_isConflict (message : String) : (StoreError.stageAttempt message).IsConflict := trivial

theorem idempotencyConflict_isConflict (message : String) :
    (StoreError.idempotencyConflict message).IsConflict := trivial

theorem validateExistingStageAttempt_raises {mismatch : String → StoreError}
    (hm : ∀ m, (mismatch m).IsConflict) (s : Store) (projectId runId stageId : String)
    (attempt : ℕ) :
    Raises StoreError.IsConflict
      (validateExistingStageAttempt s projectId runId stageId attempt mismatch) := by
  unfold validateExistingStageAttempt
  split
  · exact raises_require (hm _)
  · exact raises_ok

theorem validateReferences_raises (stage : RunStage) (table : String) (attempts : List ℕ) :
    Raises StoreError.IsConflict (validateReferences stage table attempts) := by
  intro e h
  unfold validateReferences at h
  split at h
  · cases h
  · cases h
    trivial

theorem validateStageReferences_raises (s : Store) : Raises StoreError.IsConflict (b.validateStageReferences s) := by
  have hstage : ∀ stage, Raises StoreError.IsConflict (validateStageWriteReferences s stage) := by
    intro stage
    apply Raises.bind
    · exact validateExistingStageAttempt_raises idempotencyConflict_isConflict _ _ _ _ _
    intro _ _
    apply (validateReferences_raises _ _ _).bind
    intro _ _
    exact validateReferences_raises _ _ _
  apply Raises.bind
  · exact raises_listForM fun stageId _ =>
      validateExistingStageAttempt_raises stageAttempt_isConflict _ _ _ _ _
  intro _ _
  exact raises_optionForM fun stage _ => hstage stage

theorem insertEvent_raises (s : Store) (hb : b.Valid) : Raises StoreError.IsConflict (insertEvent s b.event) := by
  unfold insertEvent
  rw [(requireId_eq_ok (u := ())).2 hb.eventId, (requireId_eq_ok (u := ())).2 hb.producer]
  apply (require_conflict_raises _ _).bind
  intro _ _
  apply (require_conflict_raises _ _).bind
  intro _ _
  apply Raises.bind
  · exact raises_optionForM fun stageId _ =>
      validateExistingStageAttempt_raises stageAttempt_isConflict _ _ _ _ _
  intro _ _
  exact raises_ok

def Differs (b : EventBundle) (stored : EventRow) : Prop :=
  b.event.runId ≠ stored.runId ∨ (eventRow b.event).content ≠ stored.content

theorem not_eventFits_of_differs (hstored : s.events.find b.eventKey = some stored) (hd : b.Differs stored) :
    ¬ EventFits s b.event := by
  intro hfits
  obtain ⟨hrun, hcontent⟩ := hfits.replayed stored hstored
  rcases hd with hd | hd
  · exact hd hrun.symm
  · exact hd hcontent.symm

theorem appendEvent_ne_ok_of_differs (hstored : s.events.find b.eventKey = some stored) (hd : b.Differs stored)
    (clock : Clock) (r : Store × Bool) : appendEvent s clock b ≠ .ok r := by
  intro h
  obtain ⟨-, -, -, p, hparent, hfits, -⟩ := appendEvent_cases h
  have hevents : p.events = s.events := by rw [b.ensureParent_frame hparent]
  refine not_eventFits_of_differs ?_ hd hfits
  rw [hevents]
  exact hstored

theorem appendEvent_raises_of_differs (hstored : s.events.find b.eventKey = some stored) (hd : b.Differs stored)
    (hparent : (s.runs.find (b.event.projectId, stored.runId)).isSome = true) (hvalid : b.validateInputs = .ok ())
    (clock : Clock) : Raises StoreError.IsConflict (appendEvent s clock b) := by
  have hinsert := b.insertEvent_raises s (b.valid_of_validateInputs hvalid)
  have hrefused : ∀ r, insertEvent s b.event ≠ .ok r := fun r hr =>
    not_eventFits_of_differs hstored hd (insertEvent_eq_ok.1 hr).1
  unfold appendEvent
  rw [hvalid]
  by_cases hsame : stored.runId = b.event.runId
  · have hany : (s.events.find b.eventKey).any (·.runId != b.event.runId) = false := by
      rw [hstored]
      simp [hsame]
    rw [hsame] at hparent
    show Raises StoreError.IsConflict (if _ then _ else _)
    rw [hany, if_neg Bool.false_ne_true, b.ensureParent_of_some hparent]
    apply (b.validateStageReferences_raises s).bind
    intro _ _
    show Raises StoreError.IsConflict (lockRun s _ _ >>= _)
    rw [(lockRun_eq_ok (u := ())).2 hparent]
    apply (b.validateStageReferences_raises s).bind
    intro _ _
    apply hinsert.bind
    intro r hr
    exact absurd hr (hrefused r)
  · have hany : (s.events.find b.eventKey).any (·.runId != b.event.runId) = true := by
      rw [hstored]
      simpa using hsame
    show Raises StoreError.IsConflict (if _ then _ else _)
    rw [hany, if_pos rfl]
    apply hinsert.bind
    intro r hr
    exact absurd hr (hrefused r)

/-- **A different delivery** is refused; the error is a conflict exactly when its arguments are
well-formed. -/
theorem different_delivery (hstored : s.events.find b.eventKey = some stored) (hd : b.Differs stored)
    (hparent : (s.runs.find (b.event.projectId, stored.runId)).isSome = true) (clock : Clock) :
    step s (.appendEvent clock b) = s ∧
      ((∃ e, appendEvent s clock b = .error e ∧ e.IsConflict) ↔ b.validateInputs = .ok ()) := by
  have hne := b.appendEvent_ne_ok_of_differs hstored hd clock
  refine ⟨?_, ?_, ?_⟩
  · cases h : appendEvent s clock b with
    | ok r => exact absurd h (hne r)
    | error e =>
      apply step_of_error (e := e)
      simp only [exec, h]
      rfl
  · rintro ⟨e, he, hconflict⟩
    cases hvalid : b.validateInputs with
    | ok u => rfl
    | error e' =>
      have hraised : appendEvent s clock b = .error e' := by
        unfold appendEvent
        rw [hvalid]
        rfl
      have hvalue := b.validateInputs_raises e' hvalid
      rw [hraised] at he
      cases he
      cases e with
      | valueError m => exact hconflict.elim
      | _ => exact hvalue.elim
  · intro hvalid
    exact (b.appendEvent_raises_of_differs hstored hd hparent hvalid clock).exists_error hne

end EventBundle

/-! ### Delivery in a run -/

theorem step_growth (s : Store) (c : Call) : Growth s (step s c) :=
  step_of_exec Growth.refl (fun _ _ _ => exec_growth) s c

theorem reachable_of_accepted {s s' : Store} {clock : Clock} {b : EventBundle} {inserted : Bool}
    (h : ReachableStore s) (haccepted : appendEvent s clock b = .ok (s', inserted)) : ReachableStore s' := by
  have hstep : step s (.appendEvent clock b) = s' := by
    apply step_of_ok
    simp only [exec, haccepted]
    rfl
  rw [← hstep]
  exact h.step _

/-- **At-least-once delivery.**  After an accepted bundle and any further calls, the same bundle
returns `False` and changes nothing exactly when no stage of another attempt is stored under the
stage its quality result names; a different event under its identity changes nothing, and is a
conflict exactly when its arguments are well-formed. -/
theorem delivered_once_iff {s s' : Store} {clock : Clock} {b : EventBundle} (h : ReachableStore s)
    (haccepted : appendEvent s clock b = .ok (s', true)) (calls : List Call) (later : Clock) :
    (appendEvent (finish step s' calls) later b = .ok (finish step s' calls, false) ↔
        b.QualityStageFree (finish step s' calls)) ∧
      ∀ other : EventBundle, other.eventKey = b.eventKey → other.Differs (eventRow b.event) →
        step (finish step s' calls) (.appendEvent later other) = finish step s' calls ∧
          ((∃ e, appendEvent (finish step s' calls) later other = .error e ∧ e.IsConflict) ↔
            other.validateInputs = .ok ()) := by
  have hs' : ReachableStore (finish step s' calls) :=
    (reachable_of_accepted h haccepted).finish calls
  have hrecorded : b.Recorded (finish step s' calls) :=
    (EventBundle.recorded_of_accepted haccepted).mono
      (finish_rel Growth.refl Growth.trans step_growth s' calls)
  refine ⟨EventBundle.replay_eq_ok_iff hrecorded (reachable_coherent hs')
    (reachable_integral hs') later, ?_⟩
  intro other hkey hdiffers
  have hproject : other.event.projectId = b.event.projectId := congrArg Prod.fst hkey
  have hstored := hrecorded.event
  rw [← hkey] at hstored
  have hparent := hrecorded.parent
  rw [← hproject] at hparent
  exact other.different_delivery hstored hdiffers hparent later

/-! ### A quality result accepted under two stage identifiers -/

def epoch : Clock := ⟨⟨0, some 0⟩, ⟨0, some 0⟩⟩

/-- A check of the stage `stageId`; its checksum shows the identifier redacted. -/
def stageCheck (stageId : String) : RunQualityResult :=
  { projectId := "p", runId := "r", qualityResultId := "q", checkId := "c", stageId := stageId }

/-- The check is stored for the stage `token=b`. -/
def checkedStage : List Call :=
  [.appendPipelineRun epoch { projectId := "p", runId := "r" },
    .appendStage { projectId := "p", runId := "r", stageId := "token=b" },
    .appendQualityResult (stageCheck "token=b")]

/-- An event delivered with the same check, of the stage `token=a`. -/
def checkedEvent : EventBundle where
  event := { projectId := "p", runId := "r", eventId := "e", eventType := "t", producer := "w" }
  qualityResult := some (stageCheck "token=a")

/-- A stage `token=a` of the second attempt. -/
def retriedStage : RunStage :=
  { projectId := "p", runId := "r", stageId := "token=a", attempt := 2 }

def afterDelivery : Store := step (finish step Store.empty checkedStage) (.appendEvent epoch checkedEvent)

theorem checkedEvent_accepted : appendEvent (finish step Store.empty checkedStage) epoch checkedEvent =
      .ok (afterDelivery, true) := by
  have hflag : (appendEvent (finish step Store.empty checkedStage) epoch checkedEvent).map Prod.snd =
      .ok true := by decide +kernel
  obtain ⟨⟨s', inserted⟩, hs', rfl⟩ := map_eq_ok.1 hflag
  have hstep : afterDelivery = s' := by
    apply step_of_ok
    simp only [exec, hs']
    rfl
  rw [hs', hstep]

theorem delivered_once_iff_unchanged : checkedEvent.QualityStageFree afterDelivery ∧
      appendEvent afterDelivery epoch checkedEvent = .ok (afterDelivery, false) := by
  have hfree : checkedEvent.QualityStageFree afterDelivery := by
    intro quality hquality stageId hstage stored hstored
    have hnone : (afterDelivery.stages.find ("p", "r", "token=a")).isNone = true := by
      decide +kernel
    obtain rfl : stageCheck "token=a" = quality := Option.some.inj hquality
    obtain rfl : "token=a" = stageId := Option.some.inj hstage
    exact absurd (Option.isNone_iff_eq_none.1 hnone) (by
      rw [show afterDelivery.stages.find ("p", "r", "token=a") = some stored from hstored]
      exact Option.some_ne_none stored)
  have hreplay := (delivered_once_iff (Reachable.init.finish checkedStage) checkedEvent_accepted []
    epoch).1
  rw [finish_nil] at hreplay
  exact ⟨hfree, hreplay.2 hfree⟩

theorem accepted_bundle_refused_on_replay :
    ¬ ∀ (s s' : Store) (clock : Clock) (b : EventBundle) (calls : List Call) (later : Clock),
      ReachableStore s → appendEvent s clock b = .ok (s', true) →
        appendEvent (finish step s' calls) later b = .ok (finish step s' calls, false) := by
  intro hclaim
  have hok := hclaim _ _ epoch checkedEvent [.appendStage retriedStage] epoch
    (Reachable.init.finish checkedStage) checkedEvent_accepted
  rw [finish_cons, finish_nil] at hok
  have hrefused : (appendEvent (step afterDelivery (.appendStage retriedStage)) epoch checkedEvent).isOk = false := by
    decide +kernel
  rw [hok] at hrefused
  exact Bool.noConfusion hrefused

end Phlo.RunEvidence
