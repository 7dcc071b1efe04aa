import Phlo.RunEvidence.HookSink
import Phlo.RunEvidence.StageCoherence

/-!
# The evidence sink and quality results

The identifiers of the stage and of the quality result are digests of the project, the run, the attempt
and the name of the check, but not of its asset.
-/

namespace Phlo.RunEvidence

open Phlo.Library

/-! ### Identifiers -/

theorem stableId_inj (d : StableDigest) (parts : List String) {a b : String} (hparts : parts ≠ []) :
    stableId d (parts ++ [a]) = stableId d (parts ++ [b]) ↔ a = b := by
  have hone : ∀ t : String, [t] ≠ [] := fun t => List.cons_ne_nil t []
  unfold stableId
  rw [d.injective.eq_iff, String.intercalate_append_of_ne_nil hparts (hone a),
    String.intercalate_append_of_ne_nil hparts (hone b), String.intercalate_singleton,
    String.intercalate_singleton, String.append_right_inj]

theorem stableId_notBlank (d : StableDigest) (parts : List String) :
    isBlank (stableId d parts) = false := d.notBlank _

/-- A number whose integer value is an error. -/
def Json.isInfinite : Json → Bool
  | .float text => text == "inf" || text == "-inf"
  | _ => false

theorem asInt_ok_iff (v : Json) : (∃ n, asInt v = .ok n) ↔ v.isInfinite = false := by
  cases v with
  | float text =>
    by_cases h : text = "inf" ∨ text = "-inf"
    · have herror : asInt (.float text) = .error .overflowError := if_pos h
      have hinfinite : (Json.float text).isInfinite = true := by
        rcases h with rfl | rfl
        · rfl
        · rfl
      simp [herror, hinfinite]
    · by_cases hnan : text = "nan"
      · simp [asInt, Json.isInfinite, hnan]
      · obtain ⟨hpos, hneg⟩ := not_or.1 h
        simp [asInt, Json.isInfinite, hpos, hneg, hnan]
  | _ => simp [asInt, Json.isInfinite]

namespace QualityResultEvent

variable {e : QualityResultEvent} {d : StableDigest} {projectId runId : String}

/-- What the event needs to be accepted at all: identifiers that are not blank, an asset that is not
white space, and finite counts. -/
structure Admissible (e : QualityResultEvent) (projectId runId : String) : Prop where
  projectId : isBlank projectId = false
  runId : isBlank runId = false
  eventId : isBlank e.eventId = false
  producer : isBlank e.producer = false
  checkName : isBlank e.checkName = false
  assetKey : e.assetKey = "" ∨ isBlank e.assetKey = false
  evaluated : (e.count "evaluated_count" "total_rows").isInfinite = false
  failed : (e.count "failed_count" "failed_rows").isInfinite = false

theorem resourceRef_ok_iff (projectId : String) {resourceType resourceId : String}
    (htype : isBlank resourceType = false) :
    (∃ r, resourceRef projectId resourceType resourceId = .ok r) ↔ isBlank resourceId = false := by
  let r : ResourceRef := { resourceType, resourceId, tenant := some projectId }
  have hvalid : r.validFor projectId = true ↔ isBlank resourceId = false := by
    simp [r, ResourceRef.validFor, htype]
  rw [← hvalid]
  by_cases h : r.validFor projectId = true
  · exact iff_of_true ⟨⟨r, h⟩, dif_pos h⟩ h
  · refine iff_of_false ?_ h
    intro hok
    obtain ⟨r', hr'⟩ := hok
    have herror : resourceRef projectId resourceType resourceId = .error _ := dif_neg h
    rw [herror] at hr'
    cases hr'

theorem stageForEvent_ok_iff : (∃ stage, e.stageForEvent d projectId runId = .ok stage) ↔
    e.assetKey = "" ∨ isBlank e.assetKey = false := by
  have hstage : (∃ stage, e.stageForEvent d projectId runId = .ok stage) ↔
      ∃ r, resourceRef projectId (if e.assetKey = "" then "stage" else "asset")
        (if e.assetKey = "" then e.stageId d projectId runId else e.assetKey) = .ok r := by
    unfold stageForEvent
    simp only [bind_eq_ok]
    constructor
    · intro h
      obtain ⟨stage, r, hr, -⟩ := h
      exact ⟨r, hr⟩
    · intro h
      obtain ⟨r, hr⟩ := h
      exact ⟨_, r, hr, rfl⟩
  rw [hstage]
  by_cases hasset : e.assetKey = ""
  · rw [if_pos hasset, if_pos hasset, resourceRef_ok_iff projectId (by decide)]
    exact iff_of_true (stableId_notBlank d _) (Or.inl hasset)
  · rw [if_neg hasset, if_neg hasset, resourceRef_ok_iff projectId (by decide)]
    exact ⟨Or.inr, fun h => h.resolve_left hasset⟩

theorem qualityForEvent_ok_iff (e : QualityResultEvent) (d : StableDigest)
    (projectId runId : String) : (∃ q, e.qualityForEvent d projectId runId = .ok q) ↔
    (e.count "evaluated_count" "total_rows").isInfinite = false ∧
      (e.count "failed_count" "failed_rows").isInfinite = false ∧ isBlank e.checkName = false := by
  have htype : isBlank "quality_check" = false := by decide
  rw [← asInt_ok_iff, ← asInt_ok_iff, ← resourceRef_ok_iff projectId htype]
  unfold qualityForEvent
  simp only [bind_eq_ok]
  constructor
  · intro h
    obtain ⟨q, n, hn, m, hm, r, hr, -⟩ := h
    exact ⟨⟨n, hn⟩, ⟨m, hm⟩, ⟨r, hr⟩⟩
  · intro h
    obtain ⟨⟨n, hn⟩, ⟨m, hm⟩, ⟨r, hr⟩⟩ := h
    exact ⟨_, n, hn, m, hm, r, hr, rfl⟩

/-! ### The bundle of an event -/

/-- The records made of an event: its stage and its quality result, under their identifiers in the run
and attempt of the event. -/
structure Makes (e : QualityResultEvent) (d : StableDigest) (projectId runId : String) (b : EventBundle)
    (stage : RunStage) (q : RunQualityResult) : Prop where
  eventProject : b.event.projectId = projectId
  eventRun : b.event.runId = runId
  eventId : b.event.eventId = e.eventId
  producer : b.event.producer = e.producer
  eventAttempt : b.event.attempt = e.correlation.attempt
  eventStage : b.event.stageId = some (e.stageId d projectId runId)
  run : b.run = some (e.run projectId runId)
  stageKey : (stageRow stage).key = (projectId, runId, e.stageId d projectId runId)
  stageAttempt : stage.attempt = e.correlation.attempt
  bundleStage : b.stage = some stage
  bundleResult : b.qualityResult = some q
  quality : e.qualityForEvent d projectId runId = .ok q
  resultKey : (qualityResultRow q).key = (projectId, runId, e.qualityResultId d projectId runId)
  resultAttempt : q.attempt = e.correlation.attempt
  resultStage : q.stageId = some (e.stageId d projectId runId)
  failureArtifactId : q.failureArtifactId = none
  rest : b.lineageEdges = [] ∧ b.resources = [] ∧ b.catalogChange = none ∧ b.artifacts = []

theorem bundle_makes {b : EventBundle} (h : e.bundle d projectId runId = .ok b) :
    ∃ stage q, e.Makes d projectId runId b stage q := by
  simp only [bundle, bind_eq_ok] at h
  obtain ⟨stage, hstage, q, hq, h⟩ := h
  split at h
  · cases h
    refine ⟨stage, q, ?_⟩
    have hq' := hq
    simp only [stageForEvent, bind_eq_ok] at hstage
    obtain ⟨r, -, hresult⟩ := hstage
    cases hresult
    simp only [qualityForEvent, bind_eq_ok] at hq'
    obtain ⟨n, -, m, -, r', -, hresult⟩ := hq'
    cases hresult
    exact ⟨rfl, rfl, rfl, rfl, rfl, rfl, rfl, rfl, rfl, rfl, rfl, hq, rfl, rfl, rfl, rfl, rfl, rfl, rfl,
      rfl⟩
  · cases h

theorem bundle_ok_iff : (∃ b, e.bundle d projectId runId = .ok b) ↔
    (∃ stage, e.stageForEvent d projectId runId = .ok stage) ∧ ∃ q, e.qualityForEvent d projectId runId = .ok q := by
  simp only [bundle, bind_eq_ok]
  constructor
  · intro h
    obtain ⟨b, stage, hstage, q, hq, -⟩ := h
    exact ⟨⟨stage, hstage⟩, ⟨q, hq⟩⟩
  · intro h
    obtain ⟨⟨stage, hstage⟩, ⟨q, hq⟩⟩ := h
    -- the reference was validated for the project when the stage was made
    have hproject : stage.projectId = projectId := by
      have hmade := hstage
      simp only [stageForEvent, bind_eq_ok] at hmade
      obtain ⟨r, -, hresult⟩ := hmade
      cases hresult
      rfl
    have hvalid : stage.resourceRef.all (ResourceRef.validFor projectId) = true := by
      rw [← hproject]
      exact stage.resourceRef_valid
    exact ⟨_, stage, hstage, q, hq, dif_pos hvalid⟩

/-- The identifiers of the event, of its stage and of its quality result are new to the store. -/
structure Fresh (e : QualityResultEvent) (d : StableDigest) (projectId runId : String) (s : Store) :
    Prop where
  event : s.events.find (projectId, e.producer, e.eventId) = none
  stage : s.stages.find (projectId, runId, e.stageId d projectId runId) = none
  result : s.qualityResults.find (projectId, runId, e.qualityResultId d projectId runId) = none
  eventStage : ∀ row ∈ s.events.rows, row.projectId = projectId → row.runId = runId →
    row.stageId ≠ some (e.stageId d projectId runId)
  resultStage : ∀ row ∈ s.qualityResults.rows, row.projectId = projectId → row.runId = runId →
    row.stageId ≠ some (e.stageId d projectId runId)

end QualityResultEvent

/-! ### Recording a bundle -/

namespace EventBundle

variable {b : EventBundle}

theorem validateObject_ok {label projectId runId : String} {attempt : ℕ} {objectId : Option String}
    (hproject : projectId = b.event.projectId) (hrun : runId = b.event.runId)
    (hattempt : attempt = b.event.attempt) (hid : ∀ id ∈ objectId, isBlank id = false) :
    b.validateObject label projectId runId attempt objectId = .ok () := by
  unfold validateObject
  rw [(require_eq_ok (u := ())).2 ⟨hproject, hrun⟩, (require_eq_ok (u := ())).2 hattempt]
  cases objectId with
  | none => rfl
  | some id => exact (requireId_eq_ok (u := ())).2 (hid id rfl)

theorem appendEvent_of_new {s p s' : Store} {clock : Clock} (hvalid : b.validateInputs = .ok ())
    (hnew : s.events.find b.eventKey = none) (href : b.ReferencesFit s) (hparent : b.ensureParent s clock = .ok p)
    (hrun : (p.runs.find (b.event.projectId, b.event.runId)).isSome = true) (href' : b.ReferencesFit p)
    (hfits : EventFits p b.event) (hderived : b.insertDerived (withEvent p b.event) clock = .ok s')
    (hintegral : Integral s') : appendEvent s clock b = .ok (s', true) := by
  have hevents : p.events = s.events := by rw [b.ensureParent_frame hparent]
  have hinsert : insertEvent p b.event = .ok (withEvent p b.event, true) := by
    refine insertEvent_eq_ok.2 ⟨hfits, rfl, ?_⟩
    have hkey : (eventRow b.event).key = b.eventKey := rfl
    rw [hkey, hevents, hnew]
    rfl
  have hcommit : commit s' = .ok s' := commit_eq_ok.2 ⟨rfl, hintegral⟩
  unfold appendEvent
  rw [bind_eq_ok]
  refine ⟨(), hvalid, ?_⟩
  rw [hnew, Option.any_none, if_neg Bool.false_ne_true]
  simp only [bind_eq_ok, validateStageReferences_eq_ok]
  exact ⟨(), href, p, hparent, (), lockRun_eq_ok.2 hrun, (), href', _, hinsert, s',
    by rw [hevents, hnew]; exact hderived, s', hcommit, by rw [hevents, hnew]; rfl⟩

end EventBundle

theorem Store.referencesExist_mono {s s' : Store}
    (hstages : ∀ k, (s.stages.find k).isSome = true → (s'.stages.find k).isSome = true)
    (hartifacts : ∀ k, (s.artifacts.find k).isSome = true → (s'.artifacts.find k).isSome = true)
    {row : QualityResultRow} (h : s.referencesExist row = true) : s'.referencesExist row = true := by
  simp only [Store.referencesExist, Bool.and_eq_true, Option.all_eq_true] at h ⊢
  exact ⟨fun id hid => hstages _ (h.1 id hid), fun id hid => hartifacts _ (h.2 id hid)⟩

section Verdict

variable {e : QualityResultEvent} {d : StableDigest} {projectId runId : String} {b : EventBundle}
  {stage : RunStage} {q : RunQualityResult} (hm : e.Makes d projectId runId b stage q)

include hm

theorem verdict_stage_ids : stage.projectId = b.event.projectId ∧ stage.runId = b.event.runId ∧
    stage.stageId = e.stageId d projectId runId := by
  rw [hm.eventProject, hm.eventRun]
  simpa [stageRow, StageRow.key] using hm.stageKey

theorem verdict_result_ids : q.projectId = b.event.projectId ∧ q.runId = b.event.runId ∧
    q.qualityResultId = e.qualityResultId d projectId runId := by
  rw [hm.eventProject, hm.eventRun]
  simpa [qualityResultRow, QualityResultRow.key] using hm.resultKey

theorem verdict_validateInputs (he : e.Admissible projectId runId) : b.validateInputs = .ok () := by
  obtain ⟨hstageProject, hstageRun, hstageId⟩ := verdict_stage_ids hm
  obtain ⟨hresultProject, hresultRun, hresultId⟩ := verdict_result_ids hm
  obtain ⟨hlineage, hresources, hcatalog, hartifacts⟩ := hm.rest
  have hrun : ∀ r ∈ b.run, b.validateObject "run" r.projectId r.runId r.attempt none = .ok () := by
    intro r hr
    rw [hm.run] at hr
    cases hr
    exact EventBundle.validateObject_ok hm.eventProject.symm hm.eventRun.symm hm.eventAttempt.symm
      (fun _ h => absurd h (Option.not_mem_none _))
  have hstage : ∀ r ∈ b.stage,
      b.validateObject "stage" r.projectId r.runId r.attempt r.stageId = .ok () := by
    intro r hr
    rw [hm.bundleStage] at hr
    cases hr
    refine EventBundle.validateObject_ok hstageProject hstageRun (hm.stageAttempt.trans hm.eventAttempt.symm) ?_
    intro id hid
    cases hid
    rw [hstageId]
    exact stableId_notBlank d _
  have hresult : ∀ r ∈ b.qualityResult,
      b.validateObject "quality_result" r.projectId r.runId r.attempt r.qualityResultId = .ok () := by
    intro r hr
    rw [hm.bundleResult] at hr
    cases hr
    refine EventBundle.validateObject_ok hresultProject hresultRun
      (hm.resultAttempt.trans hm.eventAttempt.symm) ?_
    intro id hid
    cases hid
    rw [hresultId]
    exact stableId_notBlank d _
  have hids : ∀ x ∈ b.stageIds, ∀ y ∈ b.stageIds, x = y := by
    have hsame : ∀ x ∈ b.stageIds, x = e.stageId d projectId runId := by
      intro x hx
      simpa [EventBundle.stageIds, hm.eventStage, hm.bundleStage, hm.bundleResult, hm.resultStage,
        hstageId] using hx
    intro x hx y hy
    rw [hsame x hx, hsame y hy]
  simp only [EventBundle.validateInputs, bind_eq_ok, requireId_eq_ok, optionForM_eq_ok, listForM_eq_ok,
    require_eq_ok, hlineage, hresources, hcatalog, hartifacts, hm.eventProject, hm.eventRun, hm.eventId,
    hm.producer]
  exact ⟨(), he.projectId, (), he.runId, (), he.eventId, (), he.producer, (), hrun, (), hstage, (),
    hresult, (), hids, (), List.forall_mem_nil _, (), List.forall_mem_nil _, (),
    (fun _ h => absurd h (Option.not_mem_none _)), List.forall_mem_nil _⟩

/-- The records a new bundle leaves: the event, its stage and its verdict. -/
structure VerdictRecorded (s s' : Store) (b : EventBundle) (stage : RunStage) (q : RunQualityResult) : Prop where
  events : s'.events = (s.events.insertOrIgnore (eventRow b.event)).1
  stages : s'.stages = s.stages.upsert (stageRow stage) (updateStage stage) (updateStage_key stage)
  qualityResults : s'.qualityResults = (s.qualityResults.insertOrIgnore (qualityResultRow q)).1

theorem verdict_referencesFit {s t : Store} (hfresh : e.Fresh d projectId runId s)
    (hstages : t.stages = s.stages) (hevents : t.events = s.events)
    (hresults : t.qualityResults = s.qualityResults) : b.ReferencesFit t := by
  obtain ⟨hstageProject, hstageRun, hstageId⟩ := verdict_stage_ids hm
  have hagrees : ∀ attempt, StageAgrees t b.event.projectId b.event.runId (e.stageId d projectId runId) attempt := by
    intro attempt row hrow
    rw [hstages, hm.eventProject, hm.eventRun, hfresh.stage] at hrow
    cases hrow
  refine ⟨?_, ?_⟩
  · intro stageId hid
    have hsame : stageId = e.stageId d projectId runId := by
      simpa [hm.eventStage, hm.bundleResult, hm.resultStage] using hid
    rw [hsame]
    exact hagrees _
  · intro stage' hstage'
    rw [hm.bundleStage] at hstage'
    cases hstage'
    refine ⟨?_, ?_, ?_⟩
    · rw [hstageProject, hstageRun, hstageId]
      exact hagrees _
    · intro row hrow hproject hrun hid
      rw [hevents] at hrow
      rw [hstageProject, hm.eventProject] at hproject
      rw [hstageRun, hm.eventRun] at hrun
      rw [hstageId] at hid
      exact absurd hid (hfresh.eventStage row hrow hproject hrun)
    · intro row hrow hproject hrun hid
      rw [hresults] at hrow
      rw [hstageProject, hm.eventProject] at hproject
      rw [hstageRun, hm.eventRun] at hrun
      rw [hstageId] at hid
      exact absurd hid (hfresh.resultStage row hrow hproject hrun)

theorem verdict_ensureParent (s : Store) (clock : Clock) : ∃ p, b.ensureParent s clock = .ok p ∧
      (p.runs.find (b.event.projectId, b.event.runId)).isSome = true := by
  cases hfind : s.runs.find (b.event.projectId, b.event.runId) with
  | some row =>
    have hsome : (s.runs.find (b.event.projectId, b.event.runId)).isSome = true := by
      rw [hfind]
      rfl
    exact ⟨s, b.ensureParent_of_some hsome, hsome⟩
  | none =>
    refine ⟨{ s with runs := (s.runs.insertOrIgnore (b.placeholder clock (e.run projectId runId))).1 },
      ?_, ?_⟩
    · unfold EventBundle.ensureParent
      rw [hfind, hm.run]
      rfl
    · have hself := KeyedTable.find_insertOrIgnore_self s.runs
        (b.placeholder clock (e.run projectId runId))
      exact Option.isSome_iff_exists.2 ⟨_, hself⟩

theorem verdict_insertDerived {s p : Store} {clock : Clock} (hfresh : e.Fresh d projectId runId s)
    (hp : b.ensureParent s clock = .ok p) : b.insertDerived (withEvent p b.event) clock =
      .ok (withQuality (withStage (upsertRun (withEvent p b.event) clock (e.run projectId runId)) stage) q) := by
  obtain ⟨hstageProject, hstageRun, hstageId⟩ := verdict_stage_ids hm
  obtain ⟨hresultProject, hresultRun, hresultId⟩ := verdict_result_ids hm
  obtain ⟨hlineage, hresources, hcatalog, hartifacts⟩ := hm.rest
  have hstages : p.stages = s.stages := by rw [b.ensureParent_frame hp]
  have hevents : p.events = s.events := by rw [b.ensureParent_frame hp]
  have hresults : p.qualityResults = s.qualityResults := by rw [b.ensureParent_frame hp]
  have hrefs := (verdict_referencesFit hm hfresh hstages hevents hresults).stage stage hm.bundleStage
  let t := upsertRun (withEvent p b.event) clock (e.run projectId runId)
  have htstages : t.stages = s.stages := hstages
  have htresults : t.qualityResults = s.qualityResults := hresults
  have hstageFits : StageFits t stage := by
    refine ⟨?_, ⟨hrefs.stored, ?_, hrefs.qualityResults⟩, ?_⟩
    · rw [hstageId]
      exact stableId_notBlank d _
    · -- the new event names the stage at the attempt of both
      intro row hrow hproject hrun hid
      rcases (KeyedTable.mem_insertOrIgnore p.events (eventRow b.event) row).1 hrow with hrow | ⟨-, rfl⟩
      · exact hrefs.events row hrow hproject hrun hid
      · exact hm.eventAttempt.trans hm.stageAttempt.symm
    · intro stored hstored
      rw [htstages, hm.stageKey, hfresh.stage] at hstored
      cases hstored
  have hqualityFits : QualityFits (withStage t stage) q := by
    refine ⟨?_, ?_, ?_⟩
    · rw [hresultId]
      exact stableId_notBlank d _
    · intro stageId hid row hrow
      rw [hm.resultStage] at hid
      cases hid
      have hkey : (q.projectId, q.runId, e.stageId d projectId runId) = (stageRow stage).key := by
        rw [hm.stageKey, hresultProject, hresultRun, hm.eventProject, hm.eventRun]
      have hself : (withStage t stage).stages.find (stageRow stage).key = _ :=
        KeyedTable.find_upsert_self t.stages (stageRow stage)
      rw [hkey, hself, htstages, hm.stageKey, hfresh.stage] at hrow
      cases hrow
      exact hm.stageAttempt.trans hm.resultAttempt.symm
    · intro stored hstored
      have hsame : (withStage t stage).qualityResults = s.qualityResults := htresults
      rw [hsame, hm.resultKey, hfresh.result] at hstored
      cases hstored
  have hstage := insertStage_eq_ok.2 ⟨hstageFits, rfl⟩
  have hquality := insertQuality_eq_ok.2 ⟨hqualityFits, rfl⟩
  simp only [EventBundle.insertDerived, hm.run, hm.bundleStage, hm.bundleResult, hlineage, hresources,
    hcatalog, hartifacts, Option.toList_some, Option.toList_none, List.foldlM_cons, List.foldlM_nil,
    Option.elim_some, bind_eq_ok]
  exact ⟨_, ⟨_, hstage, rfl⟩, _, ⟨_, hquality, rfl⟩, _, rfl, _, rfl, _, rfl, rfl⟩

/-- The references of the quality table still hold. -/
theorem verdict_integral {s p : Store} {clock : Clock} (hs : Integral s)
    (hstages : p.stages = s.stages) (hresults : p.qualityResults = s.qualityResults)
    (hartifacts : p.artifacts = s.artifacts) :
    Integral (withQuality (withStage (upsertRun (withEvent p b.event) clock (e.run projectId runId)) stage) q) := by
  obtain ⟨hresultProject, hresultRun, -⟩ := verdict_result_ids hm
  let t := upsertRun (withEvent p b.event) clock (e.run projectId runId)
  have hself : (withQuality (withStage t stage) q).stages.find (stageRow stage).key = _ :=
    KeyedTable.find_upsert_self t.stages (stageRow stage)
  apply List.all_eq_true.2
  intro row hrow
  rcases (KeyedTable.mem_insertOrIgnore p.qualityResults (qualityResultRow q) row).1 hrow with
    hrow | ⟨-, rfl⟩
  · rw [hresults] at hrow
    refine Store.referencesExist_mono ?_ ?_ (List.all_eq_true.1 hs row hrow)
    · intro k hk
      by_cases hstage : k = (stageRow stage).key
      · rw [hstage, hself]
        rfl
      · have hother : (withQuality (withStage t stage) q).stages.find k = p.stages.find k :=
          KeyedTable.find_upsert_of_ne t.stages hstage
        rw [hother, hstages]
        exact hk
    · intro k hk
      show (p.artifacts.find k).isSome = true
      rw [hartifacts]
      exact hk
  · have hkey : (q.projectId, q.runId, e.stageId d projectId runId) = (stageRow stage).key := by
      rw [hm.stageKey, hresultProject, hresultRun, hm.eventProject, hm.eventRun]
    have hartifact : (qualityResultRow q).failureArtifactId = none := by
      rw [qualityResultRow, hm.failureArtifactId]
      rfl
    have hnamed : (qualityResultRow q).stageId = some (e.stageId d projectId runId) := hm.resultStage
    show (withQuality (withStage t stage) q).referencesExist (qualityResultRow q) = true
    unfold Store.referencesExist
    rw [hartifact, hnamed]
    show ((withQuality (withStage t stage) q).stages.find (q.projectId, q.runId, _)).isSome && true = true
    rw [hkey, hself]
    rfl

/-- **A bundle with new identifiers is recorded**: the event, its stage and its verdict. -/
theorem appendEvent_verdict {s : Store} (hs : Integral s) (he : e.Admissible projectId runId)
    (hfresh : e.Fresh d projectId runId s) (clock : Clock) :
    ∃ s', appendEvent s clock b = .ok (s', true) ∧ VerdictRecorded s s' b stage q := by
  obtain ⟨p, hp, hrun⟩ := verdict_ensureParent hm s clock
  have hframe := b.ensureParent_frame hp
  have hstages : p.stages = s.stages := by rw [hframe]
  have hevents : p.events = s.events := by rw [hframe]
  have hresults : p.qualityResults = s.qualityResults := by rw [hframe]
  have hartifacts : p.artifacts = s.artifacts := by rw [hframe]
  have href := verdict_referencesFit hm hfresh rfl rfl rfl
  have href' := verdict_referencesFit hm hfresh hstages hevents hresults
  have hkey : b.eventKey = (projectId, e.producer, e.eventId) := by
    rw [EventBundle.eventKey, hm.eventProject, hm.producer, hm.eventId]
  have hnew : s.events.find b.eventKey = none := by
    rw [hkey]
    exact hfresh.event
  have hfits : EventFits p b.event := by
    refine ⟨?_, ?_, ?_, ?_⟩
    · rw [hm.eventId]
      exact he.eventId
    · rw [hm.producer]
      exact he.producer
    · intro stored hstored
      have hrow : (eventRow b.event).key = b.eventKey := rfl
      rw [hrow, hevents, hnew] at hstored
      cases hstored
    · intro stageId hid
      exact href'.named stageId (List.mem_append_left _ (Option.mem_toList.2 hid))
  refine ⟨_, EventBundle.appendEvent_of_new (verdict_validateInputs hm he) hnew href hp hrun href' hfits
    (verdict_insertDerived hm hfresh hp) ?_, ?_⟩
  · exact verdict_integral hm hs hstages hresults hartifacts
  · refine ⟨?_, ?_, ?_⟩
    · show (p.events.insertOrIgnore _).1 = _
      rw [hevents]
    · show p.stages.upsert _ _ _ = _
      rw [hstages]
    · show (p.qualityResults.insertOrIgnore _).1 = _
      rw [hresults]

end Verdict

/-! ### Deliveries -/

namespace QualityResultEvent

variable {e e' : QualityResultEvent} {d : StableDigest} {projectId runId : String}

theorem stageKey_of_notBlank (h : isBlank e.checkName = false) : e.stageKey = e.checkName := by
  refine if_pos ?_
  intro hempty
  rw [hempty] at h
  cases h

theorem resultId_inj (hattempt : e.correlation.attempt = e'.correlation.attempt) :
    e.qualityResultId d projectId runId = e'.qualityResultId d projectId runId ↔ e.checkName = e'.checkName := by
  unfold qualityResultId
  rw [hattempt]
  exact stableId_inj d [projectId, runId, _, "quality"] (List.cons_ne_nil _ _)

theorem stageId_inj (hattempt : e.correlation.attempt = e'.correlation.attempt)
    (h : isBlank e.checkName = false) (h' : isBlank e'.checkName = false) :
    e.stageId d projectId runId = e'.stageId d projectId runId ↔ e.checkName = e'.checkName := by
  unfold stageId
  rw [hattempt, stageKey_of_notBlank h, stageKey_of_notBlank h']
  exact stableId_inj d [projectId, runId, _, "check"] (List.cons_ne_nil _ _)

theorem handleEvent_eq_ok (hcorrelation : e.eventCorrelation = (some projectId, some runId))
    {s s' : Store} {clock : Clock} :
    e.handleEvent d s clock = .ok s' ↔ ∃ b inserted, e.bundle d projectId runId = .ok b ∧
      appendEvent s clock b = .ok (s', inserted) := by
  unfold handleEvent
  simp only [hcorrelation, bind_eq_ok, mapError_eq_ok, map_eq_ok, Prod.exists]
  constructor
  · intro h
    obtain ⟨b, hb, t, inserted, hok, rfl⟩ := h
    exact ⟨b, inserted, hb, hok⟩
  · intro h
    obtain ⟨b, inserted, hb, hok⟩ := h
    exact ⟨b, hb, s', inserted, hok, rfl⟩

end QualityResultEvent

theorem deliver_growth (d : StableDigest) (s : Store) (x : Delivery) : Growth s (deliver d s x) := by
  unfold deliver
  cases hok : x.event.handleEvent d s x.clock with
  | error e => exact Growth.refl s
  | ok s' =>
    show Growth s s'
    unfold QualityResultEvent.handleEvent at hok
    split at hok
    · simp only [bind_eq_ok, mapError_eq_ok, map_eq_ok] at hok
      obtain ⟨b, -, ⟨t, inserted⟩, happend, rfl⟩ := hok
      exact (appendEvent_recording happend).toGrowth
    · cases hok
      exact Growth.refl s

/-- The event is stored as a row of its own, and its verdict (asset, outcome and counts) is stored under
its identifier. -/
structure QualityResultEvent.VerdictStored (e : QualityResultEvent) (d : StableDigest)
    (projectId runId : String) (s : Store) : Prop where
  event : ∃ row, s.events.find (projectId, e.producer, e.eventId) = some row ∧ row.runId = runId ∧
    row.payload = canonicalJson (redactPayload none (.obj e.eventPayload))
  verdict : ∃ row, s.qualityResults.find (projectId, runId, e.qualityResultId d projectId runId) =
      some row ∧ row.checkId = redactText e.checkName ∧ row.asset = text (some e.assetKey) ∧
    row.passed = e.passed ∧ asInt (e.count "evaluated_count" "total_rows") = .ok row.evaluatedCount ∧
    asInt (e.count "failed_count" "failed_rows") = .ok row.failedCount

theorem QualityResultEvent.VerdictStored.mono {e : QualityResultEvent} {d : StableDigest}
    {projectId runId : String} {s s' : Store} (h : e.VerdictStored d projectId runId s)
    (hs : Growth s s') : e.VerdictStored d projectId runId s' := by
  obtain ⟨⟨row, hrow, hevent⟩, ⟨row', hrow', hverdict⟩⟩ := h
  exact ⟨⟨row, KeyedTable.find_mono hs.events hrow, hevent⟩,
    ⟨row', KeyedTable.find_mono hs.qualityResults hrow', hverdict⟩⟩

section Delivered

variable {e e' : QualityResultEvent} {d : StableDigest} {projectId runId : String} {s s' : Store}
  {b : EventBundle} {stage : RunStage} {q : RunQualityResult}

theorem verdictStored_of_recorded (hb : e.bundle d projectId runId = .ok b)
    (hm : e.Makes d projectId runId b stage q) (hfresh : e.Fresh d projectId runId s)
    (hrecorded : VerdictRecorded s s' b stage q) : e.VerdictStored d projectId runId s' := by
  have hkey : (eventRow b.event).key = (projectId, e.producer, e.eventId) := by
    rw [EventRow.key, eventRow, hm.eventProject, hm.producer, hm.eventId]
  have hevent := KeyedTable.find_insertOrIgnore_self s.events (eventRow b.event)
  have hresult := KeyedTable.find_insertOrIgnore_self s.qualityResults (qualityResultRow q)
  rw [hkey, hfresh.event, ← hrecorded.events] at hevent
  rw [hm.resultKey, hfresh.result, ← hrecorded.qualityResults] at hresult
  have hpayload : b.event.payload = e.eventPayload := by
    simp only [QualityResultEvent.bundle, bind_eq_ok] at hb
    obtain ⟨_, -, _, -, hb⟩ := hb
    split at hb
    · cases hb
      rfl
    · cases hb
  refine ⟨⟨_, hevent, hm.eventRun, ?_⟩, ⟨_, hresult, ?_⟩⟩
  · show canonicalJson (redactPayload none (.obj b.event.payload)) = _
    rw [hpayload]
  · have hq := hm.quality
    simp only [QualityResultEvent.qualityForEvent, bind_eq_ok] at hq
    obtain ⟨n, hn, m, hmcount, r, -, hresult⟩ := hq
    cases hresult
    exact ⟨rfl, rfl, rfl, hn, hmcount⟩

/-- The identifiers of another event, of another check, are as new as before. -/
theorem fresh_of_recorded (hm : e.Makes d projectId runId b stage q)
    (hattempt : e.correlation.attempt = e'.correlation.attempt) (hid : e.eventId ≠ e'.eventId)
    (hblank : isBlank e.checkName = false) (hblank' : isBlank e'.checkName = false)
    (hcheck : e.checkName ≠ e'.checkName) (hfresh : e'.Fresh d projectId runId s)
    (hrecorded : VerdictRecorded s s' b stage q) : e'.Fresh d projectId runId s' := by
  have hstageId : e.stageId d projectId runId ≠ e'.stageId d projectId runId :=
    fun h => hcheck ((QualityResultEvent.stageId_inj hattempt hblank hblank').1 h)
  have hresultId : e.qualityResultId d projectId runId ≠ e'.qualityResultId d projectId runId :=
    fun h => hcheck ((QualityResultEvent.resultId_inj hattempt).1 h)
  have hkey : (eventRow b.event).key = (projectId, e.producer, e.eventId) := by
    rw [EventRow.key, eventRow, hm.eventProject, hm.producer, hm.eventId]
  refine ⟨?_, ?_, ?_, ?_, ?_⟩
  · rw [hrecorded.events, KeyedTable.find_insertOrIgnore_of_ne]
    · exact hfresh.event
    · rw [hkey]
      simp [hid]
  · rw [hrecorded.stages, KeyedTable.find_upsert_of_ne]
    · exact hfresh.stage
    · rw [hm.stageKey]
      simp [hstageId.symm]
  · rw [hrecorded.qualityResults, KeyedTable.find_insertOrIgnore_of_ne]
    · exact hfresh.result
    · rw [hm.resultKey]
      simp [hresultId]
  · intro row hrow hproject hrun
    rw [hrecorded.events] at hrow
    rcases (KeyedTable.mem_insertOrIgnore _ _ row).1 hrow with hrow | ⟨-, rfl⟩
    · exact hfresh.eventStage row hrow hproject hrun
    · show b.event.stageId ≠ _
      rw [hm.eventStage]
      exact fun h => hstageId (Option.some.inj h)
  · intro row hrow hproject hrun
    rw [hrecorded.qualityResults] at hrow
    rcases (KeyedTable.mem_insertOrIgnore _ _ row).1 hrow with hrow | ⟨-, rfl⟩
    · exact hfresh.resultStage row hrow hproject hrun
    · show q.stageId ≠ _
      rw [hm.resultStage]
      exact fun h => hstageId (Option.some.inj h)

/-- A well-formed event with new identifiers is recorded on delivery. -/
theorem handleEvent_recorded (hs : ReachableStore s)
    (hcorrelation : e.eventCorrelation = (some projectId, some runId))
    (he : e.Admissible projectId runId) (hfresh : e.Fresh d projectId runId s) (clock : Clock) :
    ∃ s' b stage q, e.handleEvent d s clock = .ok s' ∧ ReachableStore s' ∧
      e.bundle d projectId runId = .ok b ∧ e.Makes d projectId runId b stage q ∧ VerdictRecorded s s' b stage q := by
  obtain ⟨b, hb⟩ := QualityResultEvent.bundle_ok_iff.2
    ⟨QualityResultEvent.stageForEvent_ok_iff.2 he.assetKey,
      (e.qualityForEvent_ok_iff d projectId runId).2 ⟨he.evaluated, he.failed, he.checkName⟩⟩
  obtain ⟨stage, q, hm⟩ := QualityResultEvent.bundle_makes hb
  obtain ⟨s', happend, hrecorded⟩ := appendEvent_verdict hm (reachable_integral hs) he hfresh clock
  refine ⟨s', b, stage, q, (QualityResultEvent.handleEvent_eq_ok hcorrelation).2 ⟨b, true, hb, happend⟩,
    ?_, hb, hm, hrecorded⟩
  have hexec : exec s (.appendEvent clock b) = .ok s' := by
    show (appendEvent s clock b).map Prod.fst = .ok s'
    rw [happend]
    rfl
  rw [← step_of_ok hexec]
  exact hs.step _

end Delivered

/-! ### Sequences of quality results -/

/-- Nothing is lost: every delivery is accepted, every event and every verdict is stored, and no two
verdicts share a row. -/
structure KeepsVerdicts (d : StableDigest) (projectId runId : String) (s : Store) (xs : List Delivery) :
    Prop where
  accepted : Along (deliver d) (fun s x => ∃ s', x.event.handleEvent d s x.clock = .ok s') s xs
  stored : ∀ x ∈ xs, x.event.VerdictStored d projectId runId (finish (deliver d) s xs)
  own : (xs.map fun x => x.event.qualityResultId d projectId runId).Nodup

def OfRun (projectId runId : String) (attempt : ℕ) (xs : List Delivery) : Prop :=
  ∀ x ∈ xs, x.event.eventCorrelation = (some projectId, some runId) ∧
    x.event.correlation.attempt = attempt

section Sequence

variable {d : StableDigest} {projectId runId : String} {attempt : ℕ} {s : Store} {xs : List Delivery}

/-- Well-formed results of different checks are all recorded, whatever their order. -/
theorem deliver_all (hs : ReachableStore s) (hrun : OfRun projectId runId attempt xs)
    (hids : (xs.map fun x => x.event.eventId).Nodup) (hchecks : (xs.map fun x => x.event.checkName).Nodup)
    (hadmissible : ∀ x ∈ xs, x.event.Admissible projectId runId)
    (hfresh : ∀ x ∈ xs, x.event.Fresh d projectId runId s) :
    Along (deliver d) (fun s x => ∃ s', x.event.handleEvent d s x.clock = .ok s') s xs ∧
      ∀ x ∈ xs, x.event.VerdictStored d projectId runId (finish (deliver d) s xs) := by
  induction xs generalizing s with
  | nil => exact ⟨trivial, fun x hx => by cases hx⟩
  | cons x xs ih =>
    rw [List.map_cons, List.nodup_cons] at hids hchecks
    have hx := hadmissible x List.mem_cons_self
    obtain ⟨hcorrelation, hattempt⟩ := hrun x List.mem_cons_self
    have hnew := hfresh x List.mem_cons_self
    obtain ⟨s', b, stage, q, hok, hs', hb, hm, hrecorded⟩ :=
      handleEvent_recorded hs hcorrelation hx hnew x.clock
    have hdeliver : deliver d s x = s' := by rw [deliver, hok]
    have hfresh' : ∀ y ∈ xs, y.event.Fresh d projectId runId s' := by
      intro y hy
      have hyattempt := (hrun y (List.mem_cons_of_mem x hy)).2
      have hid : x.event.eventId ≠ y.event.eventId :=
        fun h => hids.1 (h ▸ List.mem_map_of_mem hy)
      have hcheck : x.event.checkName ≠ y.event.checkName :=
        fun h => hchecks.1 (h ▸ List.mem_map_of_mem hy)
      exact fresh_of_recorded hm (hattempt.trans hyattempt.symm) hid hx.checkName
        (hadmissible y (List.mem_cons_of_mem x hy)).checkName hcheck
        (hfresh y (List.mem_cons_of_mem x hy)) hrecorded
    obtain ⟨haccepted, hstored⟩ := ih hs' (fun y hy => hrun y (List.mem_cons_of_mem x hy)) hids.2
      hchecks.2 (fun y hy => hadmissible y (List.mem_cons_of_mem x hy)) hfresh'
    have hgrowth : Growth s' (finish (deliver d) s' xs) :=
      finish_rel Growth.refl Growth.trans (deliver_growth d) s' xs
    refine ⟨⟨⟨s', hok⟩, by rwa [hdeliver]⟩, ?_⟩
    intro y hy
    rw [finish_cons, hdeliver]
    rcases List.mem_cons.1 hy with rfl | hy
    · exact (verdictStored_of_recorded hb hm hnew hrecorded).mono hgrowth
    · exact hstored y hy

theorem admissible_of_accepted {e : QualityResultEvent} {s' : Store} {clock : Clock}
    (hcorrelation : e.eventCorrelation = (some projectId, some runId))
    (hok : e.handleEvent d s clock = .ok s') : e.Admissible projectId runId := by
  obtain ⟨b, inserted, hb, happend⟩ := (QualityResultEvent.handleEvent_eq_ok hcorrelation).1 hok
  obtain ⟨hstage, hquality⟩ := QualityResultEvent.bundle_ok_iff.1 ⟨b, hb⟩
  obtain ⟨stage, q, hm⟩ := QualityResultEvent.bundle_makes hb
  obtain ⟨hvalid, -⟩ := appendEvent_cases happend
  simp only [EventBundle.validateInputs, bind_eq_ok, requireId_eq_ok] at hvalid
  obtain ⟨-, hproject, -, hrun, -, hevent, -, hproducer, -⟩ := hvalid
  obtain ⟨hevaluated, hfailed, hcheck⟩ := (e.qualityForEvent_ok_iff d projectId runId).1 hquality
  rw [hm.eventProject] at hproject
  rw [hm.eventRun] at hrun
  rw [hm.eventId] at hevent
  rw [hm.producer] at hproducer
  exact ⟨hproject, hrun, hevent, hproducer, hcheck, QualityResultEvent.stageForEvent_ok_iff.1 hstage,
    hevaluated, hfailed⟩

/-- **The sink and quality results.**  From a store in which their identifiers are new, the quality
results of one run and attempt, with different event identifiers and in any order, are all kept exactly
when no two of them have a check of one name and each is well formed. -/
theorem sink_keeps_verdicts_iff (hs : ReachableStore s) (hrun : OfRun projectId runId attempt xs)
    (hids : (xs.map fun x => x.event.eventId).Nodup) (hfresh : ∀ x ∈ xs, x.event.Fresh d projectId runId s) :
    KeepsVerdicts d projectId runId s xs ↔
      (xs.map fun x => x.event.checkName).Nodup ∧ ∀ x ∈ xs, x.event.Admissible projectId runId := by
  have hnames : (xs.map fun x => x.event.qualityResultId d projectId runId).Nodup ↔
      (xs.map fun x => x.event.checkName).Nodup := by
    simp only [List.Nodup, List.pairwise_map]
    have hiff : ∀ {x y}, x ∈ xs → y ∈ xs →
        (x.event.qualityResultId d projectId runId ≠ y.event.qualityResultId d projectId runId ↔
          x.event.checkName ≠ y.event.checkName) := by
      intro x y hx hy
      exact (QualityResultEvent.resultId_inj ((hrun x hx).2.trans (hrun y hy).2.symm)).ne
    constructor
    · intro h
      exact h.imp_of_mem fun hx hy => (hiff hx hy).1
    · intro h
      exact h.imp_of_mem fun hx hy => (hiff hx hy).2
  constructor
  · intro h
    refine ⟨hnames.1 h.own, ?_⟩
    intro x hx
    obtain ⟨t, t', hok⟩ := h.accepted.exists_of_mem hx
    exact admissible_of_accepted (hrun x hx).1 hok
  · intro h
    obtain ⟨hchecks, hadmissible⟩ := h
    obtain ⟨haccepted, hstored⟩ := deliver_all hs hrun hids hchecks hadmissible hfresh
    exact ⟨haccepted, hstored, hnames.2 hchecks⟩

end Sequence

theorem QualityResultEvent.fresh_empty (e : QualityResultEvent) (d : StableDigest)
    (projectId runId : String) : e.Fresh d projectId runId Store.empty :=
  ⟨rfl, rfl, rfl, fun _ h => absurd h List.not_mem_nil, fun _ h => absurd h List.not_mem_nil⟩

/-- A check of an asset, in run `r` of project `p`. -/
def checked (eventId checkName assetKey : String) (passed : Bool) : Delivery where
  clock := ⟨⟨0, some 0⟩, ⟨0, some 0⟩⟩
  event :=
    { eventId, checkName, assetKey, passed
      correlation := { projectId := some "p", runId := some "r" } }

theorem sink_keeps_verdicts_iff_two_checks : KeepsVerdicts plainDigest "p" "r" Store.empty
      [checked "e" "not_null" "orders" true, checked "f" "unique" "orders" false] := by
  have hrun : OfRun "p" "r" 1
      [checked "e" "not_null" "orders" true, checked "f" "unique" "orders" false] := by
    simp [OfRun, checked, QualityResultEvent.eventCorrelation]
  refine (sink_keeps_verdicts_iff Reachable.init hrun ?_ ?_).2 ⟨?_, ?_⟩
  · decide
  · exact fun x _ => x.event.fresh_empty plainDigest "p" "r"
  · decide
  · intro x hx
    rcases List.mem_pair.1 hx with rfl | rfl
    · exact ⟨by decide, by decide, by decide, by decide, by decide, Or.inr (by decide), rfl, rfl⟩
    · exact ⟨by decide, by decide, by decide, by decide, by decide, Or.inr (by decide), rfl, rfl⟩

/-- `orders` passes `not_null`, then `customers` fails it: the second event names the stage of the first
with another asset, and its verdict is dropped. -/
theorem same_check_on_two_assets : ¬ ∀ d projectId runId attempt xs, OfRun projectId runId attempt xs →
      (xs.map fun x => x.event.eventId).Nodup → (xs.map fun x => (x.event.assetKey, x.event.checkName)).Nodup →
      (∀ x ∈ xs, x.event.Admissible projectId runId) → KeepsVerdicts d projectId runId Store.empty xs := by
  intro hclaim
  let xs := [checked "e" "not_null" "orders" true, checked "f" "not_null" "customers" false]
  have hkept : KeepsVerdicts plainDigest "p" "r" Store.empty xs := by
    refine hclaim plainDigest "p" "r" 1 xs ?_ ?_ ?_ ?_
    · simp [xs, OfRun, checked, QualityResultEvent.eventCorrelation]
    · decide
    · decide
    · intro x hx
      rcases List.mem_pair.1 hx with rfl | rfl
      · exact ⟨by decide, by decide, by decide, by decide, by decide, Or.inr (by decide), rfl, rfl⟩
      · exact ⟨by decide, by decide, by decide, by decide, by decide, Or.inr (by decide), rfl, rfl⟩
  have hrows : (finish (deliver plainDigest) Store.empty xs).qualityResults.rows.map
      (·.passed) = [true] := by decide +kernel
  obtain ⟨row, hrow, -, -, hpassed, -⟩ :=
    (hkept.stored (checked "f" "not_null" "customers" false) (by simp [xs])).verdict
  have hmem := List.mem_map_of_mem (f := QualityResultRow.passed) (KeyedTable.mem_of_find hrow)
  rw [hrows, hpassed] at hmem
  exact absurd hmem (by decide)

end Phlo.RunEvidence
