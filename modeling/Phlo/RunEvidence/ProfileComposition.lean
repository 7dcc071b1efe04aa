import Phlo.Library.DependencyWalk
import Phlo.Library.GatheredItems
import Phlo.RunEvidence.Reconciliation

/-!
# Composing an evidence profile

`compose_evidence_profile`: the contributions that plugins declare for one profile and version become its
required evidence.

* `matching_ok`, `matching_duplicate` — which contributions are taken, and when an identifier clashes;
* `validate_ok_iff` — the dependencies are there and none leads back to itself;
* `collect_spec` — what is collected of the requirements.
-/

namespace Phlo.RunEvidence

open Phlo.Library Relation

deriving instance DecidableEq for RequiredEvidenceStage

theorem RequiredEvidenceRecord.eq_iff (a b : RequiredEvidenceRecord) :
    (a.family = b.family ∧ a.minimum = b.minimum ∧ a.requiredStatus = b.requiredStatus) ↔ a = b := by
  constructor
  · intro h
    cases a
    cases b
    obtain ⟨rfl, rfl, rfl⟩ := h
    rfl
  · rintro rfl
    exact ⟨rfl, rfl, rfl⟩

instance : DecidableEq RequiredEvidenceRecord := fun a b =>
  decidable_of_iff _ (RequiredEvidenceRecord.eq_iff a b)

def CANONICAL_STAGES : List String := ["ingest", "transform", "check", "publish", "lineage"]

structure EvidenceProfileContribution where
  contributionId : String
  provider : String
  profileId : String
  profileVersion : String
  stages : List RequiredEvidenceStage := []
  requiredRunFields : List String := []
  requiredRecords : List RequiredEvidenceRecord := []
  requiresTerminalEvent : Bool := true
  requiresContributions : List String := []
  ids_valid : (isBlank contributionId || isBlank provider) = false := by exact Eq.refl false
  profile_valid : (isBlank profileId || isBlank profileVersion) = false := by exact Eq.refl false
  stages_canonical : ∀ stage ∈ stages, stage.stageType ∈ CANONICAL_STAGES := by decide
  stages_nodup : (stages.map RequiredEvidenceStage.stageType).Nodup := by decide
  requires_valid : ∀ id ∈ requiresContributions, isBlank id = false := by decide

/-- `EvidenceProfileCompositionError`, or the error of a constructor. -/
inductive CompositionError where
  | composition (code : String) (identifiers : List String)
  | valueError (message : String)

/-- What tells failures apart. -/
def CompositionError.code : CompositionError → String
  | .composition code _ => code
  | .valueError _ => "ValueError"

structure ComposedEvidenceProfile where
  profile : RequiredEvidenceProfile
  requiredContributionIds : List String
  discoveredContributionIds : List String
  missingContributionIds : List String
  digest : Json
  available : Bool := true

/-! ### The digest -/

def stageJson (stage : RequiredEvidenceStage) : Json :=
  .obj [("stage_type", .str stage.stageType), ("provider", .ofText stage.provider),
    ("required_event_types", .ofTexts stage.requiredEventTypes),
    ("required_status", .ofText stage.requiredStatus), ("allowed_statuses", .ofTexts stage.allowedStatuses),
    ("allow_no_data", .bool stage.allowNoData)]

def recordJson (record : RequiredEvidenceRecord) : Json :=
  .obj [("family", .str record.family.value), ("minimum", .int record.minimum),
    ("required_status", .ofText record.requiredStatus)]

def canonicalProfileDict (profile : RequiredEvidenceProfile) : Json :=
  .obj [("profile_id", .str profile.profileId), ("version", .str profile.version),
    ("pipeline_name", .ofText profile.pipelineName), ("provider", .ofText profile.provider),
    ("stages", .arr (profile.stages.map stageJson)),
    ("run_terminal_event_types", .ofTexts profile.runTerminalEventTypes),
    ("required_run_fields", .ofTexts profile.requiredRunFields),
    ("required_records", .arr (profile.requiredRecords.map recordJson))]

def PROFILE_SCHEMA_VERSION : String := "1"

/-- `_digest` -/
def profileDigest (profile : RequiredEvidenceProfile) (required discovered : List String) : Json :=
  .digest (.obj [("schema_version", .str PROFILE_SCHEMA_VERSION), ("profile", canonicalProfileDict profile),
    ("required_contribution_ids", .ofTexts required), ("discovered_contribution_ids", .ofTexts discovered)])

/-! ### Matching contributions -/

namespace EvidenceProfileContribution

def isFor (profileId profileVersion : String) (c : EvidenceProfileContribution) : Bool :=
  c.profileId == profileId && c.profileVersion == profileVersion

end EvidenceProfileContribution

def contributionIds (byId : List EvidenceProfileContribution) : List String :=
  byId.map EvidenceProfileContribution.contributionId

/-- One round of `_matching_contributions`, on the contributions of `by_id`. -/
def matchContribution (profileId profileVersion : String) (byId : List EvidenceProfileContribution)
    (c : EvidenceProfileContribution) : Except CompositionError (List EvidenceProfileContribution) :=
  if c.contributionId ∈ contributionIds byId then
    .error (.composition "duplicate_contribution" [c.contributionId])
  else .ok (if c.isFor profileId profileVersion then byId ++ [c] else byId)

def matchingContributions (profileId profileVersion : String)
    (contributions : List EvidenceProfileContribution) :
    Except CompositionError (List EvidenceProfileContribution) :=
  contributions.foldlM (matchContribution profileId profileVersion) []

/-! ### Dependencies -/

/-- `contributions[contribution_id].requires_contributions` -/
def dependenciesOf (byId : List EvidenceProfileContribution) (id : String) : List String :=
  (byId.find? fun c => c.contributionId = id).elim [] EvidenceProfileContribution.requiresContributions

def walkFailed : WalkError String → CompositionError
  | .cycle id => .composition "dependency_cycle" [id]
  | .outOfFuel => .valueError "maximum recursion depth exceeded"

def validateContributionDependencies (byId : List EvidenceProfileContribution) : Except CompositionError Unit := do
  byId.forM fun c => c.requiresContributions.forM fun id =>
    require (id ∈ contributionIds byId) (.composition "missing_dependency" [c.contributionId, id])
  let _ ← (visitAll (dependenciesOf byId) (byId.length + 1) (contributionIds byId)).mapError walkFailed
  .ok ()

/-! ### Requirements -/

/-- The local variables of `_collect_profile_requirements`. -/
structure ProfileRequirements where
  stages : OrderedDict (String × Option String) RequiredEvidenceStage
  records : OrderedDict EvidenceFamily RequiredEvidenceRecord
  conflicts : List String
  runFields : List String
  requiresTerminal : Bool

def ProfileRequirements.empty : ProfileRequirements := ⟨.empty, .empty, [], [], false⟩

def stageKey (stage : RequiredEvidenceStage) : String × Option String := (stage.stageType, stage.provider)

/-- One round of `_collect_profile_requirements`. -/
def collectContribution (acc : ProfileRequirements) (c : EvidenceProfileContribution) : ProfileRequirements :=
  let (stages, conflicts) := gather stageKey
    (fun stage => c.contributionId ++ ":" ++ stage.stageType ++ " conflicts with existing")
    (acc.stages, acc.conflicts) c.stages
  let (records, conflicts) := gather RequiredEvidenceRecord.family
    (fun record => c.contributionId ++ ":" ++ record.family.value ++ " conflicts")
    (acc.records, conflicts) c.requiredRecords
  ⟨stages, records, conflicts, acc.runFields ++ c.requiredRunFields, acc.requiresTerminal || c.requiresTerminalEvent⟩

def collectProfileRequirements (byId : List EvidenceProfileContribution) :
    Except CompositionError ProfileRequirements :=
  let collected := byId.foldl collectContribution .empty
  if collected.conflicts = [] then .ok collected
  else .error (.composition "conflicting_requirements" collected.conflicts)

/-! ### Composition -/

/-- The constructor of a profile that is not for one pipeline. -/
def requiredProfile (profileId version : String) (stages : List RequiredEvidenceStage)
    (runTerminalEventTypes requiredRunFields : List String) (requiredRecords : List RequiredEvidenceRecord) :
    Except CompositionError RequiredEvidenceProfile :=
  if h : (isBlank profileId || isBlank version) = false then
    .ok { profileId, version, stages, runTerminalEventTypes, requiredRunFields, requiredRecords, ids_valid := h }
  else .error (.valueError "profile_id and version must be non-empty")

/-- `lambda s: (s.stage_type, s.provider or "")` -/
def stageOrder (stage : RequiredEvidenceStage) : String ×ₗ String :=
  toLex (stage.stageType, stage.provider.getD "")

/-- `compose_evidence_profile` once the matching contributions are known. -/
def composeMatching (profileId profileVersion : String) (required : List String)
    (byId : List EvidenceProfileContribution) : Except CompositionError ComposedEvidenceProfile :=
  let discovered := sortBy id (contributionIds byId)
  let missing := sortedSet (required.filter fun id => id ∉ contributionIds byId)
  if missing ≠ [] then do
    let unavailable ← requiredProfile profileId profileVersion [] ["run.terminal"]
      ["status", "started_at", "finished_at", "provider_run_id"] []
    .ok ⟨unavailable, required, discovered, missing, profileDigest unavailable required discovered, false⟩
  else do
    validateContributionDependencies byId
    let collected ← collectProfileRequirements byId
    let profile ← requiredProfile profileId profileVersion (sortBy stageOrder collected.stages.values)
      (if collected.requiresTerminal then ["run.terminal"] else []) (sortedSet collected.runFields)
      (sortBy (fun record => record.family.value) collected.records.values)
    .ok ⟨profile, required, discovered, [], profileDigest profile required discovered, true⟩

def composeEvidenceProfile (profileId profileVersion : String) (requiredContributionIds : List String)
    (contributions : List EvidenceProfileContribution) : Except CompositionError ComposedEvidenceProfile := do
  let required := sortedSet requiredContributionIds
  require (∀ id ∈ required, id ≠ "") (.composition "blank_contribution_id" required)
  let byId ← matchingContributions profileId profileVersion contributions
  composeMatching profileId profileVersion required byId

/-! ### Which contributions are taken -/

section

variable {profileId profileVersion : String}

def contributionsFor (profileId profileVersion : String) (contributions : List EvidenceProfileContribution) :
    List EvidenceProfileContribution :=
  contributions.filter (·.isFor profileId profileVersion)

theorem contributionsFor_cons (c : EvidenceProfileContribution) (contributions : List EvidenceProfileContribution) :
    contributionsFor profileId profileVersion (c :: contributions) =
      contributionsFor profileId profileVersion [c] ++ contributionsFor profileId profileVersion contributions :=
  List.filter_append [c] contributions

variable {byId contributions : List EvidenceProfileContribution}

theorem matchContribution_new {c : EvidenceProfileContribution} (h : c.contributionId ∉ contributionIds byId) :
    matchContribution profileId profileVersion byId c =
      .ok (byId ++ contributionsFor profileId profileVersion [c]) := by
  unfold matchContribution contributionsFor
  rw [if_neg h]
  cases hfor : c.isFor profileId profileVersion with
  | true => rw [if_pos rfl, List.filter_cons_of_pos hfor, List.filter_nil]
  | false =>
    rw [if_neg Bool.false_ne_true, List.filter_cons_of_neg (by rw [hfor]; exact Bool.false_ne_true),
      List.filter_nil, List.append_nil]

theorem foldlM_match_cases (contributions byId : List EvidenceProfileContribution) :
    contributions.foldlM (matchContribution profileId profileVersion) byId =
        .ok (byId ++ contributionsFor profileId profileVersion contributions) ∨
      ∃ id, contributions.foldlM (matchContribution profileId profileVersion) byId =
        .error (.composition "duplicate_contribution" [id]) := by
  induction contributions generalizing byId with
  | nil => exact Or.inl (congrArg Except.ok (List.append_nil byId).symm)
  | cons c contributions ih =>
    rw [List.foldlM_cons]
    by_cases hid : c.contributionId ∈ contributionIds byId
    · right
      refine ⟨c.contributionId, ?_⟩
      rw [matchContribution, if_pos hid]
      rfl
    · rw [matchContribution_new hid, ok_bind, contributionsFor_cons c contributions, ← List.append_assoc]
      exact ih _

theorem foldlM_match_nodup {taken : List EvidenceProfileContribution} (hbyId : (contributionIds byId).Nodup)
    (h : contributions.foldlM (matchContribution profileId profileVersion) byId = .ok taken) :
    (contributionIds taken).Nodup := by
  have hround : ∀ byId c next, (contributionIds byId).Nodup →
      matchContribution profileId profileVersion byId c = .ok next → (contributionIds next).Nodup := by
    intro byId c next hnodup hnext
    unfold matchContribution at hnext
    split_ifs at hnext with hid hfor
    · rw [← Except.ok.inj hnext, contributionIds, List.map_append, List.map_singleton]
      exact List.nodup_append_comm.1 (List.nodup_cons.2 ⟨hid, hnodup⟩)
    · rw [← Except.ok.inj hnext]
      exact hnodup
  exact foldlM_inv hround hbyId h

def Clash (profileId profileVersion : String) (contributions : List EvidenceProfileContribution) : Prop :=
  ∃ other ∈ contributions, other.isFor profileId profileVersion = false ∧
    other.contributionId ∈ contributionIds (contributionsFor profileId profileVersion contributions)

theorem foldlM_match_ok
    (hnodup : (contributionIds (byId ++ contributionsFor profileId profileVersion contributions)).Nodup)
    (hclash : ∀ other ∈ contributions, other.isFor profileId profileVersion = false → other.contributionId ∉ contributionIds (byId ++ contributionsFor profileId profileVersion contributions)) :
    contributions.foldlM (matchContribution profileId profileVersion) byId =
      .ok (byId ++ contributionsFor profileId profileVersion contributions) := by
  induction contributions generalizing byId with
  | nil => exact congrArg Except.ok (List.append_nil byId).symm
  | cons c contributions ih =>
    have hid : c.contributionId ∉ contributionIds byId := by
      intro hmem
      cases hfor : c.isFor profileId profileVersion with
      | true =>
        have hone : contributionsFor profileId profileVersion (c :: contributions) =
            c :: contributionsFor profileId profileVersion contributions := List.filter_cons_of_pos hfor
        rw [hone, contributionIds, List.map_append, List.map_cons] at hnodup
        exact (List.nodup_append.1 hnodup).2.2 _ hmem _ List.mem_cons_self rfl
      | false =>
        refine hclash c List.mem_cons_self hfor ?_
        rw [contributionIds, List.map_append]
        exact List.mem_append_left _ hmem
    rw [List.foldlM_cons, matchContribution_new hid, ok_bind]
    rw [contributionsFor_cons c contributions, ← List.append_assoc] at hnodup hclash ⊢
    exact ih hnodup fun other hother => hclash other (List.mem_cons_of_mem _ hother)

theorem matching_ok (hnodup : (contributionIds (contributionsFor profileId profileVersion contributions)).Nodup)
    (hclash : ¬Clash profileId profileVersion contributions) :
    matchingContributions profileId profileVersion contributions =
      .ok (contributionsFor profileId profileVersion contributions) :=
  foldlM_match_ok hnodup fun other hother hfor hmem => hclash ⟨other, hother, hfor, hmem⟩

/-- Two matching contributions with one identifier are refused. -/
theorem matching_duplicate (h : ¬(contributionIds (contributionsFor profileId profileVersion contributions)).Nodup) :
    ∃ id, matchingContributions profileId profileVersion contributions =
      .error (.composition "duplicate_contribution" [id]) :=
  (foldlM_match_cases contributions []).resolve_left fun hok =>
    h (foldlM_match_nodup (show (contributionIds []).Nodup from List.nodup_nil) hok)

end

/-! ### Which dependencies are refused -/

def DependenciesPresent (byId : List EvidenceProfileContribution) : Prop :=
  ∀ c ∈ byId, ∀ id ∈ c.requiresContributions, id ∈ contributionIds byId

def DependenciesAcyclic (byId : List EvidenceProfileContribution) : Prop :=
  ∀ id ∈ contributionIds byId, ¬TransGen (Asks (dependenciesOf byId)) id id

theorem dependenciesOf_closed {byId : List EvidenceProfileContribution} (h : DependenciesPresent byId) (id : String) :
    ∀ d ∈ dependenciesOf byId id, d ∈ contributionIds byId := by
  intro d hd
  unfold dependenciesOf at hd
  cases hfind : byId.find? fun c => c.contributionId = id with
  | none =>
    rw [hfind] at hd
    cases hd
  | some c =>
    rw [hfind] at hd
    exact h c (List.mem_of_find?_eq_some hfind) d hd

theorem validate_of_missing {byId : List EvidenceProfileContribution} (h : ¬DependenciesPresent byId) :
    ∃ e, validateContributionDependencies byId = .error e ∧ e.code = "missing_dependency" := by
  have hraises : Raises (fun e => e.code = "missing_dependency") (byId.forM fun c =>
      c.requiresContributions.forM fun id => require (id ∈ contributionIds byId)
        (CompositionError.composition "missing_dependency" [c.contributionId, id])) :=
    raises_listForM fun c _ => raises_listForM fun id _ => raises_require rfl
  obtain ⟨e, he, hcode⟩ := hraises.exists_error fun u hok => h fun c hc id hid => by
    have hone := listForM_eq_ok.1 (listForM_eq_ok.1 hok c hc) id hid
    exact require_eq_ok.1 hone
  refine ⟨e, ?_, hcode⟩
  unfold validateContributionDependencies
  rw [he]
  rfl

theorem validate_of_present {byId : List EvidenceProfileContribution} (h : DependenciesPresent byId) :
    (DependenciesAcyclic byId → validateContributionDependencies byId = .ok ()) ∧ (¬DependenciesAcyclic byId →
        ∃ e, validateContributionDependencies byId = .error e ∧ e.code = "dependency_cycle") := by
  have hchecks : (byId.forM fun c => c.requiresContributions.forM fun id =>
      require (id ∈ contributionIds byId)
        (CompositionError.composition "missing_dependency" [c.contributionId, id])) = .ok () :=
    listForM_eq_ok.2 fun c hc => listForM_eq_ok.2 fun id hid => require_eq_ok.2 (h c hc id hid)
  have hfuel : (contributionIds byId).length < byId.length + 1 := by
    rw [contributionIds, List.length_map]
    exact Nat.lt_succ_self _
  have hclosed : ∀ k ∈ contributionIds byId, ∀ m ∈ dependenciesOf byId k, m ∈ contributionIds byId :=
    fun k _ => dependenciesOf_closed h k
  have hwalk := visitAll_ok_iff hclosed hfuel
  unfold validateContributionDependencies
  rw [hchecks, ok_bind]
  constructor
  · intro hacyclic
    obtain ⟨visited, hvisited⟩ := hwalk.2 hacyclic
    rw [hvisited]
    rfl
  · intro hcyclic
    cases hvisit : visitAll (dependenciesOf byId) (byId.length + 1) (contributionIds byId) with
    | ok visited => exact absurd (hwalk.1 ⟨visited, hvisit⟩) hcyclic
    | error e =>
      obtain ⟨⟨k, rfl⟩, -⟩ := visitAll_raises hclosed hfuel e hvisit
      exact ⟨_, rfl, rfl⟩

/-! ### What is collected -/

theorem collectContribution_conflicts {acc : ProfileRequirements} (h : acc.conflicts ≠ [])
    (byId : List EvidenceProfileContribution) : (byId.foldl collectContribution acc).conflicts ≠ [] := by
  induction byId generalizing acc with
  | nil => exact h
  | cons c byId ih => exact ih (gather_ne_nil (gather_ne_nil h))

/-- After contributions whose stages `ss` and records `rs` have been gathered. -/
theorem collect_spec {byId : List EvidenceProfileContribution} {acc : ProfileRequirements}
    {ss : List RequiredEvidenceStage} {rs : List RequiredEvidenceRecord}
    (hs : Gathers stageKey ss acc.stages) (hr : Gathers RequiredEvidenceRecord.family rs acc.records) :
    ((byId.foldl collectContribution acc).conflicts = [] ↔ acc.conflicts = [] ∧
      Coherent stageKey (ss ++ byId.flatMap EvidenceProfileContribution.stages) ∧
      Coherent RequiredEvidenceRecord.family (rs ++ byId.flatMap EvidenceProfileContribution.requiredRecords)) ∧
    ((byId.foldl collectContribution acc).conflicts = [] →
      Gathers stageKey (ss ++ byId.flatMap EvidenceProfileContribution.stages)
        (byId.foldl collectContribution acc).stages ∧
      Gathers RequiredEvidenceRecord.family (rs ++ byId.flatMap EvidenceProfileContribution.requiredRecords)
        (byId.foldl collectContribution acc).records) := by
  induction byId generalizing acc ss rs with
  | nil =>
    rw [List.flatMap_nil, List.flatMap_nil, List.append_nil, List.append_nil]
    exact ⟨⟨fun h => ⟨h, hs.coherent, hr.coherent⟩, fun h => h.1⟩, fun _ => ⟨hs, hr⟩⟩
  | cons c byId ih =>
    rw [List.foldl_cons, List.flatMap_cons, List.flatMap_cons, ← List.append_assoc, ← List.append_assoc]
    have hmiddle : ((gather stageKey
          (fun stage => c.contributionId ++ ":" ++ stage.stageType ++ " conflicts with existing")
          (acc.stages, acc.conflicts) c.stages).2 = [] ↔
          acc.conflicts = [] ∧ Coherent stageKey (ss ++ c.stages)) ∧ _ := gather_notes hs
    have hlast : ((collectContribution acc c).conflicts = [] ↔
          (gather stageKey
            (fun stage => c.contributionId ++ ":" ++ stage.stageType ++ " conflicts with existing")
            (acc.stages, acc.conflicts) c.stages).2 = [] ∧
            Coherent RequiredEvidenceRecord.family (rs ++ c.requiredRecords)) ∧ _ := gather_notes hr
    by_cases hnil : (collectContribution acc c).conflicts = []
    · have hboth := hlast.1.1 hnil
      have hstages : Gathers stageKey (ss ++ c.stages) (collectContribution acc c).stages := hmiddle.2 hboth.1
      have hrecords : Gathers RequiredEvidenceRecord.family (rs ++ c.requiredRecords)
          (collectContribution acc c).records := hlast.2 hnil
      have hrest := ih hstages hrecords
      refine ⟨⟨fun h => ?_, fun h => ?_⟩, hrest.2⟩
      · exact ⟨(hmiddle.1.1 hboth.1).1, (hrest.1.1 h).2⟩
      · exact hrest.1.2 ⟨hnil, h.2⟩
    · have hnever := collectContribution_conflicts hnil byId
      refine ⟨⟨fun h => absurd h hnever, fun h => ?_⟩, fun h => absurd h hnever⟩
      refine absurd (hlast.1.2 ⟨hmiddle.1.2 ⟨h.1, ?_⟩, ?_⟩) hnil
      · exact h.2.1.subset (List.subset_append_left _ _)
      · exact h.2.2.subset (List.subset_append_left _ _)

theorem collect_runFields (byId : List EvidenceProfileContribution) (acc : ProfileRequirements) :
    (byId.foldl collectContribution acc).runFields =
        acc.runFields ++ byId.flatMap EvidenceProfileContribution.requiredRunFields ∧
      (byId.foldl collectContribution acc).requiresTerminal =
        (acc.requiresTerminal || byId.any EvidenceProfileContribution.requiresTerminalEvent) := by
  induction byId generalizing acc with
  | nil => exact ⟨(List.append_nil _).symm, (Bool.or_false _).symm⟩
  | cons c byId ih =>
    obtain ⟨hfields, hterminal⟩ := ih (collectContribution acc c)
    rw [List.foldl_cons, hfields, hterminal, List.flatMap_cons, List.any_cons, ← List.append_assoc, ← Bool.or_assoc]
    exact ⟨rfl, rfl⟩

end Phlo.RunEvidence
