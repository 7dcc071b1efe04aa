import Phlo.RunEvidence.ProfileComposition

/-!
# Profiles and the order of their contributions

A profile is to depend on which contributions there are for it, not on the order in which plugins are found
or on contributions for other profiles.

* `composeMatching_perm` — a composition of given contributions does not depend on their order when stages
  can be told apart by their sort key;
* `foreign_identifier_decides_by_order` — a contribution for another profile that makes the order matter.
-/

namespace Phlo.RunEvidence

open Phlo.Library Relation

/-! ### Results -/

def outcomeOf (result : Except CompositionError ComposedEvidenceProfile) : Except String ComposedEvidenceProfile :=
  result.mapError CompositionError.code

def Stable (profileId profileVersion : String) (required : List String)
    (contributions : List EvidenceProfileContribution) : Prop :=
  (∀ permuted : List EvidenceProfileContribution, permuted.Perm contributions →
    outcomeOf (composeEvidenceProfile profileId profileVersion required permuted) =
      outcomeOf (composeEvidenceProfile profileId profileVersion required contributions)) ∧
  outcomeOf (composeEvidenceProfile profileId profileVersion required
      (contributionsFor profileId profileVersion contributions)) =
    outcomeOf (composeEvidenceProfile profileId profileVersion required contributions)

/-- The contributions that are required are there, with what they depend on, and agree with each other. -/
structure Composable (required : List String) (byId : List EvidenceProfileContribution) : Prop where
  complete : ∀ id ∈ required, id ∈ contributionIds byId
  present : DependenciesPresent byId
  acyclic : DependenciesAcyclic byId
  stages_agree : Coherent stageKey (byId.flatMap EvidenceProfileContribution.stages)
  records_agree : Coherent RequiredEvidenceRecord.family (byId.flatMap EvidenceProfileContribution.requiredRecords)

/-- No type of stages is asked for without a provider and with the empty text as provider. -/
def ToldApart (byId : List EvidenceProfileContribution) : Prop :=
  ∀ stage ∈ byId.flatMap EvidenceProfileContribution.stages,
    ∀ other ∈ byId.flatMap EvidenceProfileContribution.stages,
      stageOrder stage = stageOrder other → stage.provider = other.provider

/-! ### Permuted contributions -/

section

variable {byId permuted : List EvidenceProfileContribution}

theorem find?_perm (hnodup : (contributionIds byId).Nodup) (hperm : byId.Perm permuted) (id : String) :
    byId.find? (fun c => c.contributionId = id) = permuted.find? fun c => c.contributionId = id := by
  have hfind : ∀ {l : List EvidenceProfileContribution}, (contributionIds l).Nodup → ∀ c,
      l.find? (fun c => c.contributionId = id) = some c ↔ c ∈ l ∧ c.contributionId = id := by
    intro l hl c
    constructor
    · intro h
      exact ⟨List.mem_of_find?_eq_some h, by simpa using List.find?_some h⟩
    · rintro ⟨hc, hid⟩
      cases h : l.find? fun c => c.contributionId = id with
      | none => exact absurd (List.find?_eq_none.1 h c hc) (by simp [hid])
      | some first =>
        have hfirst : first.contributionId = id := by simpa using List.find?_some h
        rw [List.inj_on_of_nodup_map hl (List.mem_of_find?_eq_some h) hc (hfirst.trans hid.symm)]
  have hnodup' : (contributionIds permuted).Nodup := (hperm.map _).nodup_iff.1 hnodup
  ext c
  rw [hfind hnodup, hfind hnodup', hperm.mem_iff]

theorem dependenciesOf_perm (hnodup : (contributionIds byId).Nodup) (hperm : byId.Perm permuted) :
    dependenciesOf byId = dependenciesOf permuted := by
  funext id
  rw [dependenciesOf, dependenciesOf, find?_perm hnodup hperm]

theorem mem_contributionIds_perm (hperm : byId.Perm permuted) {id : String} :
    id ∈ contributionIds byId ↔ id ∈ contributionIds permuted := (hperm.map _).mem_iff

theorem DependenciesPresent.perm (h : DependenciesPresent byId) (hperm : byId.Perm permuted) :
    DependenciesPresent permuted := fun c hc id hid =>
  (mem_contributionIds_perm hperm).1 (h c (hperm.mem_iff.2 hc) id hid)

theorem DependenciesAcyclic.perm (hnodup : (contributionIds byId).Nodup) (h : DependenciesAcyclic byId)
    (hperm : byId.Perm permuted) : DependenciesAcyclic permuted := by
  intro id hid
  rw [← dependenciesOf_perm hnodup hperm]
  exact h id ((mem_contributionIds_perm hperm).2 hid)

theorem Composable.perm {required : List String} (hnodup : (contributionIds byId).Nodup)
    (h : Composable required byId) (hperm : byId.Perm permuted) : Composable required permuted where
  complete id hid := (mem_contributionIds_perm hperm).1 (h.complete id hid)
  present := h.present.perm hperm
  acyclic := h.acyclic.perm hnodup hperm
  stages_agree := h.stages_agree.subset (hperm.flatMap_right _).symm.subset
  records_agree := h.records_agree.subset (hperm.flatMap_right _).symm.subset

/-! ### Permuted requirements -/

theorem family_value_injective : Function.Injective EvidenceFamily.value := by
  intro f f' h
  cases f <;> cases f' <;> first | rfl | exact absurd h (by decide)

theorem sortBy_gathered {κ α β : Type} [DecidableEq κ] [LinearOrder β] {key : α → κ} {order : α → β}
    {items items' : List α} {d d' : OrderedDict κ α} (h : Gathers key items d) (h' : Gathers key items' d')
    (hsame : ∀ a, a ∈ items ↔ a ∈ items') (horder : ∀ a ∈ items, ∀ b ∈ items, order a = order b → key a = key b) :
    sortBy order d.values = sortBy order d'.values := by
  have hget : ∀ k, d.get k = d'.get k := by
    intro k
    ext a
    rw [h k a, h' k a, hsame]
  refine sortBy_eq_of_perm order ((items_perm_of_get hget).map Prod.snd) ?_
  rw [OrderedDict.values, List.map_map]
  refine List.Nodup.map_on (fun x hx y hy hxy => ?_) d.nodup.of_map
  obtain ⟨hx, hxkey⟩ := (h x.1 x.2).1 (OrderedDict.get_eq_some_iff.2 hx)
  obtain ⟨hy, hykey⟩ := (h y.1 y.2).1 (OrderedDict.get_eq_some_iff.2 hy)
  have hkey := horder x.2 hx y.2 hy hxy
  exact Prod.ext (hxkey.symm.trans (hkey.trans hykey)) (h.coherent x.2 hx y.2 hy hkey)

theorem stageKey_of_stageOrder (h : ToldApart byId) : ∀ stage ∈ byId.flatMap EvidenceProfileContribution.stages,
      ∀ other ∈ byId.flatMap EvidenceProfileContribution.stages,
        stageOrder stage = stageOrder other → stageKey stage = stageKey other := by
  intro stage hstage other hother horder
  have htype : stage.stageType = other.stageType := congrArg (fun o => (ofLex o).1) horder
  exact Prod.ext htype (h stage hstage other hother horder)

theorem collected_gathers (byId : List EvidenceProfileContribution) :
    ((byId.foldl collectContribution .empty).conflicts = [] ↔
      Coherent stageKey (byId.flatMap EvidenceProfileContribution.stages) ∧
      Coherent RequiredEvidenceRecord.family (byId.flatMap EvidenceProfileContribution.requiredRecords)) ∧
    ((byId.foldl collectContribution .empty).conflicts = [] →
      Gathers stageKey (byId.flatMap EvidenceProfileContribution.stages)
        (byId.foldl collectContribution .empty).stages ∧
      Gathers RequiredEvidenceRecord.family (byId.flatMap EvidenceProfileContribution.requiredRecords)
        (byId.foldl collectContribution .empty).records) := by
  have hstages : Gathers stageKey [] ProfileRequirements.empty.stages := gathers_empty
  have hrecords : Gathers RequiredEvidenceRecord.family [] ProfileRequirements.empty.records := gathers_empty
  have hspec := @collect_spec byId _ _ _ hstages hrecords
  exact ⟨⟨fun h => (hspec.1.1 h).2, fun h => hspec.1.2 ⟨rfl, h⟩⟩, hspec.2⟩

theorem conflicts_perm (hperm : byId.Perm permuted) (h : (byId.foldl collectContribution .empty).conflicts = []) :
    (permuted.foldl collectContribution .empty).conflicts = [] := by
  obtain ⟨hs, hr⟩ := (collected_gathers byId).1.1 h
  refine (collected_gathers permuted).1.2 ⟨hs.subset fun _ h => ?_, hr.subset fun _ h => ?_⟩
  · exact (hperm.flatMap_right _).mem_iff.2 h
  · exact (hperm.flatMap_right _).mem_iff.2 h

variable {profileId profileVersion : String} {required : List String}

theorem composeMatching_perm (hnodup : (contributionIds byId).Nodup) (hperm : byId.Perm permuted)
    (happart : Composable required byId → ToldApart byId) :
    outcomeOf (composeMatching profileId profileVersion required byId) =
      outcomeOf (composeMatching profileId profileVersion required permuted) := by
  have hdiscovered : sortBy id (contributionIds byId) = sortBy id (contributionIds permuted) :=
    sortBy_eq_of_perm id (hperm.map _) (by rw [List.map_id]; exact hnodup)
  have hmissing : required.filter (fun id => id ∉ contributionIds byId) =
      required.filter fun id => id ∉ contributionIds permuted := by
    refine List.filter_congr fun id _ => ?_
    rw [decide_eq_decide, mem_contributionIds_perm hperm]
  unfold composeMatching
  rw [hdiscovered, hmissing]
  by_cases hcomplete : sortedSet (required.filter fun id => id ∉ contributionIds permuted) = []
  swap
  · rw [if_pos hcomplete, if_pos hcomplete]
  rw [if_neg (not_not.2 hcomplete), if_neg (not_not.2 hcomplete)]
  by_cases hpresent : DependenciesPresent byId
  swap
  · obtain ⟨e, he, hcode⟩ := validate_of_missing hpresent
    obtain ⟨e', he', hcode'⟩ := validate_of_missing fun h => hpresent (h.perm hperm.symm)
    rw [he, he']
    exact congrArg Except.error (hcode.trans hcode'.symm)
  have hpresent' := hpresent.perm hperm
  have hnodup' : (contributionIds permuted).Nodup := (hperm.map _).nodup_iff.1 hnodup
  by_cases hacyclic : DependenciesAcyclic byId
  swap
  · obtain ⟨e, he, hcode⟩ := (validate_of_present hpresent).2 hacyclic
    obtain ⟨e', he', hcode'⟩ := (validate_of_present hpresent').2 fun h => hacyclic (h.perm hnodup' hperm.symm)
    rw [he, he']
    exact congrArg Except.error (hcode.trans hcode'.symm)
  have hacyclic' := hacyclic.perm hnodup hperm
  rw [(validate_of_present hpresent).1 hacyclic, (validate_of_present hpresent').1 hacyclic', ok_bind, ok_bind]
  have hstages : ∀ stage, stage ∈ byId.flatMap EvidenceProfileContribution.stages ↔
      stage ∈ permuted.flatMap EvidenceProfileContribution.stages := fun _ => (hperm.flatMap_right _).mem_iff
  have hrecords : ∀ record, record ∈ byId.flatMap EvidenceProfileContribution.requiredRecords ↔
      record ∈ permuted.flatMap EvidenceProfileContribution.requiredRecords :=
    fun _ => (hperm.flatMap_right _).mem_iff
  unfold collectProfileRequirements
  dsimp only
  by_cases hconflicts : (byId.foldl collectContribution .empty).conflicts = []
  swap
  · rw [if_neg hconflicts, if_neg fun h => hconflicts (conflicts_perm hperm.symm h)]
    rfl
  have hconflicts' := conflicts_perm hperm hconflicts
  have hagree := (collected_gathers byId).1.1 hconflicts
  have hgathered := (collected_gathers byId).2 hconflicts
  have hgathered' := (collected_gathers permuted).2 hconflicts'
  have happart' : ToldApart byId := by
    refine happart ⟨fun id hid => ?_, hpresent, hacyclic, hagree.1, hagree.2⟩
    by_contra hnot
    have hmem : id ∈ required.filter fun id => id ∉ contributionIds permuted :=
      List.mem_filter.2 ⟨hid, decide_eq_true fun h => hnot ((mem_contributionIds_perm hperm).2 h)⟩
    rw [sortedSet_eq_nil] at hcomplete
    rw [hcomplete] at hmem
    cases hmem
  rw [if_pos hconflicts, if_pos hconflicts', ok_bind, ok_bind]
  have hsortedStages := sortBy_gathered hgathered.1 hgathered'.1 hstages (stageKey_of_stageOrder happart')
  have hfamily : ∀ record ∈ byId.flatMap EvidenceProfileContribution.requiredRecords,
      ∀ other ∈ byId.flatMap EvidenceProfileContribution.requiredRecords,
        (fun record : RequiredEvidenceRecord => record.family.value) record = other.family.value →
          record.family = other.family := fun _ _ _ _ h => family_value_injective h
  have hsortedRecords := sortBy_gathered hgathered.2 hgathered'.2 hrecords hfamily
  have hfields : sortedSet (byId.foldl collectContribution .empty).runFields =
      sortedSet (permuted.foldl collectContribution .empty).runFields := by
    rw [sortedSet_eq_iff]
    intro field
    rw [(collect_runFields byId .empty).1, (collect_runFields permuted .empty).1]
    exact (hperm.flatMap_right _).mem_iff
  have hterminal : (byId.foldl collectContribution .empty).requiresTerminal =
      (permuted.foldl collectContribution .empty).requiresTerminal := by
    rw [(collect_runFields byId .empty).2, (collect_runFields permuted .empty).2, hperm.any_eq]
  rw [hsortedStages, hsortedRecords, hfields, hterminal]

/-! ### What a composition of matching contributions fails with -/

theorem raises_requiredProfile {stages : List RequiredEvidenceStage} {types fields : List String}
    {records : List RequiredEvidenceRecord} : Raises (fun e => e.code ≠ "duplicate_contribution")
      (requiredProfile profileId profileVersion stages types fields records) := by
  intro e he
  unfold requiredProfile at he
  split at he
  · cases he
  · cases he
    decide

theorem raises_validate :
    Raises (fun e => e.code ≠ "duplicate_contribution") (validateContributionDependencies byId) := by
  intro e he
  by_cases hpresent : DependenciesPresent byId
  · by_cases hacyclic : DependenciesAcyclic byId
    · rw [(validate_of_present hpresent).1 hacyclic] at he
      cases he
    · obtain ⟨e', he', hcode⟩ := (validate_of_present hpresent).2 hacyclic
      rw [Except.error.inj (he.symm.trans he'), hcode]
      decide
  · obtain ⟨e', he', hcode⟩ := validate_of_missing hpresent
    rw [Except.error.inj (he.symm.trans he'), hcode]
    decide

/-- Identifiers clash only while contributions are matched. -/
theorem raises_composeMatching : Raises (fun e => e.code ≠ "duplicate_contribution")
      (composeMatching profileId profileVersion required byId) := by
  unfold composeMatching
  dsimp only
  split_ifs
  · exact raises_requiredProfile.bind fun _ _ => raises_ok
  · refine raises_validate.bind fun _ _ => Raises.bind ?_ fun _ _ =>
      raises_requiredProfile.bind fun _ _ => raises_ok
    intro e he
    unfold collectProfileRequirements at he
    dsimp only at he
    split_ifs at he
    cases he
    exact show "conflicting_requirements" ≠ "duplicate_contribution" by decide

end

/-! ### Contributions for other profiles -/

section

variable {profileId profileVersion : String} {required : List String} {contributions : List EvidenceProfileContribution}

theorem blank_iff : (∀ id ∈ sortedSet required, id ≠ "") ↔ "" ∉ required := by
  constructor
  · intro h hmem
    exact h "" ((mem_sortedSet required "").2 hmem) rfl
  · rintro h id hid rfl
    exact h ((mem_sortedSet required "").1 hid)

/-- A blank required identifier is refused before anything is matched. -/
theorem compose_of_blank (h : "" ∈ required) :
    composeEvidenceProfile profileId profileVersion required contributions =
      .error (.composition "blank_contribution_id" (sortedSet required)) := by
  unfold composeEvidenceProfile
  dsimp only
  rw [require, if_neg fun hall => blank_iff.1 hall h]
  rfl

theorem compose_of_not_blank (h : "" ∉ required) :
    composeEvidenceProfile profileId profileVersion required contributions =
      (matchingContributions profileId profileVersion contributions >>= fun byId =>
        composeMatching profileId profileVersion (sortedSet required) byId) := by
  unfold composeEvidenceProfile
  dsimp only
  rw [require, if_pos (blank_iff.2 h), ok_bind]

theorem compose_of_duplicate (h : "" ∉ required)
    (hdup : ¬(contributionIds (contributionsFor profileId profileVersion contributions)).Nodup) :
    outcomeOf (composeEvidenceProfile profileId profileVersion required contributions) =
      .error "duplicate_contribution" := by
  obtain ⟨id, hid⟩ := matching_duplicate hdup
  rw [compose_of_not_blank h, hid]
  rfl

theorem compose_of_own (h : "" ∉ required)
    (hnodup : (contributionIds (contributionsFor profileId profileVersion contributions)).Nodup)
    (hclash : ¬Clash profileId profileVersion contributions) :
    composeEvidenceProfile profileId profileVersion required contributions =
      composeMatching profileId profileVersion (sortedSet required)
        (contributionsFor profileId profileVersion contributions) := by
  rw [compose_of_not_blank h, matching_ok hnodup hclash, ok_bind]

theorem contributionsFor_idem :
    contributionsFor profileId profileVersion (contributionsFor profileId profileVersion contributions) =
      contributionsFor profileId profileVersion contributions := by
  unfold contributionsFor
  rw [List.filter_filter]
  simp only [Bool.and_self]

theorem not_clash_contributionsFor :
    ¬Clash profileId profileVersion (contributionsFor profileId profileVersion contributions) := by
  rintro ⟨other, hother, hfor, -⟩
  rw [(List.mem_filter.1 hother).2] at hfor
  cases hfor

theorem Clash.perm {permuted : List EvidenceProfileContribution}
    (h : Clash profileId profileVersion contributions) (hperm : contributions.Perm permuted) :
    Clash profileId profileVersion permuted := by
  obtain ⟨other, hother, hfor, hid⟩ := h
  exact ⟨other, hperm.mem_iff.1 hother, hfor, (mem_contributionIds_perm (hperm.filter _)).1 hid⟩

/-- Two members can be brought to the front. -/
theorem exists_perm_cons_cons {α : Type} {l : List α} {a b : α} (ha : a ∈ l) (hb : b ∈ l) (hne : a ≠ b) :
    ∃ rest, (a :: b :: rest).Perm l := by
  obtain ⟨front, back, rfl⟩ := List.append_of_mem ha
  have hb' : b ∈ front ++ back := by
    rcases List.mem_append.1 hb with hb | hb
    · exact List.mem_append_left _ hb
    · exact List.mem_append_right _ ((List.mem_cons.1 hb).resolve_left hne.symm)
  obtain ⟨front', back', heq⟩ := List.append_of_mem hb'
  refine ⟨front' ++ back', List.Perm.trans ?_ List.perm_middle.symm⟩
  rw [heq]
  exact (List.perm_middle.symm).cons a

/-- An identifier that clashes makes the result depend on what comes first, or on what is left out. -/
theorem not_stable_of_clash (h : "" ∉ required)
    (hnodup : (contributionIds (contributionsFor profileId profileVersion contributions)).Nodup)
    (hclash : Clash profileId profileVersion contributions) :
    ¬Stable profileId profileVersion required contributions := by
  rintro ⟨hperms, hown⟩
  obtain ⟨other, hother, hfor, hid⟩ := hclash
  obtain ⟨c, hc, heq⟩ := List.mem_map.1 hid
  obtain ⟨hc, hmatch⟩ := List.mem_filter.1 hc
  have hne : c ≠ other := by
    rintro rfl
    rw [hfor] at hmatch
    cases hmatch
  obtain ⟨rest, hrest⟩ := exists_perm_cons_cons hc hother hne
  have hfirst : matchContribution profileId profileVersion [] c = .ok [c] := by
    rw [matchContribution, if_neg (show c.contributionId ∉ contributionIds [] from List.not_mem_nil), if_pos hmatch]
    rfl
  have hsecond : matchContribution profileId profileVersion [c] other =
      .error (.composition "duplicate_contribution" [other.contributionId]) := by
    rw [matchContribution, if_pos]
    exact List.mem_singleton.2 heq.symm
  have hrefused : outcomeOf (composeEvidenceProfile profileId profileVersion required (c :: other :: rest)) =
      .error "duplicate_contribution" := by
    rw [compose_of_not_blank h, matchingContributions, List.foldlM_cons, hfirst, ok_bind, List.foldlM_cons, hsecond]
    rfl
  rw [hperms _ hrest, ← hown, compose_of_own h (by rw [contributionsFor_idem]; exact hnodup)
    not_clash_contributionsFor, contributionsFor_idem] at hrefused
  cases hresult : composeMatching profileId profileVersion (sortedSet required)
      (contributionsFor profileId profileVersion contributions) with
  | ok composed =>
    rw [hresult] at hrefused
    cases hrefused
  | error e =>
    rw [hresult] at hrefused
    exact raises_composeMatching e hresult (Except.error.inj hrefused)

/-! ### Stages that are not told apart -/

theorem prefix_collect (byId : List EvidenceProfileContribution) (acc : ProfileRequirements) :
    acc.stages.items.map Prod.fst <+: (byId.foldl collectContribution acc).stages.items.map Prod.fst := by
  induction byId generalizing acc with
  | nil => exact List.prefix_rfl
  | cons c byId ih => exact prefix_keys_gather.trans (ih (collectContribution acc c))

/-- The stages of the first contribution stand before those that only a later one has. -/
theorem pair_sublist_stages {first second : EvidenceProfileContribution} {rest : List EvidenceProfileContribution}
    {stage other : RequiredEvidenceStage} (hstage : stage ∈ first.stages) (hother : other ∈ second.stages)
    (hnew : ∀ s ∈ first.stages, stageKey s ≠ stageKey other)
    (hconflicts : ((first :: second :: rest).foldl collectContribution .empty).conflicts = []) :
    [stage, other].Sublist ((first :: second :: rest).foldl collectContribution .empty).stages.values := by
  have hagree := (collected_gathers _).1.1 hconflicts
  have hgathered := ((collected_gathers _).2 hconflicts).1
  have hpart : ∀ {part : List EvidenceProfileContribution}, part ⊆ first :: second :: rest →
      (part.foldl collectContribution .empty).conflicts = [] := by
    intro part hpart
    refine (collected_gathers part).1.2 ⟨hagree.1.subset fun s hs => ?_, hagree.2.subset fun r hr => ?_⟩
    · obtain ⟨c, hc, hs⟩ := List.mem_flatMap.1 hs
      exact List.mem_flatMap.2 ⟨c, hpart hc, hs⟩
    · obtain ⟨c, hc, hr⟩ := List.mem_flatMap.1 hr
      exact List.mem_flatMap.2 ⟨c, hpart hc, hr⟩
  -- what one, two and all contributions leave in the dictionary
  have hone := ((collected_gathers [first]).2 (hpart (by simp))).1
  have htwo := ((collected_gathers [first, second]).2 (hpart (by simp))).1
  have hmemKeys : ∀ {items : List RequiredEvidenceStage} {d : OrderedDict (String × Option String) RequiredEvidenceStage},
      Gathers stageKey items d → ∀ s ∈ items, stageKey s ∈ d.items.map Prod.fst := by
    intro items d hd s hs
    exact List.mem_map.2 ⟨(stageKey s, s), OrderedDict.get_eq_some_iff.1 ((hd _ _).2 ⟨hs, rfl⟩), rfl⟩
  have hfirst : stageKey stage ∈ ([first].foldl collectContribution .empty).stages.items.map Prod.fst :=
    hmemKeys hone stage (by simpa using hstage)
  have hlater : stageKey other ∉ ([first].foldl collectContribution .empty).stages.items.map Prod.fst := by
    intro hmem
    obtain ⟨item, hitem, hkey⟩ := List.mem_map.1 hmem
    obtain ⟨hs, hskey⟩ := (hone item.1 item.2).1 (OrderedDict.get_eq_some_iff.2 hitem)
    exact hnew item.2 (by simpa using hs) (hskey.trans hkey)
  have hsecond : stageKey other ∈ ([first, second].foldl collectContribution .empty).stages.items.map Prod.fst :=
    hmemKeys htwo other (by simp [hother])
  have hprefix : ([first].foldl collectContribution .empty).stages.items.map Prod.fst <+:
      ([first, second].foldl collectContribution .empty).stages.items.map Prod.fst :=
    prefix_collect [second] (collectContribution .empty first)
  have hall : ([first, second].foldl collectContribution .empty).stages.items.map Prod.fst <+:
      ((first :: second :: rest).foldl collectContribution .empty).stages.items.map Prod.fst :=
    prefix_collect rest (collectContribution (collectContribution .empty first) second)
  have hkeys : [stageKey stage, stageKey other].Sublist
      (((first :: second :: rest).foldl collectContribution .empty).stages.items.map Prod.fst) := by
    obtain ⟨added, hadded⟩ := hprefix
    refine List.Sublist.trans ?_ hall.sublist
    rw [← hadded] at hsecond ⊢
    have hin : stageKey other ∈ added := (List.mem_append.1 hsecond).resolve_left hlater
    exact (List.singleton_sublist.2 hfirst).append (List.singleton_sublist.2 hin)
  refine pair_sublist_values hkeys ?_ ?_
  · exact (hgathered _ _).2 ⟨List.mem_flatMap.2 ⟨first, List.mem_cons_self, hstage⟩, rfl⟩
  · exact (hgathered _ _).2 ⟨List.mem_flatMap.2 ⟨second, List.mem_cons_of_mem _ List.mem_cons_self, hother⟩, rfl⟩

/-- A list without repetitions has two members in one order only. -/
theorem eq_of_pair_sublists {α : Type} {l : List α} {a b : α} (hnodup : l.Nodup) (hab : [a, b].Sublist l)
    (hba : [b, a].Sublist l) : a = b := by
  induction l with
  | nil => cases hab
  | cons x l ih =>
    obtain ⟨hx, hnodup⟩ := List.nodup_cons.1 hnodup
    rcases List.sublist_cons_iff.1 hab with hfirst | ⟨r, hr, -⟩
    · rcases List.sublist_cons_iff.1 hba with hsecond | ⟨r, hr, -⟩
      · exact ih hnodup hfirst hsecond
      · obtain ⟨rfl, -⟩ := List.cons.inj hr
        exact absurd (hfirst.subset (List.mem_cons_of_mem _ (List.mem_singleton_self _))) hx
    · obtain ⟨rfl, rfl⟩ := List.cons.inj hr
      rcases List.sublist_cons_iff.1 hba with hsecond | ⟨r', hr', -⟩
      · exact absurd (hsecond.subset (List.mem_cons_of_mem _ (List.mem_singleton_self _))) hx
      · exact (List.cons.inj hr').1.symm

theorem exists_composed {byId : List EvidenceProfileContribution} (h : Composable (sortedSet required) byId)
    (hvalid : (isBlank profileId || isBlank profileVersion) = false) :
    (byId.foldl collectContribution .empty).conflicts = [] ∧
      ∃ composed, composeMatching profileId profileVersion (sortedSet required) byId = .ok composed ∧
        composed.profile.stages = sortBy stageOrder (byId.foldl collectContribution .empty).stages.values ∧
        composed.profile.stages.Nodup := by
  have hconflicts := (collected_gathers byId).1.2 ⟨h.stages_agree, h.records_agree⟩
  have hcomplete : sortedSet ((sortedSet required).filter fun id => id ∉ contributionIds byId) = [] := by
    rw [sortedSet_eq_nil, List.filter_eq_nil_iff]
    intro id hid hnot
    exact of_decide_eq_true hnot (h.complete id hid)
  refine ⟨hconflicts, ?_⟩
  unfold composeMatching collectProfileRequirements requiredProfile
  dsimp only
  rw [if_neg (not_not.2 hcomplete), (validate_of_present h.present).1 h.acyclic, ok_bind, if_pos hconflicts, ok_bind,
    dif_pos hvalid, ok_bind]
  refine ⟨_, rfl, rfl, ?_⟩
  have hgathered := ((collected_gathers byId).2 hconflicts).1
  refine (sortBy_perm _ _).nodup_iff.2 ?_
  refine List.Nodup.map_on (fun x hx y hy hxy => ?_) (byId.foldl collectContribution .empty).stages.nodup.of_map
  obtain ⟨-, hxkey⟩ := (hgathered x.1 x.2).1 (OrderedDict.get_eq_some_iff.2 hx)
  obtain ⟨-, hykey⟩ := (hgathered y.1 y.2).1 (OrderedDict.get_eq_some_iff.2 hy)
  exact Prod.ext (hxkey.symm.trans ((congrArg stageKey hxy).trans hykey)) hxy

theorem not_stable_of_tie (h : "" ∉ required)
    (hnodup : (contributionIds (contributionsFor profileId profileVersion contributions)).Nodup)
    (hclash : ¬Clash profileId profileVersion contributions)
    (hcomposable : Composable (sortedSet required) (contributionsFor profileId profileVersion contributions))
    (htie : ¬ToldApart (contributionsFor profileId profileVersion contributions)) :
    ¬Stable profileId profileVersion required contributions := by
  rintro ⟨hperms, -⟩
  unfold ToldApart at htie
  push Not at htie
  obtain ⟨stage, hstage, other, hother, horder, hprovider⟩ := htie
  obtain ⟨first, hfirst, hstage⟩ := List.mem_flatMap.1 hstage
  obtain ⟨second, hsecond, hother⟩ := List.mem_flatMap.1 hother
  have htype : stage.stageType = other.stageType := congrArg (fun o => (ofLex o).1) horder
  have hdistinct : stage ≠ other := fun heq => hprovider (heq ▸ rfl)
  -- one contribution has one stage of a type
  have honly : ∀ {c : EvidenceProfileContribution} {s s' : RequiredEvidenceStage}, s ∈ c.stages → s' ∈ c.stages →
      s.stageType = s'.stageType → s = s' := fun {c _ _} hs hs' => List.inj_on_of_nodup_map c.stages_nodup hs hs'
  have hne : first ≠ second := by
    rintro rfl
    exact hdistinct (honly hstage hother htype)
  have hvalid : (isBlank profileId || isBlank profileVersion) = false := by
    have hmatch := (List.mem_filter.1 hfirst).2
    unfold EvidenceProfileContribution.isFor at hmatch
    rw [Bool.and_eq_true, beq_iff_eq, beq_iff_eq] at hmatch
    rw [← hmatch.1, ← hmatch.2]
    exact first.profile_valid
  have hkey : ∀ {c : EvidenceProfileContribution} {s s' : RequiredEvidenceStage}, s ∈ c.stages →
      s.stageType = s'.stageType → s.provider ≠ s'.provider → ∀ t ∈ c.stages, stageKey t ≠ stageKey s' := by
    intro c s s' hs hss' hp t ht hkey
    have htype' : t.stageType = s'.stageType := congrArg Prod.fst hkey
    have hts := honly ht hs (htype'.trans hss'.symm)
    exact hp (hts ▸ congrArg Prod.snd hkey)
  have hboth : ∀ {a b : EvidenceProfileContribution} {s s' : RequiredEvidenceStage},
      a ∈ contributionsFor profileId profileVersion contributions →
      b ∈ contributionsFor profileId profileVersion contributions → a ≠ b → s ∈ a.stages → s' ∈ b.stages →
      s.stageType = s'.stageType → s.provider ≠ s'.provider → stageOrder s = stageOrder s' →
      ∃ composed, outcomeOf (composeEvidenceProfile profileId profileVersion required contributions) = .ok composed ∧
        composed.profile.stages.Nodup ∧ [s, s'].Sublist composed.profile.stages := by
    intro a b s s' ha hb hab hs hs' hss' hp hord
    obtain ⟨ha', hafor⟩ := List.mem_filter.1 ha
    obtain ⟨hb', hbfor⟩ := List.mem_filter.1 hb
    obtain ⟨rest, hrest⟩ := exists_perm_cons_cons ha' hb' hab
    have hown : contributionsFor profileId profileVersion (a :: b :: rest) =
        a :: b :: contributionsFor profileId profileVersion rest := by
      unfold contributionsFor
      rw [List.filter_cons_of_pos hafor, List.filter_cons_of_pos hbfor]
    have hfor : (contributionsFor profileId profileVersion (a :: b :: rest)).Perm
        (contributionsFor profileId profileVersion contributions) := hrest.filter _
    have hcomposable' := hcomposable.perm hnodup hfor.symm
    obtain ⟨hconflicts, composed, hcomposed, hstages, hstagesNodup⟩ := exists_composed hcomposable' hvalid
    refine ⟨composed, ?_, hstagesNodup, ?_⟩
    · rw [← hperms _ hrest, compose_of_own h ((hfor.map _).nodup_iff.2 hnodup) fun hc => hclash (hc.perm hrest)]
      exact congrArg outcomeOf hcomposed
    · rw [hstages]
      refine List.sublist_insertionSort (List.pairwise_pair.2 hord.le) ?_
      rw [hown] at hconflicts ⊢
      exact pair_sublist_stages hs hs' (hkey hs hss' hp) hconflicts
  obtain ⟨composed, hcomposed, hnodupStages, hsub⟩ := hboth hfirst hsecond hne hstage hother htype hprovider horder
  obtain ⟨composed', hcomposed', -, hsub'⟩ :=
    hboth hsecond hfirst hne.symm hother hstage htype.symm (fun h => hprovider h.symm) horder.symm
  have heq : composed = composed' := Except.ok.inj (hcomposed.symm.trans hcomposed')
  rw [← heq] at hsub'
  exact hdistinct (eq_of_pair_sublists hnodupStages hsub hsub')

end

/-! ### Which compositions are stable -/

/-- A result depends on the contributions for the profile alone, and not on their order, exactly when none
of another profile or version has the identifier of one of them and no type of stages is asked for without
a provider and with an empty one. A blank required identifier and identifiers that clash among the
contributions of the profile are refused in any case. -/
theorem composition_stable_iff (profileId profileVersion : String) (required : List String)
    (contributions : List EvidenceProfileContribution) : Stable profileId profileVersion required contributions ↔
      "" ∈ required ∨ ¬(contributionIds (contributionsFor profileId profileVersion contributions)).Nodup ∨
      (¬Clash profileId profileVersion contributions ∧
        (Composable (sortedSet required) (contributionsFor profileId profileVersion contributions) →
          ToldApart (contributionsFor profileId profileVersion contributions))) := by
  by_cases hblank : "" ∈ required
  · refine ⟨fun _ => Or.inl hblank, fun _ => ⟨fun _ _ => ?_, ?_⟩⟩
    · rw [compose_of_blank hblank, compose_of_blank hblank]
    · rw [compose_of_blank hblank, compose_of_blank hblank]
  by_cases hnodup : (contributionIds (contributionsFor profileId profileVersion contributions)).Nodup
  swap
  · refine ⟨fun _ => Or.inr (Or.inl hnodup), fun _ => ⟨fun permuted hperm => ?_, ?_⟩⟩
    · have hdup : ¬(contributionIds (contributionsFor profileId profileVersion permuted)).Nodup :=
        fun h => hnodup (((hperm.filter _).map _).nodup_iff.1 h)
      rw [compose_of_duplicate hblank hdup, compose_of_duplicate hblank hnodup]
    · rw [compose_of_duplicate hblank hnodup, compose_of_duplicate hblank]
      rw [contributionsFor_idem]
      exact hnodup
  constructor
  · intro hstable
    refine Or.inr (Or.inr ?_)
    by_cases hclash : Clash profileId profileVersion contributions
    · exact absurd hstable (not_stable_of_clash hblank hnodup hclash)
    · refine ⟨hclash, fun hcomposable => ?_⟩
      by_contra htie
      exact not_stable_of_tie hblank hnodup hclash hcomposable htie hstable
  · intro h
    obtain ⟨hclash, happart⟩ := (h.resolve_left hblank).resolve_left (not_not.2 hnodup)
    refine ⟨fun permuted hperm => ?_, ?_⟩
    · have hfor : (contributionsFor profileId profileVersion contributions).Perm
          (contributionsFor profileId profileVersion permuted) := (hperm.filter _).symm
      rw [compose_of_own hblank hnodup hclash,
        compose_of_own hblank ((hfor.map _).nodup_iff.1 hnodup) fun hc => hclash (hc.perm hperm)]
      exact (composeMatching_perm hnodup hfor happart).symm
    · rw [compose_of_own hblank hnodup hclash, compose_of_own hblank _ not_clash_contributionsFor, contributionsFor_idem]
      rw [contributionsFor_idem]
      exact hnodup

def ordersIngestion : EvidenceProfileContribution where
  contributionId := "ingest"
  provider := "dlt"
  profileId := "orders"
  profileVersion := "1"

def paymentsIngestion : EvidenceProfileContribution where
  contributionId := "ingest"
  provider := "dlt"
  profileId := "payments"
  profileVersion := "1"

/-- Found after the orders contribution, the other one is a duplicate; found before it, it is left out. -/
theorem foreign_identifier_decides_by_order : ¬Stable "orders" "1" ["ingest"] [ordersIngestion, paymentsIngestion] ∧
      outcomeOf (composeEvidenceProfile "orders" "1" ["ingest"] [ordersIngestion, paymentsIngestion]) =
        .error "duplicate_contribution" ∧
      ∃ composed, composeEvidenceProfile "orders" "1" ["ingest"] [paymentsIngestion, ordersIngestion] =
        .ok composed := by
  have hrefused : outcomeOf (composeEvidenceProfile "orders" "1" ["ingest"] [ordersIngestion, paymentsIngestion]) =
      .error "duplicate_contribution" := rfl
  have hcomposed : ∃ composed, composeEvidenceProfile "orders" "1" ["ingest"] [paymentsIngestion, ordersIngestion] =
      .ok composed := ⟨_, rfl⟩
  refine ⟨fun hstable => ?_, hrefused, hcomposed⟩
  obtain ⟨composed, hcomposed⟩ := hcomposed
  have hsame := hstable.1 [paymentsIngestion, ordersIngestion] (List.Perm.swap _ _ _)
  rw [hrefused, hcomposed] at hsame
  cases hsame

end Phlo.RunEvidence
