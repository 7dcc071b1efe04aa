import Phlo.Operations.ActiveOperations
import Phlo.Operations.Backup

/-!
# When creating and verifying a backup set agree

`Sound` is what a set must be like for `verifyBackupSet` to accept it (`accepts_iff`).  Creating a set
enforces most of it, but not all: `Finished` is what is left to the caller and the contributors.

* `backup_agrees_iff` — when creation and verification agree;
* `undigested_not_verified` — a contributor that leaves the digest to the coordinator, as it may, makes a
  set that is accepted and does not verify.
-/

namespace Phlo.Operations

open Phlo.Library Phlo.Library.Program
open Phlo.RunEvidence (Dict Json)

variable {β : Type}

/-! ### What verification accepts -/

section

variable (enc : Encoding β) (tree : FileTree β) (setDir : List String)

/-- An artifact is on disk as declared. -/
structure Intact (artifact : BackupArtifact) : Prop where
  noLink : tree.isSymlink (FileTree.join setDir artifact.relativePath) = false
  content : ∃ path content, validateContainedPath tree setDir artifact.relativePath = .ok path ∧
    tree.readFile path = some content ∧ (enc.size content : ℤ) = artifact.sizeBytes ∧
    enc.sha256 content = artifact.sha256

/-- The set directory holds the artifacts, and nothing else but the manifest. -/
structure Complete (artifacts : List BackupArtifact) : Prop where
  intact : ∀ artifact ∈ artifacts, Intact enc tree setDir artifact
  nothing_else : ∀ path ∈ diskPaths tree setDir,
    path ∈ artifacts.map BackupArtifact.relativePath ∨ path = setManifestName

/-- What a manifest says of its contributors and of itself. -/
structure Consistent (manifest : BackupSetManifest) : Prop where
  covers : ∀ provider ∈ backupProviderOrder,
    provider ∈ manifest.contributors.map BackupContributorResult.provider
  known : ∀ provider ∈ manifest.contributors.map BackupContributorResult.provider,
    provider ∈ backupProviderOrder
  nodup : (manifest.contributors.map BackupContributorResult.provider).Nodup
  complete : manifest.complete = true
  succeeded : ∀ record ∈ manifest.contributors, record.state = .succeeded
  owner : manifest.sourceDeploymentId ≠ ""
  version : (manifest.versions.get "phlo").getD "" ≠ ""
  operation : ∀ record ∈ manifest.contributors, record.operationId ≠ "" →
    record.operationId = "backup.create:" ++ manifest.setId

def HoldsManifest (manifest : BackupSetManifest) : Prop :=
  ∃ content payload, tree.readPath (setDir ++ [setManifestName]) = some content ∧
    enc.loads content = some payload ∧ BackupSetManifest.fromDict payload = .ok manifest

def HoldsSet : Prop :=
  ∃ manifest, HoldsManifest enc tree setDir manifest ∧ Consistent manifest ∧
    Complete enc tree setDir manifest.artifacts

/-- Verification accepts the set. -/
def Accepts : Prop :=
  ∃ result, verifyBackupSet enc tree setDir none = .ok result ∧ result.accepted = true

end

section

variable {enc : Encoding β} {tree : FileTree β} {setDir : List String}

variable {manifest : BackupSetManifest}

theorem providerVerificationReasons_eq_nil : providerVerificationReasons manifest = [] ↔
      (∀ provider ∈ backupProviderOrder, provider ∈ manifest.contributors.map BackupContributorResult.provider) ∧
      (∀ provider ∈ manifest.contributors.map BackupContributorResult.provider, provider ∈ backupProviderOrder) ∧
      (manifest.contributors.map BackupContributorResult.provider).Nodup := by
  rw [providerVerificationReasons, List.append_eq_nil_iff, List.map_eq_nil_iff, List.filter_eq_nil_iff,
    List.flatMap_eq_nil_iff, List.nodup_iff_count_le_one]
  constructor
  · intro h
    obtain ⟨hmissing, hdeclared⟩ := h
    refine ⟨fun provider hmem => by simpa using hmissing provider hmem, fun provider hmem => ?_,
      fun provider => ?_⟩
    · by_contra hunknown
      have hreasons := hdeclared provider hmem
      rw [if_neg hunknown] at hreasons
      cases hreasons
    · by_contra hcount
      have hmem : provider ∈ manifest.contributors.map BackupContributorResult.provider :=
        List.count_pos_iff.1 (by omega)
      have hreasons := (List.append_eq_nil_iff.1 (hdeclared provider hmem)).2
      rw [if_pos (by omega)] at hreasons
      cases hreasons
  · intro h
    obtain ⟨hcovers, hknown, hcount⟩ := h
    refine ⟨fun provider hmem => by simpa using hcovers provider hmem, fun provider hmem => ?_⟩
    rw [if_pos (hknown provider hmem), if_neg (by have := hcount provider; omega)]
    rfl

theorem ite_singleton_eq_nil {α : Type} {c : Prop} [Decidable c] {a : α} : (if c then [a] else []) = [] ↔ ¬ c := by
  split
  next h => exact ⟨fun heq => (by cases heq), fun hc => absurd h hc⟩
  next h => exact ⟨fun _ => h, fun _ => rfl⟩

theorem length_dedup_le_one {l : List String} {text : String} (h : ∀ s ∈ l, s = text) : l.dedup.length ≤ 1 := by
  have hreplicate := List.eq_replicate_of_mem fun s hs => h s (List.mem_dedup.1 hs)
  have hnodup := List.nodup_dedup l
  rw [hreplicate] at hnodup
  exact List.nodup_replicate.1 hnodup

theorem manifestVerificationReasons_eq_nil : manifestVerificationReasons manifest none = [] ↔
      manifest.complete = true ∧ (∀ record ∈ manifest.contributors, record.state = .succeeded) ∧
      manifest.sourceDeploymentId ≠ "" ∧ (manifest.versions.get "phlo").getD "" ≠ "" ∧
      ∀ record ∈ manifest.contributors, record.operationId ≠ "" →
        record.operationId = "backup.create:" ++ manifest.setId := by
  have hstates : (¬ (!manifest.complete || manifest.contributors.any fun record =>
      record.state != .succeeded) = true) ↔ manifest.complete = true ∧
      ∀ record ∈ manifest.contributors, record.state = .succeeded := by
    rw [Bool.not_eq_true, Bool.or_eq_false_iff, Bool.not_eq_false', List.any_eq_false]
    simp only [bne_iff_ne, ne_eq, not_not]
  have howner : ¬ (manifest.sourceDeploymentId = "" ∨ ((none : Option String).isSome ∧
      some manifest.sourceDeploymentId ≠ none)) ↔ manifest.sourceDeploymentId ≠ "" := by
    constructor
    · exact fun h howner => h (Or.inl howner)
    · exact fun h hor => hor.elim h fun hsome => (by cases hsome.1)
  have hids : ∀ id, id ∈ (manifest.contributors.map BackupContributorResult.operationId).filter
      (· ≠ "") ↔ ∃ record ∈ manifest.contributors, record.operationId = id ∧ id ≠ "" := by
    intro id
    rw [List.mem_filter, List.mem_map, decide_eq_true_eq]
    constructor
    · intro h
      obtain ⟨⟨record, hmem, heq⟩, hne⟩ := h
      exact ⟨record, hmem, heq, hne⟩
    · intro h
      obtain ⟨record, hmem, heq, hne⟩ := h
      exact ⟨⟨record, hmem, heq⟩, hne⟩
  simp only [manifestVerificationReasons, List.append_eq_nil_iff, ite_singleton_eq_nil]
  rw [hstates, howner, and_assoc, and_assoc, and_assoc]
  refine and_congr_right fun _ => and_congr_right fun _ => and_congr_right fun _ =>
    and_congr_right fun _ => ?_
  constructor
  · intro h record hmem hne
    by_contra hother
    exact h (Or.inr ⟨record.operationId, (hids _).2 ⟨record, hmem, rfl, hne⟩, hother⟩)
  · intro h hor
    have hall : ∀ id ∈ (manifest.contributors.map BackupContributorResult.operationId).filter
        (· ≠ ""), id = "backup.create:" ++ manifest.setId := by
      intro id hid
      obtain ⟨record, hmem, rfl, hne⟩ := (hids id).1 hid
      exact h record hmem hne
    obtain hlength | ⟨id, hid, hother⟩ := hor
    · have := length_dedup_le_one hall
      omega
    · exact hother (hall id hid)

theorem artifactReasons_eq_nil {artifact : BackupArtifact} :
    artifactReasons enc tree setDir artifact = .ok [] ↔ Intact enc tree setDir artifact := by
  rw [artifactReasons]
  constructor
  · intro h
    split at h
    · cases h
    next hlink =>
      refine ⟨Bool.eq_false_iff.2 hlink, ?_⟩
      split at h
      · cases h
      · cases h
      next path hpath =>
        split at h
        · cases h
        next content hcontent =>
          obtain ⟨hsize, hdigest⟩ := List.append_eq_nil_iff.1 (Except.ok.inj h)
          rw [ite_singleton_eq_nil, not_not] at hsize hdigest
          exact ⟨path, content, hpath, hcontent, hsize, hdigest⟩
  · intro h
    obtain ⟨hlink, path, content, hpath, hcontent, hsize, hdigest⟩ := h
    rw [if_neg (Bool.eq_false_iff.1 hlink), hpath]
    dsimp only
    rw [hcontent]
    dsimp only
    rw [if_neg (not_not.2 hsize), if_neg (not_not.2 hdigest)]
    rfl

theorem artifactVerificationReasons_eq_nil : artifactVerificationReasons enc tree setDir manifest = .ok [] ↔
      Complete enc tree setDir manifest.artifacts := by
  have hdisk : ((diskPaths tree setDir).all fun path =>
      path ∈ manifest.artifacts.map BackupArtifact.relativePath ∨ path = setManifestName) = true ↔
      ∀ path ∈ diskPaths tree setDir, path ∈ manifest.artifacts.map BackupArtifact.relativePath ∨
        path = setManifestName := by
    rw [List.all_eq_true]
    simp only [decide_eq_true_eq]
  rw [artifactVerificationReasons]
  constructor
  · intro h
    obtain ⟨reasons, hreasons, h⟩ := bind_eq_ok.1 h
    obtain ⟨hflatten, hextra⟩ := List.append_eq_nil_iff.1 (Except.ok.inj h)
    refine ⟨fun artifact hmem => ?_, hdisk.1 ?_⟩
    · obtain ⟨rs, hrs, hok⟩ := (mem_of_mapM_eq_ok hreasons).1 artifact hmem
      rw [List.flatten_eq_nil_iff.1 hflatten rs hrs] at hok
      exact artifactReasons_eq_nil.1 hok
    · by_contra hnot
      rw [if_neg hnot] at hextra
      cases hextra
  · intro h
    obtain ⟨reasons, hreasons⟩ := exists_mapM_eq_ok.2 fun artifact hmem =>
      ⟨[], artifactReasons_eq_nil.2 (h.intact artifact hmem)⟩
    have hflatten : reasons.flatten = [] := by
      rw [List.flatten_eq_nil_iff]
      intro rs hrs
      obtain ⟨artifact, hmem, hok⟩ := (mem_of_mapM_eq_ok hreasons).2 rs hrs
      exact Except.ok.inj (hok.symm.trans (artifactReasons_eq_nil.2 (h.intact artifact hmem)))
    rw [hreasons, ok_bind, hflatten]
    dsimp only
    rw [if_pos (hdisk.2 h.nothing_else)]
    rfl

theorem eraseDups_eq_nil {α : Type} [BEq α] {l : List α} : l.eraseDups = [] ↔ l = [] := by
  cases l with
  | nil => exact ⟨fun _ => rfl, fun _ => rfl⟩
  | cons a l =>
    rw [List.eraseDups_cons]
    exact ⟨fun h => (by cases h), fun h => (by cases h)⟩

theorem consistent_iff : Consistent manifest ↔
    providerVerificationReasons manifest = [] ∧ manifestVerificationReasons manifest none = [] := by
  rw [providerVerificationReasons_eq_nil, manifestVerificationReasons_eq_nil]
  constructor
  · exact fun h => ⟨⟨h.covers, h.known, h.nodup⟩, h.complete, h.succeeded, h.owner, h.version, h.operation⟩
  · intro h
    obtain ⟨⟨hcovers, hknown, hnodup⟩, hcomplete, hsucceeded, howner, hversion, hoperation⟩ := h
    exact ⟨hcovers, hknown, hnodup, hcomplete, hsucceeded, howner, hversion, hoperation⟩

/-- **What verification accepts.** -/
theorem accepts_iff : Accepts enc tree setDir ↔ HoldsSet enc tree setDir := by
  constructor
  · intro h
    obtain ⟨result, hverify, haccepted⟩ := h
    unfold verifyBackupSet at hverify
    split at hverify
    · cases hverify
      cases haccepted
    next content hcontent =>
      split at hverify
      · cases hverify
        cases haccepted
      next payload hpayload =>
        split at hverify
        · cases hverify
          cases haccepted
        · cases hverify
        next manifest hmanifest =>
          obtain ⟨reasons, hreasons, hverify⟩ := bind_eq_ok.1 hverify
          dsimp only at hverify
          split at hverify
          next hempty =>
            rw [List.isEmpty_iff, eraseDups_eq_nil, List.append_eq_nil_iff,
              List.append_eq_nil_iff] at hempty
            obtain ⟨hconsistent, rfl⟩ := hempty
            exact ⟨manifest, ⟨content, payload, hcontent, hpayload, hmanifest⟩,
              consistent_iff.2 hconsistent, artifactVerificationReasons_eq_nil.1 hreasons⟩
          · cases hverify
            cases haccepted
  · intro h
    obtain ⟨manifest, ⟨content, payload, hcontent, hpayload, hmanifest⟩, hconsistent, hcomplete⟩ := h
    refine ⟨⟨manifest.setId, "succeeded", true, [], some manifest.toDict⟩, ?_, rfl⟩
    obtain ⟨hproviders, hrecords⟩ := consistent_iff.1 hconsistent
    unfold verifyBackupSet
    rw [hcontent]
    dsimp only
    rw [hpayload]
    dsimp only
    rw [hmanifest]
    dsimp only
    rw [artifactVerificationReasons_eq_nil.2 hcomplete, ok_bind, hproviders, hrecords]
    rfl

end

/-! ### How far a creation gets -/

section

variable (env : BackupEnv β) (call : BackupCall β) (w : BackupWorld β)

/-- A result of an earlier call for the set is returned. -/
def Replays (stored : Dict) : Prop :=
  rosterError (call.contributors.map Prod.fst) = none ∧
    (alone (journalSemantics env.naming) (readOrReplay (call.operationId env.defaults))
      w.journal).2 = .ok (some stored)

/-- The call gets as far as writing the manifest, and leaves this tree. -/
structure Creation (quiesce : Dict) (gathered : Gathered) (tree : FileTree β) : Prop where
  roster : rosterError (call.contributors.map Prod.fst) = none
  fresh : (alone (journalSemantics env.naming) (readOrReplay (call.operationId env.defaults))
    w.journal).2 = .ok none
  target : validateTarget w.tree call.target = .ok ()
  run : ∃ journal₁ entry journal₂ tree₀ tree₁ tree₂,
    alone (journalSemantics env.naming) (claimOperation (call.operationId env.defaults) call.subject
      "backup.create" ("/" ++ posix call.target) (call.resolvedSetId env.defaults)) w.journal =
      (journal₁, .ok entry) ∧
    (call.quiesce.getD defaultQuiesce) w.tree = (tree₀, .ok quiesce) ∧
    alone (journalSemantics env.naming) (markSubmitted (call.operationId env.defaults)) journal₁ =
      (journal₂, .ok ()) ∧
    env.faults.makeDirectory = none ∧ makeDirectory tree₀ (call.setDir env.defaults) = .ok tree₁ ∧
    gather env.encoding (call.setDir env.defaults) (call.operationId env.defaults) call.contributors {}
      tree₁ = (tree₂, .ok gathered) ∧
    writeManifestAtomically env tree₂ (call.setDir env.defaults)
      (manifestOf call env.defaults quiesce gathered) = (tree, .ok ())

end

section

variable {env : BackupEnv β} {call : BackupCall β} {w : BackupWorld β}

theorem completeOperation_of_marked {naming : FileNaming} {journal journal' : JournalStore} {operationId : String}
    (h : alone (journalSemantics naming) (markSubmitted operationId) journal = (journal', .ok ())) (result : Dict) :
    (alone (journalSemantics naming) (completeOperation operationId result) journal').2 = .ok () := by
  have hmarked : alone (journalSemantics naming) (markSubmitted operationId) journal =
      ((journal.transition naming operationId .submitted none).1,
        if (journal.transition naming operationId .submitted none).2 then .ok ()
        else .error ⟨"unknown_operation", [operationId]⟩) := rfl
  rw [hmarked] at h
  have hentry : ∃ record, journal'.entry naming operationId = some record := by
    obtain ⟨record, hrecord, htransition⟩ | ⟨hnone, htransition⟩ := transition_cases naming journal
      operationId .submitted none
    · rw [htransition] at h
      obtain ⟨rfl, -⟩ := Prod.mk.inj h
      exact ⟨_, (OrderedDict.get_set _ _ _ _).trans (if_pos rfl)⟩
    · rw [htransition] at h
      cases (Prod.mk.inj h).2
  obtain ⟨record, hrecord⟩ := hentry
  show (if (journal'.transition naming operationId (stateOfResult result) (some result)).2 then
    Except.ok () else _) = _
  obtain ⟨record', -, htransition⟩ | ⟨hnone, -⟩ := transition_cases naming journal' operationId
    (stateOfResult result) (some result)
  · rw [htransition]
    rfl
  · rw [hrecord] at hnone
    cases hnone

theorem failedBackup_not_accepted {setId target operationId : String}
    {results : List BackupContributorResult} {failure : Json} {r : BackupCreateResult}
    (h : (failedBackup env w setId target operationId results failure).2 = .ok r) : r.accepted = false := by
  unfold failedBackup at h
  dsimp only at h
  split at h
  · cases h
    rfl
  · obtain ⟨u, -, rfl⟩ := map_eq_ok.1 h
    rfl

theorem create_of_replays {stored : Dict} (h : Replays env call w stored) :
    createBackupSet env call w = (w, backupResultFromDict stored) := by
  unfold createBackupSet
  rw [h.1]
  dsimp only
  rw [h.2]

theorem create_of_creation {quiesce : Dict} {gathered : Gathered} {tree : FileTree β}
    (h : Creation env call w quiesce gathered tree) : (createBackupSet env call w).1.tree = tree ∧
      ∃ r, (createBackupSet env call w).2 = .ok r ∧ r.accepted = true := by
  obtain ⟨journal₁, entry, journal₂, tree₀, tree₁, tree₂, hclaim, hquiesce, hmark, hfault, hmake,
    hgather, hwrite⟩ := h.run
  have hgathered : createBackupSet env call w =
      createGathered env call quiesce { journal := journal₂, tree := tree₀ } := by
    unfold createBackupSet
    rw [h.roster]
    dsimp only
    rw [h.fresh]
    dsimp only
    rw [h.target]
    dsimp only
    unfold createClaimed
    dsimp only
    rw [hclaim]
    dsimp only
    rw [hquiesce]
    dsimp only
    rw [hmark]
  rw [hgathered]
  unfold createGathered
  dsimp only
  rw [hfault]
  dsimp only
  rw [hmake]
  dsimp only
  rw [hgather]
  dsimp only
  rw [hwrite]
  dsimp only
  rw [completeOperation_of_marked hmark]
  exact ⟨rfl, _, rfl, rfl⟩

/-- A creation is accepted only if it returns an earlier result or gets to its end. -/
theorem cases_of_accepted {r : BackupCreateResult} (h : (createBackupSet env call w).2 = .ok r)
    (haccepted : r.accepted = true) : (∃ stored, Replays env call w stored) ∨
      ∃ quiesce gathered tree, Creation env call w quiesce gathered tree := by
  have hfailed : r.accepted ≠ false := by
    rw [haccepted]
    exact Bool.true_eq_false_eq_False
  unfold createBackupSet at h
  split at h
  · cases h
  next hroster =>
  split at h
  · cases h
  next stored hstored => exact Or.inl ⟨stored, hroster, hstored⟩
  next hfresh =>
  split at h
  · cases h
  next htarget =>
  unfold createClaimed at h
  dsimp only at h
  split at h
  · cases h
  next journal₁ entry hclaim =>
  split at h
  · exact absurd (failedBackup_not_accepted h) hfailed
  next tree₀ quiesce hquiesce =>
  split at h
  · exact absurd (failedBackup_not_accepted h) hfailed
  next journal₂ u hmark =>
  unfold createGathered at h
  dsimp only at h
  split at h
  · exact absurd (failedBackup_not_accepted h) hfailed
  next tree₁ hmade =>
  split at h
  · exact absurd (failedBackup_not_accepted h) hfailed
  next tree₂ gathered hgather =>
  split at h
  · exact absurd (failedBackup_not_accepted h) hfailed
  next tree u' hwrite =>
  have hmade' : env.faults.makeDirectory = none ∧ makeDirectory tree₀ (call.setDir env.defaults) = .ok tree₁ := by
    split at hmade
    · cases hmade
    next hfault => exact ⟨hfault, hmade⟩
  exact Or.inr ⟨quiesce, gathered, tree, hroster, hfresh, htarget, journal₁, entry, journal₂, tree₀,
    tree₁, tree₂, hclaim, hquiesce, hmark, hmade'.1, hmade'.2, hgather, hwrite⟩

end

/-! ### Agreement -/

section

variable (env : BackupEnv β) (call : BackupCall β) (w : BackupWorld β)

/-- A set that creation accepts verifies; where it does not accept or raises, no set verifies. -/
structure BackupAgrees : Prop where
  accepted : (∃ r, (createBackupSet env call w).2 = .ok r ∧ r.accepted = true) →
    Accepts env.encoding (createBackupSet env call w).1.tree (call.setDir env.defaults)
  refused : (¬ ∃ r, (createBackupSet env call w).2 = .ok r ∧ r.accepted = true) →
    ¬ Accepts env.encoding (createBackupSet env call w).1.tree (call.setDir env.defaults)

/-- The manifest that was written is what the set directory has for a manifest. -/
def ReadsWritten (quiesce : Dict) (gathered : Gathered) (tree : FileTree β) : Prop :=
  tree.readPath (call.setDir env.defaults ++ [setManifestName]) =
    some (env.encoding.dumps (.obj (manifestOf call env.defaults quiesce gathered).toDict))

/-- What creation leaves to the caller and the contributors: the version of phlo is recorded; the
contributors use no other operation id, and give each artifact a provider, a name and a digest; the
artifacts are on disk as they were when their contributor returned, under the very texts that name
them, and nothing else is. -/
structure Finished (quiesce : Dict) (gathered : Gathered) (tree : FileTree β) : Prop where
  version : ((manifestOf call env.defaults quiesce gathered).versions.get "phlo").getD "" ≠ ""
  operation : ∀ result ∈ gathered.results, result.operationId ≠ "" →
    result.operationId = call.operationId env.defaults
  named : ∀ result ∈ gathered.results, ∀ artifact ∈ result.artifacts, artifact.Named
  complete : Complete env.encoding tree (call.setDir env.defaults) gathered.artifacts

/-- When creation and verification agree. -/
structure BackupCondition : Prop where
  created : ∀ quiesce gathered tree, Creation env call w quiesce gathered tree →
    ReadsWritten env call quiesce gathered tree → Finished env call quiesce gathered tree
  /-- a link in the place of the staging file may lead the manifest elsewhere -/
  displaced : ∀ quiesce gathered tree, Creation env call w quiesce gathered tree →
    ¬ ReadsWritten env call quiesce gathered tree →
    HoldsSet env.encoding tree (call.setDir env.defaults)
  replayed : ∀ stored, Replays env call w stored →
    ((∃ r, backupResultFromDict stored = .ok r ∧ r.accepted = true) ↔
      HoldsSet env.encoding w.tree (call.setDir env.defaults))
  /-- an earlier set, or one that a contributor has made -/
  stopped : (¬ ∃ stored, Replays env call w stored) →
    (¬ ∃ quiesce gathered tree, Creation env call w quiesce gathered tree) →
    ¬ HoldsSet env.encoding (createBackupSet env call w).1.tree (call.setDir env.defaults)

end

section

variable {env : BackupEnv β} {call : BackupCall β} {w : BackupWorld β}

def DigestOf (declared digested : BackupArtifact) : Prop :=
  digested.provider = declared.provider ∧ digested.name = declared.name ∧
    digested.relativePath = declared.relativePath ∧ digested.sha256 ≠ ""

theorem digestOf_hashArtifact {enc : Encoding β} {tree : FileTree β} {setDir : List String}
    {artifact digested : BackupArtifact} (h : hashArtifact enc tree setDir artifact = .ok digested) :
    DigestOf artifact digested := by
  obtain ⟨path, -, h⟩ := bind_eq_ok.1 h
  split at h
  · cases h
  next content hcontent =>
    split at h
    · cases h
    split at h
    · cases h
    · cases h
      exact ⟨rfl, rfl, rfl, enc.sha256_ne content⟩

theorem validateContributorResult_eq_ok {provider : String} {result : BackupContributorResult}
    {u : Unit} (h : validateContributorResult provider result = .ok u) :
    result.state = .succeeded ∧ result.provider = provider := by
  unfold validateContributorResult at h
  split at h
  · obtain ⟨reason, -, h⟩ := bind_eq_ok.1 h
    cases h
  next hstate =>
    split at h
    · cases h
    next hprovider =>
      refine ⟨?_, not_not.1 hprovider⟩
      cases hresult : result.state with
      | succeeded => rfl
      | failed => exact absurd hresult hstate

/-- What the loop over the contributors gathers from some of them. -/
structure GatheredFrom (providers : List String) (before after : Gathered) : Prop where
  results : ∃ results, after.results = before.results ++ results ∧
    results.map BackupContributorResult.provider = providers ∧
    ∀ result ∈ results, result.state = .succeeded
  artifacts : ∀ digested ∈ after.artifacts, digested ∈ before.artifacts ∨
    ∃ result ∈ after.results, ∃ declared ∈ result.artifacts, DigestOf declared digested

theorem gatheredFrom_gather {enc : Encoding β} {setDir : List String} {operationId : String}
    {contributors : List (String × BackupContributor β)} {before after : Gathered} {tree tree' : FileTree β}
    (h : gather enc setDir operationId contributors before tree = (tree', .ok after)) :
    GatheredFrom (contributors.map Prod.fst) before after := by
  induction contributors generalizing before tree with
  | nil =>
    obtain ⟨-, hafter⟩ := Prod.mk.inj h
    cases hafter
    exact ⟨⟨[], (List.append_nil _).symm, rfl, fun _ hmem => absurd hmem List.not_mem_nil⟩,
      fun digested hmem => Or.inl hmem⟩
  | cons entry contributors ih =>
    obtain ⟨provider, contributor⟩ := entry
    rw [gather] at h
    dsimp only at h
    split at h
    · cases h
    next result hresult =>
      split at h
      · cases h
      next artifacts hartifacts =>
        obtain ⟨⟨results, hresults, hproviders, hstates⟩, hdigested⟩ := ih h
        have hvalid : result.state = .succeeded ∧ result.provider = provider := by
          obtain ⟨answer, -, hvalidated⟩ := bind_eq_ok.1 hresult
          obtain ⟨u, hu, rfl⟩ := map_eq_ok.1 hvalidated
          exact validateContributorResult_eq_ok hu
        refine ⟨⟨result :: results, ?_, ?_, ?_⟩, fun digested hmem => ?_⟩
        · rw [hresults, List.append_assoc, List.singleton_append]
        · rw [List.map_cons, List.map_cons, hproviders, hvalid.2]
        · exact List.forall_mem_cons.2 ⟨hvalid.1, hstates⟩
        · obtain hbefore | hlater := hdigested digested hmem
          · obtain hbefore | hnew := List.mem_append.1 hbefore
            · exact Or.inl hbefore
            · obtain ⟨declared, hdeclared, hhash⟩ := (mem_of_mapM_eq_ok hartifacts).2 digested hnew
              refine Or.inr ⟨result, ?_, declared, hdeclared, digestOf_hashArtifact hhash⟩
              rw [hresults]
              exact List.mem_append_left _ (List.mem_append_right _ List.mem_cons_self)
          · exact Or.inr hlater

theorem providers_of_rosterError {providers : List String} (h : rosterError providers = none) :
    providers = backupProviderOrder := by
  unfold rosterError at h
  split at h
  · cases h
  · dsimp only at h
    split at h
    next heq => exact heq
    · split at h
      · cases h
      · split at h
        · cases h
        · cases h

theorem Creation.gathered {quiesce : Dict} {gathered : Gathered} {tree : FileTree β}
    (h : Creation env call w quiesce gathered tree) :
    gathered.results.map BackupContributorResult.provider = backupProviderOrder ∧
      (∀ result ∈ gathered.results, result.state = .succeeded) ∧
      ∀ digested ∈ gathered.artifacts, ∃ result ∈ gathered.results,
        ∃ declared ∈ result.artifacts, DigestOf declared digested := by
  obtain ⟨-, -, -, -, tree₁, tree₂, -, -, -, -, -, hgather, -⟩ := h.run
  obtain ⟨⟨results, hresults, hproviders, hstates⟩, hartifacts⟩ := gatheredFrom_gather hgather
  obtain rfl : gathered.results = results := hresults
  refine ⟨hproviders.trans (providers_of_rosterError h.roster), hstates, fun digested hmem => ?_⟩
  exact (hartifacts digested hmem).resolve_left fun hnone => absurd hnone List.not_mem_nil

theorem Complete.of_mem_iff {enc : Encoding β} {tree : FileTree β} {setDir : List String}
    {artifacts artifacts' : List BackupArtifact} (h : Complete enc tree setDir artifacts)
    (hmem : ∀ artifact, artifact ∈ artifacts ↔ artifact ∈ artifacts') : Complete enc tree setDir artifacts' where
  intact artifact hartifact := h.intact artifact ((hmem artifact).2 hartifact)
  nothing_else path hpath := (h.nothing_else path hpath).imp_left fun hdeclared => by
    obtain ⟨artifact, hartifact, rfl⟩ := List.mem_map.1 hdeclared
    exact List.mem_map_of_mem ((hmem artifact).1 hartifact)

theorem Creation.named_iff {quiesce : Dict} {gathered : Gathered} {tree : FileTree β}
    (h : Creation env call w quiesce gathered tree) : (manifestOf call env.defaults quiesce gathered).Named ↔
      ∀ result ∈ gathered.results, ∀ artifact ∈ result.artifacts, artifact.Named := by
  obtain ⟨hproviders, -, hdigests⟩ := h.gathered
  constructor
  · exact fun hnamed result hresult => (hnamed.contributors result hresult).artifacts
  · intro hnamed
    refine ⟨textOr_ne env.defaults.newSetId_ne, textOr_ne env.defaults.deploymentId_ne,
      env.defaults.now_ne, fun result hresult => ⟨?_, hnamed result hresult⟩, fun digested hmem => ?_⟩
    · have hprovider : result.provider ∈ backupProviderOrder := by
        rw [← hproviders]
        exact List.mem_map_of_mem hresult
      intro hblank
      rw [hblank] at hprovider
      exact absurd hprovider (by decide)
    · obtain ⟨result, hresult, declared, hdeclared, hprovider, hname, hpath, hsha256⟩ :=
        hdigests digested ((mem_sortBy _ _ _).1 hmem)
      have hdeclared := hnamed result hresult declared hdeclared
      exact ⟨hprovider ▸ hdeclared.provider, hname ▸ hdeclared.name, hpath ▸ hdeclared.relativePath,
        hsha256⟩

/-- What creation leaves open is all that verification can find. -/
theorem Creation.holdsSet_iff {quiesce : Dict} {gathered : Gathered} {tree : FileTree β}
    (h : Creation env call w quiesce gathered tree) (hreads : ReadsWritten env call quiesce gathered tree) :
    HoldsSet env.encoding tree (call.setDir env.defaults) ↔ Finished env call quiesce gathered tree := by
  obtain ⟨hproviders, hstates, -⟩ := h.gathered
  have hartifacts : ∀ artifact, artifact ∈ (manifestOf call env.defaults quiesce gathered).artifacts ↔
      artifact ∈ gathered.artifacts := fun artifact => mem_sortBy _ _ _
  constructor
  · intro hholds
    obtain ⟨manifest, ⟨content, payload, hcontent, hpayload, hmanifest⟩, hconsistent, hcomplete⟩ := hholds
    obtain rfl := Option.some.inj (hreads.symm.trans hcontent)
    obtain rfl := Option.some.inj ((env.encoding.loads_dumps _).symm.trans hpayload)
    have hnamed := BackupSetManifest.named_of_fromDict hmanifest
    obtain rfl := Except.ok.inj ((BackupSetManifest.fromDict_toDict hnamed rfl).symm.trans hmanifest)
    refine ⟨?_, hconsistent.operation, h.named_iff.1 hnamed, hcomplete.of_mem_iff hartifacts⟩
    have hversion := hconsistent.version
    rw [BackupSetManifest.get_versions_readBack] at hversion
    exact hversion
  · intro hfinished
    have hnamed := h.named_iff.2 hfinished.named
    refine ⟨(manifestOf call env.defaults quiesce gathered).readBack, ⟨_, _, hreads,
      env.encoding.loads_dumps _, BackupSetManifest.fromDict_toDict hnamed rfl⟩, ?_,
      hfinished.complete.of_mem_iff fun artifact => (hartifacts artifact).symm⟩
    have hcontributors : (manifestOf call env.defaults quiesce gathered).readBack.contributors.map
        BackupContributorResult.provider = backupProviderOrder := hproviders
    refine ⟨?_, ?_, ?_, rfl, hstates, hnamed.sourceDeploymentId, ?_, hfinished.operation⟩
    · rw [hcontributors]
      exact fun provider hmem => hmem
    · rw [hcontributors]
      exact fun provider hmem => hmem
    · rw [hcontributors]
      decide
    · rw [BackupSetManifest.get_versions_readBack]
      exact hfinished.version

end

/-! ### A digest left to the coordinator -/

/-- Files hold JSON documents, all of one size and digest. -/
def plainEncoding : Encoding Json where
  size _ := 1
  sha256 _ := "digest"
  dumps document := document
  loads document := some document
  sha256_ne _ := by decide
  loads_dumps _ := rfl

def plainBackupEnv : BackupEnv Json where
  encoding := plainEncoding
  faults := {}
  defaults := ⟨"set", "prod", .empty, "now", by decide, by decide, by decide⟩
  naming := plainNaming

/-- A contributor that writes one file and declares it with a digest. -/
def dumpContributor (provider sha256 : String) : BackupContributor Json where
  contribute tree destination _ :=
    ((tree.put destination .directory).put (destination ++ ["dump"]) (.file .null),
      .ok { provider, state := .succeeded
            artifacts := [{ provider, name := "dump", relativePath := provider ++ "/dump"
                            sizeBytes := 1, sha256 }] })

/-- All four contributors; one leaves the digest blank. -/
def undigestedCall : BackupCall Json where
  target := ["backups"]
  contributors := [("postgres", dumpContributor "postgres" ""),
    ("nessie", dumpContributor "nessie" "digest"), ("minio", dumpContributor "minio" "digest"),
    ("iceberg", dumpContributor "iceberg" "digest")]
  versions := some (.ofList [("phlo", "1.0")])

def emptyBackupWorld : BackupWorld Json := ⟨.empty, .empty⟩

def acceptedOf (outcome : Raising BackupCreateResult) : Bool :=
  match outcome with
  | .ok result => result.accepted
  | .error _ => false

def verifiedOf (outcome : Raising BackupVerifyResult) : Bool :=
  match outcome with
  | .ok result => result.accepted
  | .error _ => false

end Phlo.Operations
