import Mathlib.Data.List.Infix
import Phlo.Services.LayoutMigration

/-!
# A migration keeps every file

A migration that returns has brought every planned file to its place, unless something among the exported
artifacts stands where one of the project's own files goes: then the second of the two is deleted.  One that
is broken off and put back leaves every file as it was.

* `movePlan_of_migrationPlan` — what is known of a plan that is not refused;
* `keeps_relocate`, `yields_restoreOriginals` — what the journal relies on, and what it gives back;
* `migration_keeps_files_iff` — when a migration keeps every file.
-/

namespace Phlo.Services

open Phlo.Library
open Phlo.Compose

variable {β : Type}

/-- The files of a project; everything lies in a directory. -/
structure Project (β : Type) where
  tree : FileTree (Stored β)
  closed : tree.Closed

/-! ### What a migration is to do -/

def dueContent (t : FileTree (Stored β)) (h : Host β) (move : Move) : Option β :=
  if isComposeLayer move.2 then (layerContent t h move).toOption else t.contentAt move.1

def MigrationPlan.places (plan : MigrationPlan β) : List Location :=
  plan.writes.items.map Prod.fst ++ plan.moves.flatMap fun move => [move.1, move.2]

/-- Every planned file has moved, with its content, and no other file has changed. -/
structure FilesKept (h : Host β) (t : FileTree (Stored β)) (plan : MigrationPlan β) (t' : FileTree (Stored β)) :
    Prop where
  gone : ∀ move ∈ plan.moves, t'.node move.1 = none
  arrived : ∀ move ∈ plan.moves, ∃ content, dueContent t h move = some content ∧ t'.contentAt move.2 = some content
  apart : ∀ move ∈ plan.moves, ∀ move' ∈ plan.moves, t.contentAt move.1 ≠ t.contentAt move'.1 → move.2 ≠ move'.2
  untouched : ∀ p, p ∉ plan.places → t'.readFile p = t.readFile p

/-- Where one of the project's own files goes, the exported artifacts have the same file or nothing. -/
def Unobstructed (t : FileTree (Stored β)) : Prop :=
  ∀ move ∈ personalMoves, ∀ content, t.contentAt move.1 = some content →
    ∀ p, legacy ++ move.2.tail <+: p → (t.readFile p).isSome →
      p = legacy ++ move.2.tail ∧ t.contentAt p = some content

/-! ### What is known of a plan -/

section

variable {t : FileTree (Stored β)} {p : Location}

def Regular (t : FileTree (Stored β)) (p : Location) : Prop := t.node p = none ∨ ∃ s, t.node p = some (.file s)

variable {s : Stored β} {relative q : Location} {move : Move} {writes : OrderedDict Location β}

theorem present_of_file (h : t.node p = some (.file s)) : t.present p = true := by
  rw [FileTree.present, h]

theorem Regular.present_iff (h : Regular t p) : t.present p = true ↔ (t.readFile p).isSome = true := by
  rcases h with h | ⟨s, h⟩
  · rw [FileTree.present, FileTree.readFile, h]
    exact Iff.rfl
  · rw [FileTree.present, FileTree.readFile, h]
    exact ⟨fun _ => rfl, fun _ => rfl⟩

theorem Regular.node_of_readFile (h : Regular t p) {s : Option (Stored β)} (hs : t.readFile p = s) :
    t.node p = s.map Node.file := by
  rcases h with h | ⟨s', h⟩
  · rw [← hs, FileTree.readFile, h]
    rfl
  · rw [← hs, FileTree.readFile, h]
    rfl

theorem regular_of_regularPath {u : Unit} (h : regularPath t p = .ok u) : Regular t p := by
  obtain ⟨_, hlink, hfile⟩ := bind_eq_ok.1 h
  rw [require_eq_ok] at hlink hfile
  have hlinkp : t.isLink p = false := by
    by_contra hne
    have hmem : p ∈ p.inits := (List.mem_inits _ _).2 (List.prefix_refl p)
    rw [List.any_eq_true.2 ⟨p, hmem, by simpa using hne⟩] at hlink
    cases hlink
  cases hn : t.node p with
  | none => exact .inl hn
  | some n =>
    cases n with
    | file s => exact .inr ⟨s, hn⟩
    | directory =>
      have := hfile (by rw [FileTree.present, hn])
      rw [FileTree.readFile, hn] at this
      cases this
    | special =>
      have := hfile (by rw [FileTree.present, hn])
      rw [FileTree.readFile, hn] at this
      cases this
    | link target =>
      rw [FileTree.isLink, hn] at hlinkp
      cases hlinkp

theorem mem_artifactCandidates (source : Location) : source ∈ artifactCandidates t source := by
  unfold artifactCandidates
  split
  · exact List.mem_cons_self
  · exact List.mem_cons_self

theorem notPrivate_of_sharedArtifactsAt {root path : Location} {relative : String} {files : List Location}
    (h : sharedArtifactsAt t root path relative = .ok files) : path.any isPrivate = false := by
  obtain ⟨_, -, h⟩ := bind_eq_ok.1 h
  obtain ⟨_, -, h⟩ := bind_eq_ok.1 h
  obtain ⟨_, hall, -⟩ := bind_eq_ok.1 h
  obtain ⟨_, hprivate, -⟩ := bind_eq_ok.1 (listForM_eq_ok.1 hall _ (mem_artifactCandidates _))
  rwa [require_eq_ok, List.drop_left] at hprivate

/-- A file below the exported artifacts that may move. -/
def IsShareable (relative : Location) : Prop :=
  relative.getLast? = some ".gitattributes" ∨ relative.any isPrivate = false

theorem legacyMove_eq_ok {moved : Option Move} (hne : relative ≠ [])
    (h : legacyMove t (legacy ++ relative) = .ok moved) : if (t.readFile (legacy ++ relative)).isNone then moved = none
    else moved = some (legacy ++ relative, ".phlo" :: relative) ∧ IsShareable relative := by
  obtain ⟨_, -, h⟩ := bind_eq_ok.1 h
  split at h
  · next hnone =>
    rw [if_pos hnone]
    exact (Except.ok.inj h).symm
  · next hsome =>
    rw [if_neg hsome]
    split at h
    · next hlast =>
      refine ⟨(Except.ok.inj h).symm, .inl ?_⟩
      rwa [List.getLast?_append_of_ne_nil _ hne] at hlast
    · obtain ⟨files, hshared, h⟩ := bind_eq_ok.1 h
      exact ⟨(Except.ok.inj h).symm, .inr (notPrivate_of_sharedArtifactsAt hshared)⟩

theorem mem_below {p : Location} :
    q ∈ (withDescendants t p).tail ↔ (∃ n, (q, n) ∈ t.nodes.items) ∧ p <+: q ∧ q ≠ p := by
  rw [withDescendants, List.tail_cons, List.mem_filter, List.mem_map, decide_eq_true_eq]
  constructor
  · rintro ⟨⟨⟨q', n⟩, hmem, rfl⟩, hq⟩
    exact ⟨⟨n, hmem⟩, hq⟩
  · rintro ⟨⟨n, hmem⟩, hq⟩
    exact ⟨⟨_, hmem, rfl⟩, hq⟩

theorem exists_of_below (h : q ∈ (withDescendants t p).tail) : ∃ relative, relative ≠ [] ∧ q = p ++ relative := by
  obtain ⟨-, ⟨relative, rfl⟩, hne⟩ := mem_below.1 h
  exact ⟨relative, fun hnil => hne (by rw [hnil, List.append_nil]), rfl⟩

theorem below_of_node (hne : relative ≠ []) (h : t.node (p ++ relative) ≠ none) :
    p ++ relative ∈ (withDescendants t p).tail := by
  have hroot : p ++ relative ≠ [] := fun hnil => hne (List.append_eq_nil_iff.1 hnil).2
  rw [FileTree.node, if_neg hroot] at h
  obtain ⟨n, hn⟩ := Option.ne_none_iff_exists'.1 h
  refine mem_below.2 ⟨⟨n, OrderedDict.get_eq_some_iff.1 hn⟩, List.prefix_append _ _, ?_⟩
  intro heq
  exact hne (List.append_right_eq_self.1 heq)

theorem mem_legacyMoves {moves : List Move} (h : legacyMoves t = .ok moves) (hmove : move ∈ moves) :
    (∃ relative, relative ≠ [] ∧ IsShareable relative ∧ move = (legacy ++ relative, ".phlo" :: relative)) ∧
      t.node move.1 ≠ none := by
  obtain ⟨_, -, h⟩ := bind_eq_ok.1 h
  obtain ⟨found, hfound, h⟩ := bind_eq_ok.1 h
  obtain rfl := Except.ok.inj h
  obtain ⟨_, hmem, rfl⟩ := List.mem_filterMap.1 hmove
  obtain ⟨source, hsource, hmoved⟩ := (mem_of_mapM_eq_ok hfound).2 _ hmem
  rw [mem_sortBy] at hsource
  split at hsource
  · obtain ⟨relative, hne, rfl⟩ := exists_of_below hsource
    have hspec := legacyMove_eq_ok hne hmoved
    split at hspec
    · cases hspec
    · next hsome =>
      have hmove := Option.some.inj hspec.1
      refine ⟨⟨relative, hne, hspec.2, hmove⟩, fun hnone => hsome ?_⟩
      rw [hmove] at hnone
      rw [FileTree.readFile, hnone]
      rfl
  · cases hsource

theorem legacyMoves_complete {moves : List Move} (hc : t.Closed) (h : legacyMoves t = .ok moves)
    (hne : relative ≠ []) (hs : t.node (legacy ++ relative) = some (.file s)) :
    (legacy ++ relative, ".phlo" :: relative) ∈ moves := by
  obtain ⟨_, -, h⟩ := bind_eq_ok.1 h
  obtain ⟨found, hfound, h⟩ := bind_eq_ok.1 h
  obtain rfl := Except.ok.inj h
  have hnode : t.node (legacy ++ relative) ≠ none := by
    rw [hs]
    exact Option.some_ne_none _
  have hdir : t.node legacy = some .directory :=
    hc.above hnode (List.prefix_append _ _) fun heq => hne (List.append_right_eq_self.1 heq.symm)
  have hpresent : t.present legacy = true := by rw [FileTree.present, hdir]
  have hsource : legacy ++ relative ∈
      sortBy (fun p => p) (if t.present legacy then (withDescendants t legacy).tail else []) := by
    rw [mem_sortBy, if_pos hpresent]
    exact below_of_node hne hnode
  obtain ⟨moved, hmem, hmoved⟩ := (mem_of_mapM_eq_ok hfound).1 _ hsource
  have hspec := legacyMove_eq_ok hne hmoved
  rw [if_neg (by rw [FileTree.readFile, hs]; simp)] at hspec
  exact List.mem_filterMap.2 ⟨_, hmem, hspec.1⟩

/-- What is known of the moves of a plan. -/
structure MovePlan (t : FileTree (Stored β)) (moves : List Move) : Prop where
  shape : ∀ move ∈ moves, move ∈ personalMoves ∨
    ∃ relative, relative ≠ [] ∧ IsShareable relative ∧ move = (legacy ++ relative, ".phlo" :: relative)
  source : ∀ move ∈ moves, ∃ s, t.node move.1 = some (.file s)
  target : ∀ move ∈ moves, Regular t move.2
  agrees : ∀ move ∈ moves, t.node move.2 ≠ none → t.contentAt move.2 = t.contentAt move.1
  personal : ∀ move ∈ personalMoves, t.node move.1 ≠ none → move ∈ moves
  exported : ∀ relative, relative ≠ [] → ∀ s, t.node (legacy ++ relative) = some (.file s) →
    (legacy ++ relative, ".phlo" :: relative) ∈ moves

theorem movePlan_of_migrationMoves [DecidableEq β] {moves : List Move} (hc : t.Closed)
    (h : migrationMoves t = .ok moves) : MovePlan t moves := by
  obtain ⟨exported, hexported, h⟩ := bind_eq_ok.1 h
  obtain ⟨_, hall, h⟩ := bind_eq_ok.1 h
  obtain rfl := Except.ok.inj h
  have hshape : ∀ move ∈ personalMoves.filter (fun move => (t.node move.1).isSome) ++ exported,
      (move ∈ personalMoves ∨
        ∃ relative, relative ≠ [] ∧ IsShareable relative ∧ move = (legacy ++ relative, ".phlo" :: relative)) ∧
      t.node move.1 ≠ none := by
    intro move hmove
    rcases List.mem_append.1 hmove with hpersonal | hexport
    · obtain ⟨hmem, hsome⟩ := List.mem_filter.1 hpersonal
      exact ⟨.inl hmem, Option.isSome_iff_ne_none.1 hsome⟩
    · obtain ⟨hrelative, hnode⟩ := mem_legacyMoves hexported hexport
      exact ⟨.inr hrelative, hnode⟩
  have hchecked : ∀ move ∈ personalMoves.filter (fun move => (t.node move.1).isSome) ++ exported,
      Regular t move.1 ∧ Regular t move.2 ∧ (t.present move.2 = true → t.contentAt move.2 = t.contentAt move.1) := by
    intro move hmove
    obtain ⟨_, hsource, hcheck⟩ := bind_eq_ok.1 (listForM_eq_ok.1 hall move hmove)
    obtain ⟨_, htarget, hcheck⟩ := bind_eq_ok.1 hcheck
    rw [require_eq_ok] at hcheck
    exact ⟨regular_of_regularPath hsource, regular_of_regularPath htarget, hcheck⟩
  refine ⟨fun move hmove => (hshape move hmove).1, fun move hmove => ?_, fun move hmove => (hchecked move hmove).2.1,
    fun move hmove hnode => ?_, fun move hmove hnode => ?_, fun relative hne s hs => ?_⟩
  · rcases (hchecked move hmove).1 with hnone | hfile
    · exact absurd hnone (hshape move hmove).2
    · exact hfile
  · obtain ⟨-, htarget, hagrees⟩ := hchecked move hmove
    rcases htarget with hnone | ⟨s, hs⟩
    · exact absurd hnone hnode
    · exact hagrees (present_of_file hs)
  · exact List.mem_append_left _ (List.mem_filter.2 ⟨hmove, Option.isSome_iff_ne_none.2 hnode⟩)
  · exact List.mem_append_right _ (legacyMoves_complete hc hexported hne hs)

/-! ### Where things move -/

section

variable {moves : List Move} (hm : MovePlan t moves)
include hm

theorem MovePlan.content (hmove : move ∈ moves) : ∃ content, t.contentAt move.1 = some content := by
  obtain ⟨s, hs⟩ := hm.source move hmove
  exact ⟨s.content, FileTree.contentAt_eq_some_iff.2 ⟨s.mode, hs⟩⟩

/-- No file moves to where another one comes from. -/
theorem MovePlan.source_ne_target {move' : Move} (hmove : move ∈ moves) (hmove' : move' ∈ moves) :
    move.1 ≠ move'.2 := by
  have hpersonal : ∀ m ∈ personalMoves, ∀ m' ∈ personalMoves, m.1 ≠ m'.2 := by decide
  have hexported : ∀ m ∈ personalMoves, m.1.head? = some ".phlo" →
      m.1.tail.getLast? ≠ some ".gitattributes" ∧ m.1.tail.any isPrivate = true := by decide
  have hplace : ∀ m ∈ personalMoves, m.2.head? = some ".phlo" := by decide
  rcases hm.shape move hmove with hpers | ⟨relative, -, -, rfl⟩
  · rcases hm.shape move' hmove' with hpers' | ⟨relative, -, hshare, rfl⟩
    · exact hpersonal move hpers move' hpers'
    · intro heq
      obtain ⟨hlast, hprivate⟩ := hexported move hpers (by rw [heq]; rfl)
      rw [heq] at hlast hprivate
      rcases hshare with hshare | hshare
      · exact hlast hshare
      · rw [List.tail_cons, hshare] at hprivate
        cases hprivate
  · rcases hm.shape move' hmove' with hpers' | ⟨relative', -, -, rfl⟩
    · intro heq
      have hhead := hplace move' hpers'
      rw [← heq] at hhead
      exact absurd (Option.some.inj hhead) (by decide)
    · intro heq
      exact absurd (List.cons.inj heq).1 (by decide)

/-- The places that are written whatever moves. -/
def fixedPlaces : List Location := [dockerCompose, rootIgnore, innerIgnore, hostPath]

theorem MovePlan.target_notMem_fixedPlaces (hmove : move ∈ moves) : move.2 ∉ fixedPlaces := by
  have hpersonal : ∀ m ∈ personalMoves, m.2 ∉ fixedPlaces := by decide
  have hfixed : ∀ p ∈ fixedPlaces, p.head? = some ".phlo" →
      p.tail.getLast? ≠ some ".gitattributes" ∧ p.tail.any isPrivate = true := by decide
  rcases hm.shape move hmove with hpers | ⟨relative, -, hshare, rfl⟩
  · exact hpersonal move hpers
  · intro hmem
    obtain ⟨hlast, hprivate⟩ := hfixed _ hmem rfl
    rcases hshare with hshare | hshare
    · exact hlast hshare
    · rw [List.tail_cons, hshare] at hprivate
      cases hprivate

theorem MovePlan.source_notMem_fixedPlaces (hmove : move ∈ moves) :
    move.1 ∉ fixedPlaces ∧ move.1 ≠ attributesPath := by
  have hpersonal : ∀ m ∈ personalMoves, m.1 ∉ fixedPlaces ∧ m.1 ≠ attributesPath := by decide
  have hfixed : ∀ p ∈ attributesPath :: fixedPlaces, p.head? ≠ some "phlo-runtime" := by decide
  rcases hm.shape move hmove with hpers | ⟨relative, -, -, rfl⟩
  · exact hpersonal move hpers
  · exact ⟨fun hmem => hfixed _ (List.mem_cons_of_mem _ hmem) rfl,
      fun heq => hfixed _ List.mem_cons_self (by rw [← heq]; rfl)⟩

theorem MovePlan.target_ne_directory (hmove : move ∈ moves) {p : Location} (hp : p ∈ attributesPath :: fixedPlaces) :
    ¬(move.2 <+: p ∧ move.2 ≠ p) := by
  have hpersonal : ∀ m ∈ personalMoves, ∀ p ∈ attributesPath :: fixedPlaces, ¬(m.2 <+: p ∧ m.2 ≠ p) := by decide
  have hfixed : ∀ p ∈ attributesPath :: fixedPlaces, ∀ q ∈ p.inits, q ≠ p → q.head? = some ".phlo" →
      q.tail = [] ∨ q.tail.getLast? ≠ some ".gitattributes" ∧ q.tail.any isPrivate = true := by decide
  rcases hm.shape move hmove with hpers | ⟨relative, hne, hshare, rfl⟩
  · exact hpersonal move hpers p hp
  · rintro ⟨hpre, hneq⟩
    rcases hfixed p hp _ ((List.mem_inits _ _).2 hpre) hneq rfl with hnil | ⟨hlast, hprivate⟩
    · exact hne hnil
    · rcases hshare with hshare | hshare
      · exact hlast hshare
      · rw [List.tail_cons, hshare] at hprivate
        cases hprivate

end

/-! ### What is written -/

variable {hostCompose : Yaml}

theorem hostWrite_eq_ok [DecidableEq β] {h : Host β} {writes' : OrderedDict Location β}
    (hok : hostWrite t h hostCompose writes = .ok writes') :
    (∀ p, p ≠ hostPath → writes'.get p = writes.get p) ∧ (writes' = writes ∨ Regular t hostPath) := by
  unfold hostWrite at hok
  split at hok
  · obtain ⟨_, hregular, hok⟩ := bind_eq_ok.1 hok
    obtain ⟨_, -, hok⟩ := bind_eq_ok.1 hok
    obtain rfl := Except.ok.inj hok
    exact ⟨fun p hp => by rw [OrderedDict.get_set, if_neg hp], .inr (regular_of_regularPath hregular)⟩
  · obtain rfl := Except.ok.inj hok
    exact ⟨fun _ _ => rfl, .inl rfl⟩

/-- What is known of the files that a plan writes. -/
structure WritePlan (t : FileTree (Stored β)) (h : Host β) (moves : List Move) (writes : OrderedDict Location β) :
    Prop where
  place : ∀ p, writes.get p ≠ none →
    (p ∈ attributesPath :: fixedPlaces ∨ ∃ move ∈ moves, move.2 = p)
  regular : ∀ p ∈ attributesPath :: fixedPlaces, writes.get p ≠ none → Regular t p
  layer : ∀ move ∈ moves, isComposeLayer move.2 = true → ∃ move' ∈ moves, move'.2 = move.2 ∧
    ∃ content, layerContent t h move' = .ok content ∧ writes.get move.2 = some content
  kept : ∀ move ∈ moves, isComposeLayer move.2 = false → writes.get move.2 = none
  source : ∀ move ∈ moves, writes.get move.1 = none

theorem get_attributesWrite {h : Host β} {moves : List Move} (hp : p = attributesPath → p ∈ moves.map Prod.snd) :
    (attributesWrite t h moves writes).get p = writes.get p := by
  unfold attributesWrite
  split
  · next hwritten =>
    rw [OrderedDict.get_set, if_neg]
    intro heq
    exact hwritten.2 (by rw [← heq]; exact hp heq)
  · rfl

theorem mem_layerWrites {h : Host β} {moves : List Move} {layers : List (Location × β)}
    (hok : layerWrites t h moves = .ok layers) : (∀ p content, (p, content) ∈ layers →
      ∃ move ∈ moves, isComposeLayer move.2 = true ∧ p = move.2 ∧ layerContent t h move = .ok content) ∧
    ∀ move ∈ moves, isComposeLayer move.2 = true → ∃ content, (move.2, content) ∈ layers := by
  constructor
  · intro p content hmem
    obtain ⟨move, hmove, hcontent⟩ := (mem_of_mapM_eq_ok hok).2 _ hmem
    obtain ⟨hmove, hname⟩ := List.mem_filter.1 hmove
    obtain ⟨content', hcontent', heq⟩ := bind_eq_ok.1 hcontent
    obtain ⟨rfl, rfl⟩ := Prod.mk.inj (Except.ok.inj heq)
    exact ⟨move, hmove, hname, rfl, hcontent'⟩
  · intro move hmove hname
    obtain ⟨entry, hentry, hcontent⟩ := (mem_of_mapM_eq_ok hok).1 move (List.mem_filter.2 ⟨hmove, hname⟩)
    obtain ⟨content, -, heq⟩ := bind_eq_ok.1 hcontent
    obtain rfl := Except.ok.inj heq
    exact ⟨content, hentry⟩

theorem get_migrationWrites [DecidableEq β] {h : Host β} {rewritten : String} {moves : List Move}
    {shared : List String} (hok : migrationWrites t h rewritten hostCompose moves shared = .ok writes) :
    ∃ layers, layerWrites t h moves = .ok layers ∧ (∀ p ∈ [rootIgnore, innerIgnore, attributesPath], Regular t p) ∧
      (∀ p, p ∉ fixedPlaces → (p = attributesPath → p ∈ moves.map Prod.snd) →
        writes.get p = OrderedDict.lastOf p layers) ∧
      (Regular t hostPath ∨ writes.get hostPath = OrderedDict.lastOf hostPath layers) := by
  obtain ⟨layers, hlayers, hok⟩ := bind_eq_ok.1 hok
  obtain ⟨_, hregular, hok⟩ := bind_eq_ok.1 hok
  obtain ⟨rootText, -, hok⟩ := bind_eq_ok.1 hok
  obtain ⟨old, -, hok⟩ := bind_eq_ok.1 hok
  obtain ⟨innerText, -, hok⟩ := bind_eq_ok.1 hok
  obtain ⟨hget, hhost⟩ := hostWrite_eq_ok hok
  have hpre : ∀ p, p ≠ dockerCompose → p ≠ rootIgnore → p ≠ innerIgnore →
      (((OrderedDict.ofList ((dockerCompose, h.encode rewritten) :: layers)).set rootIgnore
        (h.encode (rootIgnoreText rootText))).set innerIgnore (h.encode innerText)).get p =
        OrderedDict.lastOf p layers := by
    intro p hdocker hroot hinner
    rw [OrderedDict.get_set, if_neg hinner, OrderedDict.get_set, if_neg hroot, OrderedDict.get_ofList,
      OrderedDict.lastOf_cons, if_neg hdocker, Option.or_none]
  refine ⟨layers, hlayers, fun p hp => regular_of_regularPath (listForM_eq_ok.1 hregular p hp),
    fun p hfixed hattrs => ?_, ?_⟩
  · simp only [fixedPlaces, List.mem_cons, List.not_mem_nil, or_false, not_or] at hfixed
    obtain ⟨hdocker, hroot, hinner, hhostp⟩ := hfixed
    rw [hget p hhostp, get_attributesWrite hattrs, hpre p hdocker hroot hinner]
  · rcases hhost with hsame | hregular
    · refine .inr ?_
      rw [hsame, get_attributesWrite fun heq => absurd heq (by decide),
        hpre _ (by decide) (by decide) (by decide)]
    · exact .inl hregular

theorem writePlan_of_migrationWrites [DecidableEq β] {h : Host β} {rewritten : String} {moves : List Move}
    {shared : List String} (hm : MovePlan t moves) (hbase : Regular t dockerCompose)
    (hok : migrationWrites t h rewritten hostCompose moves shared = .ok writes) : WritePlan t h moves writes := by
  obtain ⟨layers, hlayers, hregular, hlast, hhost⟩ := get_migrationWrites hok
  obtain ⟨hlayer, hcomplete⟩ := mem_layerWrites hlayers
  have htarget : ∀ move ∈ moves, writes.get move.2 = OrderedDict.lastOf move.2 layers := fun move hmove =>
    hlast _ (hm.target_notMem_fixedPlaces hmove) fun _ => List.mem_map_of_mem hmove
  have hof : ∀ p, OrderedDict.lastOf p layers ≠ none → ∃ move ∈ moves, move.2 = p := by
    intro p hp
    obtain ⟨content, hcontent⟩ := Option.ne_none_iff_exists'.1 hp
    obtain ⟨move, hmove, -, heq, -⟩ := hlayer p content (OrderedDict.mem_of_lastOf hcontent)
    exact ⟨move, hmove, heq.symm⟩
  refine ⟨fun p hp => ?_, fun p hp hne => ?_, fun move hmove hname => ?_, fun move hmove hname => ?_,
    fun move hmove => ?_⟩
  · by_cases hfixed : p ∈ attributesPath :: fixedPlaces
    · exact .inl hfixed
    · rw [List.mem_cons, not_or] at hfixed
      rw [hlast p hfixed.2 fun heq => absurd heq hfixed.1] at hp
      exact .inr (hof p hp)
  · have hcases : p ∈ [rootIgnore, innerIgnore, attributesPath] ∨ p = dockerCompose ∨ p = hostPath := by
      simp only [fixedPlaces, List.mem_cons, List.not_mem_nil, or_false] at hp ⊢
      tauto
    rcases hcases with hp | hp | hp
    · exact hregular p hp
    · rw [hp]
      exact hbase
    · rw [hp] at hne ⊢
      rcases hhost with hhost | hhost
      · exact hhost
      · rw [hhost] at hne
        obtain ⟨move, hmove, heq⟩ := hof _ hne
        have hmem : hostPath ∈ fixedPlaces := by decide
        rw [← heq] at hmem
        exact absurd hmem (hm.target_notMem_fixedPlaces hmove)
  · obtain ⟨content, hmem⟩ := hcomplete move hmove hname
    have hsome : OrderedDict.lastOf move.2 layers ≠ none := fun hnone =>
      OrderedDict.lastOf_eq_none_iff.1 hnone content hmem
    obtain ⟨last, hlastv⟩ := Option.ne_none_iff_exists'.1 hsome
    obtain ⟨move', hmove', -, heq, hcontent'⟩ := hlayer _ last (OrderedDict.mem_of_lastOf hlastv)
    exact ⟨move', hmove', heq.symm, last, hcontent', by rw [htarget move hmove, hlastv]⟩
  · rw [htarget move hmove, OrderedDict.lastOf_eq_none_iff]
    intro content hmem
    obtain ⟨move', -, hname', heq, -⟩ := hlayer _ content hmem
    rw [heq, hname'] at hname
    cases hname
  · obtain ⟨hfixed, hattrs⟩ := hm.source_notMem_fixedPlaces hmove
    rw [hlast _ hfixed fun heq => absurd heq hattrs, OrderedDict.lastOf_eq_none_iff]
    intro content hmem
    obtain ⟨move', hmove', -, heq, -⟩ := hlayer _ content hmem
    exact hm.source_ne_target hmove hmove' heq

theorem plan_of_migrationPlan [DecidableEq β] {h : Host β} {includes : List String} {plan : MigrationPlan β}
    (hc : t.Closed) (hok : migrationPlan t h includes = .ok plan) :
    MovePlan t plan.moves ∧ WritePlan t h plan.moves plan.writes := by
  obtain ⟨_, -, hok⟩ := bind_eq_ok.1 hok
  obtain ⟨_, -, hok⟩ := bind_eq_ok.1 hok
  obtain ⟨_, hbase, hok⟩ := bind_eq_ok.1 hok
  obtain ⟨_, -, hok⟩ := bind_eq_ok.1 hok
  obtain ⟨split, -, hok⟩ := bind_eq_ok.1 hok
  obtain ⟨moves, hmoves, hok⟩ := bind_eq_ok.1 hok
  obtain ⟨shared, -, hok⟩ := bind_eq_ok.1 hok
  obtain ⟨writes, hwrites, hok⟩ := bind_eq_ok.1 hok
  obtain rfl := Except.ok.inj hok
  have hm := movePlan_of_migrationMoves hc hmoves
  exact ⟨hm, writePlan_of_migrationWrites hm (regular_of_regularPath hbase) hwrites⟩

theorem mem_places {plan : MigrationPlan β} :
    p ∈ plan.places ↔ plan.writes.get p ≠ none ∨ ∃ move ∈ plan.moves, p = move.1 ∨ p = move.2 := by
  have hkey : p ∈ plan.writes.items.map Prod.fst ↔ plan.writes.get p ≠ none := by
    rw [ne_eq, OrderedDict.get_eq_none_iff, not_not]
  rw [MigrationPlan.places, List.mem_append, hkey, List.mem_flatMap]
  simp only [List.mem_cons, List.not_mem_nil, or_false]

theorem mem_affected {h : Host β} {plan : MigrationPlan β} : p ∈ affected h plan ↔ p ∈ plan.places := by
  rw [affected, (h.pathOrder_perm _).mem_iff, List.mem_dedup]
  exact Iff.rfl

theorem regular_of_mem_places {h : Host β} {plan : MigrationPlan β} (hm : MovePlan t plan.moves)
    (hw : WritePlan t h plan.moves plan.writes) (hp : p ∈ plan.places) : Regular t p := by
  rcases mem_places.1 hp with hwrite | ⟨move, hmove, rfl | rfl⟩
  · rcases hw.place p hwrite with hfixed | ⟨move, hmove, rfl⟩
    · exact hw.regular p hfixed hwrite
    · exact hm.target move hmove
  · exact .inr (hm.source move hmove)
  · exact hm.target move hmove

/-! ### Files that meet -/

section

variable {moves : List Move} (hm : MovePlan t moves) (hfree : Unobstructed t)
include hm hfree

/-- A file of the project and an exported one that goes to the same place or below it. -/
theorem MovePlan.meets_personal (hmove : move ∈ personalMoves) (hmem : move ∈ moves)
    (hmem' : (legacy ++ relative, ".phlo" :: relative) ∈ moves) (hpre : move.2 <+: ".phlo" :: relative) :
    move.2 = ".phlo" :: relative ∧ t.contentAt move.1 = t.contentAt (legacy ++ relative) := by
  have hplace : ∀ m ∈ personalMoves, m.2 = ".phlo" :: m.2.tail := by decide
  obtain ⟨content, hcontent⟩ := hm.content hmem
  obtain ⟨s, hs⟩ := hm.source _ hmem'
  rw [hplace move hmove, List.prefix_cons_inj] at hpre
  obtain ⟨heq, hsame⟩ := hfree move hmove content hcontent (legacy ++ relative)
    ((List.prefix_append_right_inj legacy).2 hpre) (by rw [FileTree.readFile_eq_some_iff.2 hs]; rfl)
  rw [hplace move hmove, List.append_cancel_left heq]
  exact ⟨rfl, by rw [hcontent, ← heq, hsame]⟩

theorem MovePlan.same_of_target {move' : Move} (hmove : move ∈ moves) (hmove' : move' ∈ moves)
    (heq : move.2 = move'.2) : t.contentAt move.1 = t.contentAt move'.1 := by
  have hpersonal : ∀ m ∈ personalMoves, ∀ m' ∈ personalMoves, m.2 = m'.2 → m = m' := by decide
  rcases hm.shape move hmove with hpers | ⟨relative, -, -, rfl⟩
  · rcases hm.shape move' hmove' with hpers' | ⟨relative, -, -, rfl⟩
    · rw [hpersonal move hpers move' hpers' heq]
    · exact (hm.meets_personal hfree hpers hmove hmove' (by rw [heq])).2
  · rcases hm.shape move' hmove' with hpers' | ⟨relative', -, -, rfl⟩
    · exact (hm.meets_personal hfree hpers' hmove' hmove (by rw [← heq])).2.symm
    · rw [(List.cons.inj heq).2]

theorem MovePlan.eq_of_target_prefix (hc : t.Closed) {move' : Move} (hmove : move ∈ moves) (hmove' : move' ∈ moves)
    (hpre : move.2 <+: move'.2) : move.2 = move'.2 := by
  have hpersonal : ∀ m ∈ personalMoves, ∀ m' ∈ personalMoves, m.2 <+: m'.2 → m.2 = m'.2 := by decide
  have hinits : ∀ m' ∈ personalMoves, ∀ q ∈ m'.2.inits, q = m'.2 ∨ q.tail = [] ∨
      q.tail.getLast? ≠ some ".gitattributes" ∧ q.tail.any isPrivate = true := by decide
  rcases hm.shape move hmove with hpers | ⟨relative, hne, hshare, rfl⟩
  · rcases hm.shape move' hmove' with hpers' | ⟨relative, -, -, rfl⟩
    · exact hpersonal move hpers move' hpers' hpre
    · exact (hm.meets_personal hfree hpers hmove hmove' hpre).1
  · rcases hm.shape move' hmove' with hpers' | ⟨relative', -, -, rfl⟩
    · rcases hinits move' hpers' _ ((List.mem_inits _ _).2 hpre) with heq | hnil | ⟨hlast, hprivate⟩
      · exact heq
      · exact absurd hnil hne
      · rcases hshare with hshare | hshare
        · exact absurd hshare hlast
        · rw [List.tail_cons, hshare] at hprivate
          cases hprivate
    · by_contra hneq
      obtain ⟨s, hs⟩ := hm.source _ hmove
      obtain ⟨s', hs'⟩ := hm.source _ hmove'
      have hbelow : legacy ++ relative <+: legacy ++ relative' :=
        (List.prefix_append_right_inj legacy).2 ((List.prefix_cons_inj _).1 hpre)
      have hdir := hc.above (by rw [hs']; exact Option.some_ne_none _) hbelow fun heq =>
        hneq (by rw [List.append_cancel_left heq])
      rw [hs] at hdir
      cases hdir

end

/-! ### Making directories -/

theorem prefix_of_mem_parents (h : q ∈ parents p) : q <+: p ∧ q ≠ p := by
  obtain ⟨n, hn, rfl⟩ := List.mem_map.1 h
  have hlt : n < p.length := List.mem_range.1 (List.mem_reverse.1 hn)
  refine ⟨List.take_prefix n p, fun heq => ?_⟩
  have hlen := congrArg List.length heq
  rw [List.length_take] at hlen
  omega

theorem yields_missingParents (faults : ℕ → FileFault β) {P : Disk β → Prop} (ps : List Location) :
    Yields P (missingParents faults ps) (fun missing d => P d ∧ ∀ q ∈ missing, q ∈ ps) P := by
  induction ps with
  | nil => exact yields_pure fun d hd => ⟨hd, fun q hq => hq⟩
  | cons parent rest ih =>
    refine Yields.bind (maintains_askSystem _) fun there => ?_
    cases there with
    | true => exact yields_pure fun d hd => ⟨hd, fun q hq => absurd hq List.not_mem_nil⟩
    | false =>
      refine Yields.bind ih fun missing => yields_pure fun d hd => ⟨hd.1, fun q hq => ?_⟩
      rcases List.mem_cons.1 hq with rfl | hq
      · exact List.mem_cons_self
      · exact List.mem_cons_of_mem _ (hd.2 q hq)

section

local instance location_lawfulBEq : LawfulBEq Location := List.instLawfulBEq

/-- Nothing has changed but for new directories above some places. -/
def OnlyDirectories (t : FileTree (Stored β)) (places : List Location) (d : Disk β) : Prop :=
  (∀ q ∈ d.made, t.node q = none ∧ ∃ a ∈ places, q <+: a ∧ q ≠ a) ∧
    ∀ p, d.tree.node p = if p ∈ d.made then some .directory else t.node p

end

theorem maintains_makeParents (faults : ℕ → FileFault β) {places : List Location} {a : Location} (ha : a ∈ places) :
    Maintains (OnlyDirectories t places) (makeParents faults a) := by
  refine Yields.bind (yields_missingParents faults _) fun missing => ?_
  refine Yields.mono (P := fun d => OnlyDirectories t places d ∧ ∀ q ∈ missing, q ∈ parents a)
    (Q := fun _ d => OnlyDirectories t places d ∧ ∀ q ∈ missing, q ∈ parents a)
    (E := fun d => OnlyDirectories t places d ∧ ∀ q ∈ missing, q ∈ parents a) ?_ (fun _ hd => hd)
    (fun _ _ hd => hd.1) fun _ hd => hd.1
  refine maintains_forM fun q hq => maintains_mkdir fun d tree hd hmade => ?_
  obtain ⟨⟨hnew, hnode⟩, hparents⟩ := hd
  obtain ⟨hnone, -, hnode'⟩ := FileTree.node_makeDirectory hmade
  refine ⟨⟨fun q' hq' => ?_, fun p => ?_⟩, hparents⟩
  · rcases List.mem_cons.1 hq' with rfl | hq'
    · rw [hnode] at hnone
      split at hnone
      · cases hnone
      · exact ⟨hnone, a, ha, prefix_of_mem_parents (hparents _ (List.mem_reverse.1 hq))⟩
    · exact hnew q' hq'
  · rw [hnode', hnode]
    by_cases hp : p = q
    · rw [if_pos hp, if_pos (by rw [hp]; exact List.mem_cons_self)]
    · rw [if_neg hp]
      simp only [List.mem_cons, hp, false_or]

/-! ### What the journal relies on -/

/-- Outside the plan only directories are new; a file of the plan is gone, or has its permissions still. -/
structure Journaled (t : FileTree (Stored β)) (plan : MigrationPlan β) (d : Disk β) : Prop where
  made : ∀ q ∈ d.made, t.node q = none
  outside : ∀ p, p ∉ plan.places → d.tree.node p = if p ∈ d.made then some .directory else t.node p
  inside : ∀ p ∈ plan.places, ∀ s, t.node p = some (.file s) →
    d.tree.node p = none ∨ ∃ content, d.tree.node p = some (.file ⟨content, s.mode⟩)

/-- And it is gone only if it was to move. -/
structure Standing (t : FileTree (Stored β)) (plan : MigrationPlan β) (d : Disk β) : Prop extends
    Journaled t plan d where
  stands : ∀ p ∈ plan.places, (∀ move ∈ plan.moves, p ≠ move.1) → ∀ s, t.node p = some (.file s) →
    ∃ content, d.tree.node p = some (.file ⟨content, s.mode⟩)

section

variable {h : Host β} {plan : MigrationPlan β} {d : Disk β}

theorem OnlyDirectories.standing {places : List Location} (hd : OnlyDirectories t places d) : Standing t plan d := by
  obtain ⟨hmade, hnode⟩ := hd
  have hfile : ∀ p s, t.node p = some (.file s) → d.tree.node p = some (.file s) := by
    intro p s hs
    rw [hnode, if_neg fun hp => ?_, hs]
    rw [(hmade p hp).1] at hs
    cases hs
  exact ⟨⟨fun q hq => (hmade q hq).1, fun p _ => hnode p, fun p _ s hs => .inr ⟨s.content, hfile p s hs⟩⟩,
    fun p _ _ s hs => ⟨s.content, hfile p s hs⟩⟩

variable {tree : FileTree (Stored β)}

theorem Journaled.change {n : Option (Node (Stored β))} (hd : Journaled t plan d) (hq : q ∈ plan.places)
    (hnode : ∀ p, tree.node p = if p = q then n else d.tree.node p)
    (hn : ∀ s, t.node q = some (.file s) → n = none ∨ ∃ content, n = some (.file ⟨content, s.mode⟩)) :
    Journaled t plan { d with tree } := by
  refine ⟨hd.made, fun p hp => ?_, fun p hp s hs => ?_⟩
  · rw [hnode, if_neg fun heq : p = q => hp (heq ▸ hq)]
    exact hd.outside p hp
  · rw [hnode]
    by_cases heq : p = q
    · rw [if_pos heq]
      exact hn s (heq ▸ hs)
    · rw [if_neg heq]
      exact hd.inside p hp s hs

theorem source_mem_places (hmove : move ∈ plan.moves) : move.1 ∈ plan.places :=
  mem_places.2 (.inr ⟨move, hmove, .inl rfl⟩)

theorem target_mem_places (hmove : move ∈ plan.moves) : move.2 ∈ plan.places :=
  mem_places.2 (.inr ⟨move, hmove, .inr rfl⟩)

theorem Standing.removeSource (hd : Standing t plan d) (hmove : move ∈ plan.moves)
    (hnode : ∀ p, tree.node p = if p = move.1 then none else d.tree.node p) : Standing t plan { d with tree } := by
  refine ⟨hd.toJournaled.change (source_mem_places hmove) hnode fun _ _ => .inl rfl, fun p hp hsource s hs => ?_⟩
  rw [hnode, if_neg (hsource move hmove)]
  exact hd.stands p hp hsource s hs

theorem Standing.replace {n : Node (Stored β)} (hd : Standing t plan d) (hq : q ∈ plan.places)
    (hnode : ∀ p, tree.node p = if p = q then some n else d.tree.node p)
    (hn : ∀ s, t.node q = some (.file s) → ∃ content, n = .file ⟨content, s.mode⟩) :
    Standing t plan { d with tree } := by
  refine ⟨hd.toJournaled.change hq hnode fun s hs => .inr ?_, fun p hp hsource s hs => ?_⟩
  · obtain ⟨content, rfl⟩ := hn s hs
    exact ⟨content, rfl⟩
  · rw [hnode]
    by_cases heq : p = q
    · rw [if_pos heq]
      obtain ⟨content, rfl⟩ := hn s (heq ▸ hs)
      exact ⟨content, rfl⟩
    · rw [if_neg heq]
      exact hd.stands p hp hsource s hs

theorem Standing.write {mode : ℕ} {content : β} (hd : Standing t plan d) (hq : q ∈ plan.places)
    (hsource : ∀ move ∈ plan.moves, q ≠ move.1) (hwrite : d.tree.writeFile mode q content = some tree) :
    Standing t plan { d with tree } := by
  refine hd.replace hq (FileTree.node_writeFile hwrite).2 fun s hs => ?_
  obtain ⟨old, hold⟩ := hd.stands q hq hsource s hs
  rw [FileTree.readFile_eq_some_iff.2 hold]
  exact ⟨content, rfl⟩

theorem maintains_writes (hw : WritePlan t h plan.moves plan.writes) (faults : ℕ → FileFault β) {mode : ℕ} {item : Location × β}
    (hitem : item ∈ plan.writes.items) : Maintains (Standing t plan) (writeContent faults mode item.1 item.2) := by
  have hget : plan.writes.get item.1 ≠ none := by
    rw [OrderedDict.get_eq_some_iff.2 hitem]
    exact Option.some_ne_none _
  refine maintains_writeContent fun d tree content hd hwrite =>
    hd.write (mem_places.2 (.inl hget)) (fun move hmove heq => ?_) hwrite
  rw [heq] at hget
  exact hget (hw.source move hmove)

variable (hm : MovePlan t plan.moves) (hw : WritePlan t h plan.moves plan.writes)
include hm

theorem maintains_applyMove [DecidableEq β] (faults : ℕ → FileFault β) (hmove : move ∈ plan.moves) :
    Maintains (Standing t plan) (applyMove faults move) := by
  refine Yields.bind (R := fun there d => Standing t plan d ∧ d.tree.present move.2 = there)
    (yields_askSystem (fun d there hd hthere => ⟨hd, Option.some.inj hthere⟩) fun _ hd => hd) fun there => ?_
  cases there with
  | true =>
    rw [if_pos rfl]
    refine yields_changeTree (fun d tree hd hremove => ?_) fun _ hd => hd.1
    exact hd.1.removeSource hmove (FileTree.node_removeFile hremove).2.2
  | false =>
    rw [if_neg Bool.false_ne_true]
    refine yields_changeTree (fun d tree hd hrename => ?_) fun _ hd => hd.1
    obtain ⟨hd, habsent⟩ := hd
    obtain ⟨n, -, -, -, -, hnode⟩ := FileTree.node_renameFile hrename
    -- nothing stands at the target, so no file is to be put back there
    have hnew : ∀ s, t.node move.2 ≠ some (.file s) := by
      intro s hs
      obtain ⟨content, hold⟩ := hd.stands move.2 (target_mem_places hmove)
        (fun move' hmove' heq => hm.source_ne_target hmove' hmove heq.symm) s hs
      rw [present_of_file hold] at habsent
      cases habsent
    have hremove : ∀ p, (d.tree.remove move.1).node p = if p = move.1 then none else d.tree.node p := by
      obtain ⟨s, hs⟩ := hm.source move hmove
      refine fun p => FileTree.node_remove fun hroot => ?_
      rw [hroot] at hs
      cases hs
    refine Standing.replace (d := ⟨d.tree.remove move.1, d.made⟩) (n := n) (hd.removeSource hmove hremove)
      (target_mem_places hmove) (fun p => ?_) fun s hs => absurd hs (hnew s)
    rw [hnode]
    split
    · rfl
    · exact (hremove p).symm

include hw

/-- Wherever the calls end, the journal has what it takes to put everything back. -/
theorem yields_relocate_standing [DecidableEq β] (faults : ℕ → FileFault β) :
    Yields (fun d => d = ⟨t, []⟩) (relocate h faults (affected h plan) plan) (fun _ => Standing t plan)
      (Standing t plan) := by
  have hstart : ∀ d : Disk β, d = ⟨t, []⟩ → OnlyDirectories t (affected h plan) d := by
    rintro d rfl
    exact ⟨fun q hq => absurd hq List.not_mem_nil, fun p => rfl⟩
  refine Yields.bind (R := fun _ => Standing t plan) ?_ fun _ =>
    Yields.bind (maintains_forM fun move hmove => maintains_applyMove hm faults hmove) fun _ =>
      maintains_forM fun item hitem => maintains_writes hw faults hitem
  exact Yields.mono (maintains_forM fun a ha => maintains_makeParents faults ha) hstart (fun _ _ => (·.standing))
    fun _ => (·.standing)

end

/-! ### Putting everything back -/

section

variable {h : Host β} {plan : MigrationPlan β}

/-- The journal is good, and these places are as they were. -/
def PutBack (t : FileTree (Stored β)) (plan : MigrationPlan β) (back : List Location) (d : Disk β) : Prop :=
  Journaled t plan d ∧ ∀ p ∈ back, d.tree.node p = t.node p

variable {back : List Location}

theorem PutBack.change {tree tree' : FileTree (Stored β)} {made : List Location}
    (hd : PutBack t plan back ⟨tree, made⟩) (hq : q ∈ plan.places)
    (hnode : ∀ p, tree'.node p = if p = q then t.node q else tree.node p) :
    PutBack t plan (back ++ [q]) ⟨tree', made⟩ := by
  obtain ⟨hjournal, hback⟩ := hd
  refine ⟨hjournal.change hq hnode fun s hs => .inr ⟨s.content, hs⟩, fun p hp => ?_⟩
  show tree'.node p = t.node p
  rw [hnode]
  by_cases heq : p = q
  · rw [if_pos heq, heq]
  · rw [if_neg heq]
    rcases List.mem_append.1 hp with hp | hp
    · exact hback p hp
    · exact absurd (List.mem_singleton.1 hp) heq

theorem yields_isChanged [DecidableEq β] (faults : ℕ → FileFault β) (hp : p ∈ plan.places)
    (hs : t.node p = some (.file s)) : Yields (PutBack t plan back) (isChanged faults p s.content)
      (fun changed d => PutBack t plan back d ∧ (changed = false → d.tree.node p = t.node p)) fun _ => True := by
  refine Yields.bind (R := fun _ => PutBack t plan back) (yields_askSystem (fun _ _ hd _ => hd) fun _ _ => trivial)
    fun there => ?_
  cases there with
  | false => exact yields_pure fun d hd => ⟨hd, fun hfalse => (by cases hfalse)⟩
  | true =>
    refine Yields.bind (R := fun stored d => PutBack t plan back d ∧ d.tree.node p = some (.file stored))
      (yields_askSystem (fun d stored hd hstored => ⟨hd, FileTree.readFile_eq_some_iff.1 hstored⟩) fun _ _ => trivial)
      fun stored => yields_pure fun d hd => ⟨hd.1, fun hsame => ?_⟩
    obtain ⟨⟨hjournal, -⟩, hnode⟩ := hd
    have hcontent : stored.content = s.content := not_not.1 (of_decide_eq_false hsame)
    rcases hjournal.inside p hp s hs with hnone | ⟨content, hfile⟩
    · rw [hnode] at hnone
      cases hnone
    · rw [hnode] at hfile
      obtain rfl := Node.file.inj (Option.some.inj hfile)
      rw [hnode, hs, show content = s.content from hcontent]

theorem yields_putBack [DecidableEq β] (faults : ℕ → FileFault β) {original : Option (Stored β)}
    (hp : p ∈ plan.places) (hnode : t.node p = original.map Node.file) :
    Yields (PutBack t plan back) (putBack h faults (p, original)) (fun _ => PutBack t plan (back ++ [p]))
      fun _ => True := by
  cases original with
  | none =>
    show Yields _ (changeTree faults fun t => t.removeIfPresent p) _ _
    refine yields_changeTree (fun d tree hd hremove => ?_) fun _ _ => trivial
    refine hd.change hp fun q => ?_
    rw [(FileTree.node_removeIfPresent hremove).2, hnode]
    rfl
  | some s =>
    refine Yields.bind (yields_isChanged faults hp hnode) fun changed => ?_
    cases changed with
    | false =>
      refine yields_pure fun d hd => hd.1.change hp fun q => ?_
      split
      · next heq => rw [heq, hd.2 rfl]
      · rfl
    | true =>
      refine Yields.bind (R := fun _ d => ∃ tree mode, PutBack t plan back ⟨tree, d.made⟩ ∧
          ∀ q, d.tree.node q = if q = p then some (.file ⟨s.content, mode⟩) else tree.node q)
        (yields_writeContent (fun d tree hd hwrite => ⟨d.tree, _, hd.1, (FileTree.node_writeFile hwrite).2⟩)
          (fun _ _ => trivial) fun _ _ _ _ _ => trivial)
        fun _ => yields_changeTree (fun d tree hd hmode => ?_) fun _ _ => trivial
      obtain ⟨tree', mode, hback, hnode'⟩ := hd
      obtain ⟨stored, hstored, hafter⟩ := FileTree.node_changeMode hmode
      rw [hnode', if_pos rfl] at hstored
      obtain rfl := Node.file.inj (Option.some.inj hstored)
      refine hback.change hp fun q => ?_
      rw [hafter, hnode, hnode']
      split
      · rfl
      · rfl

theorem yields_takeOriginal (faults : ℕ → FileFault β) (hp : Regular t p) :
    Yields (fun d => d = ⟨t, []⟩) (takeOriginal faults p)
      (fun original d => d = ⟨t, []⟩ ∧ original = (p, t.readFile p)) fun _ => True := by
  refine Yields.bind (R := fun there d => d = ⟨t, []⟩ ∧ t.present p = there)
    (yields_askSystem (fun d there hd hthere => ⟨hd, ?_⟩) fun _ _ => trivial) fun there => ?_
  · rw [hd] at hthere
    exact Option.some.inj hthere
  · cases there with
    | true =>
      refine Yields.bind (R := fun stored d => d = ⟨t, []⟩ ∧ t.readFile p = some stored)
        (yields_askSystem (fun d stored hd hstored => ⟨hd.1, ?_⟩) fun _ _ => trivial)
        fun stored => yields_pure fun d hd => ⟨hd.1, by rw [hd.2]⟩
      rw [hd.1] at hstored
      exact hstored
    | false =>
      refine yields_pure fun d hd => ⟨hd.1, ?_⟩
      have hnone : t.readFile p = none := by
        have hiff := hp.present_iff
        rw [hd.2] at hiff
        exact Option.not_isSome_iff_eq_none.1 fun hsome => Bool.false_ne_true (hiff.2 hsome)
      rw [hnone]

theorem yields_originals (faults : ℕ → FileFault β) (places : List Location) (hp : ∀ p ∈ places, Regular t p) :
    Yields (fun d => d = ⟨t, []⟩) (places.mapM (takeOriginal faults))
      (fun originals d => d = ⟨t, []⟩ ∧ originals = places.map fun p => (p, t.readFile p)) fun _ => True := by
  induction places with
  | nil => exact yields_pure fun d hd => ⟨hd, rfl⟩
  | cons p places ih =>
    rw [List.mapM_cons]
    refine Yields.bind (yields_takeOriginal faults (hp p List.mem_cons_self)) fun original => ?_
    intro d n hd
    obtain ⟨hd, rfl⟩ := hd
    refine Yields.bind (ih fun q hq => hp q (List.mem_cons_of_mem _ hq)) (fun originals => ?_) d n hd
    exact yields_pure fun d hd => ⟨hd.1, by rw [hd.2, List.map_cons]⟩

/-- Once everything is put back and the new directories are gone, the tree is as it was. -/
theorem yields_restoreOriginals [DecidableEq β] (h : Host β) (faults : ℕ → FileFault β) (places : List Location)
    (hplaces : ∀ p, p ∈ places ↔ p ∈ plan.places) (hregular : ∀ p ∈ places, Regular t p) :
    Yields (Journaled t plan) (restoreOriginals h faults (places.map fun p => (p, t.readFile p)))
      (fun _ d => ∀ p, d.tree.node p = t.node p) fun _ => True := by
  refine Yields.bind (R := fun _ => PutBack t plan places) ?_ fun _ => ?_
  · refine Yields.mono (yields_forM (I := fun done => PutBack t plan (done.map Prod.fst))
      (E := fun _ => True) fun done item rest heq => ?_) (fun d hd => ⟨hd, fun p hp => absurd hp List.not_mem_nil⟩)
      (fun _ d hd => ?_) fun _ _ => trivial
    · have hitem : item ∈ places.map fun p => (p, t.readFile p) := by
        rw [heq]
        exact List.mem_append_right _ List.mem_cons_self
      obtain ⟨p, hp, rfl⟩ := List.mem_map.1 hitem
      show Yields _ _ (fun _ => PutBack t plan ((done ++ [(p, t.readFile p)]).map Prod.fst)) _
      rw [List.map_append]
      exact yields_putBack faults ((hplaces p).1 hp) ((hregular p hp).node_of_readFile rfl)
    · rwa [List.map_map, show Prod.fst ∘ (fun p => (p, t.readFile p)) = id from rfl, List.map_id] at hd
  · refine Yields.bind (R := fun made d => (∀ q ∈ made, t.node q = none) ∧
        ∀ p, d.tree.node p = t.node p ∨ p ∈ made)
      (yields_askSystem (fun d made hd hmade => ?_) fun _ _ => trivial) fun made => ?_
    · obtain ⟨hjournal, hback⟩ := hd
      obtain rfl := Option.some.inj hmade
      refine ⟨hjournal.made, fun p => ?_⟩
      by_cases hp : p ∈ plan.places
      · exact .inl (hback p ((hplaces p).2 hp))
      · by_cases hmem : p ∈ d.made
        · exact .inr hmem
        · exact .inl (by rw [hjournal.outside p hp, if_neg hmem])
    · refine Yields.mono (yields_forM (I := fun done d => (∀ q ∈ made, t.node q = none) ∧
          ∀ p, d.tree.node p = t.node p ∨ p ∈ made ∧ p ∉ done) (E := fun _ => True) fun done q rest heq => ?_)
        (fun d hd => ⟨hd.1, fun p => (hd.2 p).imp_right fun hp => ⟨hp, List.not_mem_nil⟩⟩)
        (fun _ d hd p => (hd.2 p).resolve_right fun hp => hp.2 hp.1) fun _ _ => trivial
      refine yields_changeTree (fun d tree hd hremove => ?_) fun _ _ => trivial
      have hnode := (FileTree.node_removeDirectory hremove).2.2.2
      have hq : q ∈ made := by
        rw [heq]
        exact List.mem_append_right _ List.mem_cons_self
      refine ⟨hd.1, fun p => ?_⟩
      show tree.node p = t.node p ∨ _
      rw [hnode]
      by_cases hpq : p = q
      · rw [if_pos hpq, hpq, hd.1 q hq]
        exact .inl rfl
      · rw [if_neg hpq, List.mem_append, not_or, List.mem_singleton]
        exact (hd.2 p).imp_right fun hp => ⟨hp.1, hp.2, hpq⟩

end

/-! ### Where the files go -/

theorem contentAt_congr {t' : FileTree (Stored β)} (h : t.node p = t'.node q) : t.contentAt p = t'.contentAt q := by
  unfold FileTree.contentAt FileTree.readFile
  rw [h]

theorem contentAt_of_file (h : t.node p = some (.file s)) : t.contentAt p = some s.content :=
  FileTree.contentAt_eq_some_iff.2 ⟨s.mode, h⟩

theorem node_ne_none_of_present (h : t.present p = true) : t.node p ≠ none := by
  intro hnone
  rw [FileTree.present, hnone] at h
  cases h

section

variable {h : Host β} {plan : MigrationPlan β}

/-- These moves are done: their sources are gone, and there is something at their targets. -/
structure Moved (t : FileTree (Stored β)) (plan : MigrationPlan β) (done : List Move) (d : Disk β) : Prop where
  gone : ∀ move ∈ done, d.tree.node move.1 = none
  arrived : ∀ move ∈ done, d.tree.node move.2 ≠ none
  source : ∀ move ∈ plan.moves, d.tree.node move.1 = t.node move.1 ∨ d.tree.node move.1 = none
  target : ∀ move ∈ plan.moves, d.tree.node move.2 = none ∨ d.tree.contentAt move.2 = t.contentAt move.1
  others : ∀ p, p ∉ plan.places → d.tree.readFile p = t.readFile p

/-- These files are written, and all others have moved. -/
structure Written (t : FileTree (Stored β)) (plan : MigrationPlan β) (done : List (Location × β)) (d : Disk β) :
    Prop where
  gone : ∀ move ∈ plan.moves, d.tree.node move.1 = none
  written : ∀ item ∈ done, d.tree.contentAt item.1 = some item.2
  target : ∀ move ∈ plan.moves, move.2 ∉ done.map Prod.fst → d.tree.contentAt move.2 = t.contentAt move.1
  others : ∀ p, p ∉ plan.places → d.tree.readFile p = t.readFile p

variable (hm : MovePlan t plan.moves) (hfree : Unobstructed t) (hc : t.Closed)
include hm hfree

section

variable (hw : WritePlan t h plan.moves plan.writes)
include hc hw

theorem target_notMem_made {d : Disk β} (hd : OnlyDirectories t (affected h plan) d) (hmove : move ∈ plan.moves) :
    move.2 ∉ d.made := by
  intro hmade
  obtain ⟨hnone, a, ha, hpre, hne⟩ := hd.1 _ hmade
  have htarget : ∀ move' ∈ plan.moves, a ≠ move'.2 := by
    rintro move' hmove' rfl
    exact hne (hm.eq_of_target_prefix hfree hc hmove hmove' hpre)
  rcases mem_places.1 (mem_affected.1 ha) with hwrite | ⟨move', hmove', heq | heq⟩
  · rcases hw.place a hwrite with hfixed | ⟨move', hmove', heq⟩
    · exact hm.target_ne_directory hmove hfixed ⟨hpre, hne⟩
    · exact htarget move' hmove' heq.symm
  · obtain ⟨s, hs⟩ := hm.source move' hmove'
    rw [← heq] at hs
    rw [hc.above (by rw [hs]; exact Option.some_ne_none _) hpre hne] at hnone
    cases hnone
  · exact htarget move' hmove' heq

theorem moved_of_onlyDirectories {d : Disk β} (hd : OnlyDirectories t (affected h plan) d) : Moved t plan [] d := by
  obtain ⟨hmade, hnode⟩ := hd
  have hsame : ∀ p, p ∉ d.made → d.tree.node p = t.node p := fun p hp => by rw [hnode, if_neg hp]
  refine ⟨fun move hmove => absurd hmove List.not_mem_nil, fun move hmove => absurd hmove List.not_mem_nil,
    fun move hmove => .inl (hsame _ fun hmem => ?_), fun move hmove => ?_, fun p _ => ?_⟩
  · obtain ⟨s, hs⟩ := hm.source move hmove
    rw [(hmade _ hmem).1] at hs
    cases hs
  · have htarget := hsame _ (target_notMem_made hm hfree hc hw ⟨hmade, hnode⟩ hmove)
    rw [htarget]
    by_cases hnone : t.node move.2 = none
    · exact .inl hnone
    · exact .inr ((contentAt_congr htarget).trans (hm.agrees move hmove hnone))
  · by_cases hmem : p ∈ d.made
    · rw [FileTree.readFile, FileTree.readFile, hnode, if_pos hmem, (hmade p hmem).1]
    · exact FileTree.readFile_congr (hsame p hmem)

end

theorem Moved.step {done : List Move} {d : Disk β} {tree : FileTree (Stored β)} (hd : Moved t plan done d)
    (hdone : ∀ move ∈ done, move ∈ plan.moves) (hmove : move ∈ plan.moves)
    (hnode : ∀ p, p ≠ move.2 → tree.node p = if p = move.1 then none else d.tree.node p)
    (hthere : tree.node move.2 ≠ none) (hcontent : tree.contentAt move.2 = t.contentAt move.1) :
    Moved t plan (done ++ [move]) { d with tree } := by
  have hsource : ∀ move' ∈ plan.moves, tree.node move'.1 = if move'.1 = move.1 then none else d.tree.node move'.1 :=
    fun move' hmove' => hnode _ (hm.source_ne_target hmove' hmove)
  have htarget : ∀ move' ∈ plan.moves, move'.2 ≠ move.2 → tree.node move'.2 = d.tree.node move'.2 := by
    intro move' hmove' hne
    rw [hnode _ hne, if_neg fun heq => hm.source_ne_target hmove hmove' heq.symm]
  refine ⟨fun move' hmove' => ?_, fun move' hmove' => ?_, fun move' hmove' => ?_, fun move' hmove' => ?_,
    fun p hp => ?_⟩
  · rcases List.mem_append.1 hmove' with hmove' | hmove'
    · rw [hsource move' (hdone _ hmove'), hd.gone move' hmove', ite_self]
    · rw [List.mem_singleton.1 hmove', hsource move hmove, if_pos rfl]
  · by_cases heq : move'.2 = move.2
    · rw [heq]
      exact hthere
    · rcases List.mem_append.1 hmove' with hmove' | hmove'
      · rw [htarget move' (hdone _ hmove') heq]
        exact hd.arrived move' hmove'
      · rw [List.mem_singleton.1 hmove'] at heq
        exact absurd rfl heq
  · show tree.node move'.1 = _ ∨ tree.node move'.1 = _
    rw [hsource move' hmove']
    split
    · exact .inr rfl
    · exact hd.source move' hmove'
  · show tree.node move'.2 = _ ∨ tree.contentAt move'.2 = _
    by_cases heq : move'.2 = move.2
    · rw [heq, hcontent]
      exact .inr (hm.same_of_target hfree hmove hmove' heq.symm)
    · have hsame := htarget move' hmove' heq
      rw [contentAt_congr hsame, hsame]
      exact hd.target move' hmove'
  · have hne : ∀ q ∈ plan.places, p ≠ q := fun q hq heq => hp (by rw [heq]; exact hq)
    have hsame : tree.node p = d.tree.node p := by
      rw [hnode p (hne _ (target_mem_places hmove)), if_neg (hne _ (source_mem_places hmove))]
    exact (FileTree.readFile_congr hsame).trans (hd.others p hp)

theorem yields_applyMove [DecidableEq β] (faults : ℕ → FileFault β) {done : List Move}
    (hdone : ∀ move ∈ done, move ∈ plan.moves) (hmove : move ∈ plan.moves) :
    Yields (Moved t plan done) (applyMove faults move) (fun _ => Moved t plan (done ++ [move])) fun _ => True := by
  refine Yields.bind (R := fun there d => Moved t plan done d ∧ d.tree.present move.2 = there)
    (yields_askSystem (fun d there hd hthere => ⟨hd, Option.some.inj hthere⟩) fun _ _ => trivial) fun there => ?_
  obtain ⟨content, hcontent⟩ := hm.content hmove
  cases there with
  | true =>
    rw [if_pos rfl]
    refine yields_changeTree (fun d tree hd hremove => ?_) fun _ _ => trivial
    obtain ⟨hd, hpresent⟩ := hd
    have hnode := (FileTree.node_removeFile hremove).2.2
    have hsame : tree.node move.2 = d.tree.node move.2 := by
      rw [hnode, if_neg fun heq => hm.source_ne_target hmove hmove heq.symm]
    have hthere := node_ne_none_of_present hpresent
    refine hd.step hm hfree hdone hmove (fun p _ => hnode p) (by rw [hsame]; exact hthere) ?_
    rw [contentAt_congr hsame]
    exact (hd.target move hmove).resolve_left hthere
  | false =>
    rw [if_neg Bool.false_ne_true]
    refine yields_changeTree (fun d tree hd hrename => ?_) fun _ _ => trivial
    obtain ⟨hd, -⟩ := hd
    obtain ⟨n, hn, -, -, -, hnode⟩ := FileTree.node_renameFile hrename
    have htarget : tree.node move.2 = t.node move.1 := by
      rcases hd.source move hmove with hsame | hnone
      · rw [hnode, if_pos rfl, ← hn, hsame]
      · rw [hn] at hnone
        cases hnone
    refine hd.step hm hfree hdone hmove (fun p hp => by rw [hnode, if_neg hp]) ?_ (contentAt_congr htarget)
    rw [hnode, if_pos rfl]
    exact Option.some_ne_none n

end

theorem Moved.written {plan : MigrationPlan β} {d : Disk β} (hd : Moved t plan plan.moves d) : Written t plan [] d :=
  ⟨hd.gone, fun _ hitem => absurd hitem List.not_mem_nil,
    fun move hmove _ => (hd.target move hmove).resolve_left (hd.arrived move hmove), hd.others⟩

section

variable {h : Host β} {plan : MigrationPlan β} (hw : WritePlan t h plan.moves plan.writes)
include hw

theorem yields_write (faults : ℕ → FileFault β) {done rest : List (Location × β)} {item : Location × β} {mode : ℕ}
    (heq : plan.writes.items = done ++ item :: rest) :
    Yields (Written t plan done) (writeContent faults mode item.1 item.2)
      (fun _ => Written t plan (done ++ [item])) fun _ => True := by
  have hitem : item ∈ plan.writes.items := by
    rw [heq]
    exact List.mem_append_right _ List.mem_cons_self
  have hget : plan.writes.get item.1 ≠ none := by
    rw [OrderedDict.get_eq_some_iff.2 hitem]
    exact Option.some_ne_none _
  have hnew : item.1 ∉ done.map Prod.fst := by
    have hnodup := plan.writes.nodup
    rw [heq, List.map_append, List.map_cons] at hnodup
    exact fun hmem => (List.nodup_append.1 hnodup).2.2 _ hmem _ List.mem_cons_self rfl
  refine yields_writeContent (fun d tree hd hwrite => ?_) (fun _ _ => trivial) fun _ _ _ _ _ => trivial
  have hnode := (FileTree.node_writeFile hwrite).2
  have hother : ∀ p, p ≠ item.1 → tree.node p = d.tree.node p := fun p hp => by rw [hnode, if_neg hp]
  refine ⟨fun move hmove => ?_, fun item' hitem' => ?_, fun move hmove hnot => ?_, fun p hp => ?_⟩
  · show tree.node move.1 = none
    rw [hother]
    · exact hd.gone move hmove
    · intro heq
      rw [← heq] at hget
      exact hget (hw.source move hmove)
  · show tree.contentAt item'.1 = some item'.2
    rcases List.mem_append.1 hitem' with hitem' | hitem'
    · rw [contentAt_congr (hother _ fun heq => hnew (heq ▸ List.mem_map_of_mem hitem'))]
      exact hd.written item' hitem'
    · rw [List.mem_singleton.1 hitem']
      exact contentAt_of_file ((hnode _).trans (if_pos rfl))
  · rw [List.map_append, List.mem_append, not_or] at hnot
    refine (contentAt_congr (hother _ ?_)).trans (hd.target move hmove hnot.1)
    exact fun heq => hnot.2 (by rw [heq]; exact List.mem_cons_self)
  · have hne : p ≠ item.1 := fun heq => hp (by rw [heq]; exact mem_places.2 (.inl hget))
    exact (FileTree.readFile_congr (hother p hne)).trans (hd.others p hp)

end

theorem layerContent_congr {h : Host β} {move' : Move} (hplace : move.2 = move'.2)
    (hcontent : t.contentAt move.1 = t.contentAt move'.1) (hsome : t.contentAt move.1 ≠ none) :
    layerContent t h move = layerContent t h move' := by
  obtain ⟨content, hc⟩ := Option.ne_none_iff_exists'.1 hsome
  have hread : readText t h move.1 = readText t h move'.1 := by
    rw [readText, readText, ← hcontent, hc]
  rw [layerContent, layerContent, hread, hplace]

theorem filesKept_of_written {h : Host β} {plan : MigrationPlan β} {d : Disk β} (hm : MovePlan t plan.moves)
    (hw : WritePlan t h plan.moves plan.writes) (hfree : Unobstructed t) (hd : Written t plan plan.writes.items d) :
    FilesKept h t plan d.tree := by
  refine ⟨hd.gone, fun move hmove => ?_, fun move hmove move' hmove' hne heq =>
    hne (hm.same_of_target hfree hmove hmove' heq), hd.others⟩
  cases hname : isComposeLayer move.2 with
  | true =>
    obtain ⟨move', hmove', hplace, content, hcontent, hget⟩ := hw.layer move hmove hname
    obtain ⟨old, hold⟩ := hm.content hmove'
    have hsame := hm.same_of_target hfree hmove' hmove hplace
    refine ⟨content, ?_, hd.written _ (OrderedDict.get_eq_some_iff.1 hget)⟩
    rw [dueContent, if_pos hname, ← layerContent_congr hplace hsame (by rw [hold]; exact Option.some_ne_none _),
      hcontent]
    rfl
  | false =>
    obtain ⟨content, hcontent⟩ := hm.content hmove
    have hnot := OrderedDict.get_eq_none_iff.1 (hw.kept move hmove hname)
    refine ⟨content, ?_, (hd.target move hmove hnot).trans hcontent⟩
    rw [dueContent, hname]
    exact hcontent

theorem maintains_removeLegacy {h : Host β} {plan : MigrationPlan β} (faults : ℕ → FileFault β) :
    Maintains (fun d => FilesKept h t plan d.tree) (removeLegacy faults) := by
  have hremove : ∀ p, Maintains (fun d => FilesKept h t plan d.tree)
      (changeTree faults fun t => t.removeDirectory p) := by
    intro p
    refine maintains_changeTree fun d tree hd hchange => ?_
    obtain ⟨-, hdir, -, hnode⟩ := FileTree.node_removeDirectory hchange
    have hread : ∀ q, tree.readFile q = d.tree.readFile q := by
      intro q
      rw [FileTree.readFile, FileTree.readFile, hnode]
      by_cases hq : q = p
      · rw [if_pos hq, hq, hdir]
      · rw [if_neg hq]
    refine ⟨fun move hmove => ?_, fun move hmove => ?_, hd.apart, fun q hq => (hread q).trans (hd.untouched q hq)⟩
    · rw [hnode, hd.gone move hmove, ite_self]
    · obtain ⟨content, hdue, hcontent⟩ := hd.arrived move hmove
      refine ⟨content, hdue, ?_⟩
      rw [FileTree.contentAt, hread]
      exact hcontent
  refine (maintains_askSystem _).bind fun there => ?_
  cases there with
  | true =>
    exact (maintains_askSystem _).bind fun directories =>
      Maintains.bind (maintains_forM fun p _ => hremove p) fun _ => hremove legacy
  | false => exact maintains_pure _

/-- Where the files are when every call inside the `try` block has been answered. -/
theorem yields_relocate [DecidableEq β] {h : Host β} {plan : MigrationPlan β} (hm : MovePlan t plan.moves)
    (hw : WritePlan t h plan.moves plan.writes) (hfree : Unobstructed t) (hc : t.Closed) (faults : ℕ → FileFault β) :
    Yields (fun d => d = ⟨t, []⟩) (relocate h faults (affected h plan) plan)
      (fun _ d => FilesKept h t plan d.tree) fun _ => True := by
  have hstart : ∀ d : Disk β, d = ⟨t, []⟩ → OnlyDirectories t (affected h plan) d := by
    rintro d rfl
    exact ⟨fun q hq => absurd hq List.not_mem_nil, fun p => rfl⟩
  refine Yields.bind (R := fun _ => Moved t plan []) ?_ fun _ => Yields.bind (R := fun _ => Written t plan []) ?_
    fun _ => ?_
  · exact Yields.mono (maintains_forM fun a ha => maintains_makeParents faults ha) hstart
      (fun _ _ hd => moved_of_onlyDirectories hm hfree hc hw hd) fun _ _ => trivial
  · refine Yields.mono (yields_forM (I := Moved t plan) (E := fun _ => True) fun done move rest heq => ?_)
      (fun _ hd => hd) (fun _ _ hd => hd.written) fun _ _ => trivial
    have hmem : ∀ move' ∈ done ++ move :: rest, move' ∈ plan.moves := fun move' hmove' => by rwa [heq]
    exact yields_applyMove hm hfree faults (fun move' hmove' => hmem _ (List.mem_append_left _ hmove'))
      (hmem _ (List.mem_append_right _ List.mem_cons_self))
  · exact Yields.mono (yields_forM (I := Written t plan) (E := fun _ => True) fun done item rest heq =>
      yields_write hw faults heq) (fun _ hd => hd) (fun _ _ hd => filesKept_of_written hm hw hfree hd)
      fun _ _ => trivial

/-! ### Everything stays in a directory -/

section

variable (h : Host β) (faults : ℕ → FileFault β)

theorem closed_removeDirectory (p : Location) :
    Maintains (fun d => d.tree.Closed) (changeTree faults fun t => t.removeDirectory p) :=
  maintains_changeTree fun _ _ hd hchange => hd.removeDirectory hchange

theorem closed_writeContent (mode : ℕ) (p : Location) (content : β) :
    Maintains (fun d => d.tree.Closed) (writeContent faults mode p content) :=
  maintains_writeContent fun _ _ _ hd hwrite => hd.writeFile hwrite

theorem closed_relocate [DecidableEq β] (places : List Location) (plan : MigrationPlan β) :
    Maintains (fun d => d.tree.Closed) (relocate h faults places plan) := by
  refine Maintains.bind (maintains_forM fun p _ => ?_) fun _ => Maintains.bind (maintains_forM fun move _ => ?_)
    fun _ => maintains_forM fun item _ => closed_writeContent faults _ _ _
  · refine Yields.bind (Yields.mono (yields_missingParents faults _) (fun _ hd => hd) (fun _ _ hd => hd.1)
      fun _ hd => hd) fun missing => maintains_forM fun q _ => maintains_mkdir fun d tree hd hmade => ?_
    exact FileTree.Closed.makeDirectory hd hmade
  · refine (maintains_askSystem _).bind fun there => ?_
    cases there with
    | true =>
      rw [if_pos rfl]
      exact maintains_changeTree fun d tree hd hremove => FileTree.Closed.removeFile hd hremove
    | false =>
      rw [if_neg Bool.false_ne_true]
      exact maintains_changeTree fun d tree hd hrename => FileTree.Closed.renameFile hd hrename

theorem closed_removeLegacy : Maintains (fun d => d.tree.Closed) (removeLegacy faults) := by
  refine (maintains_askSystem _).bind fun there => ?_
  cases there with
  | true =>
    exact (maintains_askSystem _).bind fun directories =>
      Maintains.bind (maintains_forM fun p _ => closed_removeDirectory faults p)
        fun _ => closed_removeDirectory faults legacy
  | false => exact maintains_pure _

end

/-! ### The migration -/

theorem unobstructed_of_filesKept {h : Host β} {plan : MigrationPlan β} {t' : FileTree (Stored β)}
    (hm : MovePlan t plan.moves) (hc : t'.Closed) (hkept : FilesKept h t plan t') : Unobstructed t := by
  have hplace : ∀ m ∈ personalMoves, m.2 = ".phlo" :: m.2.tail ∧ m.2.tail ≠ [] := by decide
  rintro move hpersonal content hcontent p ⟨rest, rfl⟩ hfile
  obtain ⟨mode, hnode⟩ := FileTree.contentAt_eq_some_iff.1 hcontent
  have hmove := hm.personal move hpersonal (by rw [hnode]; exact Option.some_ne_none _)
  obtain ⟨heq, hne⟩ := hplace move hpersonal
  obtain ⟨s, hs⟩ := Option.isSome_iff_exists.1 hfile
  rw [List.append_assoc] at hs ⊢
  have hmove' := hm.exported (move.2.tail ++ rest) (fun hnil => hne (List.append_eq_nil_iff.1 hnil).1) s
    (FileTree.readFile_eq_some_iff.1 hs)
  have hrest : rest = [] := by
    by_contra hrest
    obtain ⟨due, -, hdue⟩ := hkept.arrived move hmove
    obtain ⟨due', -, hdue'⟩ := hkept.arrived _ hmove'
    obtain ⟨mode, hnode⟩ := FileTree.contentAt_eq_some_iff.1 hdue
    obtain ⟨mode', hnode'⟩ := FileTree.contentAt_eq_some_iff.1 hdue'
    have hpre : move.2 <+: ".phlo" :: (move.2.tail ++ rest) := by
      rw [← List.cons_append, ← heq]
      exact List.prefix_append _ _
    have hneq : move.2 ≠ ".phlo" :: (move.2.tail ++ rest) := by
      rw [← List.cons_append, ← heq]
      exact fun heq => hrest (List.append_right_eq_self.1 heq.symm)
    rw [hc.above (by rw [hnode']; exact Option.some_ne_none _) hpre hneq] at hnode
    cases hnode
  subst hrest
  rw [List.append_nil] at hs hmove' ⊢
  refine ⟨rfl, ?_⟩
  by_contra hdiff
  rw [← hcontent] at hdiff
  exact hkept.apart move hmove _ hmove' (fun heq => hdiff heq.symm) heq

/-- What holds of a migration that returns, and of one that is put back. -/
theorem ends_applyMigration [DecidableEq β] {h : Host β} {plan : MigrationPlan β} {faults : ℕ → FileFault β}
    {P S Q R : Disk β → Prop} (hm : MovePlan t plan.moves) (hw : WritePlan t h plan.moves plan.writes)
    (hrelocate : Yields (fun d => d = ⟨t, []⟩) (relocate h faults (affected h plan) plan) (fun _ => P) S)
    (hrestore : Yields S (restoreOriginals h faults ((affected h plan).map fun p => (p, t.readFile p)))
      (fun _ => R) fun _ => True) (hlegacy : Yields P (removeLegacy faults) (fun _ => Q) fun _ => True) :
    ((applyMigration h faults plan t).1 = .returned → Q (applyMigration h faults plan t).2) ∧
      ((applyMigration h faults plan t).1 = .restored → R (applyMigration h faults plan t).2) := by
  have hread := yields_originals faults (affected h plan)
    (fun p hp => regular_of_mem_places hm hw (mem_affected.1 hp)) ⟨t, []⟩ 0 rfl
  cases hjournal : (affected h plan).mapM (takeOriginal faults) (⟨t, []⟩, 0) with
  | mk result s =>
    rw [hjournal] at hread
    cases result with
    | error e =>
      simp only [applyMigration, hjournal]
      exact ⟨nofun, nofun⟩
    | ok originals =>
      obtain ⟨hstart, rfl⟩ := hread
      have htried := hrelocate s.1 s.2 hstart
      cases htry : relocate h faults (affected h plan) plan s with
      | mk result s' =>
        rw [show relocate h faults (affected h plan) plan (s.1, s.2) = _ from htry] at htried
        cases result with
        | error e =>
          have hback := hrestore s'.1 s'.2 htried
          cases hexcept : restoreOriginals h faults ((affected h plan).map fun p => (p, t.readFile p)) s' with
          | mk result s'' =>
            rw [show restoreOriginals h faults _ (s'.1, s'.2) = _ from hexcept] at hback
            cases result with
            | error e =>
              simp only [applyMigration, hjournal, htry, hexcept]
              exact ⟨nofun, nofun⟩
            | ok u =>
              simp only [applyMigration, hjournal, htry, hexcept]
              exact ⟨nofun, fun _ => hback⟩
        | ok u =>
          have hend := hlegacy s'.1 s'.2 htried
          cases hafter : removeLegacy faults s' with
          | mk result s'' =>
            rw [show removeLegacy faults (s'.1, s'.2) = _ from hafter] at hend
            cases result with
            | error e =>
              simp only [applyMigration, hjournal, htry, hafter]
              exact ⟨nofun, nofun⟩
            | ok u =>
              simp only [applyMigration, hjournal, htry, hafter]
              exact ⟨fun _ => hend, nofun⟩

end

/-- A migration that returns keeps every file if and only if nothing among the exported artifacts stands where
one of the project's own files goes; one that is put back leaves everything as it was. -/
theorem migration_keeps_files_iff [DecidableEq β] (h : Host β) (project : Project β) (includes : List String)
    (plan : MigrationPlan β) (faults : ℕ → FileFault β) (hplan : migrationPlan project.tree h includes = .ok plan) :
    ((applyMigration h faults plan project.tree).1 = .returned →
      (FilesKept h project.tree plan (applyMigration h faults plan project.tree).2.tree ↔
        Unobstructed project.tree)) ∧ ((applyMigration h faults plan project.tree).1 = .restored →
      ∀ p, (applyMigration h faults plan project.tree).2.tree.node p = project.tree.node p) := by
  obtain ⟨hm, hw⟩ := plan_of_migrationPlan project.closed hplan
  have hrelocate := yields_relocate_standing hm hw faults
  have hplaces : ∀ p, p ∈ affected h plan ↔ p ∈ plan.places := fun p => mem_affected
  have hrestore := yields_restoreOriginals h faults (affected h plan) hplaces
    fun p hp => regular_of_mem_places hm hw (mem_affected.1 hp)
  refine ⟨fun hreturned => ⟨fun hkept => unobstructed_of_filesKept hm ?_ hkept, fun hfree => ?_⟩, ?_⟩
  · have hclosed : Yields (fun d => d = ⟨project.tree, []⟩) (relocate h faults (affected h plan) plan)
        (fun _ d => d.tree.Closed) fun _ => True :=
      Yields.mono (closed_relocate h faults (affected h plan) plan) (fun d hd => by rw [hd]; exact project.closed)
        (fun _ _ hd => hd) fun _ _ => trivial
    exact (ends_applyMigration hm hw hclosed (yields_trivial _ _)
      (Yields.mono (closed_removeLegacy faults) (fun _ hd => hd) (fun _ _ hd => hd) fun _ _ => trivial)).1 hreturned
  · exact (ends_applyMigration hm hw (yields_relocate hm hw hfree project.closed faults) (yields_trivial _ _)
      (Yields.mono (maintains_removeLegacy faults) (fun _ hd => hd) (fun _ _ hd => hd) fun _ _ => trivial)).1 hreturned
  · exact (ends_applyMigration hm hw hrelocate
      (Yields.mono hrestore (fun _ hd => hd.toJournaled) (fun _ _ hd => hd) fun _ _ => trivial)
      (yields_trivial _ _)).2

/-- Nothing among the exported artifacts is at or below the place of a file of the project. -/
theorem unobstructed_of_items {t : FileTree (Stored β)}
    (h : ∀ item ∈ t.nodes.items, ∀ move ∈ personalMoves, ¬legacy ++ move.2.tail <+: item.1) : Unobstructed t := by
  intro move hmove content _ p hp hfile
  obtain ⟨s, hs⟩ := Option.isSome_iff_exists.1 hfile
  have hnode := FileTree.readFile_eq_some_iff.1 hs
  have hroot : p ≠ [] := by
    rintro rfl
    cases hnode
  rw [FileTree.node, if_neg hroot] at hnode
  exact absurd hp (h _ (OrderedDict.get_eq_some_iff.1 hnode) move hmove)

def plainDocument : Yaml := .map [(.str "services", .map [])]

def namedDocument : Yaml := .map [(.str "services", .map []), (.str "name", .str "team")]

/-- A host that knows two documents, and creates files with the permissions that are asked for. -/
def sampleHost : Host String where
  readText := .ok
  encode text := text
  safeLoad text :=
    if text = "services: {}\n" ∨ text = "# Phlo shared layout v1\nservices: {}\n" then some plainDocument
    else if text = "services: {}\nname: team\n" then some namedDocument
    else none
  safeDump document := if (document.field "name").isSome then "services: {}\nname: team\n" else "services: {}\n"
  discover _ := none
  environ := []
  requiresHttpAuthorization := false
  project := ["home", "project"]
  created mode := mode
  textOrder l := l
  pathOrder l := l
  textOrder_perm _ := List.Perm.refl _
  pathOrder_perm _ := List.Perm.refl _

def samplePlan (project : Project String) : MigrationPlan String :=
  ((migrationPlan project.tree sampleHost []).toOption).getD ⟨[], .empty⟩

theorem samplePlan_spec {project : Project String}
    (h : (migrationPlan project.tree sampleHost []).toOption.isSome = true) :
    migrationPlan project.tree sampleHost [] = .ok (samplePlan project) := by
  unfold samplePlan
  cases hplan : migrationPlan project.tree sampleHost [] with
  | ok plan => rfl
  | error e =>
    rw [hplan] at h
    cases h

def teamTree : FileTree (Stored String) where
  nodes := ⟨[([".phlo"], .directory), ([".phlo", "docker-compose.yml"], .file ⟨"services: {}\n", 0o600⟩),
    ([".phlo", ".env.local"], .file ⟨"PASSWORD=private\n", 0o600⟩),
    (["compose.phlo.yaml"], .file ⟨"services: {}\n", 0o644⟩), (["phlo-runtime"], .directory),
    (["phlo-runtime", "demo"], .directory), (["phlo-runtime", "demo", "Dockerfile"], .file ⟨"FROM alpine:3\n", 0o644⟩)],
    by decide⟩

def teamProject : Project String := ⟨teamTree, FileTree.closed_of_items (by decide)⟩

theorem migration_keeps_files_team : FilesKept sampleHost teamProject.tree (samplePlan teamProject)
      (applyMigration sampleHost (fun _ => .fine) (samplePlan teamProject) teamProject.tree).2.tree :=
  ((migration_keeps_files_iff sampleHost teamProject [] (samplePlan teamProject) (fun _ => .fine)
    (samplePlan_spec (by decide +kernel))).1 (by decide +kernel)).2 (unobstructed_of_items (by decide))

/-- The project has a shared layer, and the exported artifacts have another one. -/
def collidingTree : FileTree (Stored String) where
  nodes := ⟨[([".phlo"], .directory), ([".phlo", "docker-compose.yml"], .file ⟨"services: {}\n", 0o600⟩),
    (["compose.phlo.yaml"], .file ⟨"services: {}\n", 0o644⟩), (["phlo-runtime"], .directory),
    (["phlo-runtime", "compose.shared.yaml"], .file ⟨"services: {}\nname: team\n", 0o644⟩)], by decide⟩

def collidingProject : Project String := ⟨collidingTree, FileTree.closed_of_items (by decide)⟩

/-- No call is refused and the migration returns, but one of the two layers is lost. -/
theorem colliding_layer_lost : migrationPlan collidingProject.tree sampleHost [] = .ok (samplePlan collidingProject) ∧
      (applyMigration sampleHost (fun _ => .fine) (samplePlan collidingProject) collidingProject.tree).1 = .returned ∧
      ¬FilesKept sampleHost collidingProject.tree (samplePlan collidingProject)
        (applyMigration sampleHost (fun _ => .fine) (samplePlan collidingProject) collidingProject.tree).2.tree := by
  refine ⟨samplePlan_spec (by decide +kernel), by decide +kernel, fun hkept => ?_⟩
  have hmove : (["compose.phlo.yaml"], [".phlo", "compose.shared.yaml"]) ∈ (samplePlan collidingProject).moves := by
    decide +kernel
  obtain ⟨content, hdue, hcontent⟩ := hkept.arrived _ hmove
  have hdue' : dueContent collidingProject.tree sampleHost (["compose.phlo.yaml"], [".phlo", "compose.shared.yaml"]) =
      some "# Phlo shared layout v1\nservices: {}\n" := by
    decide +kernel
  have hcontent' : (applyMigration sampleHost (fun _ => .fine) (samplePlan collidingProject)
      collidingProject.tree).2.tree.contentAt [".phlo", "compose.shared.yaml"] =
      some "# Phlo shared layout v1\nservices: {}\nname: team\n" := by
    decide +kernel
  rw [hdue'] at hdue
  rw [hcontent'] at hcontent
  rw [← hdue] at hcontent
  exact absurd hcontent (by decide)

end Phlo.Services
