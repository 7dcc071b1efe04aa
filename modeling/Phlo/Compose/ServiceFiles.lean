import Phlo.Library.Fallible
import Phlo.Library.FaultyFiles

/-!
# The generated files of services

`prepare_service_files` collects the files that services declare, with the project's overrides of them, and
`ServiceFilePlan.write` puts them into the output directory.

* `get_filesOf` — in a plan the last service that declares a destination decides about it;
* `contentAt_clearDirectories`, `files_placed` — what the two loops of `write` leave behind.
-/

namespace Phlo.Compose

open Phlo.Library

variable {β : Type}

/-! ### Destinations -/

inductive PlanError where
  | invalidDestination (value : String)
  | notNormalized (value : String)
  | symlink (relative : Location)
  | escapesPackage (service : String) (relative : Location)
  | notDeclared (service destination : String)
  | invalidOverride (text : String)
  deriving DecidableEq

/-- `_relative_path`; an accepted value is the text of the location it returns. -/
def relativePath (value : String) : Except PlanError Location :=
  let names := components value
  if value = "" ∨ isAbsolute value = true ∨ ".." ∈ names ∨ '\\' ∈ value.toList ∨ ':' ∈ value.toList then
    .error (.invalidDestination value)
  else if posix names ≠ value ∨ value = "." then .error (.notNormalized value)
  else .ok names

/-- `_check_output_path`; without a link on its way no destination leaves the output directory. -/
def checkOutputPath (t : FileTree (Stored β)) (relative : Location) : Except PlanError Unit :=
  if relative.inits.any t.isLink then .error (.symlink relative) else .ok ()

/-! ### Declared files -/

/-- A regular file of a provider, and whether it resolves to one inside the provider's package. -/
structure ProviderFile (β : Type) where
  stored : Stored β
  inPackage : Bool

/-- What `service.source_path / spec["source"]` is; the leaves of a directory are sorted. -/
inductive Source (β : Type) where
  | missing
  | file (source : ProviderFile β)
  | directory (leaves : List (Location × ProviderFile β))

structure FileSpec where
  source : String
  dest : String

/-- A service with the content of its package, if it has one, and its check of resulting files. -/
structure ServiceDefinition (β : Type) where
  name : String
  source_path : Option (String → Source β)
  files : List FileSpec
  file_validator : String → β → Except PlanError Unit

structure ServiceFileOverride where
  mode : String
  source : String

def declareSpec (t : FileTree (Stored β)) (package : String → Source β)
    (declared : OrderedDict Location (ProviderFile β) × List Location) (spec : FileSpec) :
    Except PlanError (OrderedDict Location (ProviderFile β) × List Location) := do
  let relative ← relativePath spec.dest
  checkOutputPath t relative
  match package spec.source with
  | .missing => .ok declared
  | .file source => .ok (declared.1.set relative source, declared.2)
  | .directory leaves =>
    .ok (declared.1.setAll (leaves.map fun leaf => (relative ++ leaf.1, leaf.2)), declared.2 ++ [relative])

/-- `_declared_files`; also the directories it adds to the plan. -/
def declaredFiles (t : FileTree (Stored β)) (service : ServiceDefinition β) :
    Except PlanError (OrderedDict Location (ProviderFile β) × List Location) :=
  match service.source_path with
  | none => .ok (.empty, [])
  | some package => do
    let declared ← service.files.foldlM (declareSpec t package) (.empty, [])
    declared.1.items.forM fun item => do
      checkOutputPath t item.1
      if item.2.inPackage then .ok () else .error (.escapesPackage service.name item.1)
    .ok declared

/-- What one service contributes to a plan: its declared files, and the contents of those overridden. -/
structure Contribution (β : Type) where
  files : OrderedDict Location (ProviderFile β)
  directories : List Location
  contents : OrderedDict Location β

section Preparation

/-! ### Preparing a plan

The user's `files` entries for a service may be refused by the settings' schema; `renderOverride` stands
for what `_render_override` makes of the project's file. -/

variable (t : FileTree (Stored β))
  (userOverrides : String → Except PlanError (OrderedDict String ServiceFileOverride))
  (renderOverride : Stored β → String → ServiceFileOverride → Except PlanError β)

def overrideFile (service : ServiceDefinition β) (files : OrderedDict Location (ProviderFile β))
    (contents : OrderedDict Location β) (entry : String × ServiceFileOverride) :
    Except PlanError (OrderedDict Location β) := do
  let destination ← relativePath entry.1
  match files.get destination with
  | none => .error (.notDeclared service.name entry.1)
  | some source => do
    let content ← renderOverride source.stored entry.1 entry.2
    service.file_validator entry.1 content
    .ok (contents.set destination content)

/-- What the body of the loop over the services collects. -/
def contributionOf (service : ServiceDefinition β) : Except PlanError (Contribution β) := do
  let declared ← declaredFiles t service
  let overrides ← userOverrides service.name
  let contents ← overrides.items.foldlM (overrideFile renderOverride service declared.1) .empty
  .ok ⟨declared.1, declared.2, contents⟩

/-- The entries of `plan.files` that a service sets: its overridden files, then the others as they are. -/
def Contribution.entries (c : Contribution β) : List (Location × Stored β × Option β) :=
  (c.contents.items.filterMap fun item =>
    (c.files.get item.1).map fun source => (item.1, source.stored, some item.2)) ++
  (c.files.items.filter fun item => (c.contents.get item.1).isNone).map fun item => (item.1, item.2.stored, none)

structure ServiceFilePlan (β : Type) where
  files : OrderedDict Location (Stored β × Option β)
  directories : List Location
  overridden : List Location

def ServiceFilePlan.add (plan : ServiceFilePlan β) (c : Contribution β) : ServiceFilePlan β :=
  ⟨plan.files.setAll c.entries, plan.directories ++ c.directories,
    plan.overridden ++ c.contents.items.map Prod.fst⟩

def planOf (contributions : List (Contribution β)) : ServiceFilePlan β :=
  contributions.foldl ServiceFilePlan.add ⟨.empty, [], []⟩

/-- `prepare_service_files`; an error in any service leaves no plan. -/
def prepareServiceFiles (services : List (ServiceDefinition β)) : Except PlanError (ServiceFilePlan β) :=
  (services.mapM (contributionOf t userOverrides renderOverride)).map planOf

end Preparation

/-! ### Writing

A directory is there when it is listed or when something lies in it.  An operation that raises ends the
writing. -/

def occupied (t : FileTree (Stored β)) (p : Location) : Bool := (t.node p).isSome || t.hasEntries p

/-- `path.mkdir(parents=True, exist_ok=True)` -/
def makeDirectories (t : FileTree (Stored β)) (p : Location) : Option (FileTree (Stored β)) :=
  p.inits.foldlM (fun t q =>
    match t.node q with
    | none => some (t.put q .directory)
    | some .directory => some t
    | some _ => none) t

def pruned (t : FileTree (Stored β)) (p : Location) : FileTree (Stored β) :=
  ⟨⟨t.nodes.items.filter fun item => ¬p <+: item.1,
    t.nodes.nodup.sublist (List.filter_sublist.map Prod.fst)⟩⟩

/-- `shutil.rmtree(path)` -/
def removeTree (t : FileTree (Stored β)) (p : Location) : Option (FileTree (Stored β)) :=
  if (t.node p).isNone ∨ t.isDirectory p then some (pruned t p) else none

def clearDirectory (overwrite : Bool) (t : FileTree (Stored β)) (p : Location) : Option (FileTree (Stored β)) :=
  (if overwrite ∧ occupied t p then removeTree t p else some t).bind fun t => makeDirectories t p

/-- `temporary.replace(dest)` -/
def replaceFile (t : FileTree (Stored β)) (p : Location) (stored : Stored β) : Option (FileTree (Stored β)) :=
  if t.isDirectory p ∨ t.hasEntries p then none else some (t.put p (.file stored))

def written (entry : Stored β × Option β) : Stored β := ⟨entry.2.getD entry.1.content, entry.1.mode⟩

def placeFile (overwrite : Bool) (preserved overridden : List Location) (s : FileTree (Stored β) × List Location)
    (item : Location × Stored β × Option β) : Option (FileTree (Stored β) × List Location) :=
  if (occupied s.1 item.1 ∨ ∃ d ∈ preserved, d <+: item.1) ∧ overwrite = false ∧ item.1 ∉ overridden then
    some s
  else do
    let t ← makeDirectories s.1 item.1.dropLast
    let t ← replaceFile t item.1 (written item.2)
    some (t, s.2 ++ [item.1])

/-- `ServiceFilePlan.write`; also the files it copied. -/
def ServiceFilePlan.write (plan : ServiceFilePlan β) (overwrite : Bool) (t : FileTree (Stored β)) :
    Option (FileTree (Stored β) × List Location) := do
  let _ ← ((plan.directories ++ plan.files.items.map Prod.fst).forM (checkOutputPath t)).toOption
  let cleared ← plan.directories.foldlM (clearDirectory overwrite) t
  let preserved := plan.directories.filter fun p => !overwrite && occupied t p
  plan.files.items.foldlM (placeFile overwrite preserved plan.overridden) (cleared, [])

/-! ### What the loops of the writing leave behind -/

section Writing

variable {t t' : FileTree (Stored β)} {overwrite : Bool} {p : Location}

theorem contentAt_eq_none (h : t.node p = none) : t.contentAt p = none := by
  rw [FileTree.contentAt, FileTree.readFile, h]
  rfl

theorem contentAt_congr (h : t.node p = t'.node p) : t.contentAt p = t'.contentAt p := by
  rw [FileTree.contentAt, FileTree.readFile_congr h, FileTree.contentAt]

theorem contentAt_put (hp : p ≠ []) (n : Node (Stored β)) (q : Location) :
    (t.put p n).contentAt q =
      if q = p then (match n with | .file s => some s.content | _ => none) else t.contentAt q := by
  have hnode : (t.put p n).node q = if q = p then some n else t.node q := FileTree.node_put hp
  by_cases hq : q = p
  · rw [if_pos hq] at hnode ⊢
    rw [FileTree.contentAt, FileTree.readFile, hnode]
    cases n <;> rfl
  · rw [if_neg hq] at hnode ⊢
    exact contentAt_congr hnode

theorem contentAt_makeDirectories (h : makeDirectories t p = some t') (q : Location) :
    t'.contentAt q = t.contentAt q := by
  unfold makeDirectories at h
  generalize p.inits = above at h
  induction above generalizing t with
  | nil =>
    cases h
    rfl
  | cons d ds ih =>
    rw [List.foldlM_cons] at h
    obtain ⟨t₁, hstep, h⟩ := Option.bind_eq_some_iff.1 h
    rw [ih h]
    split at hstep
    · next hnone =>
      cases hstep
      rw [contentAt_put (FileTree.ne_root_of_node_ne (t := t) (by simp [hnone]))]
      split
      · next heq => rw [heq, contentAt_eq_none hnone]
      · rfl
    · cases hstep
      rfl
    · cases hstep

theorem contentAt_pruned (t : FileTree (Stored β)) (p q : Location) :
    (pruned t p).contentAt q = if p <+: q then none else t.contentAt q := by
  by_cases hq : q = []
  · have hnone (t : FileTree (Stored β)) : t.contentAt [] = none := rfl
    rw [hq, hnone, hnone, ite_self]
  have hnode : (pruned t p).node q = if p <+: q then none else t.node q := by
    rw [FileTree.node, FileTree.node, if_neg hq, if_neg hq, OrderedDict.get, OrderedDict.get, pruned,
      List.find?_filter]
    split
    next hpq =>
      rw [Option.map_eq_none_iff, List.find?_eq_none]
      rintro item - h
      rw [decide_eq_true_eq, decide_eq_true_eq, decide_eq_true_eq] at h
      exact h.1 (h.2 ▸ hpq)
    next hpq =>
      congr 2
      funext item
      by_cases hitem : item.1 = q
      · simp [hitem, hpq]
      · simp [hitem]
  split at hnode
  next hpq => rw [if_pos hpq, contentAt_eq_none hnode]
  next hpq => rw [if_neg hpq, contentAt_congr hnode]

/-- Clearing a directory removes what is below it, and creating it changes no file. -/
theorem contentAt_clearDirectory (h : clearDirectory overwrite t p = some t') (q : Location) :
    t'.contentAt q = if overwrite = true ∧ p <+: q then none else t.contentAt q := by
  obtain ⟨t₁, hcleared, hmade⟩ := Option.bind_eq_some_iff.1 h
  rw [contentAt_makeDirectories hmade]
  split at hcleared
  next hthere =>
    unfold removeTree at hcleared
    split at hcleared
    · cases hcleared
      rw [contentAt_pruned]
      simp only [hthere.1, true_and]
    · cases hcleared
  next hnot =>
    cases hcleared
    split
    next hbelow =>
      have habsent : occupied t p = false := by
        rw [← Bool.not_eq_true]
        exact fun hthere => hnot ⟨hbelow.1, hthere⟩
      rw [occupied, Bool.or_eq_false_iff, Option.isSome_eq_false_iff, Option.isNone_iff_eq_none] at habsent
      by_cases hq : q = p
      · exact contentAt_eq_none (hq ▸ habsent.1)
      · exact contentAt_eq_none (FileTree.below_of_hasEntries habsent.2 hbelow.2 hq)
    · rfl

theorem contentAt_clearDirectories {directories : List Location}
    (h : directories.foldlM (clearDirectory overwrite) t = some t') (q : Location) :
    t'.contentAt q = if overwrite = true ∧ ∃ d ∈ directories, d <+: q then none else t.contentAt q := by
  induction directories generalizing t with
  | nil =>
    cases h
    simp
  | cons d ds ih =>
    rw [List.foldlM_cons] at h
    obtain ⟨t₁, hstep, h⟩ := Option.bind_eq_some_iff.1 h
    rw [ih h, contentAt_clearDirectory hstep]
    simp only [List.exists_mem_cons_iff]
    by_cases hd : d <+: q <;> by_cases ho : overwrite = true <;> simp [hd, ho]

variable {preserved overridden : List Location} {s s' : FileTree (Stored β) × List Location}
  {items : List (Location × Stored β × Option β)} {q : Location}

/-- An entry is left alone, or its destination alone gets its content. -/
theorem placeFile_cases {item : Location × Stored β × Option β}
    (h : placeFile overwrite preserved overridden s item = some s') :
    (overwrite = false ∧ item.1 ∉ overridden ∧ s' = s) ∨
      (((overwrite = true ∨ item.1 ∈ overridden) ∨ occupied s.1 item.1 = false) ∧
        ∀ q, s'.1.contentAt q = if q = item.1 then some (written item.2).content else s.1.contentAt q) := by
  unfold placeFile at h
  split at h
  next hskip => exact .inl ⟨hskip.2.1, hskip.2.2, (Option.some.inj h).symm⟩
  next hplace =>
    obtain ⟨t₁, hmade, h⟩ := Option.bind_eq_some_iff.1 h
    obtain ⟨t₂, hreplaced, h⟩ := Option.bind_eq_some_iff.1 h
    cases h
    unfold replaceFile at hreplaced
    split at hreplaced
    · cases hreplaced
    next hfile =>
      cases hreplaced
      have hroot : item.1 ≠ [] := fun heq => hfile (.inl (by rw [heq]; rfl))
      refine .inr ⟨?_, fun q => ?_⟩
      · by_cases hthere : occupied s.1 item.1 = true
        · refine .inl (Classical.byContradiction fun hnot => hplace ⟨.inl hthere, ?_, fun hmem => hnot (.inr hmem)⟩)
          exact Bool.eq_false_iff.2 fun ho => hnot (.inl ho)
        · exact .inr (Bool.eq_false_iff.2 hthere)
      · rw [contentAt_put hroot, contentAt_makeDirectories hmade]

theorem files_placed (h : items.foldlM (placeFile overwrite preserved overridden) s = some s')
    (hnodup : (items.map Prod.fst).Nodup) : (q ∉ items.map Prod.fst → s'.1.contentAt q = s.1.contentAt q) ∧
      (overwrite = true ∨ q ∈ overridden →
        ∀ entry, (q, entry) ∈ items → s'.1.contentAt q = some (written entry).content) ∧
      (overwrite = false → q ∉ overridden → s.1.contentAt q ≠ none → s'.1.contentAt q = s.1.contentAt q) := by
  induction items generalizing s with
  | nil =>
    cases h
    exact ⟨fun _ => rfl, fun _ _ hmem => (by cases hmem), fun _ _ _ => rfl⟩
  | cons item items ih =>
    rw [List.foldlM_cons] at h
    obtain ⟨s₁, hstep, h⟩ := Option.bind_eq_some_iff.1 h
    rw [List.map_cons, List.nodup_cons] at hnodup
    obtain ⟨huntouched, hplaced, hkept⟩ := ih h hnodup.2
    obtain hcase := placeFile_cases hstep
    have hother : q ≠ item.1 → s₁.1.contentAt q = s.1.contentAt q := by
      intro hne
      obtain ⟨-, -, rfl⟩ | ⟨-, hcontent⟩ := hcase
      · rfl
      · rw [hcontent, if_neg hne]
    refine ⟨fun hq => ?_, fun hwritten entry hmem => ?_, fun ho hq hthere => ?_⟩
    · rw [List.map_cons, List.mem_cons, not_or] at hq
      rw [huntouched hq.2, hother hq.1]
    · obtain rfl | hmem := List.mem_cons.1 hmem
      · rw [huntouched hnodup.1]
        obtain ⟨ho, hnot, -⟩ | ⟨-, hcontent⟩ := hcase
        · exact absurd hwritten (by simp [ho, hnot])
        · rw [hcontent, if_pos rfl]
      · exact hplaced hwritten entry hmem
    · have hsame : s₁.1.contentAt q = s.1.contentAt q := by
        by_cases hne : q = item.1
        · obtain ⟨-, -, rfl⟩ | ⟨hplace, -⟩ := hcase
          · rfl
          · refine absurd (contentAt_eq_none ?_) hthere
            have habsent := hplace.resolve_left (by simp [ho, ← hne, hq])
            rw [hne, ← Option.isNone_iff_eq_none, ← Option.isSome_eq_false_iff]
            exact (Bool.or_eq_false_iff.1 habsent).1
        · exact hother hne
      rw [hkept ho hq (hsame ▸ hthere), hsame]

end Writing

/-! ### Who decides about a destination -/

def lastDeclaring (cs : List (Contribution β)) (p : Location) : Option (Contribution β) :=
  (cs.filter fun c => (c.files.get p).isSome).getLast?

def IsOverridden (cs : List (Contribution β)) (p : Location) : Prop := ∃ c ∈ cs, c.contents.get p ≠ none

theorem lastOf_entries (c : Contribution β) (p : Location) :
    OrderedDict.lastOf p c.entries = (c.files.get p).map fun source => (source.stored, c.contents.get p) := by
  have hmem (entry : Stored β × Option β) : (p, entry) ∈ c.entries ↔
      (c.files.get p).map (fun source => (source.stored, c.contents.get p)) = some entry := by
    rw [Contribution.entries, List.mem_append, List.mem_filterMap, List.mem_map]
    constructor
    · rintro (⟨item, hitem, h⟩ | ⟨item, hitem, h⟩)
      · obtain ⟨source, hsource, h⟩ := Option.map_eq_some_iff.1 h
        cases h
        rw [hsource, OrderedDict.get_eq_some_iff.2 hitem, Option.map_some]
      · cases h
        obtain ⟨hitem, hnone⟩ := List.mem_filter.1 hitem
        rw [OrderedDict.get_eq_some_iff.2 hitem, Option.isNone_iff_eq_none.1 hnone, Option.map_some]
    · intro h
      obtain ⟨source, hsource, rfl⟩ := Option.map_eq_some_iff.1 h
      cases hcontent : c.contents.get p with
      | some content =>
        exact .inl ⟨(p, content), OrderedDict.get_eq_some_iff.1 hcontent,
          Option.map_eq_some_iff.2 ⟨source, hsource, rfl⟩⟩
      | none =>
        refine .inr ⟨(p, source), List.mem_filter.2 ⟨OrderedDict.get_eq_some_iff.1 hsource, ?_⟩, rfl⟩
        rw [hcontent]
        rfl
  cases hlast : OrderedDict.lastOf p c.entries with
  | none =>
    cases hget : (c.files.get p).map fun source => (source.stored, c.contents.get p) with
    | none => rfl
    | some entry => exact absurd ((hmem entry).2 hget) (OrderedDict.lastOf_eq_none_iff.1 hlast entry)
  | some entry => exact ((hmem entry).1 (OrderedDict.mem_of_lastOf hlast)).symm

theorem lastDeclaring_append (cs : List (Contribution β)) (c : Contribution β) (p : Location) :
    lastDeclaring (cs ++ [c]) p = if c.files.get p = none then lastDeclaring cs p else some c := by
  rw [lastDeclaring, List.filter_append]
  cases hfiles : c.files.get p <;> simp [hfiles, lastDeclaring]

theorem planOf_append (cs : List (Contribution β)) (c : Contribution β) : planOf (cs ++ [c]) = (planOf cs).add c := by
  rw [planOf, List.foldl_append]
  rfl

theorem get_filesOf (cs : List (Contribution β)) (p : Location) : (planOf cs).files.get p =
      (lastDeclaring cs p).bind fun c => (c.files.get p).map fun source => (source.stored, c.contents.get p) := by
  induction cs using List.reverseRecOn with
  | nil => rfl
  | append_singleton cs c ih =>
    rw [planOf_append, lastDeclaring_append]
    show ((planOf cs).files.setAll c.entries).get p = _
    rw [OrderedDict.get_setAll, lastOf_entries, ih]
    cases hget : c.files.get p with
    | none => rfl
    | some source => simp [hget]

theorem directories_planOf (cs : List (Contribution β)) :
    (planOf cs).directories = cs.flatMap Contribution.directories := by
  induction cs using List.reverseRecOn with
  | nil => rfl
  | append_singleton cs c ih =>
    rw [planOf_append, List.flatMap_append, ← ih, List.flatMap_singleton]
    rfl

theorem mem_overridden_planOf {cs : List (Contribution β)} {p : Location} :
    p ∈ (planOf cs).overridden ↔ IsOverridden cs p := by
  induction cs using List.reverseRecOn with
  | nil => exact ⟨fun h => (by cases h), fun ⟨c, hc, _⟩ => (by cases hc)⟩
  | append_singleton cs c ih =>
    rw [planOf_append]
    show p ∈ (planOf cs).overridden ++ c.contents.items.map Prod.fst ↔ _
    rw [List.mem_append, ih, ← not_not (a := p ∈ c.contents.items.map Prod.fst), ← OrderedDict.get_eq_none_iff]
    simp only [IsOverridden, List.mem_append, List.mem_singleton, or_and_right, exists_or, exists_eq_left, Ne]

theorem declared_of_contributionOf {userOverrides : String → Except PlanError (OrderedDict String ServiceFileOverride)}
    {renderOverride : Stored β → String → ServiceFileOverride → Except PlanError β} {t : FileTree (Stored β)}
    {service : ServiceDefinition β} {c : Contribution β}
    (h : contributionOf t userOverrides renderOverride service = .ok c) {p : Location}
    (hp : c.contents.get p ≠ none) : c.files.get p ≠ none := by
  obtain ⟨declared, -, h⟩ := bind_eq_ok.1 h
  obtain ⟨overrides, -, h⟩ := bind_eq_ok.1 h
  obtain ⟨contents, hcontents, h⟩ := bind_eq_ok.1 h
  cases h
  let Declared (contents : OrderedDict Location β) := ∀ p, contents.get p ≠ none → declared.1.get p ≠ none
  have hall : Declared contents := by
    refine foldlM_inv ?_ (fun p hp => absurd rfl hp : Declared .empty) hcontents
    intro contents entry contents' hinv hstep p hp
    obtain ⟨destination, -, hstep⟩ := bind_eq_ok.1 hstep
    split at hstep
    · cases hstep
    next source hsource =>
      obtain ⟨content, -, hstep⟩ := bind_eq_ok.1 hstep
      obtain ⟨-, -, hstep⟩ := bind_eq_ok.1 hstep
      cases hstep
      rw [OrderedDict.get_set] at hp
      split at hp
      next heq => rw [heq, hsource]; exact Option.some_ne_none source
      · exact hinv p hp
  exact hall p hp

/-! ### What a plan owns -/

section Ownership

variable {cs : List (Contribution β)} {p : Location}

def Contribution.content (c : Contribution β) (p : Location) : Option β :=
  (c.files.get p).map fun source => (c.contents.get p).getD source.stored.content

/-- A writing touches declared destinations only, and each holds what it is declared to hold. -/
structure Owns (cs : List (Contribution β)) (overwrite : Bool) (before after : FileTree (Stored β)) : Prop where
  undeclared : ∀ p, lastDeclaring cs p = none → after.contentAt p = before.contentAt p
  overridden : ∀ c ∈ cs, ∀ p content, c.contents.get p = some content → after.contentAt p = some content
  provided : overwrite = true → ∀ p last source, ¬IsOverridden cs p → lastDeclaring cs p = some last →
    last.files.get p = some source → after.contentAt p = some source.stored.content
  kept : overwrite = false → ∀ p, ¬IsOverridden cs p → before.contentAt p ≠ none →
    after.contentAt p = before.contentAt p

/-- Nothing undeclared lies below a directory that will be cleared, and the last service that declares an
overridden destination gives it the content of the override. -/
structure Undisturbed (cs : List (Contribution β)) (overwrite : Bool) (before : FileTree (Stored β)) : Prop where
  spared : overwrite = true → ∀ c ∈ cs, ∀ d ∈ c.directories, ∀ p, d <+: p → lastDeclaring cs p = none →
    before.contentAt p = none
  decided : ∀ c ∈ cs, ∀ p content last, c.contents.get p = some content → lastDeclaring cs p = some last →
    last.content p = some content

/-- A plan that is written owns only what it declares if and only if nothing undeclared lies below a
directory it clears, and no later service displaces an override with a different content. -/
theorem owns_iff {userOverrides : String → Except PlanError (OrderedDict String ServiceFileOverride)}
    {renderOverride : Stored β → String → ServiceFileOverride → Except PlanError β}
    {services : List (ServiceDefinition β)} {plan : ServiceFilePlan β} {overwrite : Bool}
    {before after : FileTree (Stored β)} {copied : List Location}
    (hcs : services.mapM (contributionOf before userOverrides renderOverride) = .ok cs)
    (hplan : prepareServiceFiles before userOverrides renderOverride services = .ok plan)
    (hwrite : plan.write overwrite before = some (after, copied)) :
    Owns cs overwrite before after ↔ Undisturbed cs overwrite before := by
  obtain rfl : planOf cs = plan := by
    rw [prepareServiceFiles, hcs] at hplan
    exact Except.ok.inj hplan
  obtain ⟨-, -, hwrite⟩ := Option.bind_eq_some_iff.1 hwrite
  obtain ⟨cleared, hcleared, hwrite⟩ := Option.bind_eq_some_iff.1 hwrite
  have hclear (p : Location) := contentAt_clearDirectories hcleared p
  rw [directories_planOf] at hclear
  have hfiles (p : Location) := files_placed (q := p) hwrite (planOf cs).files.nodup
  have huntouched (p : Location) (h : lastDeclaring cs p = none) : after.contentAt p = cleared.contentAt p := by
    refine (hfiles p).1 (OrderedDict.get_eq_none_iff.1 ?_)
    rw [get_filesOf, h, Option.bind_none]
  have hplaced (p : Location) (last : Contribution β) (h : lastDeclaring cs p = some last)
      (hw : overwrite = true ∨ IsOverridden cs p) : after.contentAt p = last.content p := by
    obtain ⟨source, hsource⟩ := Option.isSome_iff_exists.1 (List.mem_filter.1 (List.mem_of_getLast? h)).2
    have hget : (planOf cs).files.get p = some (source.stored, last.contents.get p) := by
      rw [get_filesOf, h, Option.bind_some, hsource, Option.map_some]
    rw [Contribution.content, hsource]
    exact (hfiles p).2.1 (hw.imp_right mem_overridden_planOf.2) _ (OrderedDict.get_eq_some_iff.1 hget)
  have hoverridden {c : Contribution β} (hc : c ∈ cs) {p : Location} {content : β}
      (h : c.contents.get p = some content) : IsOverridden cs p :=
    ⟨c, hc, by rw [h]; exact Option.some_ne_none content⟩
  constructor
  · intro howns
    refine ⟨fun ho c hc d hd p hbelow hlast => ?_, fun c hc p content last hcontent hlast => ?_⟩
    · rw [← howns.undeclared p hlast, huntouched p hlast, hclear,
        if_pos ⟨ho, d, List.mem_flatMap.2 ⟨c, hc, hd⟩, hbelow⟩]
    · rw [← hplaced p last hlast (.inr (hoverridden hc hcontent)), howns.overridden c hc p content hcontent]
  · intro hcond
    refine ⟨fun p hlast => ?_, fun c hc p content hcontent => ?_, fun ho p last source hnot hlast hsource => ?_,
      fun ho p hnot hthere => ?_⟩
    · rw [huntouched p hlast, hclear]
      split
      next hbelow =>
        obtain ⟨ho, d, hd, hbelow⟩ := hbelow
        obtain ⟨c, hc, hd⟩ := List.mem_flatMap.1 hd
        exact (hcond.spared ho c hc d hd p hbelow hlast).symm
      · rfl
    · obtain ⟨service, -, hservice⟩ := (mem_of_mapM_eq_ok hcs).2 c hc
      have hfile : c.files.get p ≠ none := declared_of_contributionOf hservice (by simp [hcontent])
      cases hlast : lastDeclaring cs p with
      | none =>
        rw [lastDeclaring, List.getLast?_eq_none_iff, List.filter_eq_nil_iff] at hlast
        exact absurd (Option.isSome_iff_ne_none.2 hfile) (hlast c hc)
      | some last =>
        rw [hplaced p last hlast (.inr (hoverridden hc hcontent)), hcond.decided c hc p content last hcontent hlast]
    · have hnone : last.contents.get p = none := by
        by_contra hne
        exact hnot ⟨last, List.mem_of_mem_filter (List.mem_of_getLast? hlast), hne⟩
      rw [hplaced p last hlast (.inl ho), Contribution.content, hsource, hnone]
      rfl
    · have hsame : cleared.contentAt p = before.contentAt p := by
        rw [hclear, if_neg (by simp [ho])]
      rw [(hfiles p).2.2 ho (fun h => hnot (mem_overridden_planOf.1 h)) (hsame ▸ hthere), hsame]

end Ownership

/-! ### A directory that is cleared, and an override that is displaced -/

section

/-- A provider of the file or the directory `conf`. -/
def confService (name : String) (source : Source String) : ServiceDefinition String :=
  ⟨name, some fun _ => source, [⟨"conf", "conf"⟩], fun _ _ => .ok ()⟩

def confFile (content : String) : ProviderFile String := ⟨⟨content, 420⟩, true⟩

/-- The project overrides `conf` of the service `db`. -/
def confOverride (name : String) : Except PlanError (OrderedDict String ServiceFileOverride) :=
  .ok (if name = "db" then .ofList [("conf", ⟨"replace", "db.conf"⟩)] else .empty)

def confContent (_ : Stored String) (_ : String) (_ : ServiceFileOverride) : Except PlanError String := .ok "project"

def contributions (services : List (ServiceDefinition String)) (t : FileTree (Stored String)) :
    List (Contribution String) :=
  ((services.mapM (contributionOf t confOverride confContent)).toOption).getD []

theorem owns_conf_iff : Owns (contributions [confService "db" (.file (confFile "db"))] .empty) true .empty
    (FileTree.empty.put ["conf"] (.file ⟨"project", 420⟩)) ↔
      Undisturbed (contributions [confService "db" (.file (confFile "db"))] .empty) true .empty :=
  @owns_iff String _ confOverride confContent [confService "db" (.file (confFile "db"))] _ true .empty _ [["conf"]]
    rfl rfl rfl

/-- The services' plan is accepted and written, but does not own only what it declares. -/
def Disowned (services : List (ServiceDefinition String)) (before : FileTree (Stored String)) : Prop :=
  ∃ plan after copied, prepareServiceFiles before confOverride confContent services = .ok plan ∧
    plan.write true before = some (after, copied) ∧ ¬Owns (contributions services before) true before after

/-- Two services declare one file and the project overrides the first's; a file of the user's lies in a
declared directory. -/
theorem override_displaced_and_file_removed :
    Disowned [confService "db" (.file (confFile "db")), confService "api" (.file (confFile "api"))] .empty ∧
      Disowned [confService "api" (.directory [(["api.conf"], confFile "api")])]
        ((FileTree.empty.put ["conf"] .directory).put ["conf", "notes"] (.file ⟨"mine", 420⟩)) :=
  ⟨⟨_, _, _, rfl, rfl, fun h => absurd (h.overridden _ List.mem_cons_self ["conf"] "project" rfl) (by decide)⟩,
    ⟨_, _, _, rfl, rfl, fun h => absurd (h.undeclared ["conf", "notes"] rfl) (by decide)⟩⟩

end

end Phlo.Compose
