import Phlo.Maintenance.RetentionPlan

/-!
# What a confirmation token authorises

A token tells plans apart by everything but the fields in `reserved`, and those are taken out at every
depth: also where a named ref or an entry of a snapshot's summary has such a name.

* `normal_of_token` — plans with one token agree but for the fields in `reserved`;
* `submitted_checked` — what holds of a call that reaches the executor.
-/

namespace Phlo.Maintenance

open Phlo.Library JsonValue

variable {host : Host}

/-! ### Dictionaries in plans -/

theorem member_items {α : Type} (d : OrderedDict String α) (f : α → JsonValue) (k : String) :
    member k (.obj (d.items.map fun item => (item.1, f item.2))) = (d.get k).map f := by
  show Option.map Prod.snd (List.find? _ (d.items.map fun item => (item.1, f item.2))) = _
  rw [List.find?_map, Option.map_map, OrderedDict.get, Option.map_map]
  rfl

theorem nodup_items {α : Type} (d : OrderedDict String α) (f : α → JsonValue) :
    ((d.items.map fun item => (item.1, f item.2)).map Prod.fst).Nodup := by
  rw [List.map_map]
  exact d.nodup

theorem get_of_normal {α : Type} {d d' : OrderedDict String α} {f : α → JsonValue} {keys : List String}
    (hf : ∀ a, normal keys (f a) = f a) (hinj : Function.Injective f)
    (h : normal keys (.obj (d.items.map fun item => (item.1, f item.2))) =
      normal keys (.obj (d'.items.map fun item => (item.1, f item.2)))) {k : String} (hk : k ∉ keys) :
    d.get k = d'.get k := by
  have hmember := congrArg (member k) h
  rw [member_normal_obj keys (nodup_items d f), member_normal_obj keys (nodup_items d' f), if_neg hk, if_neg hk,
    member_items, member_items, Option.map_map, Option.map_map] at hmember
  have hcomp : normal keys ∘ f = f := funext hf
  rw [hcomp] at hmember
  exact Option.map_injective hinj hmember

/-! ### Scalars in plans -/

@[simp] theorem normal_optionalText (keys : List String) (s : Option String) :
    normal keys (optionalText s) = optionalText s := by
  cases s with
  | none => exact normal_null keys
  | some s => exact normal_str keys s

@[simp] theorem normal_optionalInt (keys : List String) (n : Option ℤ) :
    normal keys (optionalInt n) = optionalInt n := by
  cases n with
  | none => exact normal_null keys
  | some n => exact normal_int keys n

theorem optionalText_injective : Function.Injective optionalText := by
  intro s s' h
  cases s <;> cases s' <;> simp_all [optionalText]

theorem optionalInt_injective : Function.Injective optionalInt := by
  intro n n' h
  cases n <;> cases n' <;> simp_all [optionalInt]

theorem str_injective : Function.Injective JsonValue.str := fun _ _ h => JsonValue.str.inj h

theorem int_injective : Function.Injective JsonValue.int := fun _ _ h => JsonValue.int.inj h

/-! ### Plans with one token -/

theorem normal_of_token (hsha : Function.Injective host.sha256) {fields fields' : List (String × JsonValue)}
    (h : maintenancePlanToken host fields = maintenancePlanToken host fields') :
    normal reserved (.obj fields) = normal reserved (.obj fields') :=
  (dumps_prune_eq_iff reserved _ _).1 (hsha h)

theorem nodup_expiryFields (host : Host) (table : TableState) (moment : Moment) (branch : String)
    (args : Arguments) (stats : ℕ × ℤ) : ((expiryFields host table moment branch args stats).map Prod.fst).Nodup := by
  simp [expiryFields]

theorem nodup_floorFields (operation : Operation) (branch : String) (args : Arguments) :
    ((floorFields operation branch args).map Prod.fst).Nodup := by
  cases operation <;> simp [floorFields]

theorem nodup_candidateEntry (host : Host) (moment : Moment) (s : Snapshot) {fields : List (String × JsonValue)}
    (h : candidateEntry host moment s = .obj fields) : (fields.map Prod.fst).Nodup := by
  obtain rfl := JsonValue.obj.inj h
  simp

/-! ### Execute mode -/

variable {plan : Plan} {args : Arguments} {operation : Operation} {moment : Moment} {resource : IcebergResource}
  {submission : Submission} {table : TableState}

theorem retentionLimitRefusal_eq_none {maxObjects maxBytes : Option ℤ}
    (h : retentionLimitRefusal plan maxObjects maxBytes = none) :
    ∃ objects bytes : ℤ, maxObjects = some objects ∧ maxBytes = some bytes ∧
      (plan.affectedObjects : ℤ) ≤ objects ∧ (plan.affectedBytes = none → plan.affectedObjects = 0) ∧
      plan.affectedBytes.getD 0 ≤ bytes := by
  cases maxObjects with
  | none => exact absurd h (by simp [retentionLimitRefusal])
  | some objects =>
    cases maxBytes with
    | none => exact absurd h (by simp [retentionLimitRefusal])
    | some bytes =>
      simp only [retentionLimitRefusal] at h
      split_ifs at h with hnegative hobjects hunknown hbytes
      refine ⟨objects, bytes, rfl, rfl, not_lt.1 hobjects, fun hnone => ?_, not_lt.1 hbytes⟩
      by_contra hne
      exact hunknown ⟨hnone, hne⟩

theorem retentionExecuteRefusal_eq_none (h : retentionExecuteRefusal operation plan args = none) :
    args.confirmationToken = some plan.planToken ∧
      retentionLimitRefusal plan args.maxAffectedObjects args.maxAffectedBytes = none ∧ plan.refsAvailable = true ∧
      ∃ expected, args.expectedSnapshotId.bind SnapshotToken.toInt = some expected ∧
        plan.beforeSnapshotId = some expected := by
  unfold retentionExecuteRefusal at h
  split at h
  · cases h
  split at h
  · cases h
  next token htoken =>
  split at h
  · cases h
  next hconfirmed =>
  split at h
  · cases h
  next hlimits =>
  split at h
  · cases h
  next hrefs =>
  split at h
  · cases h
  split at h
  · cases h
  next expected hexpected =>
  split at h
  · cases h
  next hsame =>
  rw [not_or, not_not] at hconfirmed
  refine ⟨hconfirmed.2, hlimits, by simpa using hrefs, expected, ?_, (not_not.1 hsame).symm⟩
  rw [htoken]
  exact hexpected

theorem submitted_checked (h : (expireSnapshots host resource (some table) moment args).submission = some submission) :
    1 ≤ args.retainLast ∧ ∃ plan, retentionMetadata host table moment (resource.branch args) args = some plan ∧
      retentionExecuteRefusal .expireSnapshots plan args = none ∧ plan.hasCandidateSnapshots = true := by
  unfold expireSnapshots at h
  split at h
  · cases h
  split at h
  · cases h
  next hfloor =>
  refine ⟨by omega, ?_⟩
  split at h
  · cases h
  next plan hplan =>
  refine ⟨plan, hplan, ?_⟩
  split at h
  · split at h <;> cases h
  unfold validateRetentionExecute at h
  split at h
  · cases h
  next hrefusal =>
  split at h
  · cases h
  next hcandidates =>
  exact ⟨hrefusal, by simpa using hcandidates⟩

theorem submission_of_checked {host : Host} {expected : SnapshotToken} {id : ℤ}
    (hvalid : validateCall resource args = none) (hexecute : args.dryRun = false)
    (hfloor : ¬(args.retentionHours < max args.minimumRetentionHours safeMinRetentionHours ∨ args.retainLast < 1))
    (hplan : retentionMetadata host table moment (resource.branch args) args = some plan)
    (hcatalog : given args.catalog = true) (hexpected : args.expectedSnapshotId = some expected)
    (hgiven : given args.confirmationToken = true) (hconfirmed : args.confirmationToken = some plan.planToken)
    (hlimits : retentionLimitRefusal plan args.maxAffectedObjects args.maxAffectedBytes = none)
    (hrefs : plan.refsAvailable = true) (hscan : plan.scanUnavailable = false) (hid : expected.toInt = some id)
    (hbefore : plan.beforeSnapshotId = some id) (hcandidates : plan.hasCandidateSnapshots = true)
    (hexecutor : args.hasExecutor = true) : (expireSnapshots host resource (some table) moment args).submission =
      some ⟨args.tableName, resource.branch args, id, args.retentionHours, args.retainLast⟩ := by
  have hrefusal : retentionExecuteRefusal .expireSnapshots plan args = none := by
    rw [hconfirmed] at hgiven
    simp [retentionExecuteRefusal, hcatalog, hexpected, hgiven, hconfirmed, hlimits, hrefs, hscan, hid, hbefore]
  have hmetadata : (some table).bind (fun t => retentionMetadata host t moment (resource.branch args) args) =
      some plan := hplan
  rw [expireSnapshots, hvalid]
  simp only [if_neg hfloor, hmetadata, hexecute, validateRetentionExecute, hrefusal, hcandidates, hexecutor,
    hexpected, Option.bind_some, hid]
  rfl

/-! ### Dry runs -/

def Operation.metadata : Operation → Host → TableState → Moment → String → Arguments → Option Plan
  | .expireSnapshots => retentionMetadata
  | .cleanupOrphanFiles => orphanRetentionMetadata

theorem retentionMetadata_eq_some {branch : String} (h : retentionMetadata host table moment branch args = some plan) :
    ∃ stats, plan.fields = expiryFields host table moment branch args stats ∧
      plan.planToken = maintenancePlanToken host plan.fields := by
  obtain ⟨stats, -, rfl⟩ := Option.map_eq_some_iff.1 h
  exact ⟨stats, rfl, rfl⟩

theorem metadata_operation {branch : String} (h : operation.metadata host table moment branch args = some plan) :
    (plan.fields.map Prod.fst).Nodup ∧ ("operation", JsonValue.str operation.value) ∈ plan.fields ∧
      plan.planToken = maintenancePlanToken host plan.fields := by
  cases operation with
  | expireSnapshots =>
    obtain ⟨stats, hfields, htoken⟩ := retentionMetadata_eq_some h
    refine ⟨?_, ?_, htoken⟩
    · rw [hfields]
      exact nodup_expiryFields _ _ _ _ _ _
    · rw [hfields]
      exact List.mem_cons_self
  | cleanupOrphanFiles =>
    obtain ⟨stats, -, h⟩ := Option.bind_eq_some_iff.1 h
    obtain ⟨manifests, -, h⟩ := Option.bind_eq_some_iff.1 h
    obtain rfl := Option.some.inj h
    exact ⟨by simp, List.mem_cons_self, rfl⟩

theorem token_of_dry_run {token : String} (hdry : args.dryRun = true)
    (h : (operation.run host resource (some table) moment args).planToken = some token) :
    token = maintenancePlanToken host (floorFields operation (resource.branch args) args) ∨
      ∃ plan, operation.metadata host table moment (resource.branch args) args = some plan ∧
        token = plan.planToken := by
  cases operation with
  | expireSnapshots =>
    change (expireSnapshots host resource (some table) moment args).planToken = some token at h
    unfold expireSnapshots at h
    split at h
    · cases h
    split at h
    · exact .inl (Option.some.inj h).symm
    split at h
    · cases h
    next plan hplan =>
    refine .inr ⟨plan, hplan, ?_⟩
    split at h <;> exact (Option.some.inj h).symm
  | cleanupOrphanFiles =>
    change (cleanupOrphanFiles host resource (some table) moment args).planToken = some token at h
    unfold cleanupOrphanFiles at h
    split at h
    · cases h
    split at h
    · exact .inl (Option.some.inj h).symm
    split at h
    · cases h
    next plan hplan =>
    refine .inr ⟨plan, hplan, ?_⟩
    split at h
    · exact (Option.some.inj h).symm
    split at h <;> exact (Option.some.inj h).symm

/-! ### Snapshots that are due -/

theorem retained_length {retainLast : ℤ} {s : Snapshot} (hs : s ∈ table.newestFirst)
    (hnot : s.snapshotId ∉ (table.newestFirst.take (max retainLast 1).toNat).map Snapshot.snapshotId) :
    retainLast ≤ ((table.snapshots.filter fun other =>
      s.timestampMs ≤ other.timestampMs ∧ other.snapshotId ≠ s.snapshotId).length : ℤ) := by
  set count := (max retainLast 1).toNat with hcount
  have hsplit : table.newestFirst.take count ++ table.newestFirst.drop count = table.newestFirst :=
    List.take_append_drop count table.newestFirst
  have hdrop : s ∈ table.newestFirst.drop count := by
    rw [← hsplit] at hs
    refine (List.mem_append.1 hs).resolve_left fun htake => hnot ?_
    exact List.mem_map_of_mem htake
  have hlength : (table.newestFirst.take count).length = count := by
    have hpos := List.length_pos_of_mem hdrop
    rw [List.length_drop] at hpos
    rw [List.length_take]
    omega
  have hsorted : (table.newestFirst.take count ++ table.newestFirst.drop count).Pairwise
      fun a b => -a.timestampMs ≤ -b.timestampMs := by
    rw [hsplit]
    exact pairwise_sortBy _ _
  have hall : (table.newestFirst.take count).filter (fun other =>
      s.timestampMs ≤ other.timestampMs ∧ other.snapshotId ≠ s.snapshotId) = table.newestFirst.take count := by
    refine List.filter_eq_self.2 fun other hother => ?_
    have hle := (List.pairwise_append.1 hsorted).2.2 other hother s hdrop
    have hne : other.snapshotId ≠ s.snapshotId := fun heq => hnot (heq ▸ List.mem_map_of_mem hother)
    exact decide_eq_true ⟨by omega, hne⟩
  have hperm := ((sortBy_perm (fun s : Snapshot => -s.timestampMs) table.snapshots).filter fun other =>
    s.timestampMs ≤ other.timestampMs ∧ other.snapshotId ≠ s.snapshotId).length_eq
  have hsub := ((List.take_sublist count table.newestFirst).filter fun other =>
    s.timestampMs ≤ other.timestampMs ∧ other.snapshotId ≠ s.snapshotId).length_le
  rw [hall, hlength] at hsub
  change ((table.newestFirst.filter _).length = _) at hperm
  omega

/-- A candidate is older than the window and neither current, nor the target of a ref, nor one of the
newest. -/
structure Expendable (table : TableState) (retentionHours retainLast : ℤ) (moment : Moment) (s : Snapshot) :
    Prop where
  notCurrent : table.currentSnapshotId ≠ some s.snapshotId
  unreferenced : ∀ name, table.snapshotRefs.get name ≠ some s.snapshotId
  notNewest : s.snapshotId ∉ (table.newestFirst.take retainLast.toNat).map Snapshot.snapshotId
  newer : retainLast ≤ ((table.snapshots.filter fun other =>
    s.timestampMs ≤ other.timestampMs ∧ other.snapshotId ≠ s.snapshotId).length : ℤ)
  old : s.timestampMs < millis (moment.cutoffAt - hoursInMicros retentionHours)

theorem expendable_of_due {retentionHours retainLast : ℤ} {s : Snapshot}
    (h : s ∈ dueSnapshots table retentionHours retainLast moment) :
    Expendable table retentionHours retainLast moment s := by
  obtain ⟨hmem, hdue⟩ := List.mem_filter.1 h
  obtain ⟨hold, hprotected⟩ := of_decide_eq_true hdue
  rw [protectedIds, List.mem_append, List.mem_append, not_or, not_or] at hprotected
  obtain ⟨⟨hrefs, hcurrent⟩, hnewest⟩ := hprotected
  refine ⟨?_, ?_, ?_, retained_length hmem hnewest, hold⟩
  · intro heq
    exact hcurrent (by rw [heq]; exact List.mem_singleton_self _)
  · intro name hget
    exact hrefs (OrderedDict.mem_values.2 ⟨name, hget⟩)
  · intro htake
    refine hnewest (List.Sublist.subset ?_ htake)
    exact (List.take_sublist_take_left (by omega)).map _

/-! ### The claim -/

/-- One snapshot, seen twice. -/
structure SameSnapshot (s s' : Snapshot) : Prop where
  snapshotId : s.snapshotId = s'.snapshotId
  timestampMs : s.timestampMs = s'.timestampMs
  operation : s.operation = s'.operation
  summary : ∀ key, s.summary.get key = s'.summary.get key

/-- A call: its arguments, the resource it is made on, the table it finds, and the time. -/
structure Call where
  resource : IcebergResource
  args : Arguments
  table : TableState
  moment : Moment

namespace Call

def branch (c : Call) : String := c.resource.branch c.args

def due (c : Call) : List Snapshot := dueSnapshots c.table c.args.retentionHours c.args.retainLast c.moment

def affectedBytes (c : Call) : Option ℤ := Maintenance.affectedBytes c.table (c.due.map Snapshot.snapshotId)

def outcome (host : Host) (operation : Operation) (c : Call) : Outcome :=
  operation.run host c.resource (some c.table) c.moment c.args

end Call

/-- The dry run and the execution ask for one expiry of one table state. -/
structure Agree (dry run : Call) : Prop where
  tableName : dry.args.tableName = run.args.tableName
  ref : dry.branch = run.branch
  catalog : dry.args.catalog = run.args.catalog
  retentionHours : dry.args.retentionHours = run.args.retentionHours
  retainLast : dry.args.retainLast = run.args.retainLast
  currentSnapshot : dry.table.currentSnapshotId = run.table.currentSnapshotId
  refs : ∀ name, dry.table.snapshotRefs.get name = run.table.snapshotRefs.get name
  candidates : List.Forall₂ SameSnapshot dry.due run.due
  affectedBytes : dry.affectedBytes = run.affectedBytes
  maxAffectedObjects : dry.args.maxAffectedObjects = run.args.maxAffectedObjects
  maxAffectedBytes : dry.args.maxAffectedBytes = run.args.maxAffectedBytes

/-- The execution keeps to the state it expects and to its limits, and offers only expendable snapshots. -/
structure Bounded (run : Call) : Prop where
  expected : ∃ id, run.args.expectedSnapshotId.bind SnapshotToken.toInt = some id ∧
    run.table.currentSnapshotId = some id
  objects : ∃ limit, run.args.maxAffectedObjects = some limit ∧ (run.due.length : ℤ) ≤ limit
  bytes : ∃ limit bytes, run.args.maxAffectedBytes = some limit ∧ run.affectedBytes = some bytes ∧ bytes ≤ limit
  refsListed : run.table.refsListed = true
  expendable : ∀ s ∈ run.due, Expendable run.table run.args.retentionHours run.args.retainLast run.moment s

/-- What has a reserved name is the same in both states: refs, and entries of the candidates' summaries. -/
structure ReservedAgree (dry run : Call) : Prop where
  refs : ∀ name ∈ reserved, dry.table.snapshotRefs.get name = run.table.snapshotRefs.get name
  summaries : List.Forall₂ (fun s s' : Snapshot => ∀ key ∈ reserved, s.summary.get key = s'.summary.get key)
    dry.due run.due

theorem bounded_of_submitted {run : Call} (h : (run.outcome host .expireSnapshots).submission = some submission) :
    Bounded run := by
  obtain ⟨-, plan, hplan, hrefusal, hcandidates⟩ := submitted_checked h
  obtain ⟨stats, -, rfl⟩ := Option.map_eq_some_iff.1 hplan
  obtain ⟨-, hlimits, hrefs, expected, hexpected, hbefore⟩ := retentionExecuteRefusal_eq_none hrefusal
  obtain ⟨objects, bytes, hobjects, hbytes, hcount, hknown, hsize⟩ := retentionLimitRefusal_eq_none hlimits
  have hne : run.due.length ≠ 0 := by
    intro hzero
    have hempty : run.due = [] := List.length_eq_zero_iff.1 hzero
    change (!run.due.isEmpty) = true at hcandidates
    simp [hempty] at hcandidates
  refine ⟨⟨expected, hexpected, hbefore⟩, ⟨objects, hobjects, hcount⟩, ?_, hrefs, fun s hs => expendable_of_due hs⟩
  cases hsum : run.affectedBytes with
  | none => exact absurd (hknown hsum) hne
  | some sum =>
    refine ⟨bytes, sum, hbytes, rfl, ?_⟩
    change run.affectedBytes.getD 0 ≤ bytes at hsize
    rwa [hsum] at hsize

/-! ### Equal rests of plans of expiry -/

theorem sameSnapshot_of_normal {moment' : Moment} {s s' : Snapshot}
    (h : normal reserved (candidateEntry host moment s) = normal reserved (candidateEntry host moment' s'))
    (hsummary : ∀ key ∈ reserved, s.summary.get key = s'.summary.get key) : SameSnapshot s s' := by
  have hkeys := nodup_candidateEntry host moment s rfl
  have hkeys' := nodup_candidateEntry host moment' s' rfl
  have hid : normal reserved (.int s.snapshotId) = normal reserved (.int s'.snapshotId) :=
    normal_of_mem h hkeys hkeys' (k := "snapshot_id") (by decide) (by simp) (by simp)
  have htime : normal reserved (.int s.timestampMs) = normal reserved (.int s'.timestampMs) :=
    normal_of_mem h hkeys hkeys' (k := "timestamp_ms") (by decide) (by simp) (by simp)
  have hoperation : normal reserved (optionalText s.operation) = normal reserved (optionalText s'.operation) :=
    normal_of_mem h hkeys hkeys' (k := "operation") (by decide) (by simp) (by simp)
  have hrest : normal reserved (.obj (summaryFields s.summary)) = normal reserved (.obj (summaryFields s'.summary)) :=
    normal_of_mem h hkeys hkeys' (k := "summary") (by decide) (by simp) (by simp)
  rw [normal_int, normal_int] at hid htime
  rw [normal_optionalText, normal_optionalText] at hoperation
  refine ⟨int_injective hid, int_injective htime, optionalText_injective hoperation, fun key => ?_⟩
  by_cases hkey : key ∈ reserved
  · exact hsummary key hkey
  · exact get_of_normal (fun _ => normal_str _ _) str_injective hrest hkey

def Call.fields (host : Host) (c : Call) (stats : ℕ × ℤ) : List (String × JsonValue) :=
  expiryFields host c.table c.moment c.branch c.args stats

theorem candidates_of_normal {moment' : Moment} {due due' : List Snapshot}
    (h : due.map (normal reserved ∘ candidateEntry host moment) = due'.map (normal reserved ∘ candidateEntry host moment'))
    (hsummaries : List.Forall₂ (fun s s' : Snapshot => ∀ key ∈ reserved, s.summary.get key = s'.summary.get key) due due') :
    List.Forall₂ SameSnapshot due due' := by
  induction hsummaries with
  | nil => exact .nil
  | cons hsummary _ ih =>
    rw [List.map_cons, List.map_cons] at h
    obtain ⟨hentry, hrest⟩ := List.cons.inj h
    exact .cons (sameSnapshot_of_normal hentry hsummary) (ih hrest)

/-- Plans of expiry with equal rests agree, but for what has a reserved name. -/
theorem agree_of_normal {dry run : Call} {stats stats' : ℕ × ℤ}
    (h : normal reserved (.obj (dry.fields host stats)) = normal reserved (.obj (run.fields host stats')))
    (hreserved : ReservedAgree dry run) : Agree dry run := by
  have hrest : ∀ (k : String) (value : Call → JsonValue), k ∉ reserved →
      (∀ (c : Call) stats, (k, value c) ∈ c.fields host stats) →
      normal reserved (value dry) = normal reserved (value run) := fun k value hk hmem =>
    normal_of_mem h (nodup_expiryFields _ _ _ _ _ _) (nodup_expiryFields _ _ _ _ _ _) hk (hmem dry stats)
      (hmem run stats')
  have htable := hrest "table_name" (fun c => .str c.args.tableName) (by decide)
    fun c stats => by simp [Call.fields, expiryFields]
  have href := hrest "ref" (fun c => .str c.branch) (by decide) fun c stats => by simp [Call.fields, expiryFields]
  have hcatalog := hrest "catalog" (fun c => optionalText c.args.catalog) (by decide)
    fun c stats => by simp [Call.fields, expiryFields]
  have hhours := hrest "retention_hours" (fun c => .int c.args.retentionHours) (by decide)
    fun c stats => by simp [Call.fields, expiryFields]
  have hlast := hrest "retain_last" (fun c => .int c.args.retainLast) (by decide)
    fun c stats => by simp [Call.fields, expiryFields]
  have hcurrent := hrest "before_snapshot_id" (fun c => optionalInt c.table.currentSnapshotId) (by decide)
    fun c stats => by simp [Call.fields, expiryFields]
  have hcandidates := hrest "candidate_snapshots" (fun c => .arr (c.due.map (candidateEntry host c.moment)))
    (by decide) fun c stats => by simp [Call.fields, expiryFields, Call.due]
  have hrefs := hrest "table_snapshot_refs" (fun c => .obj (refFields c.table.snapshotRefs)) (by decide)
    fun c stats => by simp [Call.fields, expiryFields]
  have hbytes := hrest "affected_bytes" (fun c => optionalInt c.affectedBytes) (by decide)
    fun c stats => by simp [Call.fields, expiryFields, Call.affectedBytes, Call.due]
  have hmaxObjects := hrest "max_affected_objects" (fun c => optionalInt c.args.maxAffectedObjects) (by decide)
    fun c stats => by simp [Call.fields, expiryFields]
  have hmaxBytes := hrest "max_affected_bytes" (fun c => optionalInt c.args.maxAffectedBytes) (by decide)
    fun c stats => by simp [Call.fields, expiryFields]
  rw [normal_str, normal_str] at htable href
  rw [normal_int, normal_int] at hhours hlast
  rw [normal_optionalText, normal_optionalText] at hcatalog
  rw [normal_optionalInt, normal_optionalInt] at hcurrent hbytes hmaxObjects hmaxBytes
  rw [normal_arr, normal_arr, List.map_map, List.map_map] at hcandidates
  refine ⟨str_injective htable, str_injective href, optionalText_injective hcatalog, int_injective hhours,
    int_injective hlast, optionalInt_injective hcurrent, fun name => ?_,
    candidates_of_normal (JsonValue.arr.inj hcandidates) hreserved.summaries, optionalInt_injective hbytes,
    optionalInt_injective hmaxObjects, optionalInt_injective hmaxBytes⟩
  by_cases hname : name ∈ reserved
  · exact hreserved.refs name hname
  · exact get_of_normal (fun _ => normal_int _ _) int_injective hrefs hname

theorem reservedAgree_of_agree {dry run : Call} (h : Agree dry run) : ReservedAgree dry run :=
  ⟨fun name _ => h.refs name, h.candidates.imp fun _ _ hs key _ => hs.summary key⟩

theorem normal_of_submitted (hsha : Function.Injective host.sha256) {dry run : Call} {token : String}
    (hdry : dry.args.dryRun = true) (hissued : (dry.outcome host operation).planToken = some token)
    (hconfirmed : run.args.confirmationToken = some token)
    (hreached : (run.outcome host .expireSnapshots).submission = some submission) :
    operation = .expireSnapshots ∧ ∃ stats stats', normal reserved (.obj (dry.fields host stats)) =
      normal reserved (.obj (run.fields host stats')) := by
  obtain ⟨-, plan', hplan', hrefusal, -⟩ := submitted_checked hreached
  obtain ⟨hsame, -⟩ := retentionExecuteRefusal_eq_none hrefusal
  obtain ⟨stats', hfields', htoken'⟩ := retentionMetadata_eq_some hplan'
  have hkeys' : (plan'.fields.map Prod.fst).Nodup := by
    rw [hfields']
    exact nodup_expiryFields _ _ _ _ _ _
  have hoperation' : ("operation", JsonValue.str "expire_snapshots") ∈ plan'.fields := by
    rw [hfields']
    exact List.mem_cons_self
  have hexpected : token = maintenancePlanToken host plan'.fields := by
    rw [← htoken']
    exact Option.some.inj (hconfirmed.symm.trans hsame)
  have hvalue : ∀ {o : Operation}, normal reserved (.str o.value) = normal reserved (.str "expire_snapshots") →
      o = .expireSnapshots := by
    intro o h
    rw [normal_str, normal_str] at h
    cases o with
    | expireSnapshots => rfl
    | cleanupOrphanFiles => exact absurd (str_injective h) (by decide)
  obtain hfloor | ⟨plan, hplan, htoken⟩ := token_of_dry_run hdry hissued
  · -- a plan below the floor does not show the current snapshot
    have hnormal := normal_of_token hsha (hfloor.symm.trans hexpected)
    have hbefore : ("before_snapshot_id", optionalInt run.table.currentSnapshotId) ∈ plan'.fields := by
      rw [hfields']
      simp [expiryFields]
    have hmem := mem_keys_of_normal hnormal.symm hkeys' (nodup_floorFields _ _ _) (by decide) hbefore
    cases operation <;> simp [floorFields] at hmem
  · obtain ⟨hkeys, hoperation, hplanToken⟩ := metadata_operation hplan
    have hnormal := normal_of_token hsha ((hplanToken.symm.trans htoken.symm).trans hexpected)
    have hexpire := hvalue (normal_of_mem hnormal hkeys hkeys' (by decide) hoperation hoperation')
    subst hexpire
    obtain ⟨stats, hfields, -⟩ := retentionMetadata_eq_some hplan
    rw [hfields, hfields'] at hnormal
    exact ⟨rfl, stats, stats', hnormal⟩

/-- An expiry that reaches the executor with the token of a dry run is the expiry of that dry run, and
keeps to its bounds, exactly if refs and summary entries with reserved names agree. -/
theorem token_authorises_iff (host : Host) (hsha : Function.Injective host.sha256) (operation : Operation)
    (dry run : Call) (token : String) (submission : Submission) (hdry : dry.args.dryRun = true)
    (hissued : (dry.outcome host operation).planToken = some token)
    (hconfirmed : run.args.confirmationToken = some token)
    (hreached : (run.outcome host .expireSnapshots).submission = some submission) :
    (operation = .expireSnapshots ∧ Agree dry run ∧ Bounded run) ↔ ReservedAgree dry run := by
  obtain ⟨hoperation, stats, stats', hnormal⟩ := normal_of_submitted hsha hdry hissued hconfirmed hreached
  constructor
  · intro h
    exact reservedAgree_of_agree h.2.1
  · intro h
    exact ⟨hoperation, agree_of_normal hnormal h, bounded_of_submitted hreached⟩

/-! ### A ref named `plan_token` -/

theorem roundedText_numerals : ∀ c ∈ ['0', '.', '0'], isNumeral c = true := by simp [isNumeral]

theorem roundedText_fraction : ∃ c ∈ ['0', '.', '0'], c = '.' ∨ c = 'e' := by simp

def textHost : Host where
  sha256 := fun text => "sha256:" ++ text
  roundedSeconds := fun _ => ⟨['0', '.', '0'], roundedText_numerals, roundedText_fraction⟩
  isoformat := fun _ => ""
  inventoryOwnedPrefix := fun _ _ => ⟨"", [], 0, true, true, none, none⟩
  storagePathKey := id

def snapshotAt (snapshotId timestampMs : ℤ) : Snapshot :=
  ⟨snapshotId, timestampMs, some "append", OrderedDict.empty, some []⟩

/-- Three snapshots, and a ref named `plan_token`. -/
def taggedTable (target : ℤ) : TableState where
  snapshots := [snapshotAt 1 1000, snapshotAt 2 999999998000, snapshotAt 3 999999999000]
  currentSnapshot := some (snapshotAt 3 999999999000)
  refs := [("main", some 3), ("plan_token", some target)]
  refsListed := true
  location := "s3://lake/sales/orders"

def taggedArguments : Arguments where
  tableName := "sales.orders"
  overrideRef := none
  catalog := some "lake"
  dryRun := true
  retentionHours := 168
  retainLast := 2
  minimumRetentionHours := 168
  expectedSnapshotId := some (.int 3)
  confirmationToken := none
  maxAffectedObjects := some 5
  maxAffectedBytes := some 5
  hasExecutor := true

def taggedCall (args : Arguments) (target : ℤ) : Call where
  resource := ⟨"maintenance", true⟩
  args := args
  table := taggedTable target
  moment := ⟨1000000000000000, fun _ => 1000000000000000, 1000000000000000⟩

def taggedToken : String :=
  maintenancePlanToken textHost ((taggedCall taggedArguments 3).fields textHost (0, 0))

def confirmedArguments : Arguments :=
  { taggedArguments with dryRun := false, confirmationToken := some taggedToken }



theorem textHost_injective : Function.Injective textHost.sha256 := by
  intro a b h
  have hlist : ("sha256:" ++ a).toList = ("sha256:" ++ b).toList := congrArg String.toList h
  rw [String.toList_append, String.toList_append] at hlist
  exact String.toList_inj.1 (List.append_cancel_left hlist)

theorem given_digest (text : String) : given (some (textHost.sha256 text)) = true := by
  simp [given, textHost]

/-- The plan found in execute mode. -/
def confirmedPlan (target : ℤ) : Plan where
  fields := (taggedCall confirmedArguments target).fields textHost (0, 0)
  beforeSnapshotId := some 3
  affectedObjects := 1
  affectedBytes := some 0
  refsAvailable := true
  scanUnavailable := false
  hasCandidateSnapshots := true
  planToken := maintenancePlanToken textHost ((taggedCall confirmedArguments target).fields textHost (0, 0))

theorem confirmed_submitted {target : ℤ}
    (hplan : retentionMetadata textHost (taggedTable target) (taggedCall confirmedArguments target).moment
      "maintenance" confirmedArguments = some (confirmedPlan target))
    (htoken : (confirmedPlan target).planToken = taggedToken) :
    ((taggedCall confirmedArguments target).outcome textHost .expireSnapshots).submission =
      some ⟨"sales.orders", "maintenance", 3, 168, 2⟩ := by
  have hvalid : validateCall ⟨"maintenance", true⟩ confirmedArguments = none := by decide
  have hfloor : ¬(confirmedArguments.retentionHours < max confirmedArguments.minimumRetentionHours
    safeMinRetentionHours ∨ confirmedArguments.retainLast < 1) := by decide
  have hconfirmed : confirmedArguments.confirmationToken = some (confirmedPlan target).planToken := by
    rw [htoken]
    rfl
  have hgiven : given confirmedArguments.confirmationToken = true := given_digest _
  have hlimits : retentionLimitRefusal (confirmedPlan target) confirmedArguments.maxAffectedObjects
    confirmedArguments.maxAffectedBytes = none := rfl
  have hcatalog : given confirmedArguments.catalog = true := rfl
  have hexpected : confirmedArguments.expectedSnapshotId = some (.int 3) := rfl
  have hid : (SnapshotToken.int 3).toInt = some 3 := rfl
  have hsubmission := submission_of_checked hvalid rfl hfloor hplan hcatalog hexpected hgiven hconfirmed hlimits
    rfl rfl hid rfl rfl rfl
  exact hsubmission

theorem planned_token : ((taggedCall taggedArguments 3).outcome textHost .expireSnapshots).planToken =
    some taggedToken := rfl

/-- The ref is moved between the dry run and the execution, which submits the expiry all the same. -/
theorem moved_ref_accepted : Function.Injective textHost.sha256 ∧ (taggedCall taggedArguments 3).args.dryRun = true ∧
    ((taggedCall taggedArguments 3).outcome textHost .expireSnapshots).planToken = some taggedToken ∧
    (taggedCall confirmedArguments 2).args.confirmationToken = some taggedToken ∧
    ((taggedCall confirmedArguments 2).outcome textHost .expireSnapshots).submission =
      some ⟨"sales.orders", "maintenance", 3, 168, 2⟩ ∧
    (taggedCall taggedArguments 3).table.snapshotRefs.get "plan_token" = some 3 ∧
    (taggedCall confirmedArguments 2).table.snapshotRefs.get "plan_token" = some 2 ∧
    ¬Agree (taggedCall taggedArguments 3) (taggedCall confirmedArguments 2) := by
  refine ⟨textHost_injective, rfl, planned_token, rfl, confirmed_submitted rfl rfl, rfl, rfl, fun h => ?_⟩
  exact absurd (h.refs "plan_token") (by decide)

theorem token_authorises_unmoved :
    (Operation.expireSnapshots = .expireSnapshots ∧ Agree (taggedCall taggedArguments 3) (taggedCall confirmedArguments 3) ∧
      Bounded (taggedCall confirmedArguments 3)) ↔
    ReservedAgree (taggedCall taggedArguments 3) (taggedCall confirmedArguments 3) :=
  token_authorises_iff textHost textHost_injective .expireSnapshots _ _ taggedToken _ rfl planned_token rfl
    (confirmed_submitted rfl rfl)

end Phlo.Maintenance
