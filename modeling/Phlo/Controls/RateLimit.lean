import Mathlib
import Phlo.Library.Fallible
import Phlo.Library.RecencyTable

/-!
# The local rate limiter

A sliding window of sixty seconds for each subject and operation, in a table that is bounded and never drops an
identity with a call in the window.

* `localRateLimit_spec` — one call: what it answers, and what the table holds afterwards;
* `tracks_run` — a whole run: the table holds the allowed calls of the window.
-/

namespace Phlo.Controls

open Phlo.Library

/-! ### The table -/

abbrev RateIdentity := String × String

structure RateCall where
  now : ℚ
  subject : String
  operation : String
  limit : ℤ

def RateCall.identity (call : RateCall) : RateIdentity := (call.subject, call.operation)

/-- The first time that is in the window of a call. -/
def RateCall.horizon (call : RateCall) : ℚ := call.now - 60

def RATE_BUCKET_CAP : ℕ := 4096

/-- `_RATE_LIMITS` -/
abbrev RateTable := OrderedDict RateIdentity (List ℚ)

/-- The end of `_local_rate_limit`, with the bucket of the identity. -/
def admitCall (call : RateCall) (bucket : List ℚ) (table : RateTable) : Bool × RateTable :=
  let bucket := bucket.dropWhile (· < call.horizon)
  if call.limit ≤ bucket.length then (false, table.set call.identity bucket)
  else (true, (table.set call.identity (bucket ++ [call.now])).moveToEnd call.identity)

/-- `_local_rate_limit` -/
def localRateLimit (cap : ℕ) (call : RateCall) (table : RateTable) : Except IndexError (Bool × RateTable) := do
  let table ← expire call.horizon table
  match table.get call.identity with
  | none =>
    if cap ≤ table.items.length ∨ call.limit ≤ 0 then pure (false, table)
    else pure (admitCall call [] (table.set call.identity []))
  | some bucket => pure (admitCall call bucket table)

/-- A call and its answer. -/
structure RateEntry where
  call : RateCall
  allowed : Bool

def runRateCalls (cap : ℕ) : List RateCall → RateTable → Except IndexError (List RateEntry × RateTable)
  | [], table => pure ([], table)
  | call :: calls, table => do
    let (allowed, table) ← localRateLimit cap call table
    let (log, table) ← runRateCalls cap calls table
    pure (⟨call, allowed⟩ :: log, table)

/-! ### What has been allowed -/

def allowedTimes (log : List RateEntry) (identity : RateIdentity) (horizon : ℚ) : List ℚ :=
  (log.filter fun e => e.allowed && e.call.identity = identity && horizon ≤ e.call.now).map (·.call.now)

def liveIdentities (log : List RateEntry) (horizon : ℚ) : Finset RateIdentity :=
  ((log.filter fun e => e.allowed && horizon ≤ e.call.now).map (·.call.identity)).toFinset

theorem allowedTimes_append (log log' : List RateEntry) (identity : RateIdentity) (horizon : ℚ) :
    allowedTimes (log ++ log') identity horizon =
      allowedTimes log identity horizon ++ allowedTimes log' identity horizon := by
  rw [allowedTimes, List.filter_append, List.map_append]
  rfl

variable {identity : RateIdentity}

theorem filter_allowedTimes {log : List RateEntry} {horizon horizon' : ℚ} (h : horizon ≤ horizon') :
    (allowedTimes log identity horizon).filter (horizon' ≤ ·) = allowedTimes log identity horizon' := by
  rw [allowedTimes, List.filter_map, List.filter_filter, allowedTimes]
  refine congrArg (List.map _) (List.filter_congr fun e _ => ?_)
  by_cases hle : horizon' ≤ e.call.now
  · simp [hle, h.trans hle]
  · simp [hle]

theorem mem_liveIdentities {log : List RateEntry} {horizon : ℚ} :
    identity ∈ liveIdentities log horizon ↔ allowedTimes log identity horizon ≠ [] := by
  rw [liveIdentities, List.mem_toFinset, List.mem_map, allowedTimes, Ne, List.map_eq_nil_iff,
    List.filter_eq_nil_iff]
  constructor
  · rintro ⟨e, hmem, heq⟩ hnone
    have ⟨hin, hallowed⟩ := List.mem_filter.1 hmem
    refine hnone e hin ?_
    simp only [Bool.and_eq_true, decide_eq_true_eq] at hallowed ⊢
    exact ⟨⟨hallowed.1, heq⟩, hallowed.2⟩
  · intro hsome
    simp only [not_forall, Classical.not_not, Bool.and_eq_true, decide_eq_true_eq] at hsome
    have ⟨e, hin, ⟨hallowed, heq⟩, hle⟩ := hsome
    exact ⟨e, List.mem_filter.2 ⟨hin, by simp [hallowed, hle]⟩, heq⟩

/-- The table holds the allowed calls of the window before a time. -/
structure Tracks (log : List RateEntry) (latest : ℚ) (table : RateTable) : Prop where
  recent : Recent latest table.items
  counted : ∀ identity horizon, latest - 60 ≤ horizon →
    ((table.get identity).getD []).filter (horizon ≤ ·) = allowedTimes log identity horizon

theorem Tracks.counted_horizon {log : List RateEntry} {call : RateCall} {table : RateTable}
    (h : Tracks log call.now table) (identity : RateIdentity) :
    ((table.get identity).getD []).filter (call.horizon ≤ ·) = allowedTimes log identity call.horizon :=
  h.counted identity call.horizon (le_refl _)

def Admits (cap : ℕ) (log : List RateEntry) (call : RateCall) : Prop :=
  ((allowedTimes log call.identity call.horizon).length : ℤ) < call.limit ∧
    (allowedTimes log call.identity call.horizon ≠ [] ∨ (liveIdentities log call.horizon).card < cap)

variable {log : List RateEntry} {latest : ℚ} {table : RateTable} {cap : ℕ} {call : RateCall}

/-- After the loop the table has exactly the live identities. -/
theorem expire_tracks (h : Tracks log latest table) (hnow : latest ≤ call.now) :
    ∃ table', expire call.horizon table = .ok table' ∧ Tracks log call.now table' ∧
      (∀ item ∈ table'.items, ∃ last ∈ item.2.getLast?, call.horizon ≤ last) ∧
      ∀ identity, (table'.get identity).isSome = true ↔ identity ∈ liveIdentities log call.horizon := by
  have ⟨table', hok, gone, hsplit, hgone, hlive⟩ := expire_spec call.horizon h.recent
  have hsub : ∀ item ∈ table'.items, item ∈ table.items := fun item hmem => by
    rw [hsplit]
    exact List.mem_append_right _ hmem
  have hcounted : ∀ identity horizon, call.now - 60 ≤ horizon →
      ((table'.get identity).getD []).filter (horizon ≤ ·) = allowedTimes log identity horizon := by
    intro identity horizon hhorizon
    rw [← h.counted identity horizon (by linarith)]
    cases hget : table'.get identity with
    | some times =>
      rw [OrderedDict.get_eq_some_iff.2 (hsub _ (OrderedDict.get_eq_some_iff.1 hget))]
    | none =>
      cases hget' : table.get identity with
      | none => rfl
      | some times =>
        have hmem := OrderedDict.get_eq_some_iff.1 hget'
        rw [hsplit] at hmem
        have hnot := OrderedDict.get_eq_none_iff.1 hget
        have hin := (List.mem_append.1 hmem).resolve_right fun hin => hnot (List.mem_map_of_mem (f := Prod.fst) hin)
        refine (List.filter_eq_nil_iff.2 fun t ht => ?_).symm
        have hold : t < call.now - 60 := hgone _ hin t ht
        simpa using hold.trans_le hhorizon
  refine ⟨table', hok, ⟨⟨fun item hmem => (h.recent.queued item (hsub item hmem)).mono hnow, ?_⟩, hcounted⟩, hlive, ?_⟩
  · have hordered := h.recent.ordered
    rw [hsplit] at hordered
    exact (List.pairwise_append.1 hordered).2.1
  · intro identity
    rw [mem_liveIdentities, ← hcounted identity call.horizon (le_refl _)]
    cases hget : table'.get identity with
    | none => simp
    | some times =>
      have ⟨last, hlast, hle⟩ := hlive _ (OrderedDict.get_eq_some_iff.1 hget)
      have hmem : last ∈ times.filter (call.horizon ≤ ·) :=
        List.mem_filter.2 ⟨List.mem_of_getLast? hlast, decide_eq_true hle⟩
      exact ⟨fun _ => List.ne_nil_of_mem hmem, fun _ => rfl⟩

theorem length_items_eq_card {live : Finset RateIdentity}
    (h : ∀ identity, (table.get identity).isSome = true ↔ identity ∈ live) : table.items.length = live.card := by
  have hkeys : (table.items.map Prod.fst).toFinset = live := by
    ext identity
    rw [List.mem_toFinset, ← h, Option.isSome_iff_ne_none, Ne, OrderedDict.get_eq_none_iff, Classical.not_not]
  rw [← hkeys, List.toFinset_card_of_nodup table.nodup, List.length_map]

/-- A refused call counts nowhere. -/
theorem allowedTimes_refused (identity : RateIdentity) (horizon : ℚ) :
    allowedTimes (log ++ [⟨call, false⟩]) identity horizon = allowedTimes log identity horizon := by
  rw [allowedTimes_append]
  exact List.append_nil _

theorem tracks_pushed (h : Tracks log call.now table) {table' : RateTable}
    (hitems : table'.items = (table.items.filter fun item => item.1 ≠ call.identity) ++
      [(call.identity, allowedTimes log call.identity call.horizon ++ [call.now])])
    (hget : ∀ identity, table'.get identity =
      if identity = call.identity then some (allowedTimes log call.identity call.horizon ++ [call.now])
      else table.get identity) : Tracks (log ++ [⟨call, true⟩]) call.now table' := by
  constructor
  · have hcounted := h.counted_horizon call.identity
    have hqueue : ((table.get call.identity).getD []).Pairwise (· ≤ ·) ∧
        ∀ t ∈ (table.get call.identity).getD [], t ≤ call.now := by
      cases hbucket : table.get call.identity with
      | none => exact ⟨List.Pairwise.nil, fun t ht => absurd ht List.not_mem_nil⟩
      | some times =>
        have hqueued := h.recent.queued _ (OrderedDict.get_eq_some_iff.1 hbucket)
        exact ⟨hqueued.sorted, hqueued.bound⟩
    rw [hitems, ← hcounted]
    exact h.recent.pushed (le_refl _) call.identity (hqueue.1.filter _)
      fun t ht => hqueue.2 t (List.mem_filter.1 ht).1
  · intro identity horizon hhorizon
    rw [hget, allowedTimes_append, ← h.counted identity horizon hhorizon]
    by_cases hsame : identity = call.identity
    · have hafter : call.horizon ≤ horizon := hhorizon
      rw [if_pos hsame, hsame, Option.getD_some, List.filter_append, filter_allowedTimes hafter,
        h.counted call.identity horizon hhorizon]
      refine congrArg (allowedTimes log call.identity horizon ++ ·) ?_
      by_cases hin : horizon ≤ call.now <;> simp [allowedTimes, hin]
    · rw [if_neg hsame]
      simp [allowedTimes, Ne.symm hsame]

theorem admitCall_present (h : Tracks log call.now table) {bucket : List ℚ}
    (hget : table.get call.identity = some bucket) (hlive : ∃ last ∈ bucket.getLast?, call.horizon ≤ last) :
    ((admitCall call bucket table).1 = true ↔
        ((allowedTimes log call.identity call.horizon).length : ℤ) < call.limit) ∧
      Tracks (log ++ [⟨call, (admitCall call bucket table).1⟩]) call.now (admitCall call bucket table).2 := by
  have hmem := OrderedDict.get_eq_some_iff.1 hget
  have htimes : bucket.dropWhile (· < call.horizon) = allowedTimes log call.identity call.horizon := by
    rw [dropWhile_eq_filter (h.recent.queued _ hmem).sorted, ← h.counted_horizon, hget]
    rfl
  unfold admitCall
  dsimp only
  rw [htimes]
  split
  next hfull =>
    refine ⟨⟨nofun, fun hless => absurd hfull (not_le.2 hless)⟩, ?_, fun identity horizon hhorizon => ?_⟩
    · have hkey : call.identity ∈ table.items.map Prod.fst := List.mem_map_of_mem (f := Prod.fst) hmem
      have htrimmed := h.recent.trimmed table.nodup hmem hlive
      rw [← dropWhile_eq_filter (h.recent.queued _ hmem).sorted, htimes] at htrimmed
      rw [OrderedDict.set, dif_pos hkey]
      exact htrimmed
    · rw [allowedTimes_refused, ← h.counted identity horizon hhorizon, OrderedDict.get_set]
      split
      next hsame =>
        have hafter : call.horizon ≤ horizon := hhorizon
        rw [hsame, Option.getD_some, filter_allowedTimes hafter, h.counted _ _ hhorizon]
      · rfl
  next hroom =>
    refine ⟨⟨fun _ => not_le.1 hroom, fun _ => rfl⟩, tracks_pushed h (OrderedDict.items_moveToEnd_set _ _ _) ?_⟩
    intro identity
    rw [OrderedDict.get_moveToEnd, OrderedDict.get_set]

theorem admitCall_absent (h : Tracks log call.now table) (hget : table.get call.identity = none)
    (hpositive : 0 < call.limit) : allowedTimes log call.identity call.horizon = [] ∧
      (admitCall call [] (table.set call.identity [])).1 = true ∧
      Tracks (log ++ [⟨call, true⟩]) call.now (admitCall call [] (table.set call.identity [])).2 := by
  have hnone : allowedTimes log call.identity call.horizon = [] := by
    rw [← h.counted_horizon, hget]
    rfl
  have hcall : admitCall call [] (table.set call.identity []) =
      (true, ((table.set call.identity []).set call.identity [call.now]).moveToEnd call.identity) := by
    unfold admitCall
    exact if_neg (not_le.2 hpositive)
  rw [hcall]
  refine ⟨hnone, rfl, tracks_pushed h ?_ fun identity => ?_⟩
  · rw [OrderedDict.items_moveToEnd_set, hnone]
    refine congrArg (· ++ _) ?_
    rw [OrderedDict.items_set_of_notMem (OrderedDict.get_eq_none_iff.1 hget), List.filter_append]
    simp
  · rw [OrderedDict.get_moveToEnd, OrderedDict.get_set, hnone]
    split
    · rfl
    next hne => rw [OrderedDict.get_set, if_neg hne]

/-- One call raises nothing, and is allowed exactly if it is within its limit and there is room. -/
theorem localRateLimit_spec (cap : ℕ) (h : Tracks log latest table) (hnow : latest ≤ call.now) :
    ∃ allowed table', localRateLimit cap call table = .ok (allowed, table') ∧
      (allowed = true ↔ Admits cap log call) ∧ Tracks (log ++ [⟨call, allowed⟩]) call.now table' := by
  have ⟨expired, hok, htracks, hlive, hkeys⟩ := expire_tracks h hnow
  have hlength := length_items_eq_card hkeys
  have hstep : localRateLimit cap call table = match expired.get call.identity with
      | none =>
        if cap ≤ expired.items.length ∨ call.limit ≤ 0 then .ok (false, expired)
        else .ok (admitCall call [] (expired.set call.identity []))
      | some bucket => .ok (admitCall call bucket expired) := by
    unfold localRateLimit
    rw [hok]
    rfl
  rw [hstep]
  cases hget : expired.get call.identity with
  | some bucket =>
    have hmem := OrderedDict.get_eq_some_iff.1 hget
    have ⟨hiff, hafter⟩ := admitCall_present htracks hget (hlive _ hmem)
    have hcounted : allowedTimes log call.identity call.horizon ≠ [] :=
      mem_liveIdentities.1 ((hkeys _).1 (by rw [hget]; rfl))
    exact ⟨_, _, rfl, hiff.trans ⟨fun hless => ⟨hless, .inl hcounted⟩, And.left⟩, hafter⟩
  | none =>
    have hnone : allowedTimes log call.identity call.horizon = [] := by
      rw [← htracks.counted_horizon, hget]
      rfl
    dsimp only
    by_cases hrefused : cap ≤ expired.items.length ∨ call.limit ≤ 0
    · rw [if_pos hrefused]
      refine ⟨false, expired, rfl, ⟨nofun, fun ⟨hless, hroom⟩ => ?_⟩, htracks.recent,
        fun identity horizon hhorizon => ?_⟩
      · rw [hnone] at hless
        rcases hrefused with hfull | hlimit
        · rw [hlength] at hfull
          rcases hroom with hsome | hroom
          · exact absurd hnone hsome
          · omega
        · simp only [List.length_nil, Nat.cast_zero] at hless
          omega
      · rw [allowedTimes_refused]
        exact htracks.counted identity horizon hhorizon
    · rw [if_neg hrefused]
      rw [not_or, not_le, not_le, hlength] at hrefused
      have ⟨_, hallowed, hafter⟩ := admitCall_absent htracks hget hrefused.2
      refine ⟨true, _, congrArg Except.ok (Prod.ext hallowed rfl),
        ⟨fun _ => ⟨?_, .inr hrefused.1⟩, fun _ => rfl⟩, hafter⟩
      rw [hnone]
      exact hrefused.2

/-! ### Runs -/

theorem tracks_empty (latest : ℚ) : Tracks [] latest .empty where
  recent := ⟨fun _ hmem => absurd hmem List.not_mem_nil, List.Pairwise.nil⟩
  counted _ _ _ := rfl

/-- Every call of a log has been answered as it should. -/
def Decided (cap : ℕ) (log : List RateEntry) : Prop :=
  ∀ before e after, log = before ++ e :: after → (e.allowed = true ↔ Admits cap before e.call)

theorem Decided.snoc (h : Decided cap log) {e : RateEntry} (he : e.allowed = true ↔ Admits cap log e.call) :
    Decided cap (log ++ [e]) := by
  intro before e' after heq
  rcases List.append_eq_append_iff.1 heq with ⟨rest, hbefore, hrest⟩ | ⟨rest, hlog, hrest⟩
  · cases rest with
    | nil =>
      rw [List.nil_append] at hrest
      injection hrest with hsame _
      rw [List.append_nil] at hbefore
      rw [← hsame, hbefore]
      exact he
    | cons first rest =>
      injection hrest with _ hnil
      exact absurd hnil.symm (List.append_ne_nil_of_right_ne_nil _ (List.cons_ne_nil _ _))
  · cases rest with
    | nil =>
      rw [List.nil_append] at hrest
      injection hrest with hsame _
      rw [List.append_nil] at hlog
      rw [hsame, ← hlog]
      exact he
    | cons first rest =>
      injection hrest with hsame _
      rw [← hsame] at hlog
      exact h before e' rest hlog

/-- A run in the order of the clock raises nothing, and answers every call as it should. -/
theorem tracks_run {calls : List RateCall} (h : Tracks log latest table) (hdecided : Decided cap log)
    (hclock : (latest :: calls.map RateCall.now).Pairwise (· ≤ ·)) :
    ∃ entries table', runRateCalls cap calls table = .ok (entries, table') ∧ entries.map RateEntry.call = calls ∧
      Tracks (log ++ entries) ((calls.map RateCall.now).getLast?.getD latest) table' ∧
      Decided cap (log ++ entries) := by
  induction calls generalizing log latest table with
  | nil =>
    refine ⟨[], table, rfl, rfl, ?_, ?_⟩
    · rw [List.append_nil]
      exact h
    · rw [List.append_nil]
      exact hdecided
  | cons call calls ih =>
    rw [List.map_cons] at hclock
    have ⟨hfirst, hrest⟩ := List.pairwise_cons.1 hclock
    have ⟨allowed, table', hok, hiff, htracks⟩ :=
      localRateLimit_spec cap h (hfirst call.now List.mem_cons_self)
    have ⟨entries, table'', hrun, hcalls, hafter, hall⟩ := ih htracks (hdecided.snoc hiff) hrest
    refine ⟨⟨call, allowed⟩ :: entries, table'', ?_, ?_, ?_, ?_⟩
    · rw [runRateCalls, hok]
      show (do
        let (log, table) ← runRateCalls cap calls table'
        pure (⟨call, allowed⟩ :: log, table) : Except IndexError (List RateEntry × RateTable)) = _
      rw [hrun]
      rfl
    · rw [List.map_cons, hcalls]
    · rw [List.append_assoc, List.singleton_append] at hafter
      rw [List.map_cons, List.getLast?_cons]
      exact hafter
    · rw [List.append_assoc, List.singleton_append] at hall
      exact hall

/-! ### Windows -/

/-- The calls of an identity that were allowed between two times. -/
def allowedWithin (log : List RateEntry) (identity : RateIdentity) (first : ℚ) (inside : ℚ → Bool) : List RateEntry :=
  log.filter fun e => e.allowed && e.call.identity = identity && first ≤ e.call.now && inside e.call.now

def FixedLimit (log : List RateEntry) (identity : RateIdentity) (limit : ℤ) : Prop :=
  ∀ e ∈ log, e.call.identity = identity → e.call.limit = limit

/-- Of the calls between two times sixty seconds apart no more than the limit are allowed. -/
theorem length_allowedWithin_le (h : Decided cap log) {limit : ℤ} (hfixed : FixedLimit log identity limit)
    (first : ℚ) : ((allowedWithin log identity first (· ≤ first + 60)).length : ℤ) ≤ max limit 0 := by
  rcases List.eq_nil_or_concat (allowedWithin log identity first (· ≤ first + 60)) with hnil | ⟨others, e, hconcat⟩
  · rw [hnil]
    exact le_max_right limit 0
  · rw [List.concat_eq_append] at hconcat
    -- the last of them has seen the others in its window
    have ⟨front, rest, hlog, hfront, hrest⟩ := List.filter_eq_append_iff.1 hconcat
    have ⟨skipped, after, hsplit, hskipped, hinside, _⟩ := List.filter_eq_cons_iff.1 hrest
    simp only [Bool.and_eq_true, decide_eq_true_eq] at hinside
    have heq : log = (front ++ skipped) ++ e :: after := by rw [hlog, hsplit, List.append_assoc]
    have hadmits := ((h _ _ _ heq).1 hinside.1.1.1).1
    have hlimit : e.call.limit = limit :=
      hfixed e (by rw [heq]; exact List.mem_append_right _ List.mem_cons_self) hinside.1.1.2
    have hothers : others.length ≤ (allowedTimes (front ++ skipped) e.call.identity e.call.horizon).length := by
      rw [← hfront, allowedTimes, List.length_map, List.filter_append, List.length_append,
        ← List.countP_eq_length_filter, ← List.countP_eq_length_filter]
      refine (List.countP_mono_left fun x _ hx => ?_).trans (Nat.le_add_right _ _)
      simp only [Bool.and_eq_true, decide_eq_true_eq] at hx ⊢
      have hhorizon : e.call.horizon = e.call.now - 60 := rfl
      exact ⟨⟨hx.1.1.1, hx.1.1.2.trans hinside.1.1.2.symm⟩, by linarith [hx.1.2, hinside.2]⟩
    rw [hconcat, List.length_append, List.length_singleton]
    rw [hlimit] at hadmits
    have hle := le_max_left limit 0
    omega

/-- What the limiter promises of a run, given its answers and the table it leaves. -/
structure SlidingWindow (cap : ℕ) (log : List RateEntry) (table : RateTable) : Prop where
  decided : Decided cap log
  bounded : ∀ identity limit, FixedLimit log identity limit → ∀ first,
    ((allowedWithin log identity first (· < first + 60)).length : ℤ) ≤ max limit 0
  again : ∀ before e between e' after, log = before ++ e :: (between ++ e' :: after) →
    e'.call.identity = e.call.identity → FixedLimit log e.call.identity e.call.limit →
    e.call.limit ≤ ((allowedTimes before e.call.identity e.call.horizon).length : ℤ) →
    (∀ x ∈ between, x.call.identity = e.call.identity → x.allowed = false) →
    (∃ t ∈ allowedTimes before e.call.identity e.call.horizon, t < e'.call.horizon) →
    (allowedTimes before e.call.identity e'.call.horizon ≠ [] ∨
      (liveIdentities (before ++ e :: between) e'.call.horizon).card < cap) → e'.allowed = true
  kept : ∀ e ∈ log.getLast?, ∀ identity, allowedTimes log identity e.call.horizon ≠ [] →
    (table.get identity).isSome = true

theorem bounded_of_decided (h : Decided cap log) {limit : ℤ} (hfixed : FixedLimit log identity limit) (first : ℚ) :
    ((allowedWithin log identity first (· < first + 60)).length : ℤ) ≤ max limit 0 := by
  refine le_trans (Int.ofNat_le.2 ?_) (length_allowedWithin_le h hfixed first)
  rw [allowedWithin, allowedWithin, ← List.countP_eq_length_filter, ← List.countP_eq_length_filter]
  refine List.countP_mono_left fun x _ hx => ?_
  simp only [Bool.and_eq_true, decide_eq_true_eq] at hx ⊢
  exact ⟨hx.1, hx.2.le⟩

theorem again_of_decided (h : Decided cap log) (hclock : (log.map (·.call.now)).Pairwise (· ≤ ·))
    {before between after : List RateEntry} {e e' : RateEntry} (hlog : log = before ++ e :: (between ++ e' :: after))
    (hsame : e'.call.identity = e.call.identity) (hfixed : FixedLimit log e.call.identity e.call.limit)
    (hfull : e.call.limit ≤ (allowedTimes before e.call.identity e.call.horizon).length)
    (hbetween : ∀ x ∈ between, x.call.identity = e.call.identity → x.allowed = false)
    (hexpired : ∃ t ∈ allowedTimes before e.call.identity e.call.horizon, t < e'.call.horizon)
    (hroom : allowedTimes before e.call.identity e'.call.horizon ≠ [] ∨
      (liveIdentities (before ++ e :: between) e'.call.horizon).card < cap) : e'.allowed = true := by
  have hsplit : log = (before ++ e :: between) ++ e' :: after := by rw [hlog, List.append_assoc]; rfl
  have hrefused : e.allowed = false := by
    rw [← Bool.not_eq_true, h _ _ _ hlog]
    exact fun hadmits => absurd hadmits.1 (not_lt.2 hfull)
  have hnothing : ∀ horizon, allowedTimes (e :: between) e.call.identity horizon = [] := by
    intro horizon
    rw [allowedTimes, List.map_eq_nil_iff, List.filter_eq_nil_iff]
    intro x hx hcounts
    simp only [Bool.and_eq_true, decide_eq_true_eq] at hcounts
    have hnot : x.allowed = false := by
      rcases List.mem_cons.1 hx with heq | hx
      · rw [heq, hrefused]
      · exact hbetween x hx hcounts.1.2
    rw [hnot] at hcounts
    exact Bool.false_ne_true hcounts.1.1
  rw [hlog, List.map_append, List.pairwise_append] at hclock
  have hlater : e.call.now ≤ e'.call.now := by
    refine (List.pairwise_cons.1 hclock.2.1).1 _ (List.mem_map_of_mem (f := fun x : RateEntry => x.call.now) ?_)
    exact List.mem_append_right _ List.mem_cons_self
  have hhorizons : e.call.horizon ≤ e'.call.horizon := sub_le_sub_right hlater 60
  have hfewer : (allowedTimes before e.call.identity e'.call.horizon).length <
      (allowedTimes before e.call.identity e.call.horizon).length := by
    have ⟨t, ht, hlt⟩ := hexpired
    rw [← filter_allowedTimes hhorizons]
    exact List.length_filter_lt_length_iff_exists.2 ⟨t, ht, by simpa using hlt⟩
  have hbound : ((allowedTimes before e.call.identity e.call.horizon).length : ℤ) ≤ max e.call.limit 0 := by
    refine le_trans (Int.ofNat_le.2 ?_) (length_allowedWithin_le h hfixed e.call.horizon)
    rw [hlog, allowedWithin, List.filter_append, List.length_append, allowedTimes, List.length_map,
      ← List.countP_eq_length_filter, ← List.countP_eq_length_filter]
    refine (List.countP_mono_left fun x hx hcounts => ?_).trans (Nat.le_add_right _ _)
    simp only [Bool.and_eq_true, decide_eq_true_eq] at hcounts ⊢
    have hle := hclock.2.2 _ (List.mem_map_of_mem (f := fun x : RateEntry => x.call.now) hx) _ List.mem_cons_self
    have hhorizon : e.call.horizon = e.call.now - 60 := rfl
    exact ⟨hcounts, by linarith⟩
  have hcounted : allowedTimes (before ++ e :: between) e'.call.identity e'.call.horizon =
      allowedTimes before e.call.identity e'.call.horizon := by
    rw [hsame, allowedTimes_append, hnothing, List.append_nil]
  have hlimit : e'.call.limit = e.call.limit :=
    hfixed e' (by rw [hsplit]; exact List.mem_append_right _ List.mem_cons_self) hsame
  refine (h _ _ _ hsplit).2 ⟨?_, ?_⟩
  · rw [hcounted, hlimit]
    rcases le_total 0 e.call.limit with hpos | hneg
    · rw [max_eq_left hpos] at hbound
      omega
    · rw [max_eq_right hneg] at hbound
      omega
  · rw [hcounted]
    exact hroom

/-- A run of calls in the order of the clock raises nothing and is a sliding window. -/
theorem sliding_window (cap : ℕ) (calls : List RateCall) (hclock : (calls.map RateCall.now).Pairwise (· ≤ ·)) :
    ∃ log table, runRateCalls cap calls .empty = .ok (log, table) ∧ log.map RateEntry.call = calls ∧
      SlidingWindow cap log table := by
  have hfirst : ((calls.map RateCall.now).head?.getD 0 :: calls.map RateCall.now).Pairwise (· ≤ ·) := by
    cases calls with
    | nil => exact List.pairwise_singleton _ _
    | cons call calls =>
      refine List.pairwise_cons.2 ⟨fun t ht => ?_, hclock⟩
      rcases List.mem_cons.1 ht with heq | ht
      · exact heq.symm.le
      · exact (List.pairwise_cons.1 hclock).1 t ht
  have hnone : Decided cap [] := fun before e after heq => by simp at heq
  have ⟨log, table, hrun, hcalls, htracks, hdecided⟩ := tracks_run (tracks_empty _) hnone hfirst
  rw [List.nil_append] at htracks hdecided
  have hsorted : (log.map (·.call.now)).Pairwise (· ≤ ·) := by
    rw [← hcalls, List.map_map] at hclock
    exact hclock
  refine ⟨log, table, hrun, hcalls, hdecided, fun identity limit hfixed => bounded_of_decided hdecided hfixed, ?_, ?_⟩
  · exact fun before e between e' after hlog => again_of_decided hdecided hsorted hlog
  · intro e he identity hlive
    have hlast : (calls.map RateCall.now).getLast? = some e.call.now := by
      rw [← hcalls, List.map_map, List.getLast?_map, Option.mem_def.1 he]
      rfl
    rw [hlast, Option.getD_some] at htracks
    cases hget : table.get identity with
    | some bucket => rfl
    | none =>
      rw [← htracks.counted_horizon, hget] at hlive
      exact absurd rfl hlive

def loweredLimit : List RateCall :=
  [⟨0, "alice", "retry", 3⟩, ⟨1, "alice", "retry", 3⟩, ⟨2, "alice", "retry", 3⟩, ⟨3, "alice", "retry", 1⟩,
    ⟨61, "alice", "retry", 1⟩]

/-- The fourth call is refused for the first three.  The fifth comes when the oldest of these has left the window, in
a table with no other identity, and it is refused too. -/
theorem refused_after_oldest : (runRateCalls RATE_BUCKET_CAP loweredLimit .empty).toOption.map
        (fun run => (run.1.map RateEntry.allowed, allowedTimes (run.1.take 3) ("alice", "retry") (3 - 60),
          run.2.items.map Prod.fst)) =
      some ([true, true, true, false, false], [0, 1, 2], [("alice", "retry")]) ∧ (0 : ℚ) < 61 - 60 :=
  ⟨by decide +kernel, by norm_num⟩

theorem sliding_window_lowered_limit : ∃ log table,
    runRateCalls RATE_BUCKET_CAP loweredLimit .empty = .ok (log, table) ∧ log.map RateEntry.call = loweredLimit ∧
      SlidingWindow RATE_BUCKET_CAP log table :=
  sliding_window RATE_BUCKET_CAP loweredLimit (by decide +kernel)

end Phlo.Controls
