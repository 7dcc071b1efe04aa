import Mathlib
import Phlo.Library.OrderedDict

/-!
# Tables of queues in the order of recency

Each key has a queue of times; the keys are in the order of the last times of their queues, so that a loop from the
front that stops at the first key with a recent time has dropped all keys without one.

* `expire_spec` — what such a loop drops;
* `Recent.trimmed`, `Recent.pushed` — what becomes of the table when a queue loses old times or gets a new one.
-/

namespace Phlo.Library

variable {κ T : Type} [DecidableEq κ] [LinearOrder T]

/-! ### The end of an ordered dictionary -/

/-- `OrderedDict.move_to_end` -/
def OrderedDict.moveToEnd {α : Type} (d : OrderedDict κ α) (k : κ) : OrderedDict κ α :=
  match d.get k with
  | some a => (d.erase k).set k a
  | none => d

theorem OrderedDict.items_set_of_notMem {α : Type} {d : OrderedDict κ α} {k : κ} (h : k ∉ d.items.map Prod.fst)
    (a : α) : (d.set k a).items = d.items ++ [(k, a)] := by
  rw [OrderedDict.set, dif_neg h]

theorem OrderedDict.items_moveToEnd_set {α : Type} (d : OrderedDict κ α) (k : κ) (a : α) :
    ((d.set k a).moveToEnd k).items = (d.items.filter fun item => item.1 ≠ k) ++ [(k, a)] := by
  have hget : (d.set k a).get k = some a := by rw [OrderedDict.get_set, if_pos rfl]
  have hfree : k ∉ ((d.set k a).erase k).items.map Prod.fst := by
    rw [← OrderedDict.get_eq_none_iff, OrderedDict.get_erase, if_pos rfl]
  have hothers : ((d.set k a).erase k).items = d.items.filter fun item => item.1 ≠ k := by
    show (d.set k a).items.filter _ = _
    rw [OrderedDict.set]
    split
    next hmem =>
      show (OrderedDict.replaced k a d.items).filter _ = _
      rw [OrderedDict.replaced, List.filter_map]
      have hsame : d.items.filter ((fun item => decide (item.1 ≠ k)) ∘
          fun item => if item.1 = k then (k, a) else item) = d.items.filter fun item => item.1 ≠ k := by
        refine List.filter_congr fun item _ => ?_
        show decide ((if item.1 = k then (k, a) else item).1 ≠ k) = _
        split
        next heq => simp [heq]
        · rfl
      rw [hsame]
      have hkept : ∀ item ∈ d.items.filter (fun item => decide (item.1 ≠ k)),
          (if item.1 = k then (k, a) else item) = item :=
        fun item hmem => if_neg (of_decide_eq_true (List.mem_filter.1 hmem).2)
      exact (List.map_congr_left hkept).trans (List.map_id _)
    next hnew =>
      show (d.items ++ [(k, a)]).filter _ = _
      rw [List.filter_append]
      simp
  rw [OrderedDict.moveToEnd, hget, OrderedDict.items_set_of_notMem hfree, hothers]

theorem OrderedDict.get_moveToEnd {α : Type} (d : OrderedDict κ α) (k k' : κ) :
    (d.moveToEnd k).get k' = d.get k' := by
  unfold moveToEnd
  split
  next a ha =>
    rw [OrderedDict.get_set]
    split
    next heq => rw [heq, ha]
    next hne => rw [OrderedDict.get_erase, if_neg hne]
  · rfl

/-! ### Queues -/

variable {times : List T} {latest : T}

theorem dropWhile_eq_filter (h : times.Pairwise (· ≤ ·)) (horizon : T) :
    times.dropWhile (· < horizon) = times.filter (horizon ≤ ·) := by
  induction times with
  | nil => rfl
  | cons t times ih =>
    have ⟨hfirst, hrest⟩ := List.pairwise_cons.1 h
    by_cases ht : t < horizon
    · rw [List.dropWhile_cons_of_pos (by simpa using ht), List.filter_cons_of_neg (by simpa using ht), ih hrest]
    · have hle : horizon ≤ t := not_lt.1 ht
      rw [List.dropWhile_cons_of_neg (by simpa using hle), List.filter_cons_of_pos (by simpa using hle),
        List.filter_eq_self.2 fun u hu => by simpa using hle.trans (hfirst u hu)]

theorem le_getLast (h : times.Pairwise (· ≤ ·)) {last : T} (hlast : times.getLast? = some last) {t : T}
    (ht : t ∈ times) : t ≤ last := by
  have ⟨front, heq⟩ := List.getLast?_eq_some_iff.1 hlast
  rw [heq] at h ht
  rcases List.mem_append.1 ht with ht | ht
  · exact (List.pairwise_append.1 h).2.2 t ht last (List.mem_singleton.2 rfl)
  · exact (List.mem_singleton.1 ht).le

/-- A queue that is not empty, in order and not later than a time. -/
structure Queued (latest : T) (times : List T) : Prop where
  ne_nil : times ≠ []
  sorted : times.Pairwise (· ≤ ·)
  bound : ∀ t ∈ times, t ≤ latest

theorem Queued.mono {latest' : T} (h : Queued latest times) (hle : latest ≤ latest') :
    Queued latest' times := ⟨h.ne_nil, h.sorted, fun t ht => (h.bound t ht).trans hle⟩

def EndsBefore (item item' : κ × List T) : Prop := ∀ t ∈ item.2.getLast?, ∀ u ∈ item'.2.getLast?, t ≤ u

/-- No queue is empty, and the keys are in the order of the last times. -/
structure Recent (latest : T) (items : List (κ × List T)) : Prop where
  queued : ∀ item ∈ items, Queued latest item.2
  ordered : items.Pairwise EndsBefore

omit [DecidableEq κ] in
/-! ### The keys without a recent time -/

/-- What a look at the last time of an empty queue raises. -/
inductive IndexError where
  | indexError

/-- Drop keys from the front until one has a recent last time. -/
def expireFrom (horizon : T) : List (κ × List T) → OrderedDict κ (List T) →
    Except IndexError (OrderedDict κ (List T))
  | [], table => .ok table
  | (oldest, times) :: rest, table =>
    match times.getLast? with
    | none => .error .indexError
    | some last => if horizon ≤ last then .ok table else expireFrom horizon rest (table.erase oldest)

def expire (horizon : T) (table : OrderedDict κ (List T)) : Except IndexError (OrderedDict κ (List T)) :=
  expireFrom horizon table.items table

/-- The keys without a recent time are dropped, and no others. -/
theorem expire_spec {table : OrderedDict κ (List T)} (horizon : T) (h : Recent latest table.items) :
    ∃ table', expire horizon table = .ok table' ∧ ∃ gone, table.items = gone ++ table'.items ∧
      (∀ item ∈ gone, ∀ t ∈ item.2, t < horizon) ∧ ∀ item ∈ table'.items, ∃ last ∈ item.2.getLast?, horizon ≤ last := by
  unfold expire
  generalize hitems : table.items = items
  rw [hitems] at h
  induction items generalizing table with
  | nil =>
    refine ⟨table, rfl, [], by rw [hitems]; rfl, fun item hmem => absurd hmem List.not_mem_nil, ?_⟩
    rw [hitems]
    exact fun item hmem => absurd hmem List.not_mem_nil
  | cons item rest ih =>
    have hqueued := h.queued item List.mem_cons_self
    have ⟨hbefore, hrest⟩ := List.pairwise_cons.1 h.ordered
    cases hlast : item.2.getLast? with
    | none => exact absurd (List.getLast?_eq_none_iff.1 hlast) hqueued.ne_nil
    | some last =>
      have hstep : expireFrom horizon (item :: rest) table =
          if horizon ≤ last then .ok table else expireFrom horizon rest (table.erase item.1) := by
        rw [expireFrom, hlast]
      by_cases hrecent : horizon ≤ last
      · refine ⟨table, by rw [hstep, if_pos hrecent], [], by rw [hitems]; rfl,
          fun item hmem => absurd hmem List.not_mem_nil, fun item' hmem => ?_⟩
        rw [hitems] at hmem
        rcases List.mem_cons.1 hmem with heq | hmem
        · rw [heq]
          exact ⟨last, hlast, hrecent⟩
        · have hne := (h.queued item' (List.mem_cons_of_mem _ hmem)).ne_nil
          cases hlast' : item'.2.getLast? with
          | none => exact absurd (List.getLast?_eq_none_iff.1 hlast') hne
          | some last' => exact ⟨last', rfl, hrecent.trans (hbefore item' hmem last hlast last' hlast')⟩
      · have herased : (table.erase item.1).items = rest := by
          have hnodup := table.nodup
          rw [hitems, List.map_cons, List.nodup_cons] at hnodup
          show table.items.filter (fun item' => item'.1 ≠ item.1) = rest
          rw [hitems, List.filter_cons_of_neg (by simp)]
          refine List.filter_eq_self.2 fun item' hmem => decide_eq_true fun heq => hnodup.1 ?_
          rw [← heq]
          exact List.mem_map_of_mem hmem
        have ⟨table', hok, gone, hsplit, hgone, hlive⟩ :=
          ih ⟨fun item' hmem => h.queued item' (List.mem_cons_of_mem _ hmem), hrest⟩ herased
        refine ⟨table', by rw [hstep, if_neg hrecent, hok], item :: gone, by rw [hsplit]; rfl, ?_, hlive⟩
        intro item' hmem t ht
        rcases List.mem_cons.1 hmem with heq | hmem
        · rw [heq] at ht
          exact (le_getLast hqueued.sorted hlast ht).trans_lt (not_le.1 hrecent)
        · exact hgone item' hmem t ht

/-! ### What becomes of the table -/

/-- A queue that gets a new time moves to the end. -/
theorem Recent.pushed {now : T} {items : List (κ × List T)} (h : Recent latest items) (hnow : latest ≤ now) (k : κ)
    (hsorted : times.Pairwise (· ≤ ·)) (hbound : ∀ t ∈ times, t ≤ latest) :
    Recent now ((items.filter fun item => item.1 ≠ k) ++ [(k, times ++ [now])]) where
  queued item hmem := by
    rcases List.mem_append.1 hmem with hmem | hmem
    · exact (h.queued item (List.mem_filter.1 hmem).1).mono hnow
    · rw [List.mem_singleton.1 hmem]
      refine ⟨List.append_ne_nil_of_right_ne_nil _ (List.cons_ne_nil _ _), ?_, fun t ht => ?_⟩
      · refine List.pairwise_append.2 ⟨hsorted, List.pairwise_singleton _ _, fun t ht u hu => ?_⟩
        rw [List.mem_singleton.1 hu]
        exact (hbound t ht).trans hnow
      · rcases List.mem_append.1 ht with ht | ht
        · exact (hbound t ht).trans hnow
        · exact (List.mem_singleton.1 ht).le
  ordered := by
    refine List.pairwise_append.2 ⟨h.ordered.filter _, List.pairwise_singleton _ _, fun item hmem item' hmem' => ?_⟩
    rw [List.mem_singleton.1 hmem']
    intro t ht u hu
    have hlast : (times ++ [now]).getLast? = some now := List.getLast?_concat
    rw [hlast] at hu
    rw [← Option.some.inj hu]
    exact ((h.queued item (List.mem_filter.1 hmem).1).bound t (List.mem_of_getLast? ht)).trans hnow

/-- A queue with a recent time may lose its old ones where it is. -/
theorem Recent.trimmed {horizon : T} {items : List (κ × List T)} (h : Recent latest items) {k : κ}
    (hnodup : (items.map Prod.fst).Nodup) (hmem : (k, times) ∈ items)
    (hrecent : ∃ last ∈ times.getLast?, horizon ≤ last) :
    Recent latest (OrderedDict.replaced k (times.filter (horizon ≤ ·)) items) := by
  have ⟨last, hlast, hle⟩ := hrecent
  have hsame : (times.filter (horizon ≤ ·)).getLast? = times.getLast? := by
    have ⟨front, heq⟩ := List.getLast?_eq_some_iff.1 hlast
    rw [heq, List.filter_append, List.filter_cons_of_pos (by simpa using hle), List.filter_nil, List.getLast?_concat,
      List.getLast?_concat]
  have heach : ∀ item ∈ items, Queued latest (if item.1 = k then (k, times.filter (horizon ≤ ·)) else item).2 ∧
      (if item.1 = k then (k, times.filter (horizon ≤ ·)) else item).2.getLast? = item.2.getLast? := by
    intro item hitem
    split
    next heq =>
      have hitem' : item = (k, times) := List.inj_on_of_nodup_map hnodup hitem hmem heq
      have hqueued := h.queued item hitem
      rw [hitem'] at hqueued ⊢
      refine ⟨⟨fun hnil => ?_, hqueued.sorted.filter _, fun t ht => hqueued.bound t (List.mem_filter.1 ht).1⟩, hsame⟩
      have hnone : times.filter (horizon ≤ ·) = [] := hnil
      rw [hnone, hlast] at hsame
      cases hsame
    · exact ⟨h.queued item hitem, rfl⟩
  constructor
  · intro item hitem
    have ⟨item', hitem', heq⟩ := List.mem_map.1 hitem
    rw [← heq]
    exact (heach item' hitem').1
  · rw [OrderedDict.replaced, List.pairwise_map]
    refine h.ordered.imp_of_mem fun {item item'} hitem hitem' hends => ?_
    intro t ht u hu
    rw [(heach item hitem).2] at ht
    rw [(heach item' hitem').2] at hu
    exact hends t ht u hu

end Phlo.Library
