import Mathlib.Algebra.GroupWithZero.Nat
import Mathlib.Data.List.Nodup

/-!
# Dictionaries in insertion order

A dictionary is the list of its items, no key twice, in the order the keys were first set.  Setting a key
again replaces its value in place; `erase` takes an item out.

* `get_set`, `get_erase` — what a lookup finds afterwards;
* `get_setAll` — of several items under one key the last one is found;
* `ofList_items` — a dictionary is made of its items;
* `get_eq_some_iff`, `mem_values` — lookups, items and values.
-/

namespace Phlo.Library

/-- A dictionary with its items in the order of insertion. -/
structure OrderedDict (κ α : Type*) where
  items : List (κ × α)
  nodup : (items.map Prod.fst).Nodup

namespace OrderedDict

variable {κ α : Type*}

def empty : OrderedDict κ α := ⟨[], List.nodup_nil⟩

def values (d : OrderedDict κ α) : List α := d.items.map Prod.snd

@[ext] theorem ext {d d' : OrderedDict κ α} (h : d.items = d'.items) : d = d' := by
  obtain ⟨items, hnodup⟩ := d
  obtain ⟨items', hnodup'⟩ := d'
  obtain rfl : items = items' := h
  rfl

variable [DecidableEq κ]

def get (d : OrderedDict κ α) (k : κ) : Option α := (d.items.find? fun item => item.1 = k).map Prod.snd

def replaced (k : κ) (a : α) (items : List (κ × α)) : List (κ × α) :=
  items.map fun item => if item.1 = k then (k, a) else item

theorem map_fst_replaced (k : κ) (a : α) (items : List (κ × α)) :
    (replaced k a items).map Prod.fst = items.map Prod.fst := by
  rw [replaced, List.map_map]
  refine List.map_congr_left fun item _ => ?_
  show (if item.1 = k then (k, a) else item).1 = item.1
  split
  next heq => exact heq.symm
  · rfl

/-- `d[k] = a` -/
def set (d : OrderedDict κ α) (k : κ) (a : α) : OrderedDict κ α :=
  if h : k ∈ d.items.map Prod.fst then
    ⟨replaced k a d.items, by rw [map_fst_replaced]; exact d.nodup⟩
  else
    ⟨d.items ++ [(k, a)], by
      rw [List.map_append, List.map_singleton]
      exact List.nodup_append_comm.1 (List.nodup_cons.2 ⟨h, d.nodup⟩)⟩

/-- Take the item of a key out. -/
def erase (d : OrderedDict κ α) (k : κ) : OrderedDict κ α :=
  ⟨d.items.filter fun item => item.1 ≠ k, d.nodup.sublist (List.filter_sublist.map Prod.fst)⟩

def setAll (d : OrderedDict κ α) (items : List (κ × α)) : OrderedDict κ α :=
  items.foldl (fun d item => d.set item.1 item.2) d

/-- `dict(items)` -/
def ofList (items : List (κ × α)) : OrderedDict κ α := empty.setAll items

def lastOf (k : κ) (items : List (κ × α)) : Option α :=
  (items.reverse.find? fun item => item.1 = k).map Prod.snd

variable {d : OrderedDict κ α} {k : κ} {a : α}

theorem get_eq_some_iff : d.get k = some a ↔ (k, a) ∈ d.items := by
  constructor
  · intro h
    obtain ⟨item, hfind, rfl⟩ := Option.map_eq_some_iff.1 h
    have hkey : item.1 = k := by simpa using List.find?_some hfind
    rw [← hkey]
    exact List.mem_of_find?_eq_some hfind
  · intro h
    cases hfind : d.items.find? fun item => item.1 = k with
    | none => exact absurd (List.find?_eq_none.1 hfind _ h) (by simp)
    | some item =>
      have hkey : item.1 = k := by simpa using List.find?_some hfind
      have hitem := List.inj_on_of_nodup_map d.nodup (List.mem_of_find?_eq_some hfind) h hkey
      rw [get, hfind, hitem]
      rfl

theorem get_eq_none_iff : d.get k = none ↔ k ∉ d.items.map Prod.fst := by
  rw [get, Option.map_eq_none_iff, List.find?_eq_none]
  simp only [decide_eq_true_eq, List.mem_map, not_exists, not_and]

theorem mem_values : a ∈ d.values ↔ ∃ k, d.get k = some a := by
  rw [values, List.mem_map]
  constructor
  · intro h
    obtain ⟨⟨k, a'⟩, hmem, rfl⟩ := h
    exact ⟨k, get_eq_some_iff.2 hmem⟩
  · intro h
    obtain ⟨k, hk⟩ := h
    exact ⟨(k, a), get_eq_some_iff.1 hk, rfl⟩

@[simp] theorem get_empty (k : κ) : (empty : OrderedDict κ α).get k = none := rfl

variable {items : List (κ × α)}

theorem find_replaced_self (h : k ∈ items.map Prod.fst) :
    ((replaced k a items).find? fun item => item.1 = k) = some (k, a) := by
  induction items with
  | nil => cases h
  | cons item items ih =>
    rw [replaced, List.map_cons]
    by_cases hk : item.1 = k
    · rw [if_pos hk]
      exact List.find?_cons_of_pos (by simp)
    · rw [if_neg hk, List.find?_cons_of_neg (by simpa using hk)]
      exact ih ((List.mem_cons.1 h).resolve_left fun heq => hk heq.symm)

theorem find_replaced_of_ne {k' : κ} (hk : k' ≠ k) (items : List (κ × α)) :
    ((replaced k a items).find? fun item => item.1 = k') = items.find? fun item => item.1 = k' := by
  induction items with
  | nil => rfl
  | cons item items ih =>
    rw [replaced, List.map_cons]
    by_cases hitem : item.1 = k
    · have hne : item.1 ≠ k' := fun heq => hk (heq.symm.trans hitem)
      rw [if_pos hitem, List.find?_cons_of_neg (by simpa using hk.symm),
        List.find?_cons_of_neg (by simpa using hne)]
      exact ih
    · rw [if_neg hitem, List.find?_cons, List.find?_cons]
      split
      · rfl
      · exact ih

/-- What a lookup finds after a key has been set. -/
theorem get_set (d : OrderedDict κ α) (k : κ) (a : α) (k' : κ) :
    (d.set k a).get k' = if k' = k then some a else d.get k' := by
  rw [set]
  split
  next hmem =>
    split
    next heq =>
      subst heq
      show Option.map Prod.snd _ = _
      rw [find_replaced_self hmem]
      rfl
    next hne =>
      show Option.map Prod.snd _ = _
      rw [find_replaced_of_ne hne]
      rfl
  next hmem =>
    show Option.map Prod.snd ((d.items ++ [(k, a)]).find? _) = _
    rw [List.find?_append]
    split
    next heq =>
      subst heq
      have hnone : (d.items.find? fun item => item.1 = k') = none := by
        rw [List.find?_eq_none]
        intro item hitem
        simp only [decide_eq_true_eq]
        exact fun heq => hmem (List.mem_map.2 ⟨item, hitem, heq⟩)
      rw [hnone, Option.none_or, List.find?_cons_of_pos (by simp)]
      rfl
    next hne =>
      rw [List.find?_cons_of_neg (by simpa using Ne.symm hne), List.find?_nil, Option.or_none]
      rfl

theorem get_erase (d : OrderedDict κ α) (k k' : κ) : (d.erase k).get k' = if k' = k then none else d.get k' := by
  split
  next heq =>
    subst heq
    rw [get_eq_none_iff, erase, List.mem_map]
    intro h
    obtain ⟨item, hitem, hkey⟩ := h
    have hne := (List.mem_filter.1 hitem).2
    simp only [decide_eq_true_eq] at hne
    exact hne hkey
  next hne =>
    ext a
    rw [get_eq_some_iff, get_eq_some_iff, erase, List.mem_filter]
    simp [hne]

/-- A total over the values after a key has been set. -/
theorem sum_set (f : α → ℕ) (d : OrderedDict κ α) (k : κ) (a : α) :
    ((d.set k a).items.map fun item => f item.2).sum + (d.get k).elim 0 f =
      (d.items.map fun item => f item.2).sum + f a := by
  rw [set]
  split
  next hmem =>
    have hsum : ∀ items : List (κ × α), (items.map Prod.fst).Nodup → k ∈ items.map Prod.fst →
        ((replaced k a items).map fun item => f item.2).sum +
            ((items.find? fun item => item.1 = k).map Prod.snd).elim 0 f =
          (items.map fun item => f item.2).sum + f a := by
      intro items hnodup hk
      induction items with
      | nil => cases hk
      | cons item items ih =>
        obtain ⟨hnew, hnodup⟩ := List.nodup_cons.1 hnodup
        by_cases hitem : item.1 = k
        · have hrest : replaced k a items = items := by
            refine (List.map_congr_left fun other hother => ?_).trans (List.map_id items)
            refine if_neg fun hsame => hnew ?_
            rw [hitem, ← hsame]
            exact List.mem_map_of_mem hother
          rw [List.find?_cons_of_pos (by simpa using hitem)]
          show ((if item.1 = k then (k, a) else item) :: replaced k a items |>.map _).sum + f item.2 = _
          rw [if_pos hitem, hrest, List.map_cons, List.sum_cons, List.map_cons, List.sum_cons]
          show f a + _ + f item.2 = f item.2 + _ + f a
          omega
        · rw [List.find?_cons_of_neg (by simpa using hitem)]
          have hrest := ih hnodup ((List.mem_cons.1 hk).resolve_left fun heq => hitem heq.symm)
          show ((if item.1 = k then (k, a) else item) :: replaced k a items |>.map _).sum + _ = _
          rw [if_neg hitem, List.map_cons, List.sum_cons, List.map_cons, List.sum_cons]
          omega
    exact hsum d.items d.nodup hmem
  next hmem =>
    rw [get_eq_none_iff.2 hmem, List.map_append, List.sum_append]
    simp

theorem lastOf_cons (item : κ × α) (items : List (κ × α)) (k : κ) :
    lastOf k (item :: items) = (lastOf k items).or (if k = item.1 then some item.2 else none) := by
  rw [lastOf, lastOf, List.reverse_cons, List.find?_append]
  cases hlast : items.reverse.find? fun item => item.1 = k with
  | some last => rfl
  | none =>
    rw [Option.none_or, Option.map_none, Option.none_or]
    by_cases hk : k = item.1
    · rw [if_pos hk, List.find?_cons_of_pos (by simpa using hk.symm)]
      rfl
    · rw [if_neg hk, List.find?_cons_of_neg (by simpa using Ne.symm hk), List.find?_nil]
      rfl

theorem get_setAll (items : List (κ × α)) (d : OrderedDict κ α) (k : κ) :
    (d.setAll items).get k = (lastOf k items).or (d.get k) := by
  induction items generalizing d with
  | nil => rfl
  | cons item items ih =>
    rw [setAll, List.foldl_cons]
    show ((d.set item.1 item.2).setAll items).get k = _
    rw [ih, get_set, lastOf_cons, Option.or_assoc]
    split
    · rfl
    · rw [Option.none_or]

theorem mem_of_lastOf (h : lastOf k items = some a) : (k, a) ∈ items := by
  obtain ⟨item, hfind, rfl⟩ := Option.map_eq_some_iff.1 h
  have hkey : item.1 = k := by simpa using List.find?_some hfind
  rw [← hkey]
  exact List.mem_reverse.1 (List.mem_of_find?_eq_some hfind)

theorem lastOf_eq_none_iff : lastOf k items = none ↔ ∀ a, (k, a) ∉ items := by
  rw [lastOf, Option.map_eq_none_iff, List.find?_eq_none]
  constructor
  · intro h a ha
    have hne := h (k, a) (List.mem_reverse.2 ha)
    simp at hne
  · intro h item hitem
    simp only [decide_eq_true_eq]
    intro heq
    subst heq
    exact h item.2 (List.mem_reverse.1 hitem)

theorem lastOf_items (d : OrderedDict κ α) (k : κ) : lastOf k d.items = d.get k := by
  cases hget : d.get k with
  | none =>
    refine lastOf_eq_none_iff.2 fun a ha => ?_
    rw [get_eq_some_iff.2 ha] at hget
    cases hget
  | some a =>
    cases hlast : lastOf k d.items with
    | none => exact absurd (get_eq_some_iff.1 hget) (lastOf_eq_none_iff.1 hlast a)
    | some b =>
      rw [get_eq_some_iff.2 (mem_of_lastOf hlast)] at hget
      exact hget

/-- Items under new keys are added at the end. -/
theorem items_setAll {d : OrderedDict κ α} (h : ((d.items ++ items).map Prod.fst).Nodup) :
    (d.setAll items).items = d.items ++ items := by
  induction items generalizing d with
  | nil => exact (List.append_nil _).symm
  | cons item items ih =>
    have hnew : item.1 ∉ d.items.map Prod.fst := by
      rw [List.map_append, List.map_cons] at h
      exact fun hmem => (List.nodup_append.1 h).2.2 _ hmem _ List.mem_cons_self rfl
    have hset : (d.set item.1 item.2).items = d.items ++ [item] := by
      rw [set, dif_neg hnew]
    have happend : (d.set item.1 item.2).items ++ items = d.items ++ item :: items := by
      rw [hset, List.append_assoc, List.singleton_append]
    show ((d.set item.1 item.2).setAll items).items = _
    rw [ih (by rw [happend]; exact h), happend]

theorem ofList_items (d : OrderedDict κ α) : ofList d.items = d :=
  ext (items_setAll d.nodup)

theorem get_ofList (items : List (κ × α)) (k : κ) : (ofList items).get k = lastOf k items := by
  rw [ofList, get_setAll, get_empty, Option.or_none]

end OrderedDict

end Phlo.Library
