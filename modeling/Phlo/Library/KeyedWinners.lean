import Mathlib.Data.List.Induction
import Mathlib.Data.List.Nodup
import Mathlib.Data.List.Pairwise
import Mathlib.Order.Defs.PartialOrder
import Phlo.Library.OrderedDict

/-!
# One element for each key

A loop over a list that keeps an element for each key: the last one it comes to, or the first.

* `keptByKey` — the loop;
* `own_keptByKey`, `covers_keptByKey` — each key of the list has an element of its own;
* `replaceKeys` — the elements of some keys replaced by others.
-/

namespace Phlo.Library

variable {κ α : Type} [DecidableEq κ]

/-- `d.setdefault(k, a)` -/
def OrderedDict.setDefault (d : OrderedDict κ α) (k : κ) (a : α) : OrderedDict κ α :=
  if (d.get k).isSome then d else d.set k a

theorem OrderedDict.get_setDefault (d : OrderedDict κ α) (k : κ) (a : α) (k' : κ) :
    (d.setDefault k a).get k' = (d.get k').or (if k' = k then some a else none) := by
  rw [setDefault]
  cases hget : d.get k with
  | some b =>
    rw [Option.isSome_some, if_pos rfl]
    by_cases hk : k' = k
    · rw [hk, hget]
      rfl
    · rw [if_neg hk, Option.or_none]
  | none =>
    rw [Option.isSome_none, if_neg nofun, get_set]
    by_cases hk : k' = k
    · rw [if_pos hk, hk, hget, if_pos rfl]
      rfl
    · rw [if_neg hk, if_neg hk, Option.or_none]

def keptByKey (last : Bool) (key : α → κ) (l : List α) : OrderedDict κ α :=
  l.foldl (fun d a => if last then d.set (key a) a else d.setDefault (key a) a) .empty

variable {last : Bool} {key : α → κ}

theorem get_keptByKey_concat (l : List α) (a : α) (k : κ) : (keptByKey last key (l ++ [a])).get k =
      if last then (if k = key a then some a else (keptByKey last key l).get k)
      else ((keptByKey last key l).get k).or (if k = key a then some a else none) := by
  rw [keptByKey, List.foldl_append]
  show (if last then (keptByKey last key l).set (key a) a else (keptByKey last key l).setDefault (key a) a).get k = _
  cases last with
  | true => rw [if_pos rfl, if_pos rfl, OrderedDict.get_set]
  | false => rw [if_neg nofun, if_neg nofun, OrderedDict.get_setDefault]

variable {a : α} {k : κ} {l : List α}

/-- What is kept of a list with one more element: what was kept before, or the new one. -/
theorem get_keptByKey_concat_cases {b : α} (h : (keptByKey last key (l ++ [a])).get k = some b) :
    (keptByKey last key l).get k = some b ∨ b = a ∧ key a = k := by
  rw [get_keptByKey_concat] at h
  cases last with
  | true =>
    rw [if_pos rfl] at h
    by_cases hk : k = key a
    · rw [if_pos hk] at h
      exact .inr ⟨(Option.some.inj h).symm, hk.symm⟩
    · rw [if_neg hk] at h
      exact .inl h
  | false =>
    rw [if_neg nofun] at h
    cases hget : (keptByKey false key l).get k with
    | some c => rw [hget] at h; exact .inl h
    | none =>
      rw [hget, Option.none_or] at h
      by_cases hk : k = key a
      · rw [if_pos hk] at h
        exact .inr ⟨(Option.some.inj h).symm, hk.symm⟩
      · rw [if_neg hk] at h
        cases h

theorem own_keptByKey (h : (keptByKey last key l).get k = some a) : a ∈ l ∧ key a = k := by
  induction l using List.reverseRecOn with
  | nil => cases h
  | append_singleton l b ih =>
    rcases get_keptByKey_concat_cases h with hold | ⟨hnew, hkey⟩
    · exact ⟨List.mem_append_left _ (ih hold).1, (ih hold).2⟩
    · rw [hnew]
      exact ⟨List.mem_append_right _ List.mem_cons_self, hkey⟩

theorem covers_keptByKey (last : Bool) (key : α → κ) (h : a ∈ l) :
    ∃ b, (keptByKey last key l).get (key a) = some b := by
  induction l using List.reverseRecOn with
  | nil => cases h
  | append_singleton l b ih =>
    rw [get_keptByKey_concat]
    by_cases hk : key a = key b
    · cases last with
      | true => exact ⟨b, by rw [if_pos rfl, if_pos hk]⟩
      | false =>
        rw [if_neg nofun, if_pos hk]
        cases (keptByKey false key l).get (key a) with
        | some c => exact ⟨c, rfl⟩
        | none => exact ⟨b, rfl⟩
    · have hold : a ∈ l := by
        rcases List.mem_append.1 h with hold | hnew
        · exact hold
        · exact absurd (congrArg key (List.mem_singleton.1 hnew)) hk
      have ⟨c, hc⟩ := ih hold
      cases last with
      | true => exact ⟨c, by rw [if_pos rfl, if_neg hk]; exact hc⟩
      | false => exact ⟨c, by rw [if_neg nofun, hc]; rfl⟩

/-- The last element of a key is the greatest in a list that is sorted. -/
theorem le_of_keptByKey {Ω : Type} [Preorder Ω] {position : α → Ω}
    (hsorted : l.Pairwise fun a b => position a ≤ position b) (h : (keptByKey true key l).get k = some a) :
    ∀ b ∈ l, key b = k → position b ≤ position a := by
  induction l using List.reverseRecOn with
  | nil => cases h
  | append_singleton l c ih =>
    have ⟨hinit, _, hcross⟩ := List.pairwise_append.1 hsorted
    intro b hb hkey
    rw [get_keptByKey_concat, if_pos rfl] at h
    rcases List.mem_append.1 hb with hold | hnew
    · by_cases hk : k = key c
      · rw [if_pos hk] at h
        rw [← Option.some.inj h]
        exact hcross b hold c List.mem_cons_self
      · rw [if_neg hk] at h
        exact ih hinit h b hold hkey
    · rw [List.mem_singleton.1 hnew] at hkey ⊢
      rw [if_pos hkey.symm] at h
      rw [Option.some.inj h]

/-- The elements that are kept: one for each key. -/
theorem map_key_values_keptByKey (l : List α) :
    (keptByKey last key l).values.map key = (keptByKey last key l).items.map Prod.fst := by
  rw [OrderedDict.values, List.map_map]
  refine List.map_congr_left fun item hitem => ?_
  exact (own_keptByKey (OrderedDict.get_eq_some_iff.2 hitem)).2

theorem nodup_keys_keptByKey (l : List α) : ((keptByKey last key l).values.map key).Nodup := by
  rw [map_key_values_keptByKey]
  exact (keptByKey last key l).nodup

/-! ### Replacing the elements of some keys -/

omit [DecidableEq κ] in
theorem perm_of_nodup_keys (key : α → κ) {l' : List α} (h : (l.map key).Nodup) (h' : (l'.map key).Nodup)
    (hmem : ∀ a, a ∈ l ↔ a ∈ l') : l.Perm l' :=
  (List.perm_ext_iff_of_nodup h.of_map h'.of_map).2 hmem

theorem filter_key_eq_singleton (h : (l.map key).Nodup) (ha : a ∈ l) : (l.filter fun b => key b = key a) = [a] := by
  refine List.perm_singleton.1 (perm_of_nodup_keys key (h.sublist (List.filter_sublist.map key))
    (List.nodup_singleton (key a)) fun b => ?_)
  rw [List.mem_filter, List.mem_singleton, decide_eq_true_eq]
  constructor
  · intro ⟨hb, hkey⟩
    exact List.inj_on_of_nodup_map h hb ha hkey
  · intro hb
    rw [hb]
    exact ⟨ha, rfl⟩

def replaceKeys (selects : κ → Bool) (key : α → κ) (old new : List α) : List α :=
  old.filter (fun a => !selects (key a)) ++ new

variable {selects : κ → Bool} {old new : List α}

theorem filter_replaceKeys_of_notMem (hselects : ∀ k, selects k = true → k ∈ new.map key) :
    (replaceKeys selects key old new).filter (fun a => key a ∉ new.map key) =
      old.filter fun a => key a ∉ new.map key := by
  have hnew : (new.filter fun a => key a ∉ new.map key) = [] := by
    refine List.filter_eq_nil_iff.2 fun a ha hout => ?_
    exact of_decide_eq_true hout (List.mem_map_of_mem ha)
  rw [replaceKeys, List.filter_append, hnew, List.append_nil, List.filter_filter]
  refine List.filter_congr fun a _ => ?_
  cases hselected : selects (key a) with
  | false => rw [Bool.not_false, Bool.and_true]
  | true => rw [Bool.not_true, Bool.and_false, decide_eq_false (not_not.2 (hselects _ hselected))]

theorem filter_replaceKeys_of_selected (hk : selects k = true) :
    (replaceKeys selects key old new).filter (fun a => key a = k) = new.filter fun a => key a = k := by
  have hold : ((old.filter fun a => !selects (key a)).filter fun a => key a = k) = [] := by
    refine List.filter_eq_nil_iff.2 fun a ha hkey => ?_
    have hkept := (List.mem_filter.1 ha).2
    rw [of_decide_eq_true hkey, hk] at hkept
    cases hkept
  rw [replaceKeys, List.filter_append, hold, List.nil_append]

theorem filter_replaceKeys_of_not_selected (hk : selects k = false) :
    (replaceKeys selects key old new).filter (fun a => key a = k) =
      (old.filter fun a => key a = k) ++ new.filter fun a => key a = k := by
  rw [replaceKeys, List.filter_append, List.filter_filter]
  refine congrArg (· ++ _) (List.filter_congr fun a _ => ?_)
  by_cases hkey : key a = k
  · rw [decide_eq_true hkey, hkey, hk]
    rfl
  · rw [decide_eq_false hkey, Bool.false_and]

omit [DecidableEq κ] in
theorem replaceKeys_replaceKeys (hnew : ∀ a ∈ new, selects (key a) = true) :
    replaceKeys selects key (replaceKeys selects key old new) new = replaceKeys selects key old new := by
  have hnone : (new.filter fun a => !selects (key a)) = [] := by
    refine List.filter_eq_nil_iff.2 fun a ha => ?_
    rw [hnew a ha]
    decide
  have hold : (replaceKeys selects key old new).filter (fun a => !selects (key a)) =
      old.filter fun a => !selects (key a) := by
    rw [replaceKeys, List.filter_append, hnone, List.append_nil, List.filter_filter]
    simp only [Bool.and_self]
  rw [replaceKeys, hold, replaceKeys]

end Phlo.Library
