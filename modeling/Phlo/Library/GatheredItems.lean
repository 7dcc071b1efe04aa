import Phlo.Library.OrderedDict

/-!
# Gathering items under keys

A loop that keeps the last item for each key and takes a note of an item that differs from the one kept
before it.

* `gather_gathers` — the dictionary has just the items, whatever order they came in;
* `prefix_keys_gather` — keys stay in the order in which they were first met.
-/

namespace Phlo.Library

variable {κ α ν : Type} [DecidableEq κ] [DecidableEq α]

def noted (key : α → κ) (note : α → ν) (d : OrderedDict κ α) (notes : List ν) (a : α) : List ν :=
  match d.get (key a) with
  | some old => if old = a then notes else notes ++ [note a]
  | none => notes

def gather (key : α → κ) (note : α → ν) : OrderedDict κ α × List ν → List α → OrderedDict κ α × List ν
  | acc, [] => acc
  | acc, a :: as => gather key note (acc.1.set (key a) a, noted key note acc.1 acc.2 a) as

def Coherent (key : α → κ) (items : List α) : Prop := ∀ a ∈ items, ∀ b ∈ items, key a = key b → a = b

def Gathers (key : α → κ) (items : List α) (d : OrderedDict κ α) : Prop :=
  ∀ k a, d.get k = some a ↔ a ∈ items ∧ key a = k

variable {key : α → κ} {note : α → ν} {items : List α} {d : OrderedDict κ α} {notes : List ν}

omit [DecidableEq α] in
theorem gathers_empty : Gathers key [] (OrderedDict.empty : OrderedDict κ α) := by
  intro k a
  rw [OrderedDict.get_empty]
  constructor
  · intro h
    cases h
  · intro h
    exact absurd h.1 List.not_mem_nil

omit [DecidableEq α] in
theorem Gathers.coherent (h : Gathers key items d) : Coherent key items := by
  intro a ha b hb hkey
  have hget := (h (key a) a).2 ⟨ha, rfl⟩
  rw [(h (key a) b).2 ⟨hb, hkey.symm⟩] at hget
  exact (Option.some.inj hget).symm

omit [DecidableEq κ] [DecidableEq α] in
theorem Coherent.subset {items' : List α} (h : Coherent key items) (hsub : items' ⊆ items) :
    Coherent key items' := fun a ha b hb => h a (hsub ha) b (hsub hb)

/-- One round: nothing is noted exactly when the item agrees with those before it. -/
theorem noted_eq_nil_iff (h : Gathers key items d) (a : α) :
    noted key note d notes a = [] ↔ notes = [] ∧ ∀ b ∈ items, key b = key a → b = a := by
  unfold noted
  cases hget : d.get (key a) with
  | none =>
    constructor
    · intro hnotes
      refine ⟨hnotes, fun b hb hkey => ?_⟩
      rw [(h (key a) b).2 ⟨hb, hkey⟩] at hget
      cases hget
    · intro hboth
      exact hboth.1
  | some old =>
    obtain ⟨hold, holdKey⟩ := (h (key a) old).1 hget
    show (if old = a then notes else notes ++ [note a]) = [] ↔ _
    by_cases heq : old = a
    · rw [if_pos heq]
      constructor
      · intro hnotes
        refine ⟨hnotes, fun b hb hkey => ?_⟩
        rw [(h (key a) b).2 ⟨hb, hkey⟩] at hget
        rw [Option.some.inj hget, heq]
      · intro hboth
        exact hboth.1
    · rw [if_neg heq]
      constructor
      · intro hnotes
        exact absurd hnotes (by simp)
      · intro hboth
        exact absurd (hboth.2 old hold holdKey) heq

omit [DecidableEq α] in
theorem Gathers.set (h : Gathers key items d) {a : α} (ha : ∀ b ∈ items, key b = key a → b = a) :
    Gathers key (items ++ [a]) (d.set (key a) a) := by
  intro k b
  rw [OrderedDict.get_set, List.mem_append, List.mem_singleton]
  by_cases hk : k = key a
  · rw [if_pos hk]
    constructor
    · intro hb
      obtain rfl := Option.some.inj hb
      exact ⟨Or.inr rfl, hk.symm⟩
    · rintro ⟨hb | rfl, hkey⟩
      · rw [ha b hb (hkey.trans hk)]
      · rfl
  · rw [if_neg hk, h k b]
    constructor
    · intro hb
      exact ⟨Or.inl hb.1, hb.2⟩
    · rintro ⟨hb | rfl, hkey⟩
      · exact ⟨hb, hkey⟩
      · exact absurd hkey.symm hk

theorem noted_ne_nil {a : α} (h : notes ≠ []) : noted key note d notes a ≠ [] := by
  unfold noted
  split
  · split_ifs
    · exact h
    · simp
  · exact h

variable {more : List α}

theorem gather_ne_nil (h : notes ≠ []) : (gather key note (d, notes) more).2 ≠ [] := by
  induction more generalizing d notes with
  | nil => exact h
  | cons a more ih => exact ih (noted_ne_nil h)

/-- Nothing is noted exactly when the items, with those met before, agree; then all are in the dictionary. -/
theorem gather_notes (h : Gathers key items d) :
    ((gather key note (d, notes) more).2 = [] ↔ notes = [] ∧ Coherent key (items ++ more)) ∧
      ((gather key note (d, notes) more).2 = [] → Gathers key (items ++ more) (gather key note (d, notes) more).1) := by
  induction more generalizing items d notes with
  | nil =>
    rw [List.append_nil]
    exact ⟨⟨fun hnotes => ⟨hnotes, h.coherent⟩, fun hboth => hboth.1⟩, fun _ => h⟩
  | cons a more ih =>
    have hsplit : items ++ a :: more = items ++ [a] ++ more := by simp
    rw [hsplit]
    by_cases hagrees : ∀ b ∈ items, key b = key a → b = a
    · have hrest : ((gather key note (d.set (key a) a, noted key note d notes a) more).2 = [] ↔
          noted key note d notes a = [] ∧ Coherent key (items ++ [a] ++ more)) ∧ _ := ih (h.set hagrees)
      rw [noted_eq_nil_iff h] at hrest
      refine ⟨⟨fun hnil => ?_, fun hboth => ?_⟩, hrest.2⟩
      · have hboth := hrest.1.1 hnil
        exact ⟨hboth.1.1, hboth.2⟩
      · exact hrest.1.2 ⟨⟨hboth.1, hagrees⟩, hboth.2⟩
    · have hnoted : noted key note d notes a ≠ [] := fun hnil => hagrees ((noted_eq_nil_iff h a).1 hnil).2
      have hnever : (gather key note (d.set (key a) a, noted key note d notes a) more).2 ≠ [] :=
        gather_ne_nil hnoted
      refine ⟨⟨fun hnil => absurd hnil hnever, fun hboth => ?_⟩, fun hnil => absurd hnil hnever⟩
      refine absurd (fun b hb hkey => ?_) hagrees
      have hmem : a ∈ items ++ [a] ++ more := List.mem_append_left _ (List.mem_append_right _ (List.mem_singleton_self a))
      exact hboth.2 b (List.mem_append_left _ (List.mem_append_left _ hb)) a hmem hkey

/-! ### The order of the keys -/

omit [DecidableEq α] in
theorem prefix_keys_set (d : OrderedDict κ α) (k : κ) (a : α) :
    d.items.map Prod.fst <+: (d.set k a).items.map Prod.fst := by
  unfold OrderedDict.set
  split
  · have hkeys := OrderedDict.map_fst_replaced k a d.items
    exact hkeys ▸ List.prefix_rfl
  · rw [List.map_append]
    exact List.prefix_append _ _

theorem prefix_keys_gather : d.items.map Prod.fst <+: (gather key note (d, notes) more).1.items.map Prod.fst := by
  induction more generalizing d notes with
  | nil => exact List.prefix_rfl
  | cons a more ih => exact (prefix_keys_set d (key a) a).trans ih

omit [DecidableEq α] in
/-- Values stand in the order of their keys. -/
theorem pair_sublist_values {k k' : κ} {a b : α} (h : [k, k'].Sublist (d.items.map Prod.fst))
    (ha : d.get k = some a) (hb : d.get k' = some b) : [a, b].Sublist d.values := by
  obtain ⟨pairs, hpairs, heq⟩ := List.sublist_map_iff.1 h
  match pairs, heq with
  | [x, y], heq =>
    obtain ⟨hx, hy⟩ : k = x.1 ∧ k' = y.1 := by simpa using heq
    have hmem : ∀ z ∈ [x, y], d.get z.1 = some z.2 := fun z hz => OrderedDict.get_eq_some_iff.2 (hpairs.subset hz)
    have hax : a = x.2 := Option.some.inj (ha.symm.trans (hx ▸ hmem x List.mem_cons_self))
    have hby : b = y.2 := Option.some.inj (hb.symm.trans (hy ▸ hmem y (List.mem_cons_of_mem _ (List.mem_singleton_self y))))
    rw [hax, hby]
    exact hpairs.map Prod.snd

omit [DecidableEq α] in
/-- Dictionaries in which every lookup finds the same have the same items. -/
theorem items_perm_of_get {d' : OrderedDict κ α} (h : ∀ k, d.get k = d'.get k) : d.items.Perm d'.items := by
  have hnodup : ∀ e : OrderedDict κ α, e.items.Nodup := fun e => e.nodup.of_map
  rw [List.perm_ext_iff_of_nodup (hnodup d) (hnodup d')]
  rintro ⟨k, a⟩
  rw [← OrderedDict.get_eq_some_iff, ← OrderedDict.get_eq_some_iff, h]

end Phlo.Library
