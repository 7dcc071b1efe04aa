import Mathlib.Data.List.Nodup
import Mathlib.Data.List.Basic

/-!
# Keyed tables: a relation with a uniqueness constraint

A `KeyedTable key` is a list of rows on which `key` is injective, the shape a `PRIMARY KEY` or a
`UNIQUE` constraint gives an SQL table.  The constraint is a field of the structure, so a table that
breaks it cannot be built and no statement about a run has to carry it along.

* `insertOrIgnore` — `INSERT ... ON CONFLICT (key) DO NOTHING`, with the row count it reports;
* `update` — `UPDATE ... WHERE key = k`, for a change that keeps the key;
* `upsert` — `INSERT ... ON CONFLICT (key) DO UPDATE`;
* `deleteWhere` — `DELETE ... WHERE`;
* `updateAll` — `UPDATE` without a condition.

Every operation comes with its effect on `find` at every key, which is all a client needs: the rows
under other keys are untouched.
-/

namespace Phlo.Library

/-- A list of rows, pairwise distinct on `key`. -/
@[ext] structure KeyedTable {α κ : Type*} (key : α → κ) where
  rows : List α
  unique : (rows.map key).Nodup

namespace KeyedTable

variable {α κ : Type*} {key : α → κ}

def empty (key : α → κ) : KeyedTable key := ⟨[], by simp⟩

variable {t : KeyedTable key} {a : α} {k : κ}

theorem prefix_of_eq {t' : KeyedTable key} (h : t' = t) : t.rows <+: t'.rows := by
  subst h
  exact List.prefix_rfl

theorem eq_of_key_eq (t : KeyedTable key) {b : α} (ha : a ∈ t.rows) (hb : b ∈ t.rows) (h : key a = key b) : a = b :=
  List.inj_on_of_nodup_map t.unique ha hb h

variable [DecidableEq κ]

/-- The row stored under `k`. -/
def find (t : KeyedTable key) (k : κ) : Option α :=
  t.rows.find? fun a => decide (key a = k)

@[simp] theorem find_empty (k : κ) : (empty key).find k = none := rfl

theorem find_eq_none (t : KeyedTable key) (k : κ) : t.find k = none ↔ ∀ a ∈ t.rows, key a ≠ k := by
  simp [find]

theorem mem_of_find (h : t.find k = some a) : a ∈ t.rows :=
  List.mem_of_find?_eq_some h

theorem key_of_find (h : t.find k = some a) : key a = k := by
  simpa using List.find?_some h

theorem find_of_mem (h : a ∈ t.rows) : t.find (key a) = some a := by
  cases hf : t.find (key a) with
  | none => exact absurd rfl ((find_eq_none t (key a)).1 hf a h)
  | some b => rw [t.eq_of_key_eq (mem_of_find hf) h (key_of_find hf)]

theorem find_eq_some (t : KeyedTable key) (k : κ) (a : α) : t.find k = some a ↔ a ∈ t.rows ∧ key a = k := by
  constructor
  · intro h
    exact ⟨mem_of_find h, key_of_find h⟩
  · rintro ⟨h, rfl⟩
    exact find_of_mem h

/-! ### `INSERT ... ON CONFLICT DO NOTHING` -/

/-- Append the row unless its key is taken; the flag is the row count being one. -/
def insertOrIgnore (t : KeyedTable key) (a : α) : KeyedTable key × Bool :=
  if h : key a ∈ t.rows.map key then (t, false)
  else (⟨t.rows ++ [a], by
    rw [List.map_append, List.map_singleton]
    exact t.unique.append (List.nodup_singleton _) (by simpa using h)⟩, true)

theorem mem_keys_iff (t : KeyedTable key) (k : κ) : k ∈ t.rows.map key ↔ (t.find k).isSome := by
  constructor
  · intro h
    obtain ⟨a, ha, rfl⟩ := List.mem_map.1 h
    rw [find_of_mem ha]
    rfl
  · intro h
    obtain ⟨a, ha⟩ := Option.isSome_iff_exists.1 h
    exact List.mem_map.2 ⟨a, mem_of_find ha, key_of_find ha⟩

theorem insertOrIgnore_of_find {b : α} (h : t.find (key a) = some b) : t.insertOrIgnore a = (t, false) := by
  have hk : key a ∈ t.rows.map key := (mem_keys_iff t _).2 (by rw [h]; rfl)
  rw [insertOrIgnore, dif_pos hk]

theorem insertOrIgnore_fresh (h : t.find (key a) = none) :
    (t.insertOrIgnore a).1.rows = t.rows ++ [a] ∧ (t.insertOrIgnore a).2 = true := by
  have hk : key a ∉ t.rows.map key := fun hk => by
    have := (mem_keys_iff t _).1 hk
    rw [h] at this
    exact Bool.noConfusion this
  rw [insertOrIgnore, dif_neg hk]
  exact ⟨rfl, rfl⟩

theorem insertOrIgnore_snd (t : KeyedTable key) (a : α) : (t.insertOrIgnore a).2 = (t.find (key a)).isNone := by
  cases h : t.find (key a) with
  | none => rw [(insertOrIgnore_fresh h).2]; rfl
  | some b => rw [insertOrIgnore_of_find h]; rfl

theorem rows_prefix_insertOrIgnore (t : KeyedTable key) (a : α) : t.rows <+: (t.insertOrIgnore a).1.rows := by
  cases h : t.find (key a) with
  | none => rw [(insertOrIgnore_fresh h).1]; exact List.prefix_append _ _
  | some b => exact prefix_of_eq (by rw [insertOrIgnore_of_find h])

theorem mem_insertOrIgnore (t : KeyedTable key) (a b : α) :
    b ∈ (t.insertOrIgnore a).1.rows ↔ b ∈ t.rows ∨ (t.find (key a) = none ∧ b = a) := by
  cases h : t.find (key a) with
  | none => rw [(insertOrIgnore_fresh h).1]; simp
  | some c => rw [insertOrIgnore_of_find h]; simp

theorem find_insertOrIgnore_self (t : KeyedTable key) (a : α) :
    (t.insertOrIgnore a).1.find (key a) = some ((t.find (key a)).getD a) := by
  cases h : t.find (key a) with
  | none =>
    have hm : a ∈ (t.insertOrIgnore a).1.rows := (mem_insertOrIgnore t a a).2 (Or.inr ⟨h, rfl⟩)
    rw [find_of_mem hm]
    rfl
  | some b =>
    rw [insertOrIgnore_of_find h, h]
    rfl

/-- A stored row stays what it is, whatever is inserted after it. -/
theorem find_mono {t' : KeyedTable key} (h : t.rows <+: t'.rows) (ha : t.find k = some a) : t'.find k = some a := by
  rw [find_eq_some] at ha ⊢
  exact ⟨h.subset ha.1, ha.2⟩

theorem find_insertOrIgnore_of_ne (t : KeyedTable key) (hk : key a ≠ k) :
    (t.insertOrIgnore a).1.find k = t.find k := by
  cases h : t.find k with
  | none =>
    rw [find_eq_none] at h ⊢
    intro b hb
    rcases (mem_insertOrIgnore t a b).1 hb with hb | ⟨-, rfl⟩
    · exact h b hb
    · exact hk
  | some b => exact find_mono (rows_prefix_insertOrIgnore t a) h

/-! ### `UPDATE ... WHERE key = k` -/

/-- Apply `f`, which keeps the key, to the row stored under `k`. -/
def update (t : KeyedTable key) (k : κ) (f : α → α) (hf : ∀ a, key (f a) = key a) : KeyedTable key :=
  ⟨t.rows.map fun a => if key a = k then f a else a, by
    have hkey : (t.rows.map fun a => if key a = k then f a else a).map key = t.rows.map key := by
      rw [List.map_map]
      apply List.map_congr_left
      intro a _
      by_cases h : key a = k
      · simp [h, hf]
      · simp [h]
    rw [hkey]
    exact t.unique⟩

variable {f : α → α} {hf : ∀ a, key (f a) = key a}

theorem mem_update (t : KeyedTable key) (k : κ) (b : α) : b ∈ (t.update k f hf).rows ↔
      (b ∈ t.rows ∧ key b ≠ k) ∨ ∃ a, t.find k = some a ∧ b = f a := by
  simp only [update, List.mem_map]
  constructor
  · rintro ⟨a, ha, rfl⟩
    by_cases h : key a = k
    · right
      exact ⟨a, h ▸ find_of_mem ha, by simp [h]⟩
    · left
      simpa [h] using ha
  · rintro (⟨hb, hk⟩ | ⟨a, ha, rfl⟩)
    · exact ⟨b, hb, by simp [hk]⟩
    · exact ⟨a, mem_of_find ha, by simp [key_of_find ha]⟩

theorem find_update (t : KeyedTable key) (k j : κ) :
    (t.update k f hf).find j = if j = k then (t.find k).map f else t.find j := by
  by_cases hj : j = k
  · subst hj
    rw [if_pos rfl]
    cases h : t.find j with
    | none =>
      rw [Option.map_none, find_eq_none]
      intro b hb
      rcases (mem_update t j b).1 hb with ⟨hb, hk⟩ | ⟨a, ha, -⟩
      · exact hk
      · rw [h] at ha
        cases ha
    | some a =>
      rw [Option.map_some, find_eq_some]
      exact ⟨(mem_update t j _).2 (Or.inr ⟨a, h, rfl⟩), (hf a).trans (key_of_find h)⟩
  · rw [if_neg hj]
    cases h : t.find j with
    | none =>
      rw [find_eq_none] at h ⊢
      intro b hb
      rcases (mem_update t k b).1 hb with ⟨hb, -⟩ | ⟨a, ha, rfl⟩
      · exact h b hb
      · rw [hf a]
        exact fun hj' => hj (hj'.symm.trans (key_of_find ha))
    | some b =>
      obtain ⟨hb, rfl⟩ := (find_eq_some t j b).1 h
      exact (find_eq_some _ _ _).2 ⟨(mem_update t k b).2 (Or.inl ⟨hb, hj⟩), rfl⟩

theorem find_update_self (hf : ∀ a, key (f a) = key a) (h : t.find k = some a) :
    (t.update k f hf).find k = some (f a) := by
  rw [find_update, if_pos rfl, h]
  rfl

theorem find_update_of_ne (t : KeyedTable key) {j : κ} (hf : ∀ a, key (f a) = key a) (hj : j ≠ k) :
    (t.update k f hf).find j = t.find j := by
  rw [find_update, if_neg hj]

theorem exists_find_update {j : κ} (hf : ∀ a, key (f a) = key a) (h : t.find j = some a) :
    ∃ b, (t.update k f hf).find j = some b := by
  by_cases hj : j = k
  · subst hj
    exact ⟨f a, find_update_self hf h⟩
  · exact ⟨a, (find_update_of_ne t hf hj).trans h⟩

theorem update_eq_self (h : ∀ a, t.find k = some a → f a = a) : t.update k f hf = t := by
  apply KeyedTable.ext
  show (t.rows.map fun a => if key a = k then f a else a) = t.rows
  rw [List.map_congr_left (g := id)]
  · exact List.map_id _
  · intro a ha
    by_cases hk : key a = k
    · simp [hk, h a (hk ▸ find_of_mem ha)]
    · simp [hk]

/-! ### `INSERT ... ON CONFLICT DO UPDATE` -/

/-- Insert the row, or apply `f` to the row that holds its key. -/
def upsert (t : KeyedTable key) (a : α) (f : α → α) (hf : ∀ b, key (f b) = key b) : KeyedTable key :=
  match t.find (key a) with
  | none => (t.insertOrIgnore a).1
  | some _ => t.update (key a) f hf

theorem find_upsert_self (t : KeyedTable key) (a : α) :
    (t.upsert a f hf).find (key a) = some ((t.find (key a)).elim a f) := by
  cases h : t.find (key a) with
  | none =>
    simp only [upsert, h]
    rw [find_insertOrIgnore_self, h]
    rfl
  | some b =>
    simp only [upsert, h]
    exact find_update_self hf h

theorem find_upsert_of_ne (t : KeyedTable key) (hk : k ≠ key a) : (t.upsert a f hf).find k = t.find k := by
  cases h : t.find (key a) with
  | none =>
    simp only [upsert, h]
    exact find_insertOrIgnore_of_ne t hk.symm
  | some b =>
    simp only [upsert, h]
    exact find_update_of_ne t hf hk

theorem mem_upsert {b : α} (h : b ∈ (t.upsert a f hf).rows) :
    (b ∈ t.rows ∧ key b ≠ key a) ∨ (t.find (key a) = none ∧ b = a) ∨ ∃ c, t.find (key a) = some c ∧ b = f c := by
  cases hfind : t.find (key a) with
  | none =>
    rw [upsert, hfind] at h
    obtain hold | hnew := (mem_insertOrIgnore t a b).1 h
    · exact .inl ⟨hold, (find_eq_none t _).1 hfind b hold⟩
    · exact .inr (.inl ⟨rfl, hnew.2⟩)
  | some c =>
    rw [upsert, hfind] at h
    obtain hold | ⟨d, hd, rfl⟩ := (mem_update t (key a) b).1 h
    · exact .inl hold
    · rw [hfind] at hd
      cases hd
      exact .inr (.inr ⟨c, rfl, rfl⟩)

/-! ### `DELETE ... WHERE` -/

/-- The table without the rows that `p` is true of. -/
def deleteWhere (t : KeyedTable key) (p : α → Bool) : KeyedTable key :=
  ⟨t.rows.filter fun a => !p a, t.unique.sublist (List.filter_sublist.map key)⟩

omit [DecidableEq κ] in
theorem mem_deleteWhere {p : α → Bool} : a ∈ (t.deleteWhere p).rows ↔ a ∈ t.rows ∧ p a = false := by
  simp [deleteWhere]

theorem find_deleteWhere (t : KeyedTable key) (p : α → Bool) (k : κ) :
    (t.deleteWhere p).find k = (t.find k).filter fun a => !p a := by
  cases h : t.find k with
  | none =>
    rw [Option.filter_none, find_eq_none]
    intro a ha
    exact (find_eq_none t k).1 h a (mem_deleteWhere.1 ha).1
  | some a =>
    rw [Option.filter_some]
    split
    next hkept =>
      refine (find_eq_some _ _ _).2 ⟨mem_deleteWhere.2 ⟨mem_of_find h, ?_⟩, key_of_find h⟩
      simpa using hkept
    next hgone =>
      rw [find_eq_none]
      intro b hb hkey
      obtain ⟨hmem, hp⟩ := mem_deleteWhere.1 hb
      have hsame : b = a := t.eq_of_key_eq hmem (mem_of_find h) (hkey.trans (key_of_find h).symm)
      rw [hsame] at hp
      simp [hp] at hgone

/-! ### `UPDATE` without a condition -/

/-- Apply `f`, which keeps the key, to every row. -/
def updateAll (t : KeyedTable key) (f : α → α) (hf : ∀ a, key (f a) = key a) : KeyedTable key :=
  ⟨t.rows.map f, by
    rw [List.map_map, show key ∘ f = key from funext hf]
    exact t.unique⟩

end KeyedTable

end Phlo.Library
