import Phlo.Library.KeyedTable

/-!
# Batches of writes, delivered twice

A batch is written to a keyed table one element after the other.  When is the table after a second
delivery of the same batch the table after the first?

* `insertAll_insertAll` — always, for `INSERT ... ON CONFLICT DO NOTHING`;
* `upsertAll_upsertAll` — for `INSERT ... ON CONFLICT DO UPDATE`, when an inserted row is a fixed
  point of its own update and the updates, folded over one row, are idempotent as a whole.  A single
  update need not be: of two elements with one key, the first may be undone by the second each time.

Folds of columns in which the last or the first value wins are idempotent (`foldl_or_foldl_or`,
`foldl_keep_foldl_keep`).
-/

namespace Phlo.Library

variable {α β κ : Type*}

variable {γ : Type*}

theorem or_or_self (a b : Option γ) : (a.or b).or b = a.or b := by
  rw [Option.or_assoc, Option.or_self]

theorem or_self_or (a b : Option γ) : a.or (a.or b) = a.or b := by
  rw [← Option.or_assoc, Option.or_self]

/-- A column that the last value given wins is the same after the batch has been folded in again. -/
theorem foldl_or_foldl_or (f : β → Option γ) (l : List β) (c : Option γ) :
    l.foldl (fun c b => (f b).or c) (l.foldl (fun c b => (f b).or c) c) = l.foldl (fun c b => (f b).or c) c := by
  have hclosed : ∀ (l : List β) (c : Option γ), l.foldl (fun c b => (f b).or c) c =
      (l.foldl (fun c b => (f b).or c) none).or c := by
    intro l
    induction l with
    | nil =>
      intro c
      rfl
    | cons b l ih =>
      intro c
      rw [List.foldl_cons, List.foldl_cons, ih, ih ((f b).or none), Option.or_none, Option.or_assoc]
  rw [hclosed l (l.foldl _ c), hclosed l c, or_self_or]

/-- So is a column that keeps the first value given. -/
theorem foldl_keep_foldl_keep (f : β → Option γ) (l : List β) (c : Option γ) :
    l.foldl (fun c b => c.or (f b)) (l.foldl (fun c b => c.or (f b)) c) = l.foldl (fun c b => c.or (f b)) c := by
  have hclosed : ∀ (l : List β) (c : Option γ), l.foldl (fun c b => c.or (f b)) c =
      c.or (l.foldl (fun c b => c.or (f b)) none) := by
    intro l
    induction l with
    | nil =>
      intro c
      exact Option.or_none.symm
    | cons b l ih =>
      intro c
      rw [List.foldl_cons, List.foldl_cons, ih, ih (Option.or none (f b)), Option.none_or,
        Option.or_assoc]
  rw [hclosed l (l.foldl _ c), hclosed l c, or_or_self]

/-- So is a column that every element overwrites. -/
theorem foldl_const_foldl_const (f : β → γ) (l : List β) (c : γ) :
    l.foldl (fun _ b => f b) (l.foldl (fun _ b => f b) c) = l.foldl (fun _ b => f b) c := by
  cases l with
  | nil => rfl
  | cons b l => rfl

namespace KeyedTable

variable {key : α → κ} [DecidableEq κ]

variable {t : KeyedTable key}

theorem ext_find {t' : KeyedTable key} (hkeys : t.rows.map key = t'.rows.map key) (hfind : ∀ k, t.find k = t'.find k) :
    t = t' := by
  apply KeyedTable.ext
  have hlen : t.rows.length = t'.rows.length := by simpa using congrArg List.length hkeys
  apply List.ext_getElem hlen
  intro i hi hi'
  have hkey : key t.rows[i] = key t'.rows[i] := by
    have hget := congrArg (fun ks : List κ => ks[i]?) hkeys
    simpa [hi, hi'] using hget
  have hfound := find_of_mem (List.getElem_mem hi)
  have hfound' := find_of_mem (List.getElem_mem hi')
  rw [hfind, hkey, hfound'] at hfound
  exact (Option.some.inj hfound).symm

/-! ### Inserts -/

def insertAll (t : KeyedTable key) (rows : List α) : KeyedTable key :=
  rows.foldl (fun t a => (t.insertOrIgnore a).1) t

theorem rows_prefix_insertAll (t : KeyedTable key) (rows : List α) : t.rows <+: (t.insertAll rows).rows := by
  induction rows generalizing t with
  | nil => exact List.prefix_rfl
  | cons a rows ih => exact (rows_prefix_insertOrIgnore t a).trans (ih _)

theorem find_insertAll (t : KeyedTable key) {rows : List α} {a : α} (ha : a ∈ rows) :
    ∃ b, (t.insertAll rows).find (key a) = some b := by
  induction rows generalizing t with
  | nil => cases ha
  | cons a' rows ih =>
    rcases List.mem_cons.1 ha with rfl | ha
    · exact ⟨_, find_mono (rows_prefix_insertAll _ rows) (find_insertOrIgnore_self t a)⟩
    · exact ih _ ha

theorem insertAll_of_taken {rows : List α} (h : ∀ a ∈ rows, ∃ b, t.find (key a) = some b) : t.insertAll rows = t := by
  induction rows with
  | nil => rfl
  | cons a rows ih =>
    obtain ⟨b, hb⟩ := h a (List.mem_cons_self)
    show ((t.insertOrIgnore a).1).insertAll rows = t
    rw [insertOrIgnore_of_find hb]
    exact ih fun a' ha' => h a' (List.mem_cons_of_mem a ha')

theorem insertAll_insertAll (t : KeyedTable key) (rows : List α) :
    (t.insertAll rows).insertAll rows = t.insertAll rows :=
  insertAll_of_taken fun _ ha => find_insertAll t ha

/-! ### Upserts -/

section Upsert

variable (row : β → α) (upd : β → α → α) (hupd : ∀ b a, key (upd b a) = key a)

def upsertAll (t : KeyedTable key) (batch : List β) : KeyedTable key :=
  batch.foldl (fun t b => t.upsert (row b) (upd b) (hupd b)) t

theorem find_upsert (t : KeyedTable key) (b : β) (k : κ) : (t.upsert (row b) (upd b) (hupd b)).find k =
      if key (row b) = k then some ((t.find k).elim (row b) (upd b)) else t.find k := by
  by_cases hk : key (row b) = k
  · subst hk
    rw [if_pos rfl]
    exact find_upsert_self t (row b)
  · rw [if_neg hk]
    exact find_upsert_of_ne t (Ne.symm hk)

variable {row upd}

theorem find_upsertAll_of_find {k : κ} {a : α} (h : t.find k = some a) (batch : List β) :
    (t.upsertAll row upd hupd batch).find k =
      some ((batch.filter fun b => decide (key (row b) = k)).foldl (fun a b => upd b a) a) := by
  induction batch generalizing t a with
  | nil => exact h
  | cons b batch ih =>
    show ((t.upsert (row b) (upd b) (hupd b)).upsertAll row upd hupd batch).find k = _
    have hb := find_upsert row upd hupd t b k
    by_cases hk : key (row b) = k
    · rw [if_pos hk, h] at hb
      rw [ih hb, List.filter_cons_of_pos (by simpa using hk)]
      rfl
    · rw [if_neg hk, h] at hb
      rw [ih hb, List.filter_cons_of_neg (by simpa using hk)]

variable {batch : List β}

theorem find_upsertAll_of_ne {k : κ} (h : ∀ b ∈ batch, key (row b) ≠ k) (t : KeyedTable key) :
    (t.upsertAll row upd hupd batch).find k = t.find k := by
  induction batch generalizing t with
  | nil => rfl
  | cons b batch ih =>
    rw [List.forall_mem_cons] at h
    have hb := find_upsert row upd hupd t b k
    rw [if_neg h.1] at hb
    exact (ih h.2 _).trans hb

/-- A key of the batch holds the elements with that key folded into some row: where there was none,
the first of them inserts one, which is a fixed point of its own update. -/
theorem find_upsertAll_of_mem (hfix : ∀ b, upd b (row b) = row b) {k : κ} (h : ∃ b ∈ batch, key (row b) = k)
    (t : KeyedTable key) : ∃ a, (t.upsertAll row upd hupd batch).find k =
      some ((batch.filter fun b => decide (key (row b) = k)).foldl (fun a b => upd b a) a) := by
  cases hfind : t.find k with
  | some a => exact ⟨a, find_upsertAll_of_find hupd hfind batch⟩
  | none =>
    induction batch generalizing t with
    | nil =>
      obtain ⟨b, hb, -⟩ := h
      cases hb
    | cons b batch ih =>
      have hb := find_upsert row upd hupd t b k
      rw [hfind] at hb
      by_cases hk : key (row b) = k
      · rw [if_pos hk] at hb
        refine ⟨row b, ?_⟩
        show ((t.upsert (row b) (upd b) (hupd b)).upsertAll row upd hupd batch).find k = _
        rw [find_upsertAll_of_find hupd hb, List.filter_cons_of_pos (by simpa using hk),
          List.foldl_cons, hfix]
        rfl
      · rw [if_neg hk] at hb
        obtain ⟨b', hb', hk'⟩ := h
        have hrest : ∃ b ∈ batch, key (row b) = k := by
          rcases List.mem_cons.1 hb' with rfl | hb'
          · exact absurd hk' hk
          · exact ⟨b', hb', hk'⟩
        obtain ⟨a, ha⟩ := ih hrest _ hb
        refine ⟨a, ?_⟩
        rw [List.filter_cons_of_neg (by simpa using hk)]
        exact ha

theorem keys_upsert_of_find {b : β} {a : α} (h : t.find (key (row b)) = some a) :
    (t.upsert (row b) (upd b) (hupd b)).rows.map key = t.rows.map key := by
  simp only [upsert, h, update, List.map_map]
  apply List.map_congr_left
  intro a' _
  by_cases hk : key a' = key (row b)
  · simp [hk, hupd]
  · simp [hk]

theorem keys_upsertAll (h : ∀ b ∈ batch, ∃ a, t.find (key (row b)) = some a) :
    (t.upsertAll row upd hupd batch).rows.map key = t.rows.map key := by
  induction batch generalizing t with
  | nil => rfl
  | cons b batch ih =>
    obtain ⟨a, ha⟩ := h b (List.mem_cons_self)
    have hnext : ∀ b' ∈ batch, ∃ a, (t.upsert (row b) (upd b) (hupd b)).find (key (row b')) = some a := by
      intro b' hb'
      obtain ⟨a', ha'⟩ := h b' (List.mem_cons_of_mem b hb')
      rw [find_upsert row upd hupd t b]
      split
      · exact ⟨_, rfl⟩
      · exact ⟨a', ha'⟩
    exact (ih hnext).trans (keys_upsert_of_find hupd ha)

/-- **A batch of upserts delivered twice.** -/
theorem upsertAll_upsertAll (hfix : ∀ b, upd b (row b) = row b)
    (hidem : ∀ (batch : List β) (a : α), batch.foldl (fun a b => upd b a)
      (batch.foldl (fun a b => upd b a) a) = batch.foldl (fun a b => upd b a) a)
    (t : KeyedTable key) (batch : List β) :
    (t.upsertAll row upd hupd batch).upsertAll row upd hupd batch = t.upsertAll row upd hupd batch := by
  apply ext_find
  · apply keys_upsertAll
    intro b hb
    obtain ⟨a, ha⟩ := find_upsertAll_of_mem hupd hfix ⟨b, hb, rfl⟩ t
    exact ⟨_, ha⟩
  · intro k
    by_cases h : ∃ b ∈ batch, key (row b) = k
    · obtain ⟨a, ha⟩ := find_upsertAll_of_mem hupd hfix h t
      rw [find_upsertAll_of_find hupd ha batch, ha, hidem]
    · exact find_upsertAll_of_ne hupd (fun b hb hk => h ⟨b, hb, hk⟩) _

end Upsert

end KeyedTable

end Phlo.Library
