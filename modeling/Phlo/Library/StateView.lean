import Phlo.Library.Fallible
import Phlo.Library.KeyedTable

/-!
# Procedures that act on a part of the state

A view of a state leaves something of it out.  A procedure that does not look beyond the view commutes
with it: run on the view, it raises what it raises on the state, or ends in the view of where it ends.
`bind_view`, `foldlM_view` are the rules for sequences and loops, and `foldlM_rel_of_mem` is the rule for
what every round leaves as it is.

`KeyedTable.restrict` is the view of a table that keeps the rows whose key satisfies a condition.  Each
operation of a table at a key inside commutes with it, and at a key outside does not show.
-/

namespace Phlo.Library

variable {ε σ τ α β : Type}

/-! ### Sequences and loops -/

theorem map_bind (x : Except ε α) (f : α → Except ε β) (g : β → τ) :
    (x >>= f).map g = x >>= fun a => (f a).map g := by
  cases x with
  | error e => rfl
  | ok a => rfl

theorem map_map (x : Except ε α) (f : α → β) (g : β → τ) : (x.map f).map g = x.map fun a => g (f a) := by
  cases x with
  | error e => rfl
  | ok a => rfl

/-- A sequence commutes with the views of its two parts. -/
theorem bind_view {α' β' : Type} {x : Except ε α} {x' : Except ε α'} {f : α → Except ε β}
    {f' : α' → Except ε β'} {view : α → α'} {view' : β → β'} (hx : x' = x.map view)
    (hf : ∀ a, x = .ok a → f' (view a) = (f a).map view') : x' >>= f' = (x >>= f).map view' := by
  subst hx
  cases x with
  | error e => rfl
  | ok a => exact hf a rfl

/-- A step without a result in front of a procedure that commutes with a view. -/
theorem check_view {x x' : Except ε α} {f : α → Except ε β} {β' : Type} {f' : α → Except ε β'}
    {view : β → β'} (hx : x' = x) (hf : ∀ a, x = .ok a → f' a = (f a).map view) : x' >>= f' = (x >>= f).map view := by
  subst hx
  cases x' with
  | error e => rfl
  | ok a => exact hf a rfl

theorem foldlM_view {view : σ → σ} {f : σ → α → Except ε σ} {l : List α}
    (hf : ∀ s, ∀ a ∈ l, f (view s) a = (f s a).map view) (s : σ) : l.foldlM f (view s) = (l.foldlM f s).map view := by
  induction l generalizing s with
  | nil => rfl
  | cons a l ih =>
    rw [List.foldlM_cons, List.foldlM_cons]
    have htail : ∀ t, l.foldlM f (view t) = (l.foldlM f t).map view :=
      ih fun t b hb => hf t b (List.mem_cons_of_mem a hb)
    exact bind_view (hf s a List.mem_cons_self) fun t _ => htail t

/-- A conversion of every element followed by `f` is `f` followed by a conversion. -/
theorem mapM_map {α' β' : Type} {read : α → Except ε β} {read' : α' → Except ε β'} {f : α → α'}
    {g : β → β'} (h : ∀ a, read' (f a) = (read a).map g) (l : List α) :
    (l.map f).mapM read' = (l.mapM read).map (List.map g) := by
  induction l with
  | nil => rfl
  | cons a l ih =>
    rw [List.map_cons, List.mapM_cons, List.mapM_cons]
    exact bind_view (h a) fun b _ => bind_view ih fun bs _ => rfl

/-- A preorder that every successful round over the list follows is followed by the loop. -/
theorem foldlM_rel_of_mem {R : σ → σ → Prop} (hrefl : ∀ s, R s s)
    (htrans : ∀ {a b c}, R a b → R b c → R a c) {f : σ → α → Except ε σ} {l : List α}
    (hf : ∀ s s', ∀ a ∈ l, f s a = .ok s' → R s s') {s s' : σ} (h : l.foldlM f s = .ok s') : R s s' := by
  induction l generalizing s with
  | nil =>
    cases h
    exact hrefl _
  | cons a l ih =>
    rw [List.foldlM_cons, bind_eq_ok] at h
    obtain ⟨t, ht, hrest⟩ := h
    exact htrans (hf s t a List.mem_cons_self ht)
      (ih (fun s s' b hb => hf s s' b (List.mem_cons_of_mem a hb)) hrest)

/-! ### Restricted tables -/

namespace KeyedTable

variable {α κ : Type} {key : α → κ}

/-- The rows whose key satisfies `q`. -/
def restrict (t : KeyedTable key) (q : κ → Bool) : KeyedTable key :=
  ⟨t.rows.filter fun a => q (key a), t.unique.sublist (List.filter_sublist.map key)⟩

theorem mem_restrict (t : KeyedTable key) (q : κ → Bool) (a : α) :
    a ∈ (t.restrict q).rows ↔ a ∈ t.rows ∧ q (key a) = true := List.mem_filter

@[simp] theorem restrict_empty (q : κ → Bool) : (empty key).restrict q = empty key := rfl

/-- A selection that implies `q` does not see the rows left out. -/
theorem filter_restrict (t : KeyedTable key) {q : κ → Bool} {p : α → Bool}
    (h : ∀ a, p a = true → q (key a) = true) : (t.restrict q).rows.filter p = t.rows.filter p := by
  show (t.rows.filter fun a => q (key a)).filter p = _
  rw [List.filter_filter]
  apply List.filter_congr
  intro a _
  cases hp : p a with
  | false => rfl
  | true => rw [h a hp, Bool.and_self]

variable [DecidableEq κ] {q : κ → Bool}

theorem find_restrict (t : KeyedTable key) {k : κ} (hk : q k = true) : (t.restrict q).find k = t.find k := by
  cases h : t.find k with
  | none =>
    rw [find_eq_none] at h ⊢
    intro a ha
    exact h a ((mem_restrict t q a).1 ha).1
  | some a =>
    obtain ⟨ha, rfl⟩ := (find_eq_some t k a).1 h
    exact find_of_mem ((mem_restrict t q a).2 ⟨ha, hk⟩)

theorem insertOrIgnore_restrict (t : KeyedTable key) {a : α} (hk : q (key a) = true) :
    (t.restrict q).insertOrIgnore a = ((t.insertOrIgnore a).1.restrict q, (t.insertOrIgnore a).2) := by
  cases h : t.find (key a) with
  | some b => rw [insertOrIgnore_of_find h, insertOrIgnore_of_find ((find_restrict t hk).trans h)]
  | none =>
    obtain ⟨hrows, hflag⟩ := insertOrIgnore_fresh h
    obtain ⟨hrows', hflag'⟩ := insertOrIgnore_fresh ((find_restrict t hk).trans h)
    refine Prod.ext (KeyedTable.ext ?_) (hflag'.trans hflag.symm)
    show _ = (t.insertOrIgnore a).1.rows.filter fun a => q (key a)
    rw [hrows', hrows, List.filter_append, List.filter_singleton, hk]
    rfl

theorem restrict_insertOrIgnore (t : KeyedTable key) {a : α} (hk : q (key a) = false) :
    (t.insertOrIgnore a).1.restrict q = t.restrict q := by
  cases h : t.find (key a) with
  | some b => rw [insertOrIgnore_of_find h]
  | none =>
    apply KeyedTable.ext
    show ((t.insertOrIgnore a).1.rows.filter fun a => q (key a)) = _
    rw [(insertOrIgnore_fresh h).1, List.filter_append, List.filter_singleton, hk]
    exact List.append_nil _

variable {f : α → α} {hf : ∀ a, key (f a) = key a}

theorem key_updated (hf : ∀ a, key (f a) = key a) (k : κ) (a : α) : key (if key a = k then f a else a) = key a := by
  by_cases h : key a = k
  · rw [if_pos h, hf]
  · rw [if_neg h]

theorem update_restrict (t : KeyedTable key) (k : κ) :
    (t.restrict q).update k f hf = (t.update k f hf).restrict q := by
  apply KeyedTable.ext
  show ((t.rows.filter fun a => q (key a)).map fun a => if key a = k then f a else a) =
    (t.rows.map fun a => if key a = k then f a else a).filter fun a => q (key a)
  rw [List.filter_map]
  congr 1
  apply List.filter_congr
  intro a _
  show q (key a) = q (key (if key a = k then f a else a))
  rw [key_updated hf]

theorem restrict_update (t : KeyedTable key) {k : κ} (hk : q k = false) :
    (t.update k f hf).restrict q = t.restrict q := by
  rw [← update_restrict]
  apply update_eq_self
  intro a ha
  obtain ⟨hmem, rfl⟩ := (find_eq_some _ _ _).1 ha
  rw [((mem_restrict t q a).1 hmem).2] at hk
  exact Bool.noConfusion hk

theorem upsert_restrict (t : KeyedTable key) {a : α} (hk : q (key a) = true) :
    (t.restrict q).upsert a f hf = (t.upsert a f hf).restrict q := by
  unfold upsert
  rw [find_restrict t hk]
  cases t.find (key a) with
  | none => exact congrArg Prod.fst (insertOrIgnore_restrict t hk)
  | some b => exact update_restrict t (key a)

theorem restrict_upsert (t : KeyedTable key) {a : α} (hk : q (key a) = false) :
    (t.upsert a f hf).restrict q = t.restrict q := by
  unfold upsert
  cases t.find (key a) with
  | none => exact restrict_insertOrIgnore t hk
  | some b => exact restrict_update t hk

end KeyedTable

end Phlo.Library
