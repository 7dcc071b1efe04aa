import Phlo.Library.StickyRegister

/-!
# Versioned registers that merge

A write of a higher version replaces the value of a register, a write of a lower version is ignored and
a write of the stored version is merged into it.  Replacing is merging into a blank value, so a sequence
of writes is the merge of the writes of its highest version.

* `foldl_merge_above` — writes below the stored version change nothing.
-/

namespace Phlo.Library

namespace Register

variable {ν σ : Type*} [LinearOrder ν]

/-- Store `w` in `r`, merging values of one version. -/
def mergeWrite (merge : σ → σ → σ) (r w : Register ν σ) : Register ν σ :=
  if r.version < w.version then w
  else if w.version < r.version then r
  else ⟨r.version, merge r.value w.value⟩

variable {merge : σ → σ → σ}

variable {r w : Register ν σ} {ws : List (Register ν σ)}

theorem mergeWrite_of_lt (h : r.version < w.version) : mergeWrite merge r w = w :=
  if_pos h

theorem mergeWrite_of_gt (h : w.version < r.version) : mergeWrite merge r w = r := by
  unfold mergeWrite
  rw [if_neg h.le.not_gt, if_pos h]

theorem mergeWrite_of_eq (h : w.version = r.version) : mergeWrite merge r w = ⟨r.version, merge r.value w.value⟩ := by
  unfold mergeWrite
  rw [if_neg h.le.not_gt, if_neg h.ge.not_gt]

theorem foldl_merge_above (h : ∀ w ∈ ws, w.version < r.version) : ws.foldl (mergeWrite merge) r = r := by
  induction ws with
  | nil => rfl
  | cons w ws ih =>
    rw [List.foldl_cons, mergeWrite_of_gt (h w List.mem_cons_self)]
    exact ih fun v hv => h v (List.mem_cons_of_mem w hv)

def valuesAt (n : ν) (ws : List (Register ν σ)) : List σ :=
  (ws.filter fun w => w.version = n).map Register.value

theorem valuesAt_cons_of_eq {n : ν} (h : w.version = n) (ws : List (Register ν σ)) :
    valuesAt n (w :: ws) = w.value :: valuesAt n ws := by
  unfold valuesAt
  rw [List.filter_cons_of_pos (by simpa using h)]
  rfl

theorem valuesAt_cons_of_ne {n : ν} (h : w.version ≠ n) (ws : List (Register ν σ)) :
    valuesAt n (w :: ws) = valuesAt n ws := by
  unfold valuesAt
  rw [List.filter_cons_of_neg (by simpa using h)]

theorem mem_valuesAt {n : ν} {v : σ} : v ∈ valuesAt n ws ↔ ⟨n, v⟩ ∈ ws := by
  unfold valuesAt
  rw [List.mem_map]
  constructor
  · intro h
    obtain ⟨w, hw, rfl⟩ := h
    obtain ⟨hmem, hversion⟩ := List.mem_filter.1 hw
    rw [← of_decide_eq_true hversion]
    exact hmem
  · intro h
    exact ⟨⟨n, v⟩, List.mem_filter.2 ⟨h, decide_eq_true rfl⟩, rfl⟩

/-- **A sequence of writes** none of which exceeds `n` leaves, once `n` has been reached, the merge of
the values written at `n` into what was stored at `n`, or into a blank value. -/
theorem foldl_merge_eq {blank : σ} (hblank : ∀ v, merge blank v = v) {n : ν} (hws : ∀ w ∈ ws, w.version ≤ n)
    (hr : r.version ≤ n) (hn : r.version = n ∨ ∃ w ∈ ws, w.version = n) : ws.foldl (mergeWrite merge) r =
      ⟨n, (valuesAt n ws).foldl merge (if r.version = n then r.value else blank)⟩ := by
  induction ws generalizing r with
  | nil =>
    have hversion : r.version = n := by
      rcases hn with hn | ⟨w, hw, -⟩
      · exact hn
      · cases hw
    rw [if_pos hversion, ← hversion]
    rfl
  | cons w ws ih =>
    have hrest : ∀ v ∈ ws, v.version ≤ n := fun v hv => hws v (List.mem_cons_of_mem w hv)
    have hw : w.version ≤ n := hws w List.mem_cons_self
    rw [List.foldl_cons]
    by_cases hwn : w.version = n
    · -- a write of version `n`: into the stored value, or in place of an older one
      rw [valuesAt_cons_of_eq hwn, List.foldl_cons]
      by_cases hrn : r.version = n
      · rw [mergeWrite_of_eq (hwn.trans hrn.symm),
          ih (r := ⟨r.version, merge r.value w.value⟩) hrest hr (Or.inl hrn), if_pos hrn, if_pos hrn]
      · rw [mergeWrite_of_lt (lt_of_le_of_ne hr hrn |>.trans_eq hwn.symm), ih hrest hw (Or.inl hwn),
          if_pos hwn, if_neg hrn, hblank]
    · -- a write below `n` shows only while the register is below `n` itself
      rw [valuesAt_cons_of_ne hwn]
      have hlt : w.version < n := lt_of_le_of_ne hw hwn
      by_cases hrn : r.version = n
      · rw [mergeWrite_of_gt (hlt.trans_eq hrn.symm), ih hrest hr (Or.inl hrn)]
      · have hbelow : (mergeWrite merge r w).version < n := by
          unfold mergeWrite
          split
          · exact hlt
          · exact (lt_of_le_of_ne hr hrn).trans_le' (by split <;> exact le_rfl)
        have hlater : ∃ v ∈ ws, v.version = n := by
          rcases hn with hn | ⟨v, hv, hvn⟩
          · exact absurd hn hrn
          · rcases List.mem_cons.1 hv with rfl | hv
            · exact absurd hvn hwn
            · exact ⟨v, hv, hvn⟩
        rw [ih hrest hbelow.le (Or.inr hlater), if_neg hbelow.ne, if_neg hrn]

end Register

/-! ### First values -/

/-- A value all its carriers agree on does not depend on their order. -/
theorem map_findSome_congr {β γ V : Type*} {f : β → Option γ} {l l' : List β} (hmem : ∀ b, b ∈ l ↔ b ∈ l')
    (view : γ → V) (h : ∀ a ∈ l, ∀ b ∈ l, ∀ x y, f a = some x → f b = some y → view x = view y) :
    (l.findSome? f).map view = (l'.findSome? f).map view := by
  cases hl : l.findSome? f with
  | none =>
    have hl' : l'.findSome? f = none := by
      rw [List.findSome?_eq_none_iff] at hl ⊢
      intro b hb
      exact hl b ((hmem b).2 hb)
    rw [hl']
  | some x =>
    obtain ⟨a, ha, hx⟩ := List.exists_of_findSome?_eq_some hl
    cases hl' : l'.findSome? f with
    | none =>
      rw [List.findSome?_eq_none_iff] at hl'
      rw [hl' a ((hmem a).1 ha)] at hx
      cases hx
    | some y =>
      obtain ⟨b, hb, hy⟩ := List.exists_of_findSome?_eq_some hl'
      exact congrArg some (h a ha b ((hmem b).2 hb) x y hx hy)

end Phlo.Library
