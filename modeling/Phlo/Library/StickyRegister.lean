import Mathlib.Order.Basic
import Mathlib.Order.Lattice

/-!
# Versioned registers with final values

A register holds a version and a value; some values are *final*.  A write of a higher version
replaces both, a write of a lower version is ignored, and a write of the stored version replaces the
value unless it is final.  This is the purpose of an "attempt" counter next to a status: a new
attempt starts over, an attempt that has ended stays ended.

* `Progress` — the order a register moves in: the version never decreases, and a final value stays
  while the version does;
* `write_progress` — every write moves the register forward.
-/

namespace Phlo.Library

/-- A version and the value stored at it. -/
@[ext] structure Register (ν σ : Type*) where
  version : ν
  value : σ
  deriving DecidableEq

namespace Register

variable {ν σ : Type*} [LinearOrder ν]

/-- `r'` is a later content of the register `r`: the version did not decrease and, at the same
version, a final value did not change. -/
def Progress (final : σ → Prop) (r r' : Register ν σ) : Prop :=
  r.version ≤ r'.version ∧ (r'.version = r.version → final r.value → r'.value = r.value)

variable {final : σ → Prop}

theorem Progress.refl (r : Register ν σ) : Progress final r r := ⟨le_rfl, fun _ _ => rfl⟩

theorem Progress.trans {a b c : Register ν σ} (hab : Progress final a b)
    (hbc : Progress final b c) : Progress final a c := by
  refine ⟨hab.1.trans hbc.1, fun hv hf => ?_⟩
  have hb : b.version = a.version := le_antisymm (hv ▸ hbc.1) hab.1
  have hvb : b.value = a.value := hab.2 hb hf
  rw [hbc.2 (hv.trans hb.symm) (hvb ▸ hf), hvb]

/-- Store `w` in `r`. -/
def write (final : σ → Prop) [DecidablePred final] (r w : Register ν σ) : Register ν σ :=
  if r.version < w.version then w
  else if w.version < r.version then r
  else if final r.value then r
  else ⟨r.version, w.value⟩

variable [DecidablePred final]

theorem write_version (r w : Register ν σ) : (write final r w).version = max r.version w.version := by
  unfold write
  split
  · next h => rw [max_eq_right h.le]
  · next h =>
    rw [max_eq_left (not_lt.1 h)]
    split
    · rfl
    · split <;> rfl

theorem write_progress (r w : Register ν σ) : Progress final r (write final r w) := by
  refine ⟨by rw [write_version]; exact le_max_left _ _, fun hv hf => ?_⟩
  unfold write at hv ⊢
  split
  · next h =>
    rw [if_pos h] at hv
    exact absurd hv (ne_of_gt h)
  · split
    · rfl
    · rfl

end Register

end Phlo.Library
