import Mathlib.Data.List.Basic

/-!
# Published versions of a state

A state that is only ever replaced as a whole: `Versions` keeps every version that was published, the
one it started from being number 0.  Versions are immutable; a writer that has read version `n` publishes
the next one only while `n` is still the newest.

* `Extends.at_` — a version stays what it was;
* `current_of_at_head` — whoever has read the newest version knows the current state.
-/

namespace Phlo.Library

structure Versions (σ : Type) where
  first : σ
  later : List σ

namespace Versions

variable {σ : Type}

def head (v : Versions σ) : ℕ := v.later.length

def at_ (v : Versions σ) (n : ℕ) : Option σ := (v.first :: v.later)[n]?

def current (v : Versions σ) : σ := v.later.getLast?.getD v.first

def publish (v : Versions σ) (s : σ) : Versions σ := ⟨v.first, v.later ++ [s]⟩

@[simp] theorem current_publish (v : Versions σ) (s : σ) : (v.publish s).current = s := by
  simp [publish, current]

theorem at_head (v : Versions σ) : v.at_ v.head = some v.current := by
  obtain ⟨first, later⟩ := v
  show (first :: later)[later.length]? = some (later.getLast?.getD first)
  cases later with
  | nil => rfl
  | cons s later => simp [List.getLast?_eq_getElem?]

theorem current_of_at_head {v : Versions σ} {n : ℕ} {s : σ} (h : v.at_ n = some s) (hn : n = v.head) :
    v.current = s := by
  subst hn
  rw [at_head] at h
  exact Option.some.inj h

/-- Some more versions may have been published. -/
def Extends (v w : Versions σ) : Prop := v.first = w.first ∧ v.later <+: w.later

theorem Extends.refl (v : Versions σ) : v.Extends v := ⟨rfl, List.prefix_refl _⟩

theorem Extends.trans {u v w : Versions σ} (h : u.Extends v) (h' : v.Extends w) : u.Extends w :=
  ⟨h.1.trans h'.1, h.2.trans h'.2⟩

theorem extends_publish (v : Versions σ) (s : σ) : v.Extends (v.publish s) :=
  ⟨rfl, List.prefix_append _ _⟩

theorem Extends.at_ {v w : Versions σ} (h : v.Extends w) {n : ℕ} {s : σ} (hn : v.at_ n = some s) :
    w.at_ n = some s := by
  obtain ⟨hfirst, more, hmore⟩ := h
  obtain ⟨first, later⟩ := v
  obtain ⟨first', later'⟩ := w
  obtain rfl : first = first' := hfirst
  obtain rfl : later ++ more = later' := hmore
  show ((first :: later) ++ more)[n]? = some s
  exact List.getElem?_append_left (List.getElem?_eq_some_iff.1 hn).1 ▸ hn

end Versions

end Phlo.Library
