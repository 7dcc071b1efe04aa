import Mathlib.Data.List.Basic
import Mathlib.Tactic.TypeStar
import Phlo.Library.Fallible

/-!
# Walks that visit no place twice

A loop that goes from place to place, remembers where it has been and fails when it comes back: a
retry chain, a cursor through pages.  `walk` is that loop with fuel, carrying a state.

* `walk_ne_none` — over finitely many places, one unit of fuel more than there are places is enough;
* `walk_raises` — whatever the walk fails with, a visit has failed with, or it is the refusal to come
  back.
-/

namespace Phlo.Library

variable {ε : Type} {κ σ α : Type}

/-- Where a visit leads: to the end of the walk or to another place. -/
inductive Visit (κ σ α : Type) where
  | done (a : α)
  | next (k : κ) (s : σ)

section

variable [DecidableEq κ]

/-- Visit `k`, then go where the visit leads; none when the fuel runs out.  A visit sees the places
seen so far, its own included. -/
def walk (visit : List κ → κ → σ → Except ε (Visit κ σ α)) (repeated : ε) :
    ℕ → List κ → κ → σ → Option (Except ε α)
  | 0, _, _, _ => none
  | fuel + 1, seen, k, s =>
    if k ∈ seen then some (.error repeated)
    else match visit (k :: seen) k s with
      | .error e => some (.error e)
      | .ok (.done a) => some (.ok a)
      | .ok (.next k' s') => walk visit repeated fuel (k :: seen) k' s'

variable {visit : List κ → κ → σ → Except ε (Visit κ σ α)} {repeated : ε}

theorem unseen_lt {places seen : List κ} {k : κ} (hk : k ∈ places) (hnew : k ∉ seen) :
    (places.filter (· ∉ k :: seen)).length < (places.filter (· ∉ seen)).length := by
  have hsplit : places.filter (· ∉ k :: seen) = (places.filter (· ∉ seen)).filter (· ≠ k) := by
    rw [List.filter_filter]
    congr 1
    funext x
    simp [not_or]
  rw [hsplit]
  refine List.length_filter_lt_length_iff_exists.2 ⟨k, ?_, ?_⟩
  · simpa using ⟨hk, hnew⟩
  · simp

theorem walk_ne_none {places : List κ}
    (hnext : ∀ seen k s k' s', k ∈ places → visit seen k s = .ok (.next k' s') → k' ∈ places)
    {fuel : ℕ} {seen : List κ} {k : κ} {s : σ} (hk : k ∈ places) (hfuel : (places.filter (· ∉ seen)).length < fuel) :
    walk visit repeated fuel seen k s ≠ none := by
  induction fuel generalizing seen k s with
  | zero => exact absurd hfuel (Nat.not_lt_zero _)
  | succ fuel ih =>
    rw [walk]
    split
    · exact Option.some_ne_none _
    next hnew =>
      split
      · exact Option.some_ne_none _
      · exact Option.some_ne_none _
      next k' s' hvisit =>
        have hless := unseen_lt hk hnew
        exact ih (hnext _ _ _ _ _ hk hvisit) (by omega)

theorem walk_ends (places : List κ)
    (hnext : ∀ seen k s k' s', k ∈ places → visit seen k s = .ok (.next k' s') → k' ∈ places)
    {fuel : ℕ} (seen : List κ) {k : κ} (s : σ) (hk : k ∈ places) (hfuel : places.length < fuel) :
    walk visit repeated fuel seen k s ≠ none :=
  walk_ne_none hnext hk (Nat.lt_of_le_of_lt (List.length_filter_le _ _) hfuel)

theorem walk_raises {P : ε → Prop} (hrepeated : P repeated)
    (hvisit : ∀ seen k s, Raises P (visit seen k s)) {fuel : ℕ} {seen : List κ} {k : κ} {s : σ}
    {x : Except ε α} (h : walk visit repeated fuel seen k s = some x) : Raises P x := by
  induction fuel generalizing seen k s with
  | zero => cases h
  | succ fuel ih =>
    rw [walk] at h
    split at h
    · cases h
      intro e he
      cases he
      exact hrepeated
    · split at h
      next e he =>
        cases h
        intro e' he'
        cases he'
        exact hvisit _ _ _ e he
      next a ha =>
        cases h
        intro e he
        cases he
      · exact ih h

end

end Phlo.Library
