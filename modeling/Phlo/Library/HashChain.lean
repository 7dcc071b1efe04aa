import Mathlib.Data.List.Basic

/-!
# Chains of hashes

Each record of a chain names the hash of the record before it.  When the hashes of some chains do not
collide, any sequence of their records that is linked from the start follows one of them.

* `Linked.getElem` — what a record of a linked list names;
* `Linked.follows` — a linked list that goes on from a record of a chain goes on like the chain;
* `Linked.prefix_iff` — a linked list of sealed records is a prefix of the chain its first record is in,
  and of no other.
-/

namespace Phlo.Library

variable {ι P H : Type}

/-- Each record names the hash of the one before it, the first one `h`. -/
def Linked (tag prev : P → H) : H → List P → Prop
  | _, [] => True
  | h, p :: ps => prev p = h ∧ Linked tag prev (tag p) ps

/-- Chains from one start whose hashes do not collide, with every record in one place. -/
structure Chains (tag prev : P → H) (genesis : H) (chain : ι → List P) : Prop where
  linked : ∀ i, Linked tag prev genesis (chain i)
  collisionFree : ∀ i j, ∀ p ∈ chain i, ∀ q ∈ chain j, tag p = tag q → p = q
  notGenesis : ∀ i, ∀ p ∈ chain i, tag p ≠ genesis
  place : ∀ (i j : ι) (m n : ℕ) (p : P), (chain i)[m]? = some p → (chain j)[n]? = some p → i = j ∧ m = n

namespace Linked

variable {tag prev : P → H} {genesis : H} {chain : ι → List P}

theorem head {h : H} {ps : List P} (hl : Linked tag prev h ps) {p : P} (hp : ps[0]? = some p) : prev p = h := by
  cases ps with
  | nil => cases hp
  | cons q qs =>
    cases hp
    exact hl.1

/-- A record that is not the first names the hash of the one before it. -/
theorem getElem {h : H} {ps : List P} (hl : Linked tag prev h ps) {n : ℕ} {q : P}
    (hq : ps[n + 1]? = some q) : ∃ p, ps[n]? = some p ∧ prev q = tag p := by
  induction ps generalizing h n with
  | nil => cases hq
  | cons p ps ih =>
    cases n with
    | zero => exact ⟨p, rfl, head hl.2 hq⟩
    | succ n => exact ih hl.2 hq

theorem follows (hc : Chains tag prev genesis chain) {i : ι} :
    ∀ {ps : List P} {m : ℕ} {p : P}, (chain i)[m]? = some p → Linked tag prev (tag p) ps →
      (∀ q ∈ ps, ∃ j, q ∈ chain j) → ps <+: (chain i).drop (m + 1)
  | [], _, _, _, _, _ => List.nil_prefix
  | q :: qs, m, p, hp, hl, hs => by
    obtain ⟨j, hj⟩ := hs q List.mem_cons_self
    obtain ⟨n, hn⟩ := List.mem_iff_getElem?.1 hj
    have hpmem : p ∈ chain i := List.mem_of_getElem? hp
    have hnext : (chain i)[m + 1]? = some q := by
      cases n with
      | zero =>
        have hfirst : tag p = genesis := hl.1.symm.trans (head (hc.linked j) hn)
        exact absurd hfirst (hc.notGenesis i p hpmem)
      | succ n =>
        obtain ⟨p', hp', hprev⟩ := getElem (hc.linked j) hn
        have hsame : p' = p :=
          hc.collisionFree j i p' (List.mem_of_getElem? hp') p hpmem (hprev.symm.trans hl.1)
        obtain ⟨rfl, rfl⟩ := hc.place j i n m p (hsame ▸ hp') hp
        exact hn
    have hdrop : (chain i).drop (m + 1) = q :: (chain i).drop (m + 1 + 1) := by
      obtain ⟨hlt, hget⟩ := List.getElem?_eq_some_iff.1 hnext
      rw [List.drop_eq_getElem_cons hlt, hget]
    rw [hdrop]
    exact List.cons_prefix_cons.2 ⟨rfl, follows hc hnext hl.2 fun r hr => hs r (List.mem_cons_of_mem q hr)⟩

theorem prefix_iff (hc : Chains tag prev genesis chain) {ps : List P}
    (hl : Linked tag prev genesis ps) (hs : ∀ q ∈ ps, ∃ j, q ∈ chain j) (i : ι) :
    ps <+: chain i ↔ ∀ p ∈ ps.head?, p ∈ chain i := by
  cases ps with
  | nil =>
    constructor
    · intro _ p hp
      cases hp
    · intro _
      exact List.nil_prefix
  | cons p ps =>
    constructor
    · intro h q hq
      cases hq
      exact h.subset List.mem_cons_self
    · intro h
      obtain ⟨n, hn⟩ := List.mem_iff_getElem?.1 (h p rfl)
      have hzero : (chain i)[0]? = some p := by
        cases n with
        | zero => exact hn
        | succ n =>
          obtain ⟨p', hp', hprev⟩ := getElem (hc.linked i) hn
          have hgenesis : tag p' = genesis := hprev.symm.trans hl.1
          exact absurd hgenesis (hc.notGenesis i p' (List.mem_of_getElem? hp'))
      have htail := follows hc hzero hl.2 fun r hr => hs r (List.mem_cons_of_mem p hr)
      cases hchain : chain i with
      | nil => simp [hchain] at hzero
      | cons p' ps' =>
        rw [hchain] at hzero htail
        cases hzero
        exact List.cons_prefix_cons.2 ⟨rfl, htail⟩

end Linked

end Phlo.Library
