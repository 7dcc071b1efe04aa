import Mathlib.Logic.Relation
import Phlo.Library.VisitedWalk

/-!
# Links between finitely many places

A partial function `next` links every place to at most one other.  Following the links from a place
comes to an end exactly when none of the places on the way leads back to itself.

* `acc_of_acyclic` — without a way back, the links can be followed by recursion;
* `not_cyclic_of_acc` — and where they can be followed by recursion, there is no way back.
-/

namespace Phlo.Library

open Relation

variable {α : Type} {next : α → Option α}

def LinksTo (next : α → Option α) (a b : α) : Prop := next a = some b

theorem acc_of_acyclic [DecidableEq α] {places : List α} (hplaces : ∀ a b, next a = some b → b ∈ places)
    {a : α} (hacyclic : ∀ b, ReflTransGen (LinksTo next) a b → ¬TransGen (LinksTo next) b b) :
    Acc (fun b a => LinksTo next a b) a := by
  have hwalk : ∀ (n : ℕ) (seen : List α) (c : α), (places.filter (· ∉ seen)).length = n → c ∈ seen →
      (∀ d ∈ seen, ReflTransGen (LinksTo next) d c) → ReflTransGen (LinksTo next) a c →
      Acc (fun b a => LinksTo next a b) c := by
    intro n
    induction n using Nat.strongRecOn with
    | _ n ih =>
      intro seen c hn hc hseen hreach
      refine Acc.intro c fun b hb => ?_
      have hreach' : ReflTransGen (LinksTo next) a b := hreach.tail hb
      have hnew : b ∉ seen := fun hmem =>
        hacyclic b hreach' (TransGen.tail' (hseen b hmem) hb)
      have hless := unseen_lt (hplaces c b hb) hnew
      refine ih _ (by omega) (b :: seen) b rfl List.mem_cons_self (fun d hd => ?_) hreach'
      rcases List.mem_cons.1 hd with rfl | hd
      · exact ReflTransGen.refl
      · exact (hseen d hd).tail hb
  refine hwalk _ [a] a rfl List.mem_cons_self (fun d hd => ?_) ReflTransGen.refl
  cases List.mem_singleton.1 hd
  exact ReflTransGen.refl

theorem not_cyclic_of_acc {a : α} (h : Acc (fun b a => LinksTo next a b) a) : ¬TransGen (LinksTo next) a a := by
  induction h with
  | intro a _ ih =>
    intro hcycle
    obtain ⟨b, hab, hba⟩ := TransGen.head'_iff.1 hcycle
    exact ih b hab (TransGen.tail' hba hab)

end Phlo.Library
