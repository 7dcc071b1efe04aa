import Mathlib.Data.List.TakeWhile
import Phlo.Library.KeyedSort

/-!
# Elements with equal keys in a sort

A stable sort keeps the elements of one key in the order they come in.

* `filter_sortBy_eq` — the elements of a key are those of the list, in its order;
* `sortBy_swap` — two such elements at the front of a list are next to each other in the sort;
* `map_sortBy_of_perm` — what depends on the keys only does not depend on the order of the list.
-/

namespace Phlo.Library

variable {α β κ : Type*} [LinearOrder κ]

theorem sortBy_cons (key : α → κ) (a : α) (l : List α) :
    sortBy key (a :: l) = ((sortBy key l).takeWhile fun b => ¬key a ≤ key b) ++
      a :: (sortBy key l).dropWhile fun b => ¬key a ≤ key b :=
  List.orderedInsert_eq_take_drop _ _ _

theorem filter_sortBy_eq (key : α → κ) (k : κ) (l : List α) :
    (sortBy key l).filter (fun a => key a = k) = l.filter fun a => key a = k := by
  induction l with
  | nil => rfl
  | cons a l ih =>
    have hsplit : (sortBy key l).filter (fun b => key b = k) =
        ((sortBy key l).takeWhile fun b => ¬key a ≤ key b).filter (fun b => key b = k) ++
          ((sortBy key l).dropWhile fun b => ¬key a ≤ key b).filter fun b => key b = k := by
      rw [← List.filter_append, List.takeWhile_append_dropWhile]
    rw [sortBy_cons, List.filter_append, List.filter_cons, List.filter_cons, ← ih, hsplit]
    by_cases hk : key a = k
    · -- what is passed over has a smaller key
      have hnone : ((sortBy key l).takeWhile fun b => ¬key a ≤ key b).filter (fun b => key b = k) = [] := by
        refine List.filter_eq_nil_iff.2 fun b hb => ?_
        have hless := List.mem_takeWhile_imp hb
        simp only [decide_eq_true_eq] at hless ⊢
        exact fun heq => hless (le_of_eq (hk.trans heq.symm))
      rw [hnone]
      simp [hk]
    · simp [hk]

theorem sortBy_swap (key : α → κ) {a b : α} (h : key a = key b) (l : List α) :
    ∃ front back, sortBy key (a :: b :: l) = front ++ a :: b :: back ∧
      sortBy key (b :: a :: l) = front ++ b :: a :: back := by
  have hpass : ∀ a b : α, key a = key b → sortBy key (a :: b :: l) =
      ((sortBy key l).takeWhile fun c => ¬key b ≤ key c) ++
        a :: b :: (sortBy key l).dropWhile fun c => ¬key b ≤ key c := by
    intro a b h
    have hall : ∀ c ∈ (sortBy key l).takeWhile fun c => ¬key b ≤ key c, (decide ¬key b ≤ key c) = true :=
      fun c hc => by simpa using List.mem_takeWhile_imp hc
    rw [sortBy_cons, sortBy_cons, h, List.takeWhile_append_of_pos hall, List.dropWhile_append_of_pos hall,
      List.takeWhile_cons_of_neg (by simp), List.dropWhile_cons_of_neg (by simp), List.append_nil]
  refine ⟨_, _, hpass a b h, ?_⟩
  rw [hpass b a h.symm, h]

theorem map_key_sortBy_of_perm (key : α → κ) {l l' : List α} (h : l.Perm l') :
    (sortBy key l).map key = (sortBy key l').map key := by
  have hperm : ((sortBy key l).map key).Perm ((sortBy key l').map key) :=
    (((sortBy_perm key l).trans h).trans (sortBy_perm key l').symm).map key
  exact List.Perm.eq_of_pairwise (fun a b _ _ => le_antisymm)
    (List.pairwise_map.2 (pairwise_sortBy key l)) (List.pairwise_map.2 (pairwise_sortBy key l')) hperm

theorem map_sortBy_of_perm (key : α → κ) (f : α → β) {l l' : List α} (h : l.Perm l')
    (hf : ∀ a ∈ l, ∀ b ∈ l, key a = key b → f a = f b) : (sortBy key l).map f = (sortBy key l').map f := by
  have hkeys := map_key_sortBy_of_perm key h
  have hlength : (sortBy key l).length = (sortBy key l').length := by
    rw [length_sortBy, length_sortBy, h.length_eq]
  refine List.ext_getElem (by rw [List.length_map, List.length_map, hlength]) fun i hi hi' => ?_
  rw [List.length_map] at hi hi'
  rw [List.getElem_map, List.getElem_map]
  refine hf _ ((mem_sortBy key l _).1 (List.getElem_mem hi)) _
    (h.mem_iff.2 ((mem_sortBy key l' _).1 (List.getElem_mem hi'))) ?_
  have hget := congrArg (fun ks : List κ => ks[i]?) hkeys
  simpa [hi, hi'] using hget

end Phlo.Library
