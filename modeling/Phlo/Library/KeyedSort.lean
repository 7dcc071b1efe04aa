import Mathlib.Data.List.Sort
import Mathlib.Data.List.Dedup
import Mathlib.Data.String.Basic
import Mathlib.Data.Prod.Lex

/-!
# Sorting by a key and sorted duplicate-free lists

`sortBy key` is the stable sort by a key, `sortedSet` the sorted list of the distinct members, as
a language's `sorted(xs, key=...)` and `sorted(set(xs))` give them.

* `sortBy_eq_of_perm` — on rows with distinct keys the result does not depend on the order the rows
  come in;
* `sortBy_injective_of_keys` — lists with one sequence of distinct keys are told apart by their sorts;
* `sortedSet_eq_iff` — two lists have one sorted set exactly when they have the same members.
-/

namespace Phlo.Library

variable {α κ : Type*} [LinearOrder κ]

/-- The stable sort of `l` by `key`. -/
def sortBy (key : α → κ) (l : List α) : List α :=
  l.insertionSort fun a b => key a ≤ key b

theorem sortBy_perm (key : α → κ) (l : List α) : (sortBy key l).Perm l :=
  List.perm_insertionSort _ l

theorem length_sortBy (key : α → κ) (l : List α) : (sortBy key l).length = l.length :=
  (sortBy_perm key l).length_eq

theorem mem_sortBy (key : α → κ) (l : List α) (a : α) : a ∈ sortBy key l ↔ a ∈ l :=
  (sortBy_perm key l).mem_iff

theorem pairwise_sortBy (key : α → κ) (l : List α) : (sortBy key l).Pairwise fun a b => key a ≤ key b := by
  have htotal : Std.Total fun a b : α => key a ≤ key b := ⟨fun a b => le_total (key a) (key b)⟩
  have htrans : IsTrans α fun a b => key a ≤ key b := ⟨fun _ _ _ => le_trans⟩
  exact List.pairwise_insertionSort _ l

/-- Rows with distinct keys sort to one list whatever order they are given in. -/
theorem sortBy_eq_of_perm (key : α → κ) {l l' : List α} (hp : l.Perm l')
    (hn : (l.map key).Nodup) : sortBy key l = sortBy key l' := by
  have hperm : (sortBy key l).Perm (sortBy key l') :=
    (sortBy_perm key l).trans (hp.trans (sortBy_perm key l').symm)
  refine List.Perm.eq_of_pairwise ?_ (pairwise_sortBy key l) (pairwise_sortBy key l') hperm
  intro a b ha _ hab hba
  have hal : a ∈ l := (mem_sortBy key l a).1 ha
  have hbl : b ∈ l := hp.mem_iff.2 ((mem_sortBy key l' b).1 ‹_›)
  exact List.inj_on_of_nodup_map hn hal hbl (le_antisymm hab hba)

theorem sortBy_filter (key : α → κ) {l : List α} (hn : (l.map key).Nodup) (p : α → Bool) :
    sortBy key (l.filter p) = (sortBy key l).filter p := by
  have hperm : (sortBy key (l.filter p)).Perm ((sortBy key l).filter p) :=
    (sortBy_perm key _).trans ((sortBy_perm key l).filter p).symm
  have hsub : ((l.filter p).map key).Nodup := hn.sublist (List.filter_sublist.map key)
  refine List.Perm.eq_of_pairwise ?_ (pairwise_sortBy key _)
    ((pairwise_sortBy key l).sublist List.filter_sublist) hperm
  intro a b ha hb hab hba
  have hal : a ∈ l := List.mem_of_mem_filter ((mem_sortBy key _ a).1 ha)
  have hbl : b ∈ l := (mem_sortBy key l b).1 (List.mem_of_mem_filter hb)
  exact List.inj_on_of_nodup_map hn hal hbl (le_antisymm hab hba)

/-- Lists in two parts that a test on the rows tells apart have one sort exactly when their parts
have. -/
theorem sortBy_append_inj (key : α → κ) {p : α → Bool} {a b a' b' : List α}
    (ha : ∀ x ∈ a, p x = true) (ha' : ∀ x ∈ a', p x = true) (hb : ∀ x ∈ b, p x = false)
    (hb' : ∀ x ∈ b', p x = false) (hn : ((a ++ b).map key).Nodup) (hn' : ((a' ++ b').map key).Nodup) :
    sortBy key (a ++ b) = sortBy key (a' ++ b') ↔ sortBy key a = sortBy key a' ∧ sortBy key b = sortBy key b' := by
  have hfront : ∀ a b : List α, (∀ x ∈ a, p x = true) → (∀ x ∈ b, p x = false) → (a ++ b).filter p = a := by
    intro a b ha hb
    have hnone : b.filter p = [] := List.filter_eq_nil_iff.2 fun x hx => by rw [hb x hx]; decide
    rw [List.filter_append, List.filter_eq_self.2 ha, hnone, List.append_nil]
  have hback : ∀ a b : List α, (∀ x ∈ a, p x = true) → (∀ x ∈ b, p x = false) →
      (a ++ b).filter (fun x => !p x) = b := by
    intro a b ha hb
    have hnone : a.filter (fun x => !p x) = [] :=
      List.filter_eq_nil_iff.2 fun x hx => by rw [ha x hx]; decide
    have hall : b.filter (fun x => !p x) = b :=
      List.filter_eq_self.2 fun x hx => by rw [hb x hx]; rfl
    rw [List.filter_append, hall, hnone, List.nil_append]
  constructor
  · intro h
    have hsorted : ∀ q : α → Bool, sortBy key ((a ++ b).filter q) = sortBy key ((a' ++ b').filter q) := by
      intro q
      rw [sortBy_filter key hn, sortBy_filter key hn', h]
    have hp := hsorted p
    have hq := hsorted fun x => !p x
    rw [hfront a b ha hb, hfront a' b' ha' hb'] at hp
    rw [hback a b ha hb, hback a' b' ha' hb'] at hq
    exact ⟨hp, hq⟩
  · intro h
    have hperm : ∀ {l l' : List α}, sortBy key l = sortBy key l' → l.Perm l' := fun {l l'} hl =>
      (sortBy_perm key l).symm.trans (hl ▸ sortBy_perm key l')
    exact sortBy_eq_of_perm key ((hperm h.1).append (hperm h.2)) hn

/-- A sort by a key of what `f` keeps is a sort before `f`. -/
theorem map_sortBy {β : Type*} (key : β → κ) (f : α → β) (l : List α) :
    (sortBy (fun a => key (f a)) l).map f = sortBy key (l.map f) :=
  List.map_insertionSort _ _ f l fun _ _ _ _ => Iff.rfl

theorem sortBy_injective_of_keys (key : α → κ) {l l' : List α} (hk : l.map key = l'.map key)
    (hn : (l.map key).Nodup) (h : sortBy key l = sortBy key l') : l = l' := by
  have hperm : l.Perm l' := (sortBy_perm key l).symm.trans (h ▸ sortBy_perm key l')
  have hlen : l.length = l'.length := hperm.length_eq
  apply List.ext_getElem hlen
  intro i hi hi'
  have hmem : l[i] ∈ l' := hperm.mem_iff.1 (List.getElem_mem hi)
  have hkey : key l[i] = key l'[i] := by
    have hget := congrArg (fun ks : List κ => ks[i]?) hk
    simpa [hi, hi'] using hget
  exact List.inj_on_of_nodup_map (hk ▸ hn) hmem (List.getElem_mem hi') hkey

/-- The distinct members of `l` in increasing order. -/
def sortedSet (l : List κ) : List κ := l.dedup.insertionSort (· ≤ ·)

@[simp] theorem mem_sortedSet (l : List κ) (a : κ) : a ∈ sortedSet l ↔ a ∈ l := by
  rw [sortedSet, (List.perm_insertionSort _ _).mem_iff, List.mem_dedup]

theorem sortedSet_eq_iff (l l' : List κ) : sortedSet l = sortedSet l' ↔ ∀ a, a ∈ l ↔ a ∈ l' := by
  constructor
  · intro h a
    rw [← mem_sortedSet l, h, mem_sortedSet]
  · intro h
    have hperm : l.dedup.Perm l'.dedup :=
      (List.perm_ext_iff_of_nodup l.nodup_dedup l'.nodup_dedup).2 fun a => by
        rw [List.mem_dedup, List.mem_dedup, h]
    have hsorted := ((List.perm_insertionSort (· ≤ ·) l.dedup).trans
      (hperm.trans (List.perm_insertionSort (· ≤ ·) l'.dedup).symm))
    exact List.Perm.eq_of_pairwise (fun a b _ _ => le_antisymm)
      (List.pairwise_insertionSort _ _) (List.pairwise_insertionSort _ _) hsorted

@[simp] theorem sortedSet_eq_nil (l : List κ) : sortedSet l = [] ↔ l = [] := by
  constructor
  · intro h
    rw [List.eq_nil_iff_forall_not_mem]
    intro a ha
    rw [← mem_sortedSet, h] at ha
    exact List.not_mem_nil ha
  · rintro rfl
    rfl

end Phlo.Library
