import Mathlib.Data.List.Induction
import Phlo.Audit.Store

/-!
# Rows with consecutive numbers

The rows of a surface are numbered one after the other, so the newest of them is the last.

* `Numbered.lt` — the numbers of the rows;
* `Numbered.head_sortBy`, `Numbered.elim_getLast` — what `append_event` finds at the end of a chain.
-/

namespace Phlo.Audit

open Phlo.Library

def Numbered : ℤ → List AuditRow → Prop
  | _, [] => True
  | n, row :: rows => row.sequenceNumber = n ∧ Numbered (n + 1) rows

variable {n : ℤ} {rows : List AuditRow}

theorem Numbered.lt (h : Numbered n rows) {row : AuditRow} (hrow : row ∈ rows) :
    n ≤ row.sequenceNumber ∧ row.sequenceNumber < n + rows.length := by
  induction rows generalizing n with
  | nil => cases hrow
  | cons first rows ih =>
    rw [List.length_cons]
    obtain rfl | hrow := List.mem_cons.1 hrow
    · have hnumber := h.1
      omega
    · have hbounds := ih h.2 hrow
      omega

theorem Numbered.increasing (h : Numbered n rows) : rows.Pairwise fun a b => a.sequenceNumber < b.sequenceNumber := by
  induction rows generalizing n with
  | nil => exact List.Pairwise.nil
  | cons first rows ih =>
    refine List.Pairwise.cons (fun row hrow => ?_) (ih h.2)
    have hbounds := h.2.lt hrow
    have hfirst := h.1
    omega

theorem Numbered.sortBy_eq (h : Numbered n rows) : sortBy AuditRow.sequenceNumber rows = rows :=
  (h.increasing.imp fun hab => hab.le).insertionSort_eq

theorem Numbered.head_sortBy (h : Numbered n rows) :
    (sortBy (fun row => -row.sequenceNumber) rows).head? = rows.getLast? := by
  have hnodup : (rows.reverse.map fun row => -row.sequenceNumber).Nodup := by
    rw [List.Nodup, List.pairwise_map, List.pairwise_reverse]
    exact h.increasing.imp fun hab => by omega
  have hsorted : rows.reverse.Pairwise fun a b => -a.sequenceNumber ≤ -b.sequenceNumber := by
    rw [List.pairwise_reverse]
    exact h.increasing.imp fun hab => by omega
  have hself : sortBy (fun row : AuditRow => -row.sequenceNumber) rows.reverse = rows.reverse :=
    hsorted.insertionSort_eq
  rw [← sortBy_eq_of_perm _ (List.reverse_perm _) hnodup, hself, List.head?_reverse]

theorem Numbered.elim_getLast (h : Numbered 1 rows) :
    (rows.getLast?.elim 1 fun row => row.sequenceNumber + 1) = 1 + (rows.length : ℤ) := by
  cases hlast : rows.getLast? with
  | none =>
    rw [List.getLast?_eq_none_iff.1 hlast]
    rfl
  | some row =>
    obtain ⟨before, rfl⟩ := List.getLast?_eq_some_iff.1 hlast
    have hnumber : ∀ {n : ℤ}, Numbered n (before ++ [row]) → row.sequenceNumber = n + before.length := by
      clear h hlast
      induction before with
      | nil =>
        intro n h
        rw [h.1]
        exact (Int.add_zero n).symm
      | cons first before ih =>
        intro n h
        have hrow := ih h.2
        rw [hrow, List.length_cons]
        omega
    show row.sequenceNumber + 1 = _
    rw [hnumber h, List.length_append, List.length_singleton]
    omega

end Phlo.Audit
