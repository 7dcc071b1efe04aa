import Mathlib.Data.List.Infix
import Mathlib.Logic.Function.Basic

/-!
# Journals in numbered segments

The segment under number zero is the one that is written to; higher numbers are older.  A rotation takes the oldest
segment away and moves every other one up by one, from the old end on.

* `joined_replace` — moving a segment to a free place changes nothing of the whole;
* `rotate_shift` — what a complete rotation leaves under each number.
-/

namespace Phlo.Library

variable {α : Type}

abbrev Segments (α : Type) := ℕ → Option (List α)

namespace Segments

/-- The segments from a number down, oldest first. -/
def joined (files : Segments α) : ℕ → List α
  | 0 => (files 0).getD []
  | n + 1 => (files (n + 1)).getD [] ++ joined files n

variable {files : Segments α}

theorem joined_congr {files' : Segments α} {n : ℕ} (h : ∀ i ≤ n, files i = files' i) :
    joined files n = joined files' n := by
  induction n with
  | zero => rw [joined, joined, h 0 (le_refl 0)]
  | succ n ih =>
    rw [joined, joined, h (n + 1) (le_refl _), ih fun i hi => h i (Nat.le_succ_of_le hi)]

def unlink (files : Segments α) (i : ℕ) : Segments α := Function.update files i none

theorem unlink_self (files : Segments α) (i : ℕ) : unlink files i i = none := Function.update_self _ _ _

/-- Move a segment up by one, if it is there. -/
def replace (files : Segments α) (i : ℕ) : Segments α :=
  match files i with
  | some segment => Function.update (Function.update files (i + 1) (some segment)) i none
  | none => files

def write (files : Segments α) (a : α) : Segments α := Function.update files 0 (some ((files 0).getD [] ++ [a]))

theorem joined_write (files : Segments α) (a : α) (n : ℕ) : joined (write files a) n = joined files n ++ [a] := by
  induction n with
  | zero =>
    rw [joined, write, Function.update_self]
    rfl
  | succ n ih =>
    have hother : write files a (n + 1) = files (n + 1) := Function.update_of_ne (Nat.succ_ne_zero n) _ _
    rw [joined, joined, hother, ih, List.append_assoc]

theorem joined_unlink_suffix (files : Segments α) (n : ℕ) : joined (unlink files n) n <:+ joined files n := by
  cases n with
  | zero =>
    rw [joined, unlink, Function.update_self]
    exact List.nil_suffix
  | succ n =>
    have hrest : joined (unlink files (n + 1)) n = joined files n :=
      joined_congr fun i hi => Function.update_of_ne (Nat.ne_of_lt (Nat.lt_succ_of_le hi)) _ _
    rw [joined, joined, unlink, Function.update_self, Option.getD_none, List.nil_append]
    exact ⟨(files (n + 1)).getD [], congrArg _ hrest⟩

theorem unlink_eq {i : ℕ} (h : files i = none) : unlink files i = files :=
  Function.update_eq_self_iff.2 h.symm

theorem replace_of_ne (files : Segments α) {i j : ℕ} (hi : j ≠ i) (hnext : j ≠ i + 1) :
    replace files i j = files j := by
  cases h : files i with
  | none => rw [replace, h]
  | some segment =>
    rw [replace, h]
    exact (Function.update_of_ne hi _ _).trans (Function.update_of_ne hnext _ _)

theorem replace_self (files : Segments α) (i : ℕ) : replace files i i = none := by
  cases h : files i with
  | none =>
    rw [replace, h]
    exact h
  | some segment =>
    rw [replace, h]
    exact Function.update_self _ _ _

theorem replace_next {i : ℕ} (h : files (i + 1) = none) : replace files i (i + 1) = files i := by
  cases hi : files i with
  | none =>
    rw [replace, hi]
    exact h
  | some segment =>
    rw [replace, hi]
    exact (Function.update_of_ne (Nat.succ_ne_self i) _ _).trans (Function.update_self _ _ _)

theorem joined_replace {i n : ℕ} (h : files (i + 1) = none) (hi : i + 1 ≤ n) :
    joined (replace files i) n = joined files n := by
  induction n, hi using Nat.le_induction with
  | base =>
    have hbelow : ∀ k, (∀ j ≤ k, j ≠ i) → k ≤ i → joined (replace files i) k = joined files k :=
      fun k hne hk => joined_congr fun j hj => replace_of_ne files (hne j hj) (by omega)
    have hlast : joined files i = (files i).getD [] ++ joined (replace files i) i := by
      cases i with
      | zero =>
        rw [joined, joined, replace_self, Option.getD_none, List.append_nil]
      | succ i =>
        rw [joined, joined, replace_self, Option.getD_none, List.nil_append, hbelow i (fun j hj => by omega) (by omega)]
    rw [joined, joined, replace_next h, h, Option.getD_none, List.nil_append, hlast]
  | succ n hle ih =>
    rw [joined, joined, ih, replace_of_ne files (by omega) (by omega)]

/-! ### Rotations -/

/-- One file operation of a rotation. -/
inductive RotationStep where
  | unlink (i : ℕ)
  | replace (i : ℕ)
  deriving DecidableEq

def apply (files : Segments α) : RotationStep → Segments α
  | .unlink i => files.unlink i
  | .replace i => files.replace i

def run (files : Segments α) (steps : List RotationStep) : Segments α := steps.foldl apply files

def moves : ℕ → List RotationStep
  | 0 => []
  | n + 1 => .replace n :: moves n

def rotation (n : ℕ) : List RotationStep := .unlink n :: moves n

/-- Moves from a free place on keep the whole, wherever they stop. -/
theorem joined_moves {m n : ℕ} (h : files m = none) (hle : m ≤ n) (k : ℕ) :
    joined (run files ((moves m).take k)) n = joined files n := by
  induction m generalizing files k with
  | zero => rw [moves, List.take_nil, run, List.foldl_nil]
  | succ m ih =>
    cases k with
    | zero => rfl
    | succ k =>
      rw [moves, List.take_succ_cons, run, List.foldl_cons]
      show joined (run (replace files m) ((moves m).take k)) n = _
      rw [ih (replace_self files m) (by omega), joined_replace h hle]

/-- A rotation loses the oldest segment or nothing, wherever it stops. -/
theorem joined_rotate (files : Segments α) (n k : ℕ) :
    joined (run files ((rotation n).take k)) n <:+ joined files n := by
  cases k with
  | zero => exact List.suffix_refl _
  | succ k =>
    rw [rotation, List.take_succ_cons, run, List.foldl_cons]
    show joined (run (unlink files n) ((moves n).take k)) n <:+ _
    rw [joined_moves (unlink_self files n) (le_refl n)]
    exact joined_unlink_suffix files n

theorem joined_rotate_of_free {n : ℕ} (h : files n = none) (k : ℕ) :
    joined (run files ((rotation n).take k)) n = joined files n := by
  cases k with
  | zero => rfl
  | succ k =>
    rw [rotation, List.take_succ_cons, run, List.foldl_cons]
    show joined (run (unlink files n) ((moves n).take k)) n = _
    rw [unlink_eq h, joined_moves h (le_refl n)]

theorem run_moves {m : ℕ} (h : files m = none) :
    (∀ i < m, run files (moves m) (i + 1) = files i) ∧ (run files (moves m) 0 = none) ∧
      ∀ i, m < i → run files (moves m) i = files i := by
  induction m generalizing files with
  | zero => exact ⟨fun i hi => absurd hi (Nat.not_lt_zero i), h, fun i _ => rfl⟩
  | succ m ih =>
    have hrun : run files (moves (m + 1)) = run (replace files m) (moves m) := rfl
    have ⟨hbelow, hzero, habove⟩ := ih (replace_self files m)
    rw [hrun]
    refine ⟨fun i hi => ?_, hzero, fun i hi => ?_⟩
    · rcases Nat.lt_succ_iff_lt_or_eq.1 hi with hlt | heq
      · rw [hbelow i hlt, replace_of_ne files (by omega) (by omega)]
      · rw [heq, habove (m + 1) (Nat.lt_succ_self m), replace_next h]
    · rw [habove i (by omega), replace_of_ne files (by omega) (by omega)]

/-- A complete rotation moves every segment but the oldest. -/
theorem rotate_shift (files : Segments α) (n : ℕ) :
    (∀ i < n, run files (rotation n) (i + 1) = files i) ∧ run files (rotation n) 0 = none := by
  have hrun : run files (rotation n) = run (unlink files n) (moves n) := rfl
  have ⟨hbelow, hzero, _⟩ := run_moves (unlink_self files n)
  rw [hrun]
  refine ⟨fun i hi => ?_, hzero⟩
  rw [hbelow i hi, unlink, Function.update_of_ne (Nat.ne_of_lt hi)]

end Segments

end Phlo.Library
