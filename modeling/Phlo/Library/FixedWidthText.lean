import Mathlib.Data.List.Lex
import Mathlib.Data.String.Basic

/-!
# The order of texts made of fields of fixed width

Texts are compared character by character.  A field of fixed width decides before what follows it, and
numbers padded with zeros to one width are ordered by their values.

* `append_lt_append_iff` — comparing after fields of one length;
* `fixedDigits_lt_iff` — the order of padded numbers;
* `readFixed_fixedDigits` — reading a padded number back;
* `lt_push_iff` — the least text above another one.
-/

namespace Phlo.Library

section

variable {α : Type} [LinearOrder α]

theorem append_lt_append_iff {a b : List α} (h : a.length = b.length) (c d : List α) :
    a ++ c < b ++ d ↔ a < b ∨ a = b ∧ c < d := by
  induction a generalizing b with
  | nil =>
    have hb : b = [] := List.eq_nil_of_length_eq_zero h.symm
    subst hb
    simp
  | cons x a ih =>
    match b, h with
    | y :: b, h =>
      have hlen : a.length = b.length := Nat.succ.inj h
      rw [List.cons_append, List.cons_append, List.cons_lt_cons_iff, List.cons_lt_cons_iff, ih hlen, List.cons.injEq]
      constructor
      · rintro (hxy | ⟨rfl, hab | ⟨rfl, hcd⟩⟩)
        · exact Or.inl (Or.inl hxy)
        · exact Or.inl (Or.inr ⟨rfl, hab⟩)
        · exact Or.inr ⟨⟨rfl, rfl⟩, hcd⟩
      · rintro ((hxy | ⟨rfl, hab⟩) | ⟨⟨rfl, rfl⟩, hcd⟩)
        · exact Or.inl hxy
        · exact Or.inr ⟨rfl, Or.inl hab⟩
        · exact Or.inr ⟨rfl, Or.inr ⟨rfl, hcd⟩⟩

/-- Nothing stands between a text and the text with the least character after it. -/
theorem lt_concat_iff {x : α} (hx : ∀ y, x ≤ y) (a b : List α) : b < a ++ [x] ↔ ¬a < b := by
  induction a generalizing b with
  | nil =>
    cases b with
    | nil => simp
    | cons y b =>
      have hnot : ¬y < x := not_lt.2 (hx y)
      simp [List.cons_lt_cons_iff, hnot]
  | cons z a ih =>
    cases b with
    | nil => simp
    | cons y b =>
      rw [List.cons_append, List.cons_lt_cons_iff, List.cons_lt_cons_iff, ih]
      rcases lt_trichotomy y z with h | rfl | h
      · simp [h, h.not_gt, h.ne']
      · simp
      · simp [h, h.not_gt, h.ne']

end

/-! ### Padded numbers -/

/-- The last `width` decimal digits of a number. -/
def fixedDigits : ℕ → ℕ → List Char
  | 0, _ => []
  | width + 1, n => fixedDigits width (n / 10) ++ [(n % 10).digitChar]

@[simp] theorem length_fixedDigits (width n : ℕ) : (fixedDigits width n).length = width := by
  induction width generalizing n with
  | zero => rfl
  | succ width ih => rw [fixedDigits, List.length_append, ih, List.length_singleton]

theorem digitChar_lt_iff {a b : ℕ} (ha : a < 10) (hb : b < 10) : a.digitChar < b.digitChar ↔ a < b := by
  have hall : ∀ a < 10, ∀ b < 10, (a.digitChar < b.digitChar ↔ a < b) := by decide
  exact hall a ha b hb

variable {width : ℕ}

/-- Padded numbers are ordered by their values. -/
theorem fixedDigits_lt_iff {a b : ℕ} (ha : a < 10 ^ width) (hb : b < 10 ^ width) :
    fixedDigits width a < fixedDigits width b ↔ a < b := by
  induction width generalizing a b with
  | zero =>
    have ha : a = 0 := by simpa using ha
    have hb : b = 0 := by simpa using hb
    subst ha hb
    simp [fixedDigits]
  | succ width ih =>
    have hda : a / 10 < 10 ^ width := by omega
    have hdb : b / 10 < 10 ^ width := by omega
    have hinj : fixedDigits width (a / 10) = fixedDigits width (b / 10) ↔ a / 10 = b / 10 := by
      constructor
      · intro h
        have hab : ¬a / 10 < b / 10 := fun hlt => ((ih hda hdb).2 hlt).ne h
        have hba : ¬b / 10 < a / 10 := fun hlt => ((ih hdb hda).2 hlt).ne h.symm
        omega
      · intro h
        rw [h]
    rw [fixedDigits, fixedDigits, append_lt_append_iff (by simp), ih hda hdb, hinj]
    have hlast : [(a % 10).digitChar] < [(b % 10).digitChar] ↔ a % 10 < b % 10 := by
      rw [← digitChar_lt_iff (Nat.mod_lt a (by decide)) (Nat.mod_lt b (by decide))]
      simp [List.cons_lt_cons_iff]
    rw [hlast]
    omega

theorem fixedDigits_inj {a b : ℕ} (ha : a < 10 ^ width) (hb : b < 10 ^ width) :
    fixedDigits width a = fixedDigits width b ↔ a = b := by
  constructor
  · intro h
    have hab : ¬a < b := fun hlt => ((fixedDigits_lt_iff ha hb).2 hlt).ne h
    have hba : ¬b < a := fun hlt => ((fixedDigits_lt_iff hb ha).2 hlt).ne h.symm
    omega
  · intro h
    rw [h]

theorem fixedDigits_zero (width : ℕ) : fixedDigits width 0 = List.replicate width '0' := by
  induction width with
  | zero => rfl
  | succ width ih => rw [fixedDigits, Nat.zero_div, ih, List.replicate_succ']; rfl

/-- Filling up with zeros on the left. -/
theorem replicate_append_toDigits {n : ℕ} (hwidth : 0 < width) (hn : n < 10 ^ width) :
    List.replicate (width - (Nat.toDigits 10 n).length) '0' ++ Nat.toDigits 10 n = fixedDigits width n := by
  induction width generalizing n with
  | zero => cases hwidth
  | succ width ih =>
    by_cases hsmall : n < 10
    · have hdiv : n / 10 = 0 := Nat.div_eq_of_lt hsmall
      rw [Nat.toDigits_of_lt_base hsmall, fixedDigits, hdiv, fixedDigits_zero, Nat.mod_eq_of_lt hsmall]
      rfl
    · have hbase : 10 ≤ n := by omega
      have hwidth : 0 < width := by
        rcases Nat.eq_zero_or_pos width with rfl | h
        · omega
        · exact h
      have hlen : width + 1 - (Nat.toDigits 10 n).length = width - (Nat.toDigits 10 (n / 10)).length := by
        rw [Nat.toDigits_of_base_le (by decide) hbase, List.length_append, List.length_singleton]
        omega
      rw [hlen, Nat.toDigits_of_base_le (by decide) hbase, ← List.append_assoc, ih hwidth (by omega), fixedDigits]

/-! ### Reading padded numbers -/

def readFixedFrom (value : ℕ) : ℕ → List Char → Option (ℕ × List Char)
  | 0, text => some (value, text)
  | _ + 1, [] => none
  | width + 1, c :: text =>
    if c.isDigit then readFixedFrom (10 * value + (c.toNat - '0'.toNat)) width text else none

def readFixed (width : ℕ) (text : List Char) : Option (ℕ × List Char) := readFixedFrom 0 width text

theorem readFixedFrom_add (value a b : ℕ) (text : List Char) : readFixedFrom value (a + b) text =
      (readFixedFrom value a text).bind fun read => readFixedFrom read.1 b read.2 := by
  induction a generalizing value text with
  | zero =>
    rw [Nat.zero_add]
    rfl
  | succ a ih =>
    rw [Nat.add_right_comm]
    cases text with
    | nil => rfl
    | cons c text =>
      rw [readFixedFrom, readFixedFrom]
      split
      · rw [ih]
      · rfl

theorem readFixedFrom_digit (value : ℕ) {n : ℕ} (hn : n < 10) (rest : List Char) :
    readFixedFrom value 1 (n.digitChar :: rest) = some (10 * value + n, rest) := by
  have hdigit : ∀ n < 10, n.digitChar.isDigit = true ∧ n.digitChar.toNat - '0'.toNat = n := by decide
  have ⟨hchar, hvalue⟩ := hdigit n hn
  rw [readFixedFrom, if_pos hchar, hvalue]
  rfl

theorem readFixedFrom_fixedDigits (value : ℕ) {n : ℕ} (hn : n < 10 ^ width) (rest : List Char) :
    readFixedFrom value width (fixedDigits width n ++ rest) = some (value * 10 ^ width + n, rest) := by
  induction width generalizing n rest with
  | zero =>
    have : n = 0 := by simpa using hn
    subst this
    simp [readFixedFrom, fixedDigits]
  | succ width ih =>
    have hdiv : n / 10 < 10 ^ width := by omega
    rw [fixedDigits, List.append_assoc, List.singleton_append, readFixedFrom_add, ih hdiv, Option.bind_some,
      readFixedFrom_digit _ (Nat.mod_lt n (by decide))]
    have hvalue : 10 * (value * 10 ^ width + n / 10) + n % 10 = value * 10 ^ (width + 1) + n := by
      rw [Nat.pow_succ, Nat.mul_add, Nat.mul_left_comm, Nat.mul_comm 10]
      omega
    rw [hvalue]

theorem readFixed_fixedDigits {n : ℕ} (hn : n < 10 ^ width) (rest : List Char) :
    readFixed width (fixedDigits width n ++ rest) = some (n, rest) := by
  rw [readFixed, readFixedFrom_fixedDigits 0 hn, Nat.zero_mul, Nat.zero_add]

/-! ### The least text above another one -/

theorem lt_push_iff (s t : String) : s < t.push '\x00' ↔ ¬t < s := by
  rw [String.lt_iff_toList_lt, String.lt_iff_toList_lt, String.toList_push]
  exact lt_concat_iff (fun c => Char.le_def.2 (Nat.zero_le _)) t.toList s.toList

end Phlo.Library
