import Mathlib.Data.List.DropRight
import Mathlib.Data.List.TakeWhile

/-!
# Values behind their length

A value is written as the decimal digits of its length, a separator and the value itself.  The length
need not count all of the value: a class of characters may be left out at its end, provided that what
follows the value does not begin with one of them.

* `decimal_append_inj` — the digits end where the separator stands;
* `append_inj_of_counted` — values with one counted length end at one place.
-/

namespace Phlo.Library

def decimal (n : ℕ) : List Char := Nat.toDigits 10 n

theorem isDigit_of_mem_decimal {n : ℕ} {c : Char} (h : c ∈ decimal n) : c.isDigit = true :=
  Nat.isDigit_of_mem_toDigits (by decide) (by decide) h

theorem decimal_injective : Function.Injective decimal := by
  intro m n h
  calc
    m = Nat.ofDigitChars 10 (Nat.toDigits 10 m) 0 := Nat.ofDigitChars_ten_toDigits.symm
    _ = Nat.ofDigitChars 10 (Nat.toDigits 10 n) 0 := congrArg (fun digits => Nat.ofDigitChars 10 digits 0) h
    _ = n := Nat.ofDigitChars_ten_toDigits

/-- What precedes the first character that fails a test is all there is to take. -/
theorem takeWhile_append_stop {α : Type} {p : α → Bool} {l r : List α} (hl : ∀ a ∈ l, p a = true)
    (hr : ∀ a ∈ r.head?, p a = false) : (l ++ r).takeWhile p = l := by
  rw [List.takeWhile_append_of_pos hl]
  cases r with
  | nil => rw [List.takeWhile_nil, List.append_nil]
  | cons a r =>
    rw [List.takeWhile_cons_of_neg (by rw [hr a rfl]; exact Bool.false_ne_true), List.append_nil]

theorem append_inj_of_stop {α : Type} {p : α → Bool} {l l' r r' : List α} (hl : ∀ a ∈ l, p a = true)
    (hl' : ∀ a ∈ l', p a = true) (hr : ∀ a ∈ r.head?, p a = false) (hr' : ∀ a ∈ r'.head?, p a = false)
    (h : l ++ r = l' ++ r') : l = l' ∧ r = r' := by
  have hfront : l = l' := by rw [← takeWhile_append_stop hl hr, h, takeWhile_append_stop hl' hr']
  refine ⟨hfront, ?_⟩
  rw [hfront] at h
  exact List.append_cancel_left h

theorem decimal_append_inj {separator : Char} (hseparator : separator.isDigit = false) {m n : ℕ}
    {x y : List Char} (h : decimal m ++ separator :: x = decimal n ++ separator :: y) : m = n ∧ x = y := by
  have hstop : ∀ rest : List Char, ∀ c ∈ (separator :: rest).head?, c.isDigit = false := by
    intro rest c hc
    cases hc
    exact hseparator
  obtain ⟨hdigits, hrest⟩ := append_inj_of_stop (fun _ => isDigit_of_mem_decimal)
    (fun _ => isDigit_of_mem_decimal) (hstop x) (hstop y) h
  exact ⟨decimal_injective hdigits, (List.cons.inj hrest).2⟩

/-- The length of a value without the characters of a class at its end. -/
def countedLength {α : Type} (ignored : α → Bool) (value : List α) : ℕ := (value.rdropWhile ignored).length

theorem append_inj_of_counted {α : Type} {ignored : α → Bool} {v w x y : List α}
    (hlength : countedLength ignored v = countedLength ignored w)
    (hx : ∀ a ∈ x.head?, ignored a = false) (hy : ∀ a ∈ y.head?, ignored a = false)
    (h : v ++ x = w ++ y) : v = w ∧ x = y := by
  rw [← List.rdropWhile_append_rtakeWhile (p := ignored) (l := v),
    ← List.rdropWhile_append_rtakeWhile (p := ignored) (l := w), List.append_assoc, List.append_assoc] at h
  obtain ⟨hcounted, hrest⟩ := List.append_inj h hlength
  obtain ⟨hignored, hafter⟩ := append_inj_of_stop (fun _ => List.mem_rtakeWhile_imp)
    (fun _ => List.mem_rtakeWhile_imp) hx hy hrest
  refine ⟨?_, hafter⟩
  rw [← List.rdropWhile_append_rtakeWhile (p := ignored) (l := v), hcounted, hignored,
    List.rdropWhile_append_rtakeWhile]

end Phlo.Library
