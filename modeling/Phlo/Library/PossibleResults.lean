import Phlo.Library.Interleaving

/-!
# What a program may return

A program calls operations; which result it ends with depends on their answers.  `Returns` holds of every
result that some answers lead to, whatever the operations do to any state.

* `returns_pure`, `returns_bind`, `returns_perform_bind` — the results of a program by its parts;
* `bind_assoc`, `pure_bind` — programs in sequence.
-/

namespace Phlo.Library.Program

variable {Op : Type → Type} {α β γ : Type}

/-- Some answers to its calls make the program end with this result. -/
inductive Returns : Program Op α → α → Prop
  | done (a : α) : Returns (.done a) a
  | call {β : Type} (op : Op β) (rest : β → Program Op α) (answer : β) {a : α} :
      Returns (rest answer) a → Returns (.call op rest) a

@[simp] theorem returns_pure {a b : α} : (pure a : Program Op α).Returns b ↔ b = a := by
  constructor
  · intro h
    cases h with
    | done => rfl
  · rintro rfl
    exact .done _

theorem returns_call {op : Op β} {rest : β → Program Op α} {a : α} :
    (call op rest).Returns a ↔ ∃ answer, (rest answer).Returns a := by
  constructor
  · intro h
    cases h with
    | call _ _ answer h => exact ⟨answer, h⟩
  · rintro ⟨answer, h⟩
    exact .call op rest answer h

theorem returns_bind {p : Program Op α} {f : α → Program Op β} {b : β} :
    (p >>= f).Returns b ↔ ∃ a, p.Returns a ∧ (f a).Returns b := by
  induction p with
  | done a =>
    constructor
    · intro h
      exact ⟨a, .done a, h⟩
    · rintro ⟨a', h, hb⟩
      cases h with
      | done => exact hb
  | call op rest ih =>
    show (call op fun answer => rest answer >>= f).Returns b ↔ _
    rw [returns_call]
    constructor
    · rintro ⟨answer, h⟩
      obtain ⟨a, ha, hb⟩ := (ih answer).1 h
      exact ⟨a, .call op rest answer ha, hb⟩
    · rintro ⟨a, ha, hb⟩
      obtain ⟨answer, ha⟩ := returns_call.1 ha
      exact ⟨answer, (ih answer).2 ⟨a, ha, hb⟩⟩

theorem returns_perform_bind {op : Op β} {f : β → Program Op α} {a : α} :
    (perform op >>= f).Returns a ↔ ∃ answer, (f answer).Returns a := returns_call

theorem pure_bind (a : α) (f : α → Program Op β) : (pure a >>= f) = f a := rfl

theorem bind_assoc (p : Program Op α) (f : α → Program Op β) (g : β → Program Op γ) :
    (p >>= f >>= g) = p >>= fun a => f a >>= g := by
  induction p with
  | done a => rfl
  | call op rest ih =>
    show call op (fun answer => rest answer >>= f >>= g) = call op fun answer => rest answer >>= fun a => f a >>= g
    congr 1
    funext answer
    exact ih answer

end Phlo.Library.Program
