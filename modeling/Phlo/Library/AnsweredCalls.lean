import Mathlib.Data.Set.Insert
import Phlo.Library.PossibleResults
import Phlo.Library.RaisingPrograms

/-!
# What a program has been told before it calls

A program acts on the answers it has got, whatever the calls do to the state and whoever else calls in between.
`Learns G told x Q` says that each call of a procedure satisfies `G` of the answers before it, and its value `Q` of
all of them; nothing is assumed of the answers themselves.

* `Learns.bind`, `learns_call` — the rules for sequences and for calls;
* `Silent.learns` — a procedure without the calls that `G` restricts;
* `told_of_reachable` — in every interleaving each call satisfies `G` of what its own program was told.
-/

namespace Phlo.Library

/-- A call and its answer. -/
structure Told (Op : Type → Type) : Type 1 where
  {Answer : Type}
  op : Op Answer
  answer : Answer

/-- A condition on a call, given the answers before it. -/
abbrev Caution (Op : Type → Type) := Set (Told Op) → {β : Type} → Op β → Prop

variable {Op : Type → Type} {α β ε : Type}

/-- Whatever the answers, each call satisfies the condition, and the result another. -/
def Cautious (G : Caution Op) (Q : Set (Told Op) → α → Prop) : Program Op α → Set (Told Op) → Prop
  | .done a, told => Q told a
  | .call op rest, told => G told op ∧ ∀ b, Cautious G Q (rest b) (insert ⟨op, b⟩ told)

/-- Whatever the answers, no call of this kind comes. -/
def Avoids (P : (β : Type) → Op β → Prop) : Program Op α → Prop
  | .done _ => True
  | .call op rest => ¬P _ op ∧ ∀ b, Avoids P (rest b)

variable {G : Caution Op} {P : (β : Type) → Op β → Prop} {told : Set (Told Op)}

theorem Cautious.bind_program {Q : Set (Told Op) → β → Prop} {R : Set (Told Op) → α → Prop} {p : Program Op α}
    {f : α → Program Op β} (h : Cautious G R p told)
    (hf : ∀ a told', told ⊆ told' → R told' a → Cautious G Q (f a) told') : Cautious G Q (p >>= f) told := by
  induction p generalizing told with
  | done a => exact hf a told (le_refl _) h
  | call op rest ih =>
    exact ⟨h.1, fun b => ih b (h.2 b) fun a told' hsub => hf a told' ((Set.subset_insert _ _).trans hsub)⟩

theorem Cautious.mono {Q R : Set (Told Op) → α → Prop} {p : Program Op α} (h : Cautious G R p told)
    (hQ : ∀ told a, R told a → Q told a) : Cautious G Q p told := by
  induction p generalizing told with
  | done a => exact hQ told a h
  | call op rest ih => exact ⟨h.1, fun b => ih b (h.2 b)⟩

theorem Avoids.cautious (hP : ∀ told {β : Type} (op : Op β), ¬P β op → G told op) {p : Program Op α}
    (h : Avoids P p) : Cautious G (fun _ _ => True) p told := by
  induction p generalizing told with
  | done a => trivial
  | call op rest ih => exact ⟨hP told op h.1, fun b => ih b (h.2 b)⟩

theorem Avoids.mono {P' : (β : Type) → Op β → Prop} (hP : ∀ β op, P' β op → P β op) {p : Program Op α}
    (h : Avoids P p) : Avoids P' p := by
  induction p with
  | done a => trivial
  | call op rest ih => exact ⟨fun hop => h.1 (hP _ _ hop), fun b => ih b (h.2 b)⟩

theorem avoids_bind {p : Program Op α} {f : α → Program Op β} :
    Avoids P (p >>= f) ↔ Avoids P p ∧ ∀ a, p.Returns a → Avoids P (f a) := by
  induction p with
  | done a => exact ⟨fun h => ⟨trivial, fun a' ha => by cases ha; exact h⟩, fun h => h.2 a (.done a)⟩
  | call op rest ih =>
    constructor
    · intro ⟨hop, hrest⟩
      refine ⟨⟨hop, fun b => ((ih b).1 (hrest b)).1⟩, fun a ha => ?_⟩
      have ⟨b, hb⟩ := Program.returns_call.1 ha
      exact ((ih b).1 (hrest b)).2 a hb
    · intro ⟨⟨hop, hrest⟩, hf⟩
      exact ⟨hop, fun b => (ih b).2 ⟨hrest b, fun a ha => hf a (.call op rest b ha)⟩⟩

/-! ### Programs that may raise -/

/-- A procedure calls with caution, and what it returns fits what it has been told by then. -/
def Learns (G : Caution Op) (told : Set (Told Op)) (x : Raising Op ε α) (Q : Set (Told Op) → α → Prop) : Prop :=
  Cautious G (fun told result => ∀ a, result = .ok a → Q told a) x.run told

/-- Whatever the answers, a procedure makes no call of this kind. -/
def Silent (P : (β : Type) → Op β → Prop) (x : Raising Op ε α) : Prop := Avoids P x.run

variable {x : Raising Op ε α} {f : α → Raising Op ε β} {Q : Set (Told Op) → β → Prop} {R : Set (Told Op) → α → Prop}

theorem learns_pure {a : α} (h : R told a) : Learns G told (pure a : Raising Op ε α) R := by
  rintro _ ⟨⟩
  exact h

/-- The rule of consequence. -/
theorem Learns.mono {Q : Set (Told Op) → α → Prop} (hx : Learns G told x R) (hQ : ∀ told a, R told a → Q told a) :
    Learns G told x Q := Cautious.mono hx fun told _ h a ha => hQ told a (h a ha)

theorem Learns.bind (hx : Learns G told x R)
    (hf : ∀ a told', told ⊆ told' → R told' a → Learns G told' (f a) Q) : Learns G told (x >>= f) Q := by
  refine Cautious.bind_program hx fun result told' hsub h => ?_
  cases result with
  | ok a => exact hf a told' hsub (h a rfl)
  | error e => exact nofun

theorem learns_call {op : Op α} (h : G told op) :
    Learns G told (Raising.call op : Raising Op ε α) fun told' a => ⟨op, a⟩ ∈ told' := by
  refine ⟨h, fun b => ?_⟩
  rintro _ ⟨⟩
  exact Set.mem_insert _ _

theorem learns_callOrRaise {op : Op (Except ε α)} (h : G told op) :
    Learns G told (Raising.callOrRaise op) fun told' a => ⟨op, .ok a⟩ ∈ told' := by
  refine ⟨h, fun answer => ?_⟩
  rintro a rfl
  exact Set.mem_insert _ _

/-- A procedure in a `try` block. -/
theorem Learns.attempt (hx : Learns G told x R) :
    Learns G told x.attempt fun told' answer => ∀ a ∈ answer, R told' a := by
  refine Cautious.bind_program hx fun result told' _ h => ?_
  cases result with
  | ok a =>
    rintro _ ⟨⟩ _ ⟨⟩
    exact h a rfl
  | error e =>
    rintro _ ⟨⟩
    exact nofun

theorem Learns.each {items : List α} {f : α → Raising Op ε Unit}
    (h : ∀ item ∈ items, ∀ told', told ⊆ told' → Learns G told' (f item) fun _ _ => True) :
    Learns G told (Raising.each items f) fun _ _ => True := by
  induction items generalizing told with
  | nil => exact learns_pure trivial
  | cons item items ih =>
    have ⟨hitem, hitems⟩ := List.forall_mem_cons.1 h
    exact (hitem told (le_refl _)).bind fun _ told' hsub _ =>
      ih fun item hmem told'' hsub' => hitems item hmem told'' (hsub.trans hsub')

theorem Silent.learns (hP : ∀ told {β : Type} (op : Op β), ¬P β op → G told op) (h : Silent P x) :
    Learns G told x fun _ _ => True := (Avoids.cautious hP h).mono fun _ _ _ _ _ => trivial

@[simp] theorem silent_pure (a : α) : Silent P (pure a : Raising Op ε α) := trivial

@[simp] theorem silent_throw (e : ε) : Silent P (throw e : Raising Op ε α) := trivial

@[simp] theorem silent_bind : Silent P (x >>= f) ↔ Silent P x ∧ ∀ a, x.run.Returns (.ok a) → Silent P (f a) := by
  refine avoids_bind.trans (and_congr_right fun _ => ⟨fun h a ha => h _ ha, fun h result hresult => ?_⟩)
  cases result with
  | ok a => exact h a hresult
  | error e => trivial

@[simp] theorem silent_ite {c : Prop} [Decidable c] {y : Raising Op ε α} :
    Silent P (if c then x else y) ↔ (c → Silent P x) ∧ (¬c → Silent P y) := by
  split <;> simp [*]

@[simp] theorem silent_attempt : Silent P x.attempt ↔ Silent P x := by
  refine avoids_bind.trans (and_iff_left fun result _ => ?_)
  cases result <;> trivial

@[simp] theorem silent_call {op : Op α} : Silent P (Raising.call op : Raising Op ε α) ↔ ¬P α op :=
  ⟨And.left, fun h => ⟨h, fun _ => trivial⟩⟩

@[simp] theorem silent_callOrRaise {op : Op (Except ε α)} : Silent P (Raising.callOrRaise op) ↔ ¬P _ op :=
  ⟨And.left, fun h => ⟨h, fun _ => trivial⟩⟩

/-! ### Interleavings -/

variable {σ ι : Type} {sem : Semantics Op σ}

/-- What the operations of a program have told it. -/
def toldBy (sem : Semantics Op σ) (past : List (Moment Op σ)) : Set (Told Op) :=
  {t | ∃ m ∈ past, t = ⟨m.op, (sem.exec m.op m.before).2⟩}

theorem Cautious.keeps {Q : Set (Told Op) → α → Prop} {p : Program Op α} {past : List (Moment Op σ)} {s : σ}
    (h : Cautious G Q p (toldBy sem past)) :
    Keeps sem (fun _ _ => True) (fun past m => G (toldBy sem past) m.op) (fun _ _ _ => True) p past s := by
  induction p generalizing past s with
  | done a => exact fun _ _ => trivial
  | call op rest ih =>
    refine fun s' _ => ⟨h.1, ih _ ?_⟩
    have hinsert : toldBy sem (⟨op, s'⟩ :: past) = insert ⟨op, (sem.exec op s').2⟩ (toldBy sem past) := by
      ext t
      simp [toldBy]
    rw [hinsert]
    exact h.2 _

/-- Cautious programs stay so, whatever anybody else does to the state. -/
theorem told_of_reachable [DecidableEq ι] {Calls : Program Op α → Prop} {Drift : σ → σ → Prop} {s₀ : σ}
    {n : Network ι Op σ α} (hcalls : ∀ p, Calls p → Cautious G (fun _ _ => True) p ∅)
    (h : Network.Reachable sem Calls Drift s₀ n) : ∀ e ∈ n.trace, G (toldBy sem e.past) e.moment.op := by
  have hempty : toldBy sem ([] : List (Moment Op σ)) = ∅ := by
    ext t
    simp [toldBy]
  have hkeeps : ∀ p, Calls p → ∀ s, True → Keeps sem (fun _ _ => True) (fun past m => G (toldBy sem past) m.op)
      (fun _ _ _ => True) p [] s := fun p hp s _ => Cautious.keeps (hempty ▸ hcalls p hp)
  exact (guarded_of_reachable (fun _ => trivial) (fun _ _ _ _ _ => trivial) (fun _ _ _ => trivial)
    (fun _ _ _ => trivial) hkeeps h).trace

end Phlo.Library
