import Mathlib.Logic.Function.Basic
import Mathlib.Logic.Relation

/-!
# Programs over shared operations, interleaved

A `Program` calls operations on a shared state one after the other and computes with their answers.
Each operation is atomic; in a `Network` any number of clients run programs, and the operations of
different clients come in any order.  `alone` runs a program with nobody interfering.

Reasoning is by rely and guarantee.  `R` is what the others may do to the state while a program waits,
`G` what each operation of a program satisfies, given the operations the same program has performed
before, and `Q` what holds of its result; `Keeps` says that a program does its part.

* `guarded_of_reachable` — if every program keeps to `G` under `R`, and what `G` allows moves the state
  along `R`, then in every interleaving each operation satisfies `G` and each result `Q`;
* `trace_inv` — an invariant of the state and the trace of operations that every operation satisfying
  `G` keeps;
* `trace_inv_of_operations` — one that every operation keeps.
-/

namespace Phlo.Library

/-- A computation that calls operations; an operation of `Op β` answers with a `β`. -/
inductive Program (Op : Type → Type) (α : Type) : Type 1
  | done (a : α) : Program Op α
  | call {β : Type} (op : Op β) (rest : β → Program Op α) : Program Op α

/-- What each operation does to the state, and what it answers. -/
structure Semantics (Op : Type → Type) (σ : Type) where
  exec : {β : Type} → Op β → σ → σ × β

namespace Program

variable {Op : Type → Type} {α β σ : Type}

def bind : Program Op α → (α → Program Op β) → Program Op β
  | done a, f => f a
  | call op rest, f => call op fun b => (rest b).bind f

instance : Monad (Program Op) where
  pure := done
  bind := bind

def perform (op : Op α) : Program Op α := call op done

/-- Go on with the value of a step that may have failed; a failure is the result. -/
def onOk {ε : Type} (x : Except ε β) (f : β → Program Op (Except ε α)) : Program Op (Except ε α) :=
  match x with
  | .error e => done (.error e)
  | .ok b => f b

/-- The program with every operation replaced by one of another kind. -/
def translate {Op' : Type → Type} (f : {β : Type} → Op β → Op' β) : Program Op α → Program Op' α
  | done a => done a
  | call op rest => call (f op) fun b => (rest b).translate f

def alone (sem : Semantics Op σ) : Program Op α → σ → σ × α
  | done a, s => (s, a)
  | call op rest, s => alone sem (rest (sem.exec op s).2) (sem.exec op s).1

@[simp] theorem alone_pure (sem : Semantics Op σ) (a : α) (s : σ) :
    alone sem (pure a : Program Op α) s = (s, a) := rfl

@[simp] theorem alone_perform_bind (sem : Semantics Op σ) (op : Op β) (f : β → Program Op α) (s : σ) :
    alone sem (perform op >>= f) s = alone sem (f (sem.exec op s).2) (sem.exec op s).1 := rfl

end Program

/-- An operation in the state it was performed in. -/
structure Moment (Op : Type → Type) (σ : Type) : Type 1 where
  {Answer : Type}
  op : Op Answer
  before : σ

def Moment.after {Op : Type → Type} {σ : Type} (sem : Semantics Op σ) (m : Moment Op σ) : σ :=
  (sem.exec m.op m.before).1

/-- A running program and its own operations so far, the latest first. -/
structure Thread (Op : Type → Type) (σ α : Type) : Type 1 where
  program : Program Op α
  past : List (Moment Op σ)

/-- An operation in the trace of a network: whose it was, and what the same program had done before. -/
structure Entry (ι : Type) (Op : Type → Type) (σ : Type) : Type 1 where
  client : ι
  past : List (Moment Op σ)
  moment : Moment Op σ

/-- Clients at work on a shared state; the trace lists all operations, the latest first. -/
structure Network (ι : Type) (Op : Type → Type) (σ α : Type) : Type 1 where
  shared : σ
  threads : ι → Option (Thread Op σ α)
  trace : List (Entry ι Op σ)

namespace Network

variable {ι : Type} {Op : Type → Type} {σ α : Type}

/-- Nobody has called anything yet. -/
def idle (s : σ) : Network ι Op σ α := ⟨s, fun _ => none, []⟩

variable [DecidableEq ι]

/-- One step: a client calls a program (and gives up the one it was running), a client's program performs
its next operation, or the state drifts on its own. -/
inductive Step (sem : Semantics Op σ) (Calls : Program Op α → Prop) (Drift : σ → σ → Prop) :
    Network ι Op σ α → Network ι Op σ α → Prop
  | start (n : Network ι Op σ α) (i : ι) (p : Program Op α) (hp : Calls p) :
      Step sem Calls Drift n { n with threads := Function.update n.threads i (some ⟨p, []⟩) }
  | operate (n : Network ι Op σ α) (i : ι) {β : Type} (op : Op β) (rest : β → Program Op α)
      (past : List (Moment Op σ)) (hi : n.threads i = some ⟨.call op rest, past⟩) :
      Step sem Calls Drift n
        { shared := (sem.exec op n.shared).1
          threads := Function.update n.threads i
            (some ⟨rest (sem.exec op n.shared).2, ⟨op, n.shared⟩ :: past⟩)
          trace := ⟨i, past, ⟨op, n.shared⟩⟩ :: n.trace }
  | drift (n : Network ι Op σ α) (s : σ) (hs : Drift n.shared s) :
      Step sem Calls Drift n { n with shared := s }

def Reachable (sem : Semantics Op σ) (Calls : Program Op α → Prop) (Drift : σ → σ → Prop) (s₀ : σ)
    (n : Network ι Op σ α) : Prop :=
  Relation.ReflTransGen (Step sem Calls Drift) (idle s₀) n

def call (n : Network ι Op σ α) (i : ι) (p : Program Op α) : Network ι Op σ α :=
  { n with threads := Function.update n.threads i (some ⟨p, []⟩) }

/-- A client's program performs its next operation, if it has one. -/
def tick (sem : Semantics Op σ) (n : Network ι Op σ α) (i : ι) : Network ι Op σ α :=
  match n.threads i with
  | some ⟨.call op rest, past⟩ =>
    { shared := (sem.exec op n.shared).1
      threads := Function.update n.threads i
        (some ⟨rest (sem.exec op n.shared).2, ⟨op, n.shared⟩ :: past⟩)
      trace := ⟨i, past, ⟨op, n.shared⟩⟩ :: n.trace }
  | _ => n

variable {sem : Semantics Op σ} {Calls : Program Op α → Prop} {Drift : σ → σ → Prop} {s₀ : σ}
  {n : Network ι Op σ α}

theorem Reachable.init : Reachable sem Calls Drift s₀ (idle s₀ : Network ι Op σ α) :=
  Relation.ReflTransGen.refl

theorem Reachable.call (h : Reachable sem Calls Drift s₀ n) (i : ι) {p : Program Op α} (hp : Calls p) :
    Reachable sem Calls Drift s₀ (n.call i p) :=
  Relation.ReflTransGen.tail h (Step.start n i p hp)

theorem step_tick {i : ι} (h : (n.tick sem i).shared ≠ n.shared) : Step sem Calls Drift n (n.tick sem i) := by
  unfold tick at h ⊢
  split at h
  next op rest past hi => exact Step.operate n i op rest past hi
  · exact absurd rfl h

theorem Reachable.tick (h : Reachable sem Calls Drift s₀ n) (i : ι) :
    Reachable sem Calls Drift s₀ (n.tick sem i) := by
  unfold Network.tick
  split
  next op rest past hi => exact Relation.ReflTransGen.tail h (Step.operate n i op rest past hi)
  · exact h

theorem Reachable.schedule (h : Reachable sem Calls Drift s₀ n) (order : List ι) :
    Reachable sem Calls Drift s₀ (order.foldl (Network.tick sem) n) := by
  induction order generalizing n with
  | nil => exact h
  | cons i order ih => exact ih (h.tick i)

end Network

/-! ### Invariants of all operations -/

theorem trace_inv_of_operations {ι : Type} {Op : Type → Type} {σ α : Type} [DecidableEq ι]
    {sem : Semantics Op σ} {Calls : Program Op α → Prop} {Drift : σ → σ → Prop} {s₀ : σ}
    {n : Network ι Op σ α} {Inv : σ → List (Entry ι Op σ) → Prop} (hinit : Inv s₀ [])
    (hdrift : ∀ s s' l, Drift s s' → Inv s l → Inv s' l)
    (hop : ∀ l e, Inv e.moment.before l → Inv (e.moment.after sem) (e :: l))
    (h : Network.Reachable sem Calls Drift s₀ n) : Inv n.shared n.trace := by
  induction h with
  | refl => exact hinit
  | @tail n n' _ hstep ih =>
    cases hstep with
    | start i p hp => exact ih
    | operate i op rest past hi => exact hop n.trace ⟨i, past, ⟨op, n.shared⟩⟩ ih
    | drift s hs => exact hdrift _ _ _ hs ih

/-! ### Rely and guarantee -/

section

variable {ι : Type} {Op : Type → Type} {σ α β : Type}

/-- Under interference `R`, each operation of the program satisfies `G` and its result `Q`. -/
def Keeps (sem : Semantics Op σ) (R : σ → σ → Prop) (G : List (Moment Op σ) → Moment Op σ → Prop)
    (Q : List (Moment Op σ) → α → σ → Prop) : Program Op α → List (Moment Op σ) → σ → Prop
  | .done a, past, s => ∀ s', R s s' → Q past a s'
  | .call op rest, past, s => ∀ s', R s s' → G past ⟨op, s'⟩ ∧
      Keeps sem R G Q (rest (sem.exec op s').2) (⟨op, s'⟩ :: past) (sem.exec op s').1

variable {sem : Semantics Op σ} {R : σ → σ → Prop} {G : List (Moment Op σ) → Moment Op σ → Prop}
  {Q : List (Moment Op σ) → α → σ → Prop}

variable {past : List (Moment Op σ)}

variable {s : σ}

theorem keeps_perform_bind {op : Op β} {f : β → Program Op α} :
    Keeps sem R G Q (Program.perform op >>= f) past s ↔ ∀ s', R s s' → G past ⟨op, s'⟩ ∧
      Keeps sem R G Q (f (sem.exec op s').2) (⟨op, s'⟩ :: past) (sem.exec op s').1 := Iff.rfl

/-- The rule for programs one after the other: `Q'` holds in between. -/
theorem Keeps.bind {Q' : List (Moment Op σ) → β → σ → Prop} (hrefl : ∀ s, R s s) {p : Program Op β}
    {f : β → Program Op α} (h : Keeps sem R G Q' p past s)
    (hf : ∀ past b s, Q' past b s → Keeps sem R G Q (f b) past s) : Keeps sem R G Q (p >>= f) past s := by
  induction p generalizing past s with
  | done b => exact hf past b s (h s (hrefl s))
  | call op rest ih =>
    intro s' hs'
    obtain ⟨hg, hrest⟩ := h s' hs'
    exact ⟨hg, ih _ hrest⟩

/-- The rule for a step that may have failed. -/
theorem Keeps.onOk {ε : Type} {Q : List (Moment Op σ) → Except ε α → σ → Prop} {x : Except ε β}
    {f : β → Program Op (Except ε α)} (herror : ∀ e, x = .error e → ∀ s', R s s' → Q past (.error e) s')
    (hok : ∀ b, x = .ok b → Keeps sem R G Q (f b) past s) : Keeps sem R G Q (Program.onOk x f) past s := by
  cases x with
  | error e => exact herror e rfl
  | ok b => exact hok b rfl

/-- The rule of consequence. -/
theorem Keeps.mono {Q' : List (Moment Op σ) → α → σ → Prop} {p : Program Op α} (h : Keeps sem R G Q' p past s)
    (hq : ∀ past a s, Q' past a s → Q past a s) : Keeps sem R G Q p past s := by
  induction p generalizing past s with
  | done a => exact fun s' hs => hq past a s' (h s' hs)
  | call op rest ih =>
    intro s' hs
    obtain ⟨hg, hrest⟩ := h s' hs
    exact ⟨hg, ih _ hrest⟩

theorem Keeps.rely (htrans : ∀ a b c, R a b → R b c → R a c) {p : Program Op α} {s' : σ}
    (h : Keeps sem R G Q p past s) (hs : R s s') : Keeps sem R G Q p past s' := by
  cases p with
  | done a => exact fun t ht => h t (htrans _ _ _ hs ht)
  | call op rest => exact fun t ht => h t (htrans _ _ _ hs ht)

/-- Everybody keeps to their part. -/
structure Guarded (sem : Semantics Op σ) (R : σ → σ → Prop)
    (G : List (Moment Op σ) → Moment Op σ → Prop) (Q : List (Moment Op σ) → α → σ → Prop) (s₀ : σ)
    (n : Network ι Op σ α) : Prop where
  shared : R s₀ n.shared
  threads : ∀ i t, n.threads i = some t → Keeps sem R G Q t.program t.past n.shared
  trace : ∀ e ∈ n.trace, G e.past e.moment

variable {s₀ : σ} {n n' : Network ι Op σ α}

theorem Guarded.result (hrefl : ∀ s, R s s) (h : Guarded sem R G Q s₀ n) {i : ι} {a : α}
    (hi : n.threads i = some ⟨.done a, past⟩) : Q past a n.shared :=
  h.threads i _ hi _ (hrefl _)

theorem Guarded.operation (hrefl : ∀ s, R s s) (h : Guarded sem R G Q s₀ n) {i : ι} {op : Op β}
    {rest : β → Program Op α} (hi : n.threads i = some ⟨.call op rest, past⟩) : G past ⟨op, n.shared⟩ :=
  (h.threads i _ hi _ (hrefl _)).1

variable [DecidableEq ι] {Calls : Program Op α → Prop} {Drift : σ → σ → Prop}

theorem Guarded.step (hrefl : ∀ s, R s s) (htrans : ∀ a b c, R a b → R b c → R a c)
    (hmoves : ∀ past m, G past m → R m.before (m.after sem)) (hdrift : ∀ s s', Drift s s' → R s s')
    (hcalls : ∀ p, Calls p → ∀ s, R s₀ s → Keeps sem R G Q p [] s)
    (h : Guarded sem R G Q s₀ n) (hstep : Network.Step sem Calls Drift n n') : Guarded sem R G Q s₀ n' := by
  cases hstep with
  | start i p hp =>
    refine ⟨h.shared, fun j t ht => ?_, h.trace⟩
    dsimp only at ht
    by_cases hj : j = i
    · subst hj
      rw [Function.update_self] at ht
      cases ht
      exact hcalls p hp _ h.shared
    · rw [Function.update_of_ne hj] at ht
      exact h.threads j t ht
  | operate i op rest past hi =>
    obtain ⟨hg, hkeeps⟩ := h.threads i _ hi n.shared (hrefl _)
    have hmove : R n.shared (sem.exec op n.shared).1 := hmoves past _ hg
    refine ⟨htrans _ _ _ h.shared hmove, fun j t ht => ?_, fun e he => ?_⟩
    · dsimp only at ht
      by_cases hj : j = i
      · subst hj
        rw [Function.update_self] at ht
        cases ht
        exact hkeeps
      · rw [Function.update_of_ne hj] at ht
        exact (h.threads j t ht).rely htrans hmove
    · obtain rfl | he := List.mem_cons.1 he
      · exact hg
      · exact h.trace e he
  | drift s hs =>
    have hmove := hdrift _ _ hs
    exact ⟨htrans _ _ _ h.shared hmove, fun j t ht => (h.threads j t ht).rely htrans hmove, h.trace⟩

/-- **The rule for interleavings.** -/
theorem guarded_of_reachable (hrefl : ∀ s, R s s) (htrans : ∀ a b c, R a b → R b c → R a c)
    (hmoves : ∀ past m, G past m → R m.before (m.after sem)) (hdrift : ∀ s s', Drift s s' → R s s')
    (hcalls : ∀ p, Calls p → ∀ s, R s₀ s → Keeps sem R G Q p [] s)
    (h : Network.Reachable sem Calls Drift s₀ n) : Guarded sem R G Q s₀ n := by
  induction h with
  | refl =>
    refine ⟨hrefl _, fun i t ht => ?_, fun e he => absurd he List.not_mem_nil⟩
    cases ht
  | tail _ hstep ih => exact ih.step hrefl htrans hmoves hdrift hcalls hstep

theorem trace_inv (hguarded : ∀ n : Network ι Op σ α, Network.Reachable sem Calls Drift s₀ n → Guarded sem R G Q s₀ n)
    (hrefl : ∀ s, R s s) {Inv : σ → List (Entry ι Op σ) → Prop} (hinit : Inv s₀ [])
    (hdrift : ∀ s s' l, Drift s s' → Inv s l → Inv s' l)
    (hop : ∀ l e, G e.past e.moment → Inv e.moment.before l → Inv (e.moment.after sem) (e :: l))
    (h : Network.Reachable sem Calls Drift s₀ n) : Inv n.shared n.trace := by
  induction h with
  | refl => exact hinit
  | @tail n n' hn hstep ih =>
    cases hstep with
    | start i p hp => exact ih
    | operate i op rest past hi =>
      exact hop n.trace ⟨i, past, ⟨op, n.shared⟩⟩ ((hguarded n hn).operation hrefl hi) ih
    | drift s hs => exact hdrift _ _ _ hs ih

end

end Phlo.Library
