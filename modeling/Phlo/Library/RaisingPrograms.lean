import Phlo.Library.Interleaving

/-!
# Programs that may raise

A program over shared operations that may end with an error: pre- and postconditions for it under rely and
guarantee.  An `Assertion` speaks about the state and what the program has done; interference does not touch it.

* `Ends I p Q E` — started with `I`, the program does its part, and ends with `Q` of its value or raises with `E`;
* `Ends.bind`, `Ends.attempt` — the rules for sequences and caught errors;
* `Keeping I p` — `I` holds in the end if it did at the start; `Keeping.each` is the rule for loops.
-/

namespace Phlo.Library

abbrev Raising (Op : Type → Type) (ε : Type) := ExceptT ε (Program Op)

namespace Raising

variable {Op : Type → Type} {ε α β : Type}

def call (op : Op α) : Raising Op ε α := ExceptT.lift (Program.perform op)

def callOrRaise (op : Op (Except ε α)) : Raising Op ε α := ExceptT.mk (Program.perform op)

/-- `try` around a procedure: nothing, if it raises. -/
def attempt (p : Raising Op ε α) : Raising Op ε (Option α) :=
  ExceptT.mk (p.run >>= fun
    | .ok a => pure (.ok (some a))
    | .error _ => pure (.ok none))

/-- `for item in items: procedure(item)` -/
def each (items : List α) (f : α → Raising Op ε Unit) : Raising Op ε Unit :=
  match items with
  | [] => pure ()
  | item :: items => do
    f item
    each items f

variable {σ : Type}

/-- A condition on the state and on what a program has done that interference does not touch. -/
structure Assertion (Op : Type → Type) (R : σ → σ → Prop) where
  holds : List (Moment Op σ) → σ → Prop
  stable : ∀ past s s', holds past s → R s s' → holds past s'

def Assertion.top {R : σ → σ → Prop} : Assertion Op R := ⟨fun _ _ => True, fun _ _ _ _ _ => trivial⟩

def Assertion.withFact {R : σ → σ → Prop} (I : Assertion Op R) (p : Prop) : Assertion Op R where
  holds past s := I.holds past s ∧ p
  stable past s s' h hs := ⟨I.stable past s s' h.1 hs, h.2⟩

section

variable {sem : Semantics Op σ} {R : σ → σ → Prop} {G : List (Moment Op σ) → Moment Op σ → Prop}

def outcomeHolds (Q : α → Assertion Op R) (E : Assertion Op R) (past : List (Moment Op σ)) (result : Except ε α)
    (s : σ) : Prop :=
  match result with
  | .ok a => (Q a).holds past s
  | .error _ => E.holds past s

variable (sem G)

/-- Started with `I`, the program keeps to its part and ends with `Q`, or raises with `E`. -/
def Ends (I : Assertion Op R) (p : Raising Op ε α) (Q : α → Assertion Op R) (E : Assertion Op R) : Prop :=
  ∀ past s, I.holds past s → Keeps sem R G (outcomeHolds Q E) p.run past s

/-- The program keeps `I`. -/
def Keeping (I : Assertion Op R) (p : Raising Op ε α) : Prop := Ends sem G I p (fun _ => I) I

variable {sem G} {I J E E' : Assertion Op R} {Q Q' : α → Assertion Op R}

theorem Ends.pure (a : α) (h : ∀ past s, I.holds past s → (Q a).holds past s) :
    Ends sem G I (pure a : Raising Op ε α) Q E := fun past s hs s' hs' => (Q a).stable past s s' (h past s hs) hs'

theorem Ends.throw (e : ε) (h : ∀ past s, I.holds past s → E.holds past s) :
    Ends sem G I (throw e : Raising Op ε α) Q E := fun past s hs s' hs' => E.stable past s s' (h past s hs) hs'

variable {x p : Raising Op ε α}

theorem Ends.bind {Q : β → Assertion Op R} (hrefl : ∀ s, R s s) {f : α → Raising Op ε β} (hx : Ends sem G I x Q' E)
    (hf : ∀ a, Ends sem G (Q' a) (f a) Q E) : Ends sem G I (x >>= f) Q E := by
  intro past s hs
  refine Keeps.bind hrefl (hx past s hs) fun past result s hresult => ?_
  cases result with
  | ok a => exact hf a past s hresult
  | error e => exact fun s' hs' => E.stable past s s' hresult hs'

/-- The rule of consequence. -/
theorem Ends.mono (h : Ends sem G J p Q' E') (hI : ∀ past s, I.holds past s → J.holds past s)
    (hQ : ∀ a past s, (Q' a).holds past s → (Q a).holds past s) (hE : ∀ past s, E'.holds past s → E.holds past s) :
    Ends sem G I p Q E := by
  intro past s hs
  refine (h past s (hI past s hs)).mono fun past result s hresult => ?_
  cases result with
  | ok a => exact hQ a past s hresult
  | error e => exact hE past s hresult

theorem Ends.withFact {p : Prop} (h : p → Ends sem G I x Q E) :
    Ends sem G (I.withFact p) x Q E := fun past s hs => h hs.2 past s hs.1

/-- An error that is caught. -/
theorem Ends.attempt (hrefl : ∀ s, R s s) {Q : Option α → Assertion Op R}
    (h : Ends sem G I p (fun a => Q (some a)) (Q none)) : Ends sem G I p.attempt Q E := by
  intro past s hs
  refine Keeps.bind hrefl (h past s hs) fun past result s hresult => ?_
  cases result with
  | ok a => exact fun s' hs' => (Q (some a)).stable past s s' hresult hs'
  | error e => exact fun s' hs' => (Q none).stable past s s' hresult hs'

theorem Keeping.pure (a : α) : Keeping sem G I (pure a : Raising Op ε α) := Ends.pure a fun _ _ h => h

theorem Keeping.throw (e : ε) : Keeping sem G I (throw e : Raising Op ε α) := Ends.throw e fun _ _ h => h

theorem Keeping.bind (hrefl : ∀ s, R s s) {f : α → Raising Op ε β} (hx : Keeping sem G I x)
    (hf : ∀ a, Keeping sem G I (f a)) : Keeping sem G I (x >>= f) := Ends.bind hrefl hx hf

theorem Keeping.attempt (hrefl : ∀ s, R s s) (h : Keeping sem G I p) :
    Keeping sem G I p.attempt := Ends.attempt hrefl h

/-- The rule for loops. -/
theorem Keeping.each (hrefl : ∀ s, R s s) {items : List α} {f : α → Raising Op ε Unit}
    (h : ∀ item ∈ items, Keeping sem G I (f item)) : Keeping sem G I (Raising.each items f) := by
  induction items with
  | nil => exact Keeping.pure ()
  | cons item items ih =>
    have ⟨hitem, hitems⟩ := List.forall_mem_cons.1 h
    exact Keeping.bind hrefl hitem fun _ => ih hitems

/-- An operation that does its part and leads from `I` to `Q`. -/
theorem Ends.call {op : Op α} (h : ∀ past s, I.holds past s → G past ⟨op, s⟩ ∧
    (Q (sem.exec op s).2).holds (⟨op, s⟩ :: past) (sem.exec op s).1) :
    Ends sem G I (Raising.call op : Raising Op ε α) Q E := by
  intro past s hs s' hs'
  have ⟨hguarantee, hends⟩ := h past s' (I.stable past s s' hs hs')
  exact ⟨hguarantee, fun s'' hs'' => (Q _).stable _ _ s'' hends hs''⟩

theorem Ends.callOrRaise {op : Op (Except ε α)} (h : ∀ past s, I.holds past s → G past ⟨op, s⟩ ∧
    outcomeHolds Q E (⟨op, s⟩ :: past) (sem.exec op s).2 (sem.exec op s).1) :
    Ends sem G I (Raising.callOrRaise op) Q E := by
  intro past s hs s' hs'
  have ⟨hguarantee, hends⟩ := h past s' (I.stable past s s' hs hs')
  refine ⟨hguarantee, fun s'' hs'' => ?_⟩
  cases hanswer : (sem.exec op s').2 with
  | ok a =>
    rw [hanswer] at hends
    exact (Q a).stable _ _ s'' hends hs''
  | error e =>
    rw [hanswer] at hends
    exact E.stable _ _ s'' hends hs''

end

end Raising

end Phlo.Library
