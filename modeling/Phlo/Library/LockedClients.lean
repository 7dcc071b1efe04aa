import Mathlib.Logic.Function.Basic
import Phlo.Library.Transition

/-!
# Clients that share a state and a lock

A process goes through its stages one step at a time.  A step reads and changes the shared state at once;
a stage may hold the one lock there is, and a process that needs the lock waits while another holds it.
Between any two steps a process can crash, which gives the lock back.

* `Kept.step`, `Kept.step_beside` — an invariant of the shared state, of what each process relies on and of
  the answers given so far, from what it means for one step;
* `Solo.run` — a process that has the lock and is alone comes to its answer.
-/

namespace Phlo.Library

/-- What a step of a process comes to. -/
inductive Turn (W P O : Type) where
  | wait
  | go (w : W) (p : P)
  | finish (w : W) (o : O)

namespace Turn

variable {W P P' O : Type}

/-- The step with its next stage seen as one of a larger process. -/
def map (f : P → P') : Turn W P O → Turn W P' O
  | wait => wait
  | go w p => go w (f p)
  | finish w o => finish w o

def after (w : W) : Turn W P O → W
  | wait => w
  | go w' _ => w'
  | finish w' _ => w'

theorem map_eq_go {f : P → P'} {t : Turn W P O} {w : W} {p' : P'} (h : t.map f = .go w p') :
    ∃ p, t = .go w p ∧ f p = p' := by
  cases t with
  | wait => cases h
  | go w' p =>
    cases h
    exact ⟨p, rfl, rfl⟩
  | finish w' o => cases h

theorem map_eq_finish {f : P → P'} {t : Turn W P O} {w : W} {o : O} (h : t.map f = .finish w o) :
    t = .finish w o := by
  cases t with
  | wait => cases h
  | go w' p => cases h
  | finish w' o' =>
    cases h
    rfl

@[simp] theorem after_map (f : P → P') (t : Turn W P O) (w : W) : (t.map f).after w = t.after w := by
  cases t <;> rfl

end Turn

/-- Processes `P` that answer calls `C` by `O`; `E` is what a step finds outside the shared state. -/
structure Machine (W P C O E : Type) where
  start : C → P
  call : P → C
  holds : P → Bool
  /-- a step, where the lock is free or not -/
  turn : Bool → E → W → P → Turn W P O

/-- Processes do not start with the lock, and take it only when it is free. -/
structure Machine.Lawful {W P C O E : Type} (M : Machine W P C O E) : Prop where
  start_holds : ∀ c, M.holds (M.start c) = false
  turn_holds : ∀ {e w p w' p'}, M.turn false e w p = .go w' p' → M.holds p' = true → M.holds p = true

/-- Clients at work, and the answers they have got, the latest first. -/
structure Site (ι W P C O : Type) where
  shared : W
  processes : ι → Option P := fun _ => none
  lock : Option ι := none
  history : List (C × O) := []

inductive Move (ι C E : Type) where
  | call (i : ι) (c : C)
  | advance (i : ι) (e : E)
  | crash (i : ι)

namespace Site

variable {ι W P C O E : Type} [DecidableEq ι]

/-- The lock after a client has given up what it had of it. -/
def released (s : Site ι W P C O) (i : ι) : Option ι := if s.lock = some i then none else s.lock

def step (M : Machine W P C O E) (s : Site ι W P C O) : Move ι C E → Site ι W P C O
  | .call i c =>
    match s.processes i with
    | none => { s with processes := Function.update s.processes i (some (M.start c)) }
    | some _ => s
  | .advance i e =>
    match s.processes i with
    | none => s
    | some p =>
      match M.turn s.lock.isNone e s.shared p with
      | .wait => s
      | .go w p' =>
        { shared := w
          processes := Function.update s.processes i (some p')
          lock := if M.holds p' = true then some i else s.released i
          history := s.history }
      | .finish w o =>
        { shared := w
          processes := Function.update s.processes i none
          lock := s.released i
          history := (M.call p, o) :: s.history }
  | .crash i => { s with processes := Function.update s.processes i none, lock := s.released i }

end Site

/-! ### Single moves -/

section

variable {ι W P C O E : Type} [DecidableEq ι] {M : Machine W P C O E} {s : Site ι W P C O} {i : ι} {e : E}
  {p p' : P} {w : W} {o : O}

theorem step_call (h : s.processes i = none) (c : C) : s.step M (.call i c : Move ι C E) =
    { s with processes := Function.update s.processes i (some (M.start c)) } := by
  unfold Site.step
  dsimp only
  rw [h]

theorem step_idle (h : s.processes i = none) : s.step M (.advance i e) = s := by
  unfold Site.step
  dsimp only
  rw [h]

theorem step_go (hp : s.processes i = some p) (h : M.turn s.lock.isNone e s.shared p = .go w p') :
    s.step M (.advance i e) =
      { shared := w
        processes := Function.update s.processes i (some p')
        lock := if M.holds p' = true then some i else s.released i
        history := s.history } := by
  unfold Site.step
  dsimp only
  rw [hp]
  dsimp only
  rw [h]

theorem step_finish (hp : s.processes i = some p) (h : M.turn s.lock.isNone e s.shared p = .finish w o) :
    s.step M (.advance i e) =
      { shared := w
        processes := Function.update s.processes i none
        lock := s.released i
        history := (M.call p, o) :: s.history } := by
  unfold Site.step
  dsimp only
  rw [hp]
  dsimp only
  rw [h]

end

section

variable {ι W P C O E : Type} {M : Machine W P C O E} {s : Site ι W P C O}

/-! ### The lock -/

/-- The lock is held by the one process whose stage holds it. -/
structure LockSound (M : Machine W P C O E) (s : Site ι W P C O) : Prop where
  holder : ∀ i p, s.processes i = some p → M.holds p = true → s.lock = some i
  held : ∀ i, s.lock = some i → ∃ p, s.processes i = some p ∧ M.holds p = true

theorem lockSound_start (w : W) : LockSound M ({ shared := w } : Site ι W P C O) where
  holder _ _ h := by cases h
  held _ h := by cases h

variable [DecidableEq ι]

theorem LockSound.leave (h : LockSound M s) (i : ι) (w : W) (history : List (C × O)) :
    LockSound M ⟨w, Function.update s.processes i none, s.released i, history⟩ where
  holder j p hj hp := by
    dsimp only at hj ⊢
    by_cases hij : j = i
    · subst hij
      rw [Function.update_self] at hj
      cases hj
    · rw [Function.update_of_ne hij] at hj
      have hlock := h.holder j p hj hp
      rw [Site.released, if_neg, hlock]
      rw [hlock]
      exact fun heq => hij (Option.some.inj heq)
  held j hj := by
    dsimp only at hj ⊢
    rw [Site.released] at hj
    split at hj
    next => cases hj
    next hne =>
      have hij : j ≠ i := fun heq => hne (heq ▸ hj)
      rw [Function.update_of_ne hij]
      exact h.held j hj

/-- **At most one process holds the lock.** -/
theorem LockSound.step (hM : M.Lawful) (h : LockSound M s) (m : Move ι C E) : LockSound M (s.step M m) := by
  cases m with
  | call i c =>
    unfold Site.step
    dsimp only
    split
    next hnone =>
      refine ⟨fun j p hj hp => ?_, fun j hj => ?_⟩
      · dsimp only at hj ⊢
        by_cases hij : j = i
        · subst hij
          rw [Function.update_self] at hj
          cases hj
          rw [hM.start_holds] at hp
          cases hp
        · rw [Function.update_of_ne hij] at hj
          exact h.holder j p hj hp
      · obtain ⟨p, hj', hp⟩ := h.held j hj
        have hij : j ≠ i := fun heq => by
          rw [heq, hnone] at hj'
          cases hj'
        refine ⟨p, ?_, hp⟩
        dsimp only
        rw [Function.update_of_ne hij, hj']
    next => exact h
  | crash i => exact h.leave i s.shared s.history
  | advance i e =>
    unfold Site.step
    dsimp only
    split
    next => exact h
    next p hi =>
      split
      next => exact h
      next w p' hturn =>
        by_cases hp' : M.holds p' = true
        · -- it had the lock, or the lock was free
          have hlock : s.lock = some i ∨ s.lock = none := by
            cases hl : s.lock with
            | none => exact .inr rfl
            | some j =>
              rw [hl] at hturn
              have hp := h.holder i p hi (hM.turn_holds hturn hp')
              rw [hl] at hp
              exact .inl hp
          rw [if_pos hp']
          refine ⟨fun j q hj hq => ?_, fun j hj => ?_⟩
          · dsimp only at hj ⊢
            by_cases hij : j = i
            · rw [hij]
            · rw [Function.update_of_ne hij] at hj
              have hlock' := h.holder j q hj hq
              obtain hl | hl := hlock
              · rw [hl] at hlock'
                exact absurd (Option.some.inj hlock').symm hij
              · rw [hl] at hlock'
                cases hlock'
          · cases hj
            exact ⟨p', Function.update_self .., hp'⟩
        · rw [if_neg hp']
          have hleave := h.leave i w s.history
          refine ⟨fun j q hj hq => ?_, fun j hj => ?_⟩
          · dsimp only at hj ⊢
            by_cases hij : j = i
            · subst hij
              rw [Function.update_self] at hj
              cases hj
              exact absurd hq hp'
            · refine hleave.holder j q ?_ hq
              dsimp only
              rw [Function.update_of_ne hij] at hj ⊢
              exact hj
          · obtain ⟨q, hj', hq⟩ := hleave.held j hj
            dsimp only at hj' ⊢
            have hij : j ≠ i := fun heq => by
              rw [heq, Function.update_self] at hj'
              cases hj'
            rw [Function.update_of_ne hij] at hj' ⊢
            exact ⟨q, hj', hq⟩
      next w o hturn => exact h.leave i w _

theorem shared_advance {i : ι} {p : P} (hp : s.processes i = some p) (e : E) :
    (s.step M (.advance i e)).shared = (M.turn s.lock.isNone e s.shared p).after s.shared := by
  unfold Site.step
  dsimp only
  rw [hp]
  dsimp only
  split
  next heq => rw [heq, Turn.after]
  next heq => rw [heq, Turn.after]
  next heq => rw [heq, Turn.after]

theorem shared_step (M : Machine W P C O E) (s : Site ι W P C O) (m : Move ι C E) :
    (s.step M m).shared = s.shared ∨ ∃ i e p, m = .advance i e ∧ s.processes i = some p ∧
      (s.step M m).shared = (M.turn s.lock.isNone e s.shared p).after s.shared := by
  cases m with
  | call i c =>
    unfold Site.step
    dsimp only
    split <;> exact .inl rfl
  | crash i => exact .inl rfl
  | advance i e =>
    cases hp : s.processes i with
    | none =>
      rw [step_idle hp]
      exact .inl rfl
    | some p => exact .inr ⟨i, e, p, rfl, hp, shared_advance hp e⟩

end

/-! ### Invariants -/

section

variable {ι W P C O E : Type} {M : Machine W P C O E} {s : Site ι W P C O}

/-- The shared state is sound, every process has what it relies on, and the answers are right. -/
structure Kept (Inv : W → Prop) (Own : W → P → Prop) (Right : W → C × O → Prop) (s : Site ι W P C O) :
    Prop where
  shared : Inv s.shared
  own : ∀ i p, s.processes i = some p → Own s.shared p
  right : ∀ a ∈ s.history, Right s.shared a

variable {Inv : W → Prop} {Own : W → P → Prop} {Right : W → C × O → Prop}

theorem kept_start {w : W} (h : Inv w) : Kept Inv Own Right ({ shared := w } : Site ι W P C O) where
  shared := h
  own _ _ h := by cases h
  right _ h := absurd h List.not_mem_nil

/-- What one step of a process means for the shared state, for its next stage or its answer, and for the
answers given before. -/
structure TurnSound (M : Machine W P C O E) (Inv : W → Prop) (Own : W → P → Prop)
    (Right : W → C × O → Prop) (w : W) (p : P) (t : Turn W P O) : Prop where
  shared : Inv (t.after w)
  next : ∀ w' p', t = .go w' p' → Own w' p'
  answer : ∀ w' o, t = .finish w' o → Right w' (M.call p, o)
  answers : ∀ a, Right w a → Right (t.after w) a

/-- What one step of a process means for the invariant: for the shared state and its next stage or its
answer, for any other process, of which at most one has the lock, and for the answers given. -/
structure TurnKeeps (M : Machine W P C O E) (Inv : W → Prop) (Own : W → P → Prop)
    (Right : W → C × O → Prop) (free : Bool) (w : W) (p : P) (t : Turn W P O) : Prop where
  shared : Inv (t.after w)
  next : ∀ w' p', t = .go w' p' → Own w' p'
  answer : ∀ w' o, t = .finish w' o → Right w' (M.call p, o)
  others : ∀ q, Own w q → (M.holds q = true → free = false ∧ M.holds p = false) → Own (t.after w) q
  answers : ∀ a, Right w a → Right (t.after w) a

variable [DecidableEq ι]

/-- The rule for one step, where what it means for the others depends on who they are. -/
theorem Kept.step_beside (hlock : LockSound M s) (h : Kept Inv Own Right s) (m : Move ι C E)
    (hstart : ∀ i c, m = .call i c → Own s.shared (M.start c))
    (hturn : ∀ i e p, m = .advance i e → s.processes i = some p →
      TurnSound M Inv Own Right s.shared p (M.turn s.lock.isNone e s.shared p))
    (hbeside : ∀ i e p j q, m = .advance i e → s.processes i = some p → s.processes j = some q →
      Own s.shared q → (M.holds q = true → s.lock.isNone = false ∧ M.holds p = false) →
        Own ((M.turn s.lock.isNone e s.shared p).after s.shared) q) : Kept Inv Own Right (s.step M m) := by
  cases m with
  | call i c =>
    unfold Site.step
    dsimp only
    split
    next hnone =>
      refine ⟨h.shared, fun j q hj => ?_, h.right⟩
      dsimp only at hj ⊢
      by_cases hij : j = i
      · subst hij
        rw [Function.update_self] at hj
        cases hj
        exact hstart j c rfl
      · rw [Function.update_of_ne hij] at hj
        exact h.own j q hj
    next => exact h
  | crash i =>
    refine ⟨h.shared, fun j q hj => ?_, h.right⟩
    unfold Site.step at hj ⊢
    dsimp only at hj ⊢
    by_cases hij : j = i
    · subst hij
      rw [Function.update_self] at hj
      cases hj
    · rw [Function.update_of_ne hij] at hj
      exact h.own j q hj
  | advance i e =>
    have hkeeps := hturn i e
    unfold Site.step
    dsimp only
    split
    next => exact h
    next p hi =>
      have hp := hkeeps p rfl hi
      -- the others have the lock only if this process has not
      have hothers : ∀ j q, j ≠ i → s.processes j = some q →
          Own ((M.turn s.lock.isNone e s.shared p).after s.shared) q := by
        intro j q hij hj
        refine hbeside i e p j q rfl hi hj (h.own j q hj) fun hq => ?_
        have hjl := hlock.holder j q hj hq
        refine ⟨by rw [hjl]; rfl, Bool.eq_false_iff.2 fun hholds => ?_⟩
        have hil := hlock.holder i p hi hholds
        rw [hjl] at hil
        exact hij (Option.some.inj hil)
      split
      next => exact h
      next w p' heq =>
        have hshared := hp.shared
        have hanswers := hp.answers
        rw [heq] at hshared hothers hanswers
        refine ⟨hshared, fun j q hj => ?_, fun a ha => hanswers a (h.right a ha)⟩
        dsimp only at hj ⊢
        by_cases hij : j = i
        · subst hij
          rw [Function.update_self] at hj
          cases hj
          exact hp.next w p' heq
        · rw [Function.update_of_ne hij] at hj
          exact hothers j q hij hj
      next w o heq =>
        have hshared := hp.shared
        have hanswers := hp.answers
        rw [heq] at hshared hothers hanswers
        refine ⟨hshared, fun j q hj => ?_, fun a ha => ?_⟩
        · dsimp only at hj ⊢
          by_cases hij : j = i
          · subst hij
            rw [Function.update_self] at hj
            cases hj
          · rw [Function.update_of_ne hij] at hj
            exact hothers j q hij hj
        · obtain rfl | ha := List.mem_cons.1 ha
          · exact hp.answer w o heq
          · exact hanswers a (h.right a ha)

/-- **The rule for one step.** -/
theorem Kept.step (hlock : LockSound M s) (h : Kept Inv Own Right s) (m : Move ι C E)
    (hstart : ∀ c, Own s.shared (M.start c)) (hturn : ∀ i e p, m = .advance i e → s.processes i = some p →
      TurnKeeps M Inv Own Right s.lock.isNone s.shared p (M.turn s.lock.isNone e s.shared p)) :
    Kept Inv Own Right (s.step M m) := by
  refine h.step_beside hlock m (fun _ c _ => hstart c) (fun i e p hm hp => ?_)
    fun i e p _ q hm hp _ hq hholds => (hturn i e p hm hp).others q hq hholds
  have hkeeps := hturn i e p hm hp
  exact ⟨hkeeps.shared, hkeeps.next, hkeeps.answer, hkeeps.answers⟩

end

/-! ### A process that is alone -/

section

variable {ι W P C O E : Type} {M : Machine W P C O E} {s : Site ι W P C O} {e : E} {w w' : W} {p : P} {o : O}

/-- The process that has the lock comes to its answer by its own steps. -/
inductive Solo (M : Machine W P C O E) (e : E) (w' : W) (o : O) : W → P → Prop
  | last {w : W} {p : P} (h : M.turn false e w p = .finish w' o) : Solo M e w' o w p
  | next {w w₁ : W} {p p₁ : P} (h : M.turn false e w p = .go w₁ p₁) (hholds : M.holds p₁ = true)
      (hcall : M.call p₁ = M.call p) (rest : Solo M e w' o w₁ p₁) : Solo M e w' o w p

/-- **Nobody else moves**, so the answer is given. -/
theorem Solo.run [DecidableEq ι] {i : ι} (h : Solo M e w' o w p) (hp : s.processes i = some p)
    (hlock : s.lock = some i) (hshared : s.shared = w) :
    ∃ n, finish (Site.step M) s (List.replicate n (.advance i e)) =
      ⟨w', Function.update s.processes i none, none, (M.call p, o) :: s.history⟩ := by
  induction h generalizing s with
  | @last w p h =>
    have hturn : M.turn s.lock.isNone e s.shared p = .finish w' o := by
      rw [hlock, hshared]
      exact h
    refine ⟨1, ?_⟩
    show s.step M (.advance i e) = _
    rw [step_finish hp hturn, Site.released, hlock, if_pos rfl]
  | @next w w₁ p p₁ h hholds hcall rest ih =>
    have hturn : M.turn s.lock.isNone e s.shared p = .go w₁ p₁ := by
      rw [hlock, hshared]
      exact h
    have hstep := step_go hp hturn
    rw [if_pos hholds] at hstep
    obtain ⟨n, hn⟩ := ih (s := s.step M (.advance i e)) (by rw [hstep]; exact Function.update_self ..)
      (by rw [hstep]) (by rw [hstep])
    refine ⟨n + 1, ?_⟩
    rw [List.replicate_succ, finish_cons, hn, hstep, hcall]
    dsimp only
    rw [Function.update_idem]

end

end Phlo.Library
