import Mathlib.Data.List.Chain

/-!
# Runs of a deterministic transition system

A system is a step function `step : State → Call → State`; a call that is refused leaves the state
where it was.  `trace` lists every state a run goes through, `Along` says that every call of the run
meets a condition in the state it finds, and `Reachable` closes a start state under all calls.

The two rules every safety result below is an instance of:

* `Reachable.invariant` — what holds at the start and is kept by each step holds of every reachable
  state;
* `isChain_trace` — a relation between neighbouring states that every admissible step establishes
  holds along the whole trace of an admissible run.
-/

namespace Phlo.Library

variable {State Call : Type*}

def trace (step : State → Call → State) : State → List Call → List State
  | s, [] => [s]
  | s, c :: cs => s :: trace step (step s c) cs

/-- Every call of the run meets `P` in the state in which it is made. -/
def Along (step : State → Call → State) (P : State → Call → Prop) : State → List Call → Prop
  | _, [] => True
  | s, c :: cs => P s c ∧ Along step P (step s c) cs

instance Along.decidable (step : State → Call → State) (P : State → Call → Prop)
    [∀ s c, Decidable (P s c)] : ∀ s cs, Decidable (Along step P s cs)
  | _, [] => .isTrue trivial
  | s, c :: cs =>
    have := Along.decidable step P (step s c) cs
    inferInstanceAs (Decidable (P s c ∧ Along step P (step s c) cs))

/-- The states some run from `init` ends in. -/
inductive Reachable (step : State → Call → State) (init : State) : State → Prop
  | init : Reachable step init init
  | step {s : State} (c : Call) : Reachable step init s → Reachable step init (step s c)

/-- A state in which a run from `s` ends. -/
def finish (step : State → Call → State) (s : State) (cs : List Call) : State := cs.foldl step s

variable {step : State → Call → State} {init : State}

variable {Inv : State → Prop} {s : State} {P : State → Call → Prop} {cs : List Call}

theorem Reachable.invariant (hinit : Inv init) (hstep : ∀ s c, Inv s → Inv (step s c)) (h : Reachable step init s) :
    Inv s := by
  induction h with
  | init => exact hinit
  | step c _ ih => exact hstep _ c ih

@[simp] theorem finish_nil (s : State) : Library.finish step s [] = s := rfl

@[simp] theorem finish_cons (s : State) (c : Call) (cs : List Call) :
    Library.finish step s (c :: cs) = Library.finish step (step s c) cs := rfl

theorem Reachable.finish (h : Reachable step init s) (cs : List Call) : Reachable step init (finish step s cs) := by
  induction cs generalizing s with
  | nil => exact h
  | cons c cs ih => exact ih (h.step c)

/-- A preorder kept by every step relates the start of a run to its end. -/
theorem finish_rel {R : State → State → Prop} (hrefl : ∀ s, R s s)
    (htrans : ∀ {a b c}, R a b → R b c → R a c) (hstep : ∀ s c, R s (step s c))
    (s : State) (cs : List Call) : R s (Library.finish step s cs) := by
  induction cs generalizing s with
  | nil => exact hrefl s
  | cons c cs ih => exact htrans (hstep s c) (ih (step s c))

/-- A condition every call of a run meets is met by each of them, in some state. -/
theorem Along.exists_of_mem (h : Along step P s cs) {c : Call} (hc : c ∈ cs) : ∃ s', P s' c := by
  induction cs generalizing s with
  | nil => cases hc
  | cons a cs ih =>
    rcases List.mem_cons.1 hc with rfl | hc
    · exact ⟨s, h.1⟩
    · exact ih h.2 hc

/-- An invariant that every admissible call keeps holds in every state of an admissible run. -/
theorem Along.invariant (hstep : ∀ s c, Inv s → P s c → Inv (step s c)) (h : Along step P s cs) (hs : Inv s) :
    ∀ t ∈ trace step s cs, Inv t := by
  induction cs generalizing s with
  | nil =>
    intro t ht
    rw [List.mem_singleton.1 ht]
    exact hs
  | cons c cs ih =>
    intro t ht
    obtain rfl | ht := List.mem_cons.1 ht
    · exact hs
    · exact ih h.2 (hstep s c hs h.1) t ht

/-- The first part of an admissible run. -/
theorem Along.left {ds : List Call} (h : Along step P s (cs ++ ds)) : Along step P s cs := by
  induction cs generalizing s with
  | nil => trivial
  | cons c cs ih => exact ⟨h.1, ih h.2⟩

/-- The rest of an admissible run. -/
theorem Along.right {ds : List Call} (h : Along step P s (cs ++ ds)) : Along step P (Library.finish step s cs) ds := by
  induction cs generalizing s with
  | nil => exact h
  | cons c cs ih => exact ih h.2

/-- An invariant that every admissible call keeps holds at the end of an admissible run. -/
theorem Along.finish (hstep : ∀ s c, Inv s → P s c → Inv (step s c)) (h : Along step P s cs) (hs : Inv s) :
    Inv (Library.finish step s cs) := by
  induction cs generalizing s with
  | nil => exact hs
  | cons c cs ih => exact ih h.2 (hstep s c hs h.1)

/-- **The run rule.**  If every admissible call in a state satisfying the invariant relates its two
end states by `R`, then `R` holds between all neighbouring states of an admissible run. -/
theorem isChain_trace {R : State → State → Prop} (hinv : ∀ s c, Inv s → Inv (step s c))
    (hrel : ∀ s c, Inv s → P s c → R s (step s c)) (hs : Inv s) (h : Along step P s cs) :
    List.IsChain R (trace step s cs) := by
  induction cs generalizing s with
  | nil => exact List.IsChain.singleton s
  | cons c cs ih =>
    have hrest := ih (hinv s c hs) h.2
    cases cs with
    | nil => exact List.IsChain.cons_cons (hrel s c hs h.1) hrest
    | cons d ds => exact List.IsChain.cons_cons (hrel s c hs h.1) hrest

end Phlo.Library
