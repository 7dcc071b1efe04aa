import Mathlib.Data.List.Basic

/-!
# Transactions over a connection that may break

A client makes one call after the other: statements in the open transaction of a database, commits, and
calls that do not touch the database at all.  `fate n` is what becomes of call number `n`: it is answered,
or it fails before it has had an effect, or it has its effect and the answer is lost.  The first call that
is not answered ends the client's procedure, and the open transaction is gone.

* `run_bind_answered`, `run_bind_broken` — a procedure that starts with a call;
* `run_bind_ok`, `run_bind_error` — a procedure that starts with another one;
* `Transactional.commit` publishes what the open transaction has done, `Transactional.execute` adds to it.
-/

namespace Phlo.Library

/-- What becomes of a call. -/
inductive Fate
  | answered
  | refused
  | lost
  deriving DecidableEq

/-- A database: what is committed, and what the open transaction sees. -/
structure Transactional (σ : Type) where
  committed : σ
  working : σ

namespace Transactional

variable {σ : Type}

def idle (s : σ) : Transactional σ := ⟨s, s⟩

def execute (f : σ → σ) (s : Transactional σ) : Transactional σ := ⟨s.committed, f s.working⟩

def commit (s : Transactional σ) : Transactional σ := ⟨s.working, s.working⟩

@[simp] theorem committed_idle (s : σ) : (idle s).committed = s := rfl

@[simp] theorem working_idle (s : σ) : (idle s).working = s := rfl

@[simp] theorem committed_execute (f : σ → σ) (s : Transactional σ) : (s.execute f).committed = s.committed := rfl

@[simp] theorem working_execute (f : σ → σ) (s : Transactional σ) : (s.execute f).working = f s.working := rfl

@[simp] theorem committed_commit (s : Transactional σ) : s.commit.committed = s.working := rfl

@[simp] theorem working_commit (s : Transactional σ) : s.commit.working = s.working := rfl

end Transactional

/-- The client's side: the database, and how many calls have been made. -/
structure Caller (σ : Type) where
  store : Transactional σ
  calls : ℕ

/-- A procedure that calls over the connection; it ends early with the number of the call that failed, or
with an error of its own. -/
abbrev Procedure (σ ε : Type) := ExceptT (ε ⊕ ℕ) (StateM (Caller σ))

section

variable {σ ε α β : Type}

def callOver (fate : ℕ → Fate) (effect : Transactional σ → Transactional σ) : Procedure σ ε Unit := fun s =>
  match fate s.calls with
  | .answered => (.ok (), ⟨effect s.store, s.calls + 1⟩)
  | .refused => (.error (.inr s.calls), ⟨s.store, s.calls + 1⟩)
  | .lost => (.error (.inr s.calls), ⟨effect s.store, s.calls + 1⟩)

variable {fate : ℕ → Fate} {effect : Transactional σ → Transactional σ} {s : Caller σ} {f : Unit → Procedure σ ε α}

theorem run_bind_answered (h : fate s.calls = .answered) :
    (callOver fate effect >>= f) s = f () ⟨effect s.store, s.calls + 1⟩ := by
  show (ExceptT.bindCont f (callOver fate effect s).1) (callOver fate effect s).2 = _
  unfold callOver
  rw [h]
  rfl

theorem run_bind_broken (h : fate s.calls ≠ .answered) : (callOver fate effect >>= f) s = (.error (.inr s.calls),
      ⟨if fate s.calls = .refused then s.store else effect s.store, s.calls + 1⟩) := by
  show (ExceptT.bindCont f (callOver fate effect s).1) (callOver fate effect s).2 = _
  unfold callOver
  cases hfate : fate s.calls with
  | answered => exact absurd hfate h
  | refused => rfl
  | lost => rfl

theorem run_bind_ok {x : Procedure σ ε β} {g : β → Procedure σ ε α} {b : β} {s' : Caller σ}
    (h : x s = (.ok b, s')) : (x >>= g) s = g b s' := by
  show (ExceptT.bindCont g (x s).1) (x s).2 = _
  rw [h]
  rfl

theorem run_bind_error {x : Procedure σ ε β} {g : β → Procedure σ ε α} {e : ε ⊕ ℕ} {s' : Caller σ}
    (h : x s = (.error e, s')) : (x >>= g) s = (.error e, s') := by
  show (ExceptT.bindCont g (x s).1) (x s).2 = _
  rw [h]
  rfl

theorem committed_of_broken (h : fate s.calls ≠ .answered)
    (heffect : ∀ store : Transactional σ, (effect store).committed = store.committed) :
    ((callOver fate effect >>= f) s).2.store.committed = s.store.committed := by
  rw [run_bind_broken h]
  show (if fate s.calls = .refused then s.store else effect s.store).committed = _
  split
  · rfl
  · exact heffect s.store

end

end Phlo.Library
