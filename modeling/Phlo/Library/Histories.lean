import Mathlib.Data.List.Basic
import Mathlib.Tactic.TypeStar

/-!
# Histories of answered calls

A shared record changes by one atomic call after the other, each with an answer.  `history` lists the
calls of a run in the order in which the record served them, each with the record it found and the record
it left; the clients behind the calls may interleave in any way.

`D` relates an earlier to a later call of the run, such as "they drew different tokens".

* `eq_serve_of_mem` — every call is served in the record it finds.
-/

namespace Phlo.Library

/-- A call of a history. -/
structure Served (σ Call Answer : Type*) where
  before : σ
  call : Call
  after : σ
  answer : Answer

section

variable {σ Call Answer : Type*}

def serve (step : σ → Call → σ × Answer) (s : σ) (c : Call) : Served σ Call Answer :=
  ⟨s, c, (step s c).1, (step s c).2⟩

def history (step : σ → Call → σ × Answer) : σ → List Call → List (Served σ Call Answer)
  | _, [] => []
  | s, c :: cs => serve step s c :: history step (step s c).1 cs

variable {step : σ → Call → σ × Answer}

theorem history_map_call (step : σ → Call → σ × Answer) (s : σ) (cs : List Call) : (history step s cs).map Served.call = cs := by
  induction cs generalizing s with
  | nil => rfl
  | cons c cs ih => exact congrArg (c :: ·) (ih _)

variable {cs : List Call} {e : Served σ Call Answer} {s : σ} {past : List (Served σ Call Answer)}

theorem eq_serve_of_mem (he : e ∈ history step s cs) : e = serve step e.before e.call := by
  induction cs generalizing s with
  | nil => cases he
  | cons c cs ih =>
    rcases List.mem_cons.1 he with rfl | he
    · rfl
    · exact ih he

variable {D : Call → Call → Prop} (Inv : List (Served σ Call Answer) → σ → Prop) (R : σ → σ → Prop)

/-- Every call that is related to all the earlier ones keeps the invariant. -/
def KeepsInv (step : σ → Call → σ × Answer) (D : Call → Call → Prop)
    (Inv : List (Served σ Call Answer) → σ → Prop) : Prop :=
  ∀ past s c, Inv past s → (∀ e ∈ past, D e.call c) → Inv (past ++ [serve step s c]) (step s c).1

/-- Every call that is related to all the earlier ones follows the preorder. -/
def Follows (step : σ → Call → σ × Answer) (D : Call → Call → Prop)
    (Inv : List (Served σ Call Answer) → σ → Prop) (R : σ → σ → Prop) : Prop :=
  ∀ past s c, Inv past s → (∀ e ∈ past, D e.call c) → R s (step s c).1

/-- The next call of a run is related to the earlier ones, and the rest of the run to it as well. -/
theorem apart_cons (step : σ → Call → σ × Answer) (s : σ) {c : Call}
    (hD : (past.map Served.call ++ c :: cs).Pairwise D) :
    (∀ e ∈ past, D e.call c) ∧ ((past ++ [serve step s c]).map Served.call ++ cs).Pairwise D := by
  constructor
  · intro e he
    exact (List.pairwise_append.1 hD).2.2 _ (List.mem_map_of_mem he) _ List.mem_cons_self
  · rw [List.map_append, List.append_assoc]
    exact hD

theorem history_split_from (hstep : KeepsInv step D Inv) (hs : Inv past s)
    (hD : (past.map Served.call ++ cs).Pairwise D) {earlier later : List (Served σ Call Answer)}
    (h : history step s cs = earlier ++ e :: later) :
    Inv (past ++ earlier) e.before ∧ Inv (past ++ earlier ++ [e]) e.after ∧
      ∀ e' ∈ past ++ earlier, D e'.call e.call := by
  induction cs generalizing past s earlier with
  | nil => exact absurd h (by simp [history])
  | cons c cs ih =>
    obtain ⟨hfresh, hD'⟩ := apart_cons step s hD
    cases earlier with
    | nil =>
      obtain ⟨rfl, -⟩ := List.cons.inj h
      rw [List.append_nil]
      exact ⟨hs, hstep past s c hs hfresh, hfresh⟩
    | cons e' earlier =>
      obtain ⟨rfl, hrest⟩ := List.cons.inj h
      have hrec := ih (hstep past s c hs hfresh) hD' hrest
      rw [List.append_assoc past, List.singleton_append] at hrec
      exact hrec

/-- **An invariant of the record and the calls served so far** holds of what each call finds and leaves. -/
theorem history_split (hstep : KeepsInv step D Inv) (hs : Inv [] s) (hD : cs.Pairwise D)
    {earlier later : List (Served σ Call Answer)} (h : history step s cs = earlier ++ e :: later) :
    Inv earlier e.before ∧ Inv (earlier ++ [e]) e.after ∧ ∀ e' ∈ earlier, D e'.call e.call := by
  have hsplit := history_split_from Inv hstep hs hD h
  rw [List.nil_append] at hsplit
  exact hsplit

theorem history_apart (hD : cs.Pairwise D) : (history step s cs).Pairwise fun e e' => D e.call e'.call := by
  rw [← history_map_call step s cs] at hD
  exact List.pairwise_map.1 hD

theorem history_rel (hstep : KeepsInv step D Inv) (hrefl : ∀ s, R s s) (htrans : ∀ {a b c}, R a b → R b c → R a c)
    (hrel : Follows step D Inv R) (hs : Inv past s) (hD : (past.map Served.call ++ cs).Pairwise D)
    (he : e ∈ history step s cs) : R s e.before := by
  induction cs generalizing past s with
  | nil => cases he
  | cons c cs ih =>
    obtain ⟨hfresh, hD'⟩ := apart_cons step s hD
    rcases List.mem_cons.1 he with rfl | he
    · exact hrefl s
    · exact htrans (hrel past s c hs hfresh) (ih (hstep past s c hs hfresh) hD' he)

theorem history_pairwise_from (hstep : KeepsInv step D Inv) (hrefl : ∀ s, R s s)
    (htrans : ∀ {a b c}, R a b → R b c → R a c) (hrel : Follows step D Inv R) (hs : Inv past s)
    (hD : (past.map Served.call ++ cs).Pairwise D) : (history step s cs).Pairwise fun e e' => R e.after e'.before := by
  induction cs generalizing past s with
  | nil => exact List.Pairwise.nil
  | cons c cs ih =>
    obtain ⟨hfresh, hD'⟩ := apart_cons step s hD
    have hs' := hstep past s c hs hfresh
    exact List.Pairwise.cons (fun e he => history_rel Inv R hstep hrefl htrans hrel hs' hD' he) (ih hs' hD')

/-- **A preorder that every call follows** relates what a call left to what each later call finds. -/
theorem history_pairwise (hstep : KeepsInv step D Inv) (hrefl : ∀ s, R s s)
    (htrans : ∀ {a b c}, R a b → R b c → R a c) (hrel : Follows step D Inv R) (hs : Inv [] s) (hD : cs.Pairwise D) :
    (history step s cs).Pairwise fun e e' => R e.after e'.before :=
  history_pairwise_from Inv R hstep hrefl htrans hrel hs hD

end

end Phlo.Library
