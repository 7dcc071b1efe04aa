import Mathlib.Data.List.Pairwise
import Phlo.Library.Interleaving

/-!
# The sessions in a trace

A client of a network may call one program after another; the operations of one call form a session.
An entry of the trace carries the operations its session had performed before, so the trace can be cut
into sessions again: `Precedes` relates two operations of one session, and `Session` says that a past is
on the trace, and that whatever else the client has done came earlier.

* `linear_of_reachable` — the trace of every network reached is made of sessions;
* `Linear.precedes` — if something that happens only once lies in the past of two entries, the earlier
  entry precedes the later one in one session;
* `trace_inv_of_linear` — an invariant of the trace of a network, with both at hand.
-/

namespace Phlo.Library

variable {ι : Type} {Op : Type → Type} {σ α : Type}

/-- An operation is one of those that the session of another had performed before. -/
def Entry.Precedes (f e : Entry ι Op σ) : Prop :=
  f.client = e.client ∧ (f.moment :: f.past) <:+ e.past

/-- The past of a client's session is on the trace; its other operations came before the session. -/
structure Session (client : ι) (past : List (Moment Op σ)) (l : List (Entry ι Op σ)) : Prop where
  mem : ∀ m P, (m :: P) <:+ past → ⟨client, P, m⟩ ∈ l
  order : ∀ l₁ f l₂, l = l₁ ++ f :: l₂ → f.client = client →
    (f.moment :: f.past) <:+ past ∨ ∀ m P, (m :: P) <:+ past → ⟨client, P, m⟩ ∈ l₁

def Linear : List (Entry ι Op σ) → Prop
  | [] => True
  | e :: l => Session e.client e.past l ∧ Linear l

theorem Session.start (client : ι) (l : List (Entry ι Op σ)) : Session client [] l where
  mem m P h := absurd (List.suffix_nil.1 h) (List.cons_ne_nil m P)
  order _ _ _ _ _ := Or.inr fun m P h => absurd (List.suffix_nil.1 h) (List.cons_ne_nil m P)

theorem Session.operate {client : ι} {past : List (Moment Op σ)} {l : List (Entry ι Op σ)}
    (h : Session client past l) (m : Moment Op σ) : Session client (m :: past) (⟨client, past, m⟩ :: l) where
  mem m' P hP := by
    obtain heq | hP := List.suffix_cons_iff.1 hP
    · obtain ⟨rfl, rfl⟩ := List.cons.inj heq
      exact List.mem_cons_self
    · exact List.mem_cons_of_mem _ (h.mem m' P hP)
  order l₁ f l₂ hl hf := by
    cases l₁ with
    | nil =>
      obtain ⟨rfl, rfl⟩ := List.cons.inj hl
      exact Or.inl (List.suffix_refl _)
    | cons e l₁ =>
      obtain ⟨rfl, rfl⟩ := List.cons.inj hl
      obtain hsuffix | hafter := h.order l₁ f l₂ rfl hf
      · exact Or.inl (hsuffix.trans (List.suffix_cons _ _))
      · refine Or.inr fun m' P hP => ?_
        obtain heq | hP := List.suffix_cons_iff.1 hP
        · obtain ⟨rfl, rfl⟩ := List.cons.inj heq
          exact List.mem_cons_self
        · exact List.mem_cons_of_mem _ (hafter m' P hP)

theorem Session.other {client : ι} {past : List (Moment Op σ)} {l : List (Entry ι Op σ)}
    (h : Session client past l) {e : Entry ι Op σ} (he : e.client ≠ client) : Session client past (e :: l) where
  mem m P hP := List.mem_cons_of_mem _ (h.mem m P hP)
  order l₁ f l₂ hl hf := by
    cases l₁ with
    | nil =>
      obtain ⟨rfl, -⟩ := List.cons.inj hl
      exact absurd hf he
    | cons e' l₁ =>
      obtain ⟨rfl, rfl⟩ := List.cons.inj hl
      exact (h.order l₁ f l₂ rfl hf).imp_right fun hafter m P hP =>
        List.mem_cons_of_mem _ (hafter m P hP)

section

variable [DecidableEq ι] {sem : Semantics Op σ} {Calls : Program Op α → Prop} {Drift : σ → σ → Prop}
  {s₀ : σ} {n : Network ι Op σ α}

theorem sessions_of_reachable (h : Network.Reachable sem Calls Drift s₀ n) :
    (∀ i t, n.threads i = some t → Session i t.past n.trace) ∧ Linear n.trace := by
  induction h with
  | refl => exact ⟨fun i t ht => (by cases ht), trivial⟩
  | @tail n n' _ hstep ih =>
    obtain ⟨hthreads, hlinear⟩ := ih
    cases hstep with
    | start i p hp =>
      refine ⟨fun j t ht => ?_, hlinear⟩
      dsimp only at ht
      by_cases hj : j = i
      · subst hj
        rw [Function.update_self] at ht
        cases ht
        exact Session.start j _
      · rw [Function.update_of_ne hj] at ht
        exact hthreads j t ht
    | operate i op rest past hi =>
      refine ⟨fun j t ht => ?_, hthreads i _ hi, hlinear⟩
      dsimp only at ht
      by_cases hj : j = i
      · subst hj
        rw [Function.update_self] at ht
        cases ht
        exact (hthreads j _ hi).operate _
      · rw [Function.update_of_ne hj] at ht
        exact (hthreads j t ht).other (Ne.symm hj)
    | drift s hs => exact ⟨hthreads, hlinear⟩

theorem linear_of_reachable (h : Network.Reachable sem Calls Drift s₀ n) : Linear n.trace :=
  (sessions_of_reachable h).2

end

theorem Linear.suffix {l l' : List (Entry ι Op σ)} (h : Linear l) (hl : l' <:+ l) : Linear l' := by
  induction l with
  | nil =>
    rw [List.suffix_nil.1 hl]
    trivial
  | cons e l ih =>
    obtain rfl | hl := List.suffix_cons_iff.1 hl
    · exact h
    · exact ih h.2 hl

/-- What an entry's session had done before is further down the trace. -/
theorem Linear.session {l₁ l₂ : List (Entry ι Op σ)} {e : Entry ι Op σ}
    (h : Linear (l₁ ++ e :: l₂)) : Session e.client e.past l₂ :=
  (h.suffix (List.suffix_append l₁ (e :: l₂))).1

/-- The operations a session had performed before are on the trace. -/
theorem Linear.exists_of_past {l : List (Entry ι Op σ)} (h : Linear l) {e : Entry ι Op σ} (he : e ∈ l)
    {m : Moment Op σ} (hm : m ∈ e.past) : ∃ f ∈ l, f.moment = m := by
  obtain ⟨l₁, l₂, rfl⟩ := List.append_of_mem he
  obtain ⟨later, P, hpast⟩ := List.append_of_mem hm
  have hsuffix : (m :: P) <:+ e.past := hpast ▸ List.suffix_append later (m :: P)
  exact ⟨⟨e.client, P, m⟩, List.mem_append_right l₁ (List.mem_cons_of_mem e (h.session.mem m P hsuffix)), rfl⟩

def Unique (p : Entry ι Op σ → Prop) (l : List (Entry ι Op σ)) : Prop :=
  l.Pairwise fun a b => ¬ (p a ∧ p b)

theorem Unique.eq {p : Entry ι Op σ → Prop} {l : List (Entry ι Op σ)} (h : Unique p l)
    {a b : Entry ι Op σ} (ha : a ∈ l) (hb : b ∈ l) (hpa : p a) (hpb : p b) : a = b := by
  by_contra hne
  have hsymm : Std.Symm fun a b : Entry ι Op σ => ¬ (p a ∧ p b) := ⟨fun a b hab hba => hab hba.symm⟩
  exact List.Pairwise.forall h ha hb hne ⟨hpa, hpb⟩

theorem Linear.precedes {p : Entry ι Op σ → Prop} {l₁ l₂ : List (Entry ι Op σ)} {e f : Entry ι Op σ}
    (hlinear : Linear (l₁ ++ e :: l₂)) (hunique : Unique p l₂) (hf : f ∈ l₂)
    {m m' : Moment Op σ} {P P' : List (Moment Op σ)} (hm : (m :: P) <:+ e.past)
    (hm' : (m' :: P') <:+ f.past) (hp : p ⟨e.client, P, m⟩) (hp' : p ⟨f.client, P', m'⟩) : f.Precedes e := by
  obtain ⟨a, b, rfl⟩ := List.append_of_mem hf
  have hsession : Session e.client e.past (a ++ f :: b) := hlinear.session
  have hrest : Linear ((l₁ ++ e :: a) ++ f :: b) := by
    rw [List.append_assoc, List.cons_append]
    exact hlinear
  have hsession' : Session f.client f.past b := hrest.session
  -- the unique entry lies before `f`
  have hin' : ⟨f.client, P', m'⟩ ∈ b := hsession'.mem m' P' hm'
  have heq := hunique.eq (hsession.mem m P hm)
    (List.mem_append_right a (List.mem_cons_of_mem f hin')) hp hp'
  have hclient : f.client = e.client := (congrArg Entry.client heq).symm
  refine ⟨hclient, (hsession.order a f b rfl hclient).resolve_right fun hafter => ?_⟩
  exact (List.pairwise_append.1 hunique).2.2 _ (hafter m P hm) _ (List.mem_cons_of_mem f hin')
    ⟨hp, hp'⟩

section

variable [DecidableEq ι] {sem : Semantics Op σ} {R : σ → σ → Prop}
  {G : List (Moment Op σ) → Moment Op σ → Prop} {Q : List (Moment Op σ) → α → σ → Prop}
  {Calls : Program Op α → Prop} {Drift : σ → σ → Prop} {s₀ : σ} {n : Network ι Op σ α}

theorem trace_inv_of_linear
    (hguarded : ∀ n : Network ι Op σ α, Network.Reachable sem Calls Drift s₀ n → Guarded sem R G Q s₀ n)
    (hrefl : ∀ s, R s s) {Inv : σ → List (Entry ι Op σ) → Prop} (hinit : Inv s₀ [])
    (hdrift : ∀ s s' l, Drift s s' → Inv s l → Inv s' l)
    (hop : ∀ l e, Linear (e :: l) → G e.past e.moment → Inv e.moment.before l → Inv (e.moment.after sem) (e :: l))
    (h : Network.Reachable sem Calls Drift s₀ n) :
    Inv n.shared n.trace ∧ ∀ l₁ e l₂, n.trace = l₁ ++ e :: l₂ → Inv e.moment.before l₂ := by
  induction h with
  | refl => exact ⟨hinit, fun l₁ e l₂ hl => absurd hl.symm (List.append_ne_nil_of_right_ne_nil _ (by simp))⟩
  | @tail n n' hn hstep ih =>
    obtain ⟨hnow, hbefore⟩ := ih
    cases hstep with
    | start i p hp => exact ⟨hnow, hbefore⟩
    | drift s hs => exact ⟨hdrift _ _ _ hs hnow, hbefore⟩
    | operate i op rest past hi =>
      have hsession : Session i past n.trace := (sessions_of_reachable hn).1 i _ hi
      refine ⟨hop n.trace ⟨i, past, ⟨op, n.shared⟩⟩ ⟨hsession, linear_of_reachable hn⟩
        ((hguarded n hn).operation hrefl hi) hnow, fun l₁ e l₂ hl => ?_⟩
      cases l₁ with
      | nil =>
        obtain ⟨rfl, rfl⟩ := List.cons.inj hl
        exact hnow
      | cons e' l₁ => exact hbefore l₁ e l₂ (List.cons.inj hl).2

/-- **The rule for one client.**  A client that is alone relies only on what the state does by itself. -/
theorem guarantee_of_reachable [Subsingleton ι] (hrefl : ∀ s, R s s) (htrans : ∀ a b c, R a b → R b c → R a c)
    (hdrift : ∀ s s', Drift s s' → R s s') (hcalls : ∀ p, Calls p → ∀ s, Keeps sem R G Q p [] s)
    (h : Network.Reachable sem Calls Drift s₀ n) : ∀ e ∈ n.trace, G e.past e.moment := by
  suffices hall : (∀ i t, n.threads i = some t → Keeps sem R G Q t.program t.past n.shared) ∧
      ∀ e ∈ n.trace, G e.past e.moment from hall.2
  induction h with
  | refl => exact ⟨fun i t ht => (by cases ht), fun e he => absurd he List.not_mem_nil⟩
  | @tail n n' _ hstep ih =>
    obtain ⟨hthreads, htrace⟩ := ih
    cases hstep with
    | start i p hp =>
      refine ⟨fun j t ht => ?_, htrace⟩
      rw [Subsingleton.elim j i] at ht
      dsimp only at ht
      rw [Function.update_self] at ht
      cases ht
      exact hcalls p hp _
    | operate i op rest past hi =>
      obtain ⟨hguarantee, hkeeps⟩ := hthreads i _ hi n.shared (hrefl _)
      refine ⟨fun j t ht => ?_, fun e he => ?_⟩
      · rw [Subsingleton.elim j i] at ht
        dsimp only at ht
        rw [Function.update_self] at ht
        cases ht
        exact hkeeps
      · rcases List.mem_cons.1 he with he | he
        · rw [he]
          exact hguarantee
        · exact htrace e he
    | drift s hs =>
      exact ⟨fun j t ht => (hthreads j t ht).rely htrans (hdrift _ _ hs), htrace⟩

omit [DecidableEq ι] in
/-- Nobody does anything after an operation that no guarantee allows before another. -/
theorem Guarded.last_of_seen {R : σ → σ → Prop} {G : List (Moment Op σ) → Moment Op σ → Prop}
    {Q : List (Moment Op σ) → α → σ → Prop} (Seen : Moment Op σ → Prop) (hrefl : ∀ s, R s s)
    (hguard : ∀ past m, G past m → ∀ m' ∈ past, ¬Seen m') (h : Guarded sem R G Q s₀ n) {i : ι}
    {t : Thread Op σ α} (ht : n.threads i = some t) (hsession : Session i t.past n.trace) {m : Moment Op σ}
    {past : List (Moment Op σ)} (hpast : (m :: past) <:+ t.past) (hseen : Seen m) :
    (∃ a, t.program = .done a ∧ Q t.past a n.shared) ∧ t.past = m :: past := by
  constructor
  · cases hprogram : t.program with
    | done a => exact ⟨a, rfl, h.result hrefl (by rw [ht, ← hprogram])⟩
    | call op rest =>
      have hthread : n.threads i = some ⟨.call op rest, t.past⟩ := by rw [ht, ← hprogram]
      exact absurd hseen (hguard _ _ (h.operation hrefl hthread) m (hpast.subset List.mem_cons_self))
  · obtain ⟨s, hs⟩ := hpast
    cases s with
    | nil => exact hs.symm
    | cons m' s =>
      -- an operation after the one that ends a program
      have hentry := hsession.mem m' (s ++ m :: past) (hs ▸ List.suffix_refl _)
      exact absurd hseen (hguard _ _ (h.trace _ hentry) m (List.mem_append_right s List.mem_cons_self))

/-- A client whose program runs to its end with nobody interfering. -/
theorem steps_alone {i : ι} {p : Program Op α} {past : List (Moment Op σ)} (hi : n.threads i = some ⟨p, past⟩) :
    ∃ n', Relation.ReflTransGen (Network.Step sem Calls Drift) n n' ∧ n'.shared = (p.alone sem n.shared).1 := by
  induction p generalizing n past with
  | done a => exact ⟨n, Relation.ReflTransGen.refl, rfl⟩
  | call op rest ih =>
    have ⟨n', hsteps, hshared⟩ := @ih (sem.exec op n.shared).2
      { shared := (sem.exec op n.shared).1
        threads := Function.update n.threads i (some ⟨rest (sem.exec op n.shared).2, ⟨op, n.shared⟩ :: past⟩)
        trace := ⟨i, past, ⟨op, n.shared⟩⟩ :: n.trace }
      (⟨op, n.shared⟩ :: past) (Function.update_self ..)
    exact ⟨n', Relation.ReflTransGen.head (Network.Step.operate n i op rest past hi) hsteps, hshared⟩

/-- A client that calls a program and runs it to its end with nobody interfering. -/
theorem steps_call (i : ι) {p : Program Op α} (hp : Calls p) :
    ∃ n', Relation.ReflTransGen (Network.Step sem Calls Drift) n n' ∧ n'.shared = (p.alone sem n.shared).1 := by
  have hcalled : (n.call i p).threads i = some ⟨p, []⟩ := Function.update_self ..
  have ⟨n', hsteps, hshared⟩ : ∃ n', Relation.ReflTransGen (Network.Step sem Calls Drift) (n.call i p) n' ∧
      n'.shared = (p.alone sem n.shared).1 := steps_alone hcalled
  exact ⟨n', Relation.ReflTransGen.head (Network.Step.start n i p hp) hsteps, hshared⟩

end

end Phlo.Library
