import Mathlib.Tactic.TypeStar

/-!
# Fallible steps over an explicit state

A procedure that may be refused is a function into `Except ε`, and a sequence of them is a `do`
block.  `bind_eq_ok` takes a successful block apart, `require_eq_ok` a successful check,
`optionForM_eq_ok` and `listForM_eq_ok` a check of every element, and `foldlM_inv` and `foldlM_rel`
are the rules for a loop: what every successful round keeps, the loop keeps.

`Raises P x` says that whatever `x` raises satisfies `P`; a block raises what its steps raise.
-/

namespace Phlo.Library

variable {ε σ α β : Type}

variable {f : α → Except ε β} {x : Except ε α} {l : List α}

theorem bind_eq_ok {b : β} : (x >>= f) = .ok b ↔ ∃ a, x = .ok a ∧ f a = .ok b := by
  cases x with
  | error e =>
    constructor
    · intro h
      cases h
    · rintro ⟨a, h, -⟩
      cases h
  | ok a =>
    constructor
    · intro h
      exact ⟨a, rfl, h⟩
    · rintro ⟨a', h, hb⟩
      cases h
      exact hb

theorem ok_bind (a : α) (f : α → Except ε β) : (Except.ok a >>= f) = f a := rfl

theorem exists_of_isOk (h : x.isOk = true) : ∃ a, x = .ok a := by
  cases x with
  | ok a => exact ⟨a, rfl⟩
  | error e => cases h

theorem map_eq_ok {f : α → β} {b : β} : x.map f = .ok b ↔ ∃ a, x = .ok a ∧ f a = b := by
  cases x with
  | error e =>
    constructor
    · intro h
      cases h
    · rintro ⟨a, h, -⟩
      cases h
  | ok a =>
    constructor
    · intro h
      cases h
      exact ⟨a, rfl, rfl⟩
    · rintro ⟨a', h, rfl⟩
      cases h
      rfl

theorem mapError_eq_ok {ε' : Type} {f : ε → ε'} {a : α} : x.mapError f = .ok a ↔ x = .ok a := by
  cases x with
  | error e =>
    constructor
    · intro h
      cases h
    · intro h
      cases h
  | ok b =>
    constructor
    · intro h
      cases h
      rfl
    · intro h
      cases h
      rfl

/-- Raise `e` unless the condition holds. -/
def require (c : Prop) [Decidable c] (e : ε) : Except ε Unit :=
  if c then .ok () else .error e

@[simp] theorem require_eq_ok {c : Prop} [Decidable c] {e : ε} {u : Unit} : require c e = .ok u ↔ c := by
  unfold require
  split
  · next h => exact ⟨fun _ => h, fun _ => rfl⟩
  · next h => exact ⟨fun h' => (by cases h'), fun h' => absurd h' h⟩

theorem optionForM_eq_ok {o : Option α} {f : α → Except ε PUnit} {u : PUnit} :
    o.forM f = .ok u ↔ ∀ a ∈ o, f a = .ok () := by
  cases o with
  | none =>
    constructor
    · intro _ a ha
      cases ha
    · intro _
      rfl
  | some a =>
    constructor
    · intro h b hb
      cases hb
      exact h
    · intro h
      exact h a rfl

theorem listForM_eq_ok {f : α → Except ε PUnit} {u : PUnit} : l.forM f = .ok u ↔ ∀ a ∈ l, f a = .ok () := by
  induction l with
  | nil =>
    constructor
    · intro _ a ha
      cases ha
    · intro _
      rfl
  | cons a l ih =>
    rw [List.forall_mem_cons]
    show (f a >>= fun _ => l.forM f) = .ok u ↔ _
    rw [bind_eq_ok]
    constructor
    · rintro ⟨_, ha, hl⟩
      exact ⟨ha, ih.1 hl⟩
    · rintro ⟨ha, hl⟩
      exact ⟨(), ha, ih.2 hl⟩

/-- A list is processed exactly when each of its elements is. -/
theorem exists_mapM_eq_ok : (∃ bs, l.mapM f = .ok bs) ↔ ∀ a ∈ l, ∃ b, f a = .ok b := by
  induction l with
  | nil =>
    constructor
    · intro _ a ha
      cases ha
    · intro _
      exact ⟨[], rfl⟩
  | cons a l ih =>
    rw [List.forall_mem_cons, ← ih]
    simp only [List.mapM_cons, bind_eq_ok]
    constructor
    · rintro ⟨_, b, hb, bs, hbs, _⟩
      exact ⟨⟨b, hb⟩, bs, hbs⟩
    · rintro ⟨⟨b, hb⟩, bs, hbs⟩
      exact ⟨b :: bs, b, hb, bs, hbs, rfl⟩

theorem mapM_map_eq_ok {f : β → α} {g : α → Except ε β} {l : List β} (h : ∀ b ∈ l, g (f b) = .ok b) :
    (l.map f).mapM g = .ok l := by
  induction l with
  | nil => rfl
  | cons b l ih =>
    obtain ⟨hb, hl⟩ := List.forall_mem_cons.1 h
    rw [List.map_cons, List.mapM_cons, hb, ih hl]
    rfl

/-- A list whose elements are all processed. -/
theorem mapM_eq_ok_map {g : α → β} (h : ∀ a ∈ l, f a = .ok (g a)) : l.mapM f = .ok (l.map g) := by
  induction l with
  | nil => rfl
  | cons a l ih =>
    rw [List.mapM_cons, h a List.mem_cons_self, ih fun b hb => h b (List.mem_cons_of_mem a hb)]
    rfl

/-- The first element that passes a test that raises nothing. -/
theorem findM?_eq_ok {p : α → Except ε Bool} {q : α → Bool} (h : ∀ a ∈ l, p a = .ok (q a)) :
    l.findM? p = .ok (l.find? q) := by
  induction l with
  | nil => rfl
  | cons a l ih =>
    have hrest := ih fun b hb => h b (List.mem_cons_of_mem a hb)
    rw [List.findM?, h a List.mem_cons_self, List.find?_cons]
    cases hq : q a with
    | true => rfl
    | false => exact hrest

theorem anyM_eq_ok {p : α → Except ε Bool} {q : α → Bool} (h : ∀ a ∈ l, p a = .ok (q a)) :
    l.anyM p = .ok (l.any q) := by
  induction l with
  | nil => rfl
  | cons a l ih =>
    have hrest := ih fun b hb => h b (List.mem_cons_of_mem a hb)
    rw [List.anyM, h a List.mem_cons_self, List.any_cons]
    cases hq : q a with
    | true => rfl
    | false => exact hrest

theorem mem_of_mapM_eq_ok {bs : List β} (h : l.mapM f = .ok bs) :
    (∀ a ∈ l, ∃ b ∈ bs, f a = .ok b) ∧ ∀ b ∈ bs, ∃ a ∈ l, f a = .ok b := by
  induction l generalizing bs with
  | nil =>
    cases h
    exact ⟨fun a ha => absurd ha List.not_mem_nil, fun b hb => absurd hb List.not_mem_nil⟩
  | cons a l ih =>
    rw [List.mapM_cons] at h
    obtain ⟨b, hb, hrest⟩ := bind_eq_ok.1 h
    obtain ⟨bs', hbs', hcons⟩ := bind_eq_ok.1 hrest
    cases hcons
    obtain ⟨hto, hfrom⟩ := ih hbs'
    constructor
    · intro a' ha'
      obtain rfl | ha' := List.mem_cons.1 ha'
      · exact ⟨b, List.mem_cons_self, hb⟩
      · obtain ⟨b', hb', hf⟩ := hto a' ha'
        exact ⟨b', List.mem_cons_of_mem _ hb', hf⟩
    · intro b' hb'
      obtain rfl | hb' := List.mem_cons.1 hb'
      · exact ⟨a, List.mem_cons_self, hb⟩
      · obtain ⟨a', ha', hf⟩ := hfrom b' hb'
        exact ⟨a', List.mem_cons_of_mem _ ha', hf⟩

/-- An invariant of every successful round holds after a successful loop. -/
theorem foldlM_inv {Inv : σ → Prop} {f : σ → α → Except ε σ} (hf : ∀ s a s', Inv s → f s a = .ok s' → Inv s')
    {s s' : σ} (hs : Inv s) (h : l.foldlM f s = .ok s') : Inv s' := by
  induction l generalizing s with
  | nil =>
    cases h
    exact hs
  | cons a l ih =>
    rw [List.foldlM_cons, bind_eq_ok] at h
    obtain ⟨t, ht, hrest⟩ := h
    exact ih (hf _ a t hs ht) hrest

/-- A preorder that every successful round follows is followed by a successful loop. -/
theorem foldlM_rel {R : σ → σ → Prop} (hrefl : ∀ s, R s s) (htrans : ∀ {a b c}, R a b → R b c → R a c)
    {f : σ → α → Except ε σ} (hf : ∀ s a s', f s a = .ok s' → R s s') {s s' : σ} (h : l.foldlM f s = .ok s') :
    R s s' := by
  induction l generalizing s with
  | nil =>
    cases h
    exact hrefl _
  | cons a l ih =>
    rw [List.foldlM_cons, bind_eq_ok] at h
    obtain ⟨t, ht, hrest⟩ := h
    exact htrans (hf _ a t ht) (ih hrest)

/-- A loop whose successful rounds are a function is a fold of that function. -/
theorem foldlM_eq_foldl {f : σ → α → Except ε σ} {g : σ → α → σ} (hf : ∀ s a s', f s a = .ok s' → s' = g s a)
    {s s' : σ} (h : l.foldlM f s = .ok s') : s' = l.foldl g s := by
  induction l generalizing s with
  | nil =>
    cases h
    rfl
  | cons a l ih =>
    rw [List.foldlM_cons, bind_eq_ok] at h
    obtain ⟨t, ht, hrest⟩ := h
    obtain rfl := hf s a t ht
    exact ih hrest

/-! ### What a procedure may raise -/

/-- Every error of `x` satisfies `P`. -/
def Raises (P : ε → Prop) (x : Except ε α) : Prop := ∀ e, x = .error e → P e

variable {P : ε → Prop}

theorem raises_ok {a : α} : Raises P (.ok a : Except ε α) := fun _ h => by cases h

theorem Raises.exists_error (hx : Raises P x) (hok : ∀ a, x ≠ .ok a) : ∃ e, x = .error e ∧ P e := by
  cases x with
  | error e => exact ⟨e, rfl, hx e rfl⟩
  | ok a => exact absurd rfl (hok a)

theorem raises_require {c : Prop} [Decidable c] {e : ε} (he : P e) : Raises P (require c e) := by
  intro e' h
  unfold require at h
  split at h
  · cases h
  · cases h
    exact he

theorem raises_bind_iff : Raises P (x >>= f) ↔ Raises P x ∧ ∀ a, x = .ok a → Raises P (f a) := by
  cases x with
  | error e' =>
    constructor
    · intro h
      exact ⟨fun e he => h e (by cases he; rfl), fun a ha => by cases ha⟩
    · intro h e he
      cases he
      exact h.1 e' rfl
  | ok a =>
    constructor
    · intro h
      refine ⟨raises_ok, fun a' ha => ?_⟩
      cases ha
      exact h
    · intro h
      exact h.2 a rfl

theorem Raises.bind (hx : Raises P x) (hf : ∀ a, x = .ok a → Raises P (f a)) : Raises P (x >>= f) :=
  raises_bind_iff.2 ⟨hx, hf⟩

theorem raises_mapError {ε' : Type} {x : Except ε' α} {f : ε' → ε} (hf : ∀ e, P (f e)) : Raises P (x.mapError f) := by
  intro e h
  cases x with
  | error e' =>
    cases h
    exact hf e'
  | ok a => cases h

theorem raises_optionForM {o : Option α} {f : α → Except ε PUnit} (hf : ∀ a ∈ o, Raises P (f a)) :
    Raises P (o.forM f) := by
  cases o with
  | none => exact raises_ok
  | some a => exact hf a rfl

theorem raises_listForM {f : α → Except ε PUnit} (hf : ∀ a ∈ l, Raises P (f a)) : Raises P (l.forM f) := by
  induction l with
  | nil => exact raises_ok
  | cons a l ih =>
    rw [List.forall_mem_cons] at hf
    exact hf.1.bind fun _ _ => ih hf.2

theorem raises_mapM (hf : ∀ a ∈ l, Raises P (f a)) : Raises P (l.mapM f) := by
  induction l with
  | nil => exact raises_ok
  | cons a l ih =>
    rw [List.forall_mem_cons] at hf
    rw [List.mapM_cons]
    exact hf.1.bind fun _ _ => (ih hf.2).bind fun _ _ => raises_ok

theorem raises_foldlM {f : σ → α → Except ε σ} (hf : ∀ s, ∀ a ∈ l, Raises P (f s a)) (s : σ) :
    Raises P (l.foldlM f s) := by
  induction l generalizing s with
  | nil => exact raises_ok
  | cons a l ih =>
    rw [List.foldlM_cons]
    exact (hf s a List.mem_cons_self).bind fun s' _ =>
      ih (fun s b hb => hf s b (List.mem_cons_of_mem _ hb)) s'

end Phlo.Library
