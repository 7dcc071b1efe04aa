import Phlo.Library.OrderedDict

/-!
# Items under names, brought into agreement

What is wanted and what is there are lists of items, each with a name; of several items under one name
the last one counts.  A plan by content deletes what is not wanted or not the same any more and creates
what is missing; a plan by name does not look at the content.

* `holds_planByName` — what is there after a plan by name has, where a step adds or takes facts.
-/

namespace Phlo.Library

variable {ν α β σ : Type} [DecidableEq ν]

/-! ### Dictionaries by name -/

/-- `{a.name: a for a in l}` -/
def byName (name : α → ν) (l : List α) : OrderedDict ν α := .ofList (l.map fun a => (name a, a))

section

variable {name : α → ν} {l : List α} {k : ν} {a : α}

theorem mem_of_byName (h : (byName name l).get k = some a) : a ∈ l ∧ name a = k := by
  rw [byName, OrderedDict.get_ofList] at h
  obtain ⟨b, hb, heq⟩ := List.mem_map.1 (OrderedDict.mem_of_lastOf h)
  cases heq
  exact ⟨hb, rfl⟩

theorem byName_eq_none : (byName name l).get k = none ↔ ∀ a ∈ l, name a ≠ k := by
  rw [byName, OrderedDict.get_ofList, OrderedDict.lastOf_eq_none_iff]
  constructor
  · intro h a ha hk
    exact h a (List.mem_map.2 ⟨a, ha, by rw [hk]⟩)
  · intro h a ha
    obtain ⟨b, hb, heq⟩ := List.mem_map.1 ha
    cases heq
    exact h a hb rfl

theorem exists_byName (name : α → ν) (h : a ∈ l) : ∃ b, (byName name l).get (name a) = some b := by
  cases hget : (byName name l).get (name a) with
  | none => exact absurd rfl (byName_eq_none.1 hget a h)
  | some b => exact ⟨b, rfl⟩

theorem byName_of_unique (h : a ∈ l) (hunique : ∀ b ∈ l, name b = name a → b = a) :
    (byName name l).get (name a) = some a := by
  obtain ⟨b, hb⟩ := exists_byName name h
  obtain ⟨hmem, hname⟩ := mem_of_byName hb
  rw [hb, hunique b hmem hname]

/-- Where no two items share a name, the items are what is found under their names. -/
theorem byName_eq_some_iff (h : ∀ b ∈ l, ∀ b' ∈ l, name b = name b' → b = b') :
    (byName name l).get k = some a ↔ a ∈ l ∧ name a = k := by
  constructor
  · exact mem_of_byName
  · intro hmem
    obtain ⟨ha, rfl⟩ := hmem
    exact byName_of_unique ha fun b hb hname => h b hb a ha hname

theorem name_of_mem_items {item : ν × α} (h : item ∈ (byName name l).items) : name item.2 = item.1 :=
  (mem_of_byName (OrderedDict.get_eq_some_iff.2 h)).2

end

/-! ### Plans -/

/-- One change of a plan. -/
inductive Change (α β : Type) where
  | delete (b : β)
  | create (a : α)

/-- What becomes of one wanted item, by content: a different item under its name goes first. -/
def replaceStale (same : α → β → Bool) (current : OrderedDict ν β) (item : ν × α) : List (Change α β) :=
  match current.get item.1 with
  | none => [.create item.2]
  | some b => if same item.2 b then [] else [.delete b, .create item.2]

/-- The items there that are not wanted. -/
def superfluous (desired : OrderedDict ν α) (current : OrderedDict ν β) : List β :=
  (current.items.filter fun item => (desired.get item.1).isNone).map Prod.snd

/-- The wanted items that are not there. -/
def absent (desired : OrderedDict ν α) (current : OrderedDict ν β) : List α :=
  (desired.items.filter fun item => (current.get item.1).isNone).map Prod.snd

/-- The wanted items under whose name there is something else. -/
def different (same : α → β → Bool) (desired : OrderedDict ν α) (current : OrderedDict ν β) : List α :=
  (desired.items.filter fun item => (current.get item.1).any fun b => !same item.2 b).map Prod.snd

def planByContent (same : α → β → Bool) (desired : OrderedDict ν α) (current : OrderedDict ν β) : List (Change α β) :=
  desired.items.flatMap (replaceStale same current) ++ (superfluous desired current).map .delete

def planByName (desired : OrderedDict ν α) (current : OrderedDict ν β) : List (Change α β) :=
  (absent desired current).map .create ++ (superfluous desired current).map .delete

section

variable {same : α → β → Bool} {desired : OrderedDict ν α} {current : OrderedDict ν β}

theorem mem_superfluous {b : β} :
    b ∈ superfluous desired current ↔ ∃ k, current.get k = some b ∧ desired.get k = none := by
  rw [superfluous, List.mem_map]
  constructor
  · intro h
    obtain ⟨item, hitem, rfl⟩ := h
    obtain ⟨hmem, hnone⟩ := List.mem_filter.1 hitem
    exact ⟨item.1, OrderedDict.get_eq_some_iff.2 hmem, Option.isNone_iff_eq_none.1 hnone⟩
  · intro h
    obtain ⟨k, hget, hnone⟩ := h
    exact ⟨(k, b), List.mem_filter.2 ⟨OrderedDict.get_eq_some_iff.1 hget,
      Option.isNone_iff_eq_none.2 hnone⟩, rfl⟩

theorem mem_absent {a : α} : a ∈ absent desired current ↔ ∃ k, desired.get k = some a ∧ current.get k = none :=
  mem_superfluous

theorem superfluous_eq_nil_iff : superfluous desired current = [] ↔
    ∀ k, desired.get k = none → current.get k = none := by
  constructor
  · intro h k hk
    cases hget : current.get k with
    | none => rfl
    | some b =>
      have hmem : b ∈ superfluous desired current := mem_superfluous.2 ⟨k, hget, hk⟩
      rw [h] at hmem
      cases hmem
  · intro h
    refine List.eq_nil_iff_forall_not_mem.2 fun b hb => ?_
    obtain ⟨k, hget, hk⟩ := mem_superfluous.1 hb
    rw [h k hk] at hget
    cases hget

theorem absent_eq_nil_iff : absent desired current = [] ↔ ∀ k, current.get k = none → desired.get k = none :=
  superfluous_eq_nil_iff

theorem different_eq_nil_iff : different same desired current = [] ↔
    ∀ k a b, desired.get k = some a → current.get k = some b → same a b = true := by
  rw [different, List.map_eq_nil_iff, List.filter_eq_nil_iff]
  constructor
  · intro h k a b ha hb
    have hno := h (k, a) (OrderedDict.get_eq_some_iff.1 ha)
    rw [hb] at hno
    simpa using hno
  · intro h item hitem hany
    obtain ⟨b, hb, hdiffers⟩ := (Option.any_eq_true _ _).1 hany
    rw [h item.1 item.2 b (OrderedDict.get_eq_some_iff.2 hitem) hb] at hdiffers
    cases hdiffers

/-- Nothing is missing, superfluous or different exactly when something of the same content is under each
name that is wanted and nothing under any other. -/
theorem inSyncByContent_iff : (absent desired current = [] ∧ superfluous desired current = [] ∧
        different same desired current = []) ↔
      (∀ k a, desired.get k = some a → ∃ b, current.get k = some b ∧ same a b = true) ∧
        ∀ k, desired.get k = none → current.get k = none := by
  rw [absent_eq_nil_iff, superfluous_eq_nil_iff, different_eq_nil_iff]
  constructor
  · intro h
    obtain ⟨habsent, hsuperfluous, hdifferent⟩ := h
    refine ⟨fun k a ha => ?_, hsuperfluous⟩
    cases hget : current.get k with
    | none =>
      rw [habsent k hget] at ha
      cases ha
    | some b => exact ⟨b, rfl, hdifferent k a b ha hget⟩
  · intro h
    obtain ⟨hthere, hsuperfluous⟩ := h
    refine ⟨fun k hk => ?_, hsuperfluous, fun k a b ha hb => ?_⟩
    · cases ha : desired.get k with
      | none => rfl
      | some a =>
        obtain ⟨b, hb, -⟩ := hthere k a ha
        rw [hk] at hb
        cases hb
    · obtain ⟨b', hb', hsame⟩ := hthere k a ha
      rw [hb] at hb'
      cases hb'
      exact hsame

end

/-! ### Carrying out a plan by content -/

def settled (same : α → β → Bool) (shown : α → β) (a : α) : Option β → β
  | none => shown a
  | some b => if same a b then b else shown a

section

variable {same : α → β → Bool} {shown : α → β} {nameOf : β → ν} {desired : OrderedDict ν α}
  {current : OrderedDict ν β} {view : σ → ν → Option β} {step : σ → Change α β → σ} {s : σ}

theorem view_replaced {items : List (ν × α)} (hnodup : (items.map Prod.fst).Nodup)
    (hcreate : ∀ item ∈ items, ∀ s k, view (step s (.create item.2)) k =
      if k = item.1 then some (shown item.2) else view s k)
    (hdelete : ∀ b s k, view (step s (.delete b)) k = if k = nameOf b then none else view s k)
    (hname : ∀ k b, current.get k = some b → nameOf b = k)
    (hview : ∀ item ∈ items, view s item.1 = current.get item.1) (k : ν) :
    view ((items.flatMap (replaceStale same current)).foldl step s) k =
      ((items.find? fun item => item.1 = k).map fun item =>
        settled same shown item.2 (current.get item.1)).or (view s k) := by
  induction items generalizing s with
  | nil => rfl
  | cons item items ih =>
    obtain ⟨hnew, hnodup⟩ := List.nodup_cons.1 hnodup
    have hself : view s item.1 = current.get item.1 := hview item List.mem_cons_self
    -- what the round does
    have hround : ∀ k, view ((replaceStale same current item).foldl step s) k =
        if k = item.1 then some (settled same shown item.2 (current.get item.1)) else view s k := by
      intro k
      rw [replaceStale]
      cases hget : current.get item.1 with
      | none => exact hcreate item List.mem_cons_self s k
      | some b =>
        dsimp only [settled]
        split
        next hsame =>
          show view s k = _
          split
          next hk => rw [hk, hself, hget]
          next => rfl
        next hsame =>
          show view (step (step s (.delete b)) (.create item.2)) k = _
          rw [hcreate item List.mem_cons_self, hdelete, hname item.1 b hget]
          split
          next => rfl
          next => rfl
    have hothers : ∀ other ∈ items, view ((replaceStale same current item).foldl step s) other.1 =
        current.get other.1 := by
      intro other hother
      have hne : other.1 ≠ item.1 := fun heq => hnew (List.mem_map.2 ⟨other, hother, heq⟩)
      rw [hround, if_neg hne]
      exact hview other (List.mem_cons_of_mem _ hother)
    rw [List.flatMap_cons, List.foldl_append,
      ih hnodup (fun other hother => hcreate other (List.mem_cons_of_mem _ hother)) hothers]
    by_cases hk : item.1 = k
    · have hnone : (items.find? fun other => other.1 = k) = none := by
        rw [List.find?_eq_none]
        intro other hother
        simp only [decide_eq_true_eq]
        exact fun heq => hnew (List.mem_map.2 ⟨other, hother, heq.trans hk.symm⟩)
      rw [List.find?_cons_of_pos (by simpa using hk), hnone, Option.map_none, Option.none_or, hround,
        if_pos hk.symm]
      rfl
    · rw [List.find?_cons_of_neg (by simpa using hk), hround, if_neg (Ne.symm hk)]

theorem view_deleted (hdelete : ∀ b s k, view (step s (.delete b)) k = if k = nameOf b then none else view s k)
    (l : List β) (k : ν) :
    view ((l.map Change.delete).foldl step s) k = if ∃ b ∈ l, nameOf b = k then none else view s k := by
  induction l generalizing s with
  | nil => simp
  | cons b l ih =>
    rw [List.map_cons, List.foldl_cons, ih, hdelete]
    by_cases hl : ∃ b' ∈ l, nameOf b' = k
    · obtain ⟨b', hb', hk⟩ := hl
      rw [if_pos ⟨b', hb', hk⟩, if_pos ⟨b', List.mem_cons_of_mem _ hb', hk⟩]
    · rw [if_neg hl]
      by_cases hk : k = nameOf b
      · rw [if_pos hk, if_pos ⟨b, List.mem_cons_self, hk.symm⟩]
      · rw [if_neg hk, if_neg]
        intro h
        obtain ⟨b', hb', heq⟩ := h
        obtain rfl | hb' := List.mem_cons.1 hb'
        · exact hk heq.symm
        · exact hl ⟨b', hb', heq⟩

/-- **What is there in the end**: under each wanted name what was there with the same content, or what
has been created; nothing under the other names. -/
theorem view_applied (view : σ → ν → Option β) (step : σ → Change α β → σ) (nameOf : β → ν)
    (hcreate : ∀ item ∈ desired.items, ∀ s k, view (step s (.create item.2)) k =
      if k = item.1 then some (shown item.2) else view s k)
    (hdelete : ∀ b s k, view (step s (.delete b)) k = if k = nameOf b then none else view s k)
    (hname : ∀ k b, current.get k = some b → nameOf b = k) (hview : ∀ k, view s k = current.get k) (k : ν) :
    view ((planByContent same desired current).foldl step s) k =
      (desired.get k).map fun a => settled same shown a (current.get k) := by
  rw [planByContent, List.foldl_append, view_deleted hdelete,
    view_replaced desired.nodup hcreate hdelete hname fun item _ => hview item.1]
  cases hfind : desired.items.find? fun item => item.1 = k with
  | some item =>
    have hk : item.1 = k := by simpa using List.find?_some hfind
    have hwanted : desired.get k = some item.2 := by rw [OrderedDict.get, hfind]; rfl
    rw [if_neg, hwanted, ← hk]
    · rfl
    intro h
    obtain ⟨b, hb, hbk⟩ := h
    obtain ⟨k', hget, hnone⟩ := mem_superfluous.1 hb
    rw [← hname k' b hget, hbk, hwanted] at hnone
    cases hnone
  | none =>
    have hunwanted : desired.get k = none := by rw [OrderedDict.get, hfind]; rfl
    rw [hunwanted, Option.map_none, Option.map_none, Option.none_or]
    split
    next => rfl
    next hkept =>
      rw [hview]
      cases hget : current.get k with
      | none => rfl
      | some b => exact absurd ⟨b, mem_superfluous.2 ⟨k, hget, hunwanted⟩, hname k b hget⟩ hkept

/-- A created item, and one that was found the same, is the same as the wanted item. -/
theorem same_settled {a : α} (hshown : same a (shown a) = true) (o : Option β) :
    same a (settled same shown a o) = true := by
  cases o with
  | none => exact hshown
  | some b =>
    rw [settled]
    split
    next hsame => exact hsame
    next => exact hshown

end

/-! ### Carrying out a plan by name -/

section

variable {γ : Type} (holds : σ → γ → Prop) (step : σ → Change α β → σ) {adds : α → γ → Prop}
  {takes : β → γ → Prop} {s : σ} {x : γ}

theorem holds_created {l : List α} (h : ∀ a ∈ l, ∀ s x, holds (step s (.create a)) x ↔ holds s x ∨ adds a x) :
    holds ((l.map Change.create).foldl step s) x ↔ holds s x ∨ ∃ a ∈ l, adds a x := by
  induction l generalizing s with
  | nil => simp
  | cons a l ih =>
    rw [List.map_cons, List.foldl_cons, ih fun b hb => h b (List.mem_cons_of_mem _ hb),
      h a List.mem_cons_self, List.exists_mem_cons_iff, or_assoc]

theorem holds_deleted {l : List β} (h : ∀ b ∈ l, ∀ s x, holds (step s (.delete b)) x ↔ holds s x ∧ ¬takes b x) :
    holds ((l.map Change.delete).foldl step s) x ↔ holds s x ∧ ∀ b ∈ l, ¬takes b x := by
  induction l generalizing s with
  | nil => simp
  | cons b l ih =>
    rw [List.map_cons, List.foldl_cons, ih fun b' hb' => h b' (List.mem_cons_of_mem _ hb'),
      h b List.mem_cons_self, List.forall_mem_cons, and_assoc]

/-- What holds in the end: what did or was added under a name where nothing was, and was not taken with an
item that is not wanted. -/
theorem holds_planByName {desired : OrderedDict ν α} {current : OrderedDict ν β}
    (hcreate : ∀ k a, desired.get k = some a → ∀ s x, holds (step s (.create a)) x ↔ holds s x ∨ adds a x)
    (hdelete : ∀ k b, current.get k = some b → ∀ s x, holds (step s (.delete b)) x ↔ holds s x ∧ ¬takes b x) :
    holds ((planByName desired current).foldl step s) x ↔
      (holds s x ∨ ∃ k a, desired.get k = some a ∧ current.get k = none ∧ adds a x) ∧
        ∀ k b, current.get k = some b → desired.get k = none → ¬takes b x := by
  have hcreates : ∀ a ∈ absent desired current, ∀ s x, holds (step s (.create a)) x ↔ holds s x ∨ adds a x := by
    intro a ha
    obtain ⟨k, hwanted, -⟩ := mem_absent.1 ha
    exact hcreate k a hwanted
  have hdeletes : ∀ b ∈ superfluous desired current,
      ∀ s x, holds (step s (.delete b)) x ↔ holds s x ∧ ¬takes b x := by
    intro b hb
    obtain ⟨k, hthere, -⟩ := mem_superfluous.1 hb
    exact hdelete k b hthere
  rw [planByName, List.foldl_append, holds_deleted holds step hdeletes,
    holds_created holds step hcreates]
  refine and_congr (or_congr Iff.rfl ?_) ?_
  · constructor
    · intro h
      obtain ⟨a, ha, hadds⟩ := h
      obtain ⟨k, hwanted, hnone⟩ := mem_absent.1 ha
      exact ⟨k, a, hwanted, hnone, hadds⟩
    · intro h
      obtain ⟨k, a, hwanted, hnone, hadds⟩ := h
      exact ⟨a, mem_absent.2 ⟨k, hwanted, hnone⟩, hadds⟩
  · constructor
    · intro h k b hthere hnone
      exact h b (mem_superfluous.2 ⟨k, hthere, hnone⟩)
    · intro h b hb
      obtain ⟨k, hthere, hnone⟩ := mem_superfluous.1 hb
      exact h k b hthere hnone

/-- Nothing is planned by name exactly when the same names are wanted and there. -/
theorem planByName_eq_nil_iff {desired : OrderedDict ν α} {current : OrderedDict ν β} :
    planByName desired current = [] ↔ absent desired current = [] ∧ superfluous desired current = [] := by
  rw [planByName, List.append_eq_nil_iff, List.map_eq_nil_iff, List.map_eq_nil_iff]

end

end Phlo.Library
