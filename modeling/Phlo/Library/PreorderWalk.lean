import Mathlib.Data.List.Perm.Lattice
import Phlo.Library.DependencyWalk

/-!
# Listing all that a place leads to

`expandPlace` lists a place and everything it leads to, depth first, each place before what it leads to and
none twice.  It fails at a place nobody knows, and when the way comes back to itself.

The places on the way and the places seen are two lists.  A seen place that is not on the way is finished:
`Expands` says so of a walk that has succeeded, with the finished places in the order they were finished.

* `expandPlace_ok` — what a walk that succeeds has listed.
-/

namespace Phlo.Library

open Relation

inductive ExpandError (κ : Type) where
  | outOfFuel
  | cycle (path : List κ) (k : κ)
  | unknown (k : κ)
  deriving DecidableEq

variable {κ : Type}

/-- What a place leads to; an unknown place leads nowhere. -/
def parentsOf (next : κ → Option (List κ)) (k : κ) : List κ := (next k).getD []

def expandAll (expand : List κ → κ → Except (ExpandError κ) (List κ × List κ)) :
    List κ → List κ → Except (ExpandError κ) (List κ × List κ)
  | [], seen => .ok ([], seen)
  | k :: ks, seen => do
    let (found, seen) ← expand seen k
    let (more, seen) ← expandAll expand ks seen
    .ok (found ++ more, seen)

def expandPlace [DecidableEq κ] (next : κ → Option (List κ)) :
    ℕ → List κ → List κ → κ → Except (ExpandError κ) (List κ × List κ)
  | 0, _, _, _ => .error .outOfFuel
  | fuel + 1, path, seen, k =>
    if k ∈ path then .error (.cycle path k)
    else if k ∈ seen then .ok ([], seen)
    else match next k with
      | none => .error (.unknown k)
      | some parents => do
        let (found, seen) ← expandAll (expandPlace next fuel (path ++ [k])) parents (k :: seen)
        .ok (k :: found, seen)

variable {next : κ → Option (List κ)} {path seen done : List κ}

/-! ### Walks that succeed -/

/-- The places seen are those on the way and those that are finished. -/
structure Ready (next : κ → Option (List κ)) (path seen done : List κ) : Prop where
  finished : Finished (parentsOf next) done
  seen : ∀ x, x ∈ seen ↔ x ∈ path ∨ x ∈ done

/-- What a walk over some places adds to the finished ones. -/
structure Expands (next : κ → Option (List κ)) (path seen done ks found seen' added : List κ) : Prop where
  perm : added.Perm found
  ready : Ready next path seen' (added ++ done)
  asked : ∀ k ∈ ks, k ∈ added ++ done
  known : ∀ x ∈ added, (next x).isSome
  fresh : ∀ x ∈ added, x ∉ seen
  nodup : added.Nodup
  reached : ∀ x ∈ added, ∃ k ∈ ks, ReflTransGen (Asks (parentsOf next)) k x

variable {ks : List κ} {k : κ} {fuel : ℕ}

theorem Expands.nothing (h : Ready next path seen done) (hks : ∀ k ∈ ks, k ∈ done) :
    Expands next path seen done ks [] seen [] where
  perm := List.Perm.refl []
  ready := h
  asked := hks
  known x hx := absurd hx List.not_mem_nil
  fresh x hx := absurd hx List.not_mem_nil
  nodup := List.nodup_nil
  reached x hx := absurd hx List.not_mem_nil

theorem Expands.append {found more seen₁ seen₂ added₁ added₂ : List κ} (hready : Ready next path seen done)
    (h₁ : Expands next path seen done [k] found seen₁ added₁)
    (h₂ : Expands next path seen₁ (added₁ ++ done) ks more seen₂ added₂) :
    Expands next path seen done (k :: ks) (found ++ more) seen₂ (added₂ ++ added₁) where
  perm := List.perm_append_comm.trans (h₁.perm.append h₂.perm)
  ready := by
    rw [List.append_assoc]
    exact h₂.ready
  asked m hm := by
    rw [List.append_assoc]
    rcases List.mem_cons.1 hm with hm | hm
    · exact List.mem_append_right _ (h₁.asked m (List.mem_singleton.2 hm))
    · exact h₂.asked m hm
  known x hx := by
    rcases List.mem_append.1 hx with hx | hx
    · exact h₂.known x hx
    · exact h₁.known x hx
  fresh x hx := by
    rcases List.mem_append.1 hx with hx | hx
    · -- what was seen at first is still seen
      exact fun hseen => h₂.fresh x hx ((h₁.ready.seen x).2
        (((hready.seen x).1 hseen).imp_right fun hdone => List.mem_append_right added₁ hdone))
    · exact h₁.fresh x hx
  nodup := by
    refine List.nodup_append'.2 ⟨h₂.nodup, h₁.nodup, fun x hx₂ hx₁ => h₂.fresh x hx₂ ?_⟩
    exact (h₁.ready.seen x).2 (.inr (List.mem_append_left _ hx₁))
  reached x hx := by
    rcases List.mem_append.1 hx with hx | hx
    · have ⟨m, hm, hreach⟩ := h₂.reached x hx
      exact ⟨m, List.mem_cons_of_mem k hm, hreach⟩
    · have ⟨m, hm, hreach⟩ := h₁.reached x hx
      exact ⟨m, List.mem_cons.2 (.inl (List.mem_singleton.1 hm)), hreach⟩

theorem expandAll_ok {expand : List κ → κ → Except (ExpandError κ) (List κ × List κ)}
    (hexpand : ∀ {seen done k found seen'}, Ready next path seen done → expand seen k = .ok (found, seen') → ∃ added, Expands next path seen done [k] found seen' added)
    {seen done found seen' : List κ} (hready : Ready next path seen done)
    (h : expandAll expand ks seen = .ok (found, seen')) :
    ∃ added, Expands next path seen done ks found seen' added := by
  induction ks generalizing seen done found seen' with
  | nil =>
    cases h
    exact ⟨[], Expands.nothing hready fun k hk => absurd hk List.not_mem_nil⟩
  | cons k ks ih =>
    obtain ⟨⟨first, seen₁⟩, hfirst, h⟩ := bind_eq_ok.1 h
    obtain ⟨⟨more, seen₂⟩, hmore, h⟩ := bind_eq_ok.1 h
    cases h
    have ⟨added₁, h₁⟩ := hexpand hready hfirst
    have ⟨added₂, h₂⟩ := ih h₁.ready hmore
    exact ⟨added₂ ++ added₁, h₁.append hready h₂⟩

variable [DecidableEq κ]

theorem expandPlace_ok {found seen' : List κ} (hready : Ready next path seen done)
    (h : expandPlace next fuel path seen k = .ok (found, seen')) :
    ∃ added, Expands next path seen done [k] found seen' added := by
  induction fuel generalizing path seen done k found seen' with
  | zero => cases h
  | succ fuel ih =>
    rw [expandPlace] at h
    split_ifs at h with hpath hseen
    · cases h
      refine ⟨[], Expands.nothing hready fun m hm => ?_⟩
      rw [List.mem_singleton.1 hm]
      exact ((hready.seen k).1 hseen).resolve_left hpath
    · cases hnext : next k with
      | none =>
        rw [hnext] at h
        cases h
      | some parents =>
        rw [hnext] at h
        obtain ⟨⟨below, seen₁⟩, hbelow, h⟩ := bind_eq_ok.1 h
        cases h
        have hparents : parentsOf next k = parents := by rw [parentsOf, hnext, Option.getD_some]
        have henter : Ready next (path ++ [k]) (k :: seen) done :=
          ⟨hready.finished, fun x => by
            rw [List.mem_cons, hready.seen, List.mem_append, List.mem_singleton]
            tauto⟩
        have ⟨added, hadded⟩ := expandAll_ok (fun hr he => ih hr he) henter hbelow
        have hasked : ∀ m ∈ parents, m ∈ added ++ done := hadded.asked
        refine ⟨k :: added, ?_⟩
        exact
          { perm := hadded.perm.cons k
            ready := ⟨⟨by rw [hparents]; exact hasked, hadded.ready.finished⟩, fun x => by
              rw [hadded.ready.seen, List.mem_append, List.mem_singleton, List.cons_append, List.mem_cons]
              tauto⟩
            asked := fun m hm => by
              rw [List.mem_singleton.1 hm]
              exact List.mem_cons_self
            known := fun x hx => by
              rcases List.mem_cons.1 hx with hx | hx
              · rw [hx, hnext, Option.isSome_some]
              · exact hadded.known x hx
            fresh := fun x hx => by
              rcases List.mem_cons.1 hx with hx | hx
              · rw [hx]
                exact hseen
              · exact fun hbefore => hadded.fresh x hx (List.mem_cons_of_mem k hbefore)
            nodup := List.nodup_cons.2 ⟨fun hk => hadded.fresh k hk List.mem_cons_self, hadded.nodup⟩
            reached := fun x hx => by
              rcases List.mem_cons.1 hx with hx | hx
              · exact ⟨k, List.mem_singleton.2 rfl, hx ▸ ReflTransGen.refl⟩
              · have ⟨m, hm, hreach⟩ := hadded.reached x hx
                have hstep : Asks (parentsOf next) k m := by
                  rw [Asks, hparents]
                  exact hm
                exact ⟨k, List.mem_singleton.2 rfl, ReflTransGen.head hstep hreach⟩ }

theorem head_expandPlace {found seen' : List κ} (hseen : k ∉ seen)
    (h : expandPlace next fuel path seen k = .ok (found, seen')) : found.head? = some k := by
  cases fuel with
  | zero => cases h
  | succ fuel =>
    rw [expandPlace, if_neg hseen] at h
    split_ifs at h
    split at h
    · cases h
    · obtain ⟨⟨below, seen₁⟩, -, h⟩ := bind_eq_ok.1 h
      cases h
      rfl

/-! ### Walks that fail -/

/-- A walk cannot go on from here: nobody knows the place, or it leads back to itself. -/
def Stuck (next : κ → Option (List κ)) (k : κ) : Prop :=
  next k = none ∨ TransGen (Asks (parentsOf next)) k k

def FailsAt (next : κ → Option (List κ)) (k : κ) (e : ExpandError κ) : Prop :=
  e ≠ .outOfFuel ∧ ∃ m, ReflTransGen (Asks (parentsOf next)) k m ∧ Stuck next m

theorem expandAll_raises {P : ExpandError κ → Prop} {expand : List κ → κ → Except (ExpandError κ) (List κ × List κ)}
    (hexpand : ∀ seen, ∀ k ∈ ks, Raises P (expand seen k)) (seen : List κ) : Raises P (expandAll expand ks seen) := by
  induction ks generalizing seen with
  | nil => exact raises_ok
  | cons k ks ih =>
    refine Raises.bind (hexpand seen k List.mem_cons_self) fun first _ => ?_
    refine Raises.bind (ih (fun seen m hm => hexpand seen m (List.mem_cons_of_mem k hm)) first.2) fun _ _ => raises_ok

/-- With enough fuel a walk fails only at a place that nobody knows or that leads back to itself. -/
theorem expandPlace_raises {places : List κ} (hplaces : ∀ k parents, next k = some parents → k ∈ places)
    (hleads : LeadsTo (parentsOf next) path k) (hfuel : (places.filter (· ∉ path)).length < fuel) :
    Raises (FailsAt next k) (expandPlace next fuel path seen k) := by
  induction fuel generalizing path seen k with
  | zero => exact absurd hfuel (Nat.not_lt_zero _)
  | succ fuel ih =>
    rw [expandPlace]
    split_ifs with hpath hseen
    · intro e he
      cases he
      exact ⟨nofun, k, ReflTransGen.refl, .inr (hleads k hpath)⟩
    · exact raises_ok
    · cases hnext : next k with
      | none =>
        intro e he
        cases he
        exact ⟨nofun, k, ReflTransGen.refl, .inl hnext⟩
      | some parents =>
        have hparents : parentsOf next k = parents := by rw [parentsOf, hnext, Option.getD_some]
        have hless := unseen_lt (hplaces k parents hnext) hpath
        refine Raises.bind (expandAll_raises (fun seen m hm => ?_) (k :: seen)) fun _ _ => raises_ok
        have hstep : m ∈ parentsOf next k := hparents ▸ hm
        have hshorter : (places.filter (· ∉ path ++ [k])).length < fuel := by
          have hsame : places.filter (· ∉ path ++ [k]) = places.filter (· ∉ k :: path) := by
            congr 1
            funext x
            simp [or_comm]
          rw [hsame]
          omega
        have hleads' : LeadsTo (parentsOf next) (path ++ [k]) m := by
          intro v hv
          exact hleads.step hstep v (List.mem_cons.2 ((List.mem_append.1 hv).symm.imp List.mem_singleton.1 id))
        intro e he
        have ⟨hfuel', m', hreach, hstuck⟩ := ih hleads' hshorter e he
        exact ⟨hfuel', m', ReflTransGen.head hstep hreach, hstuck⟩

/-! ### A walk from nothing seen -/

theorem Ready.start (next : κ → Option (List κ)) : Ready next [] [] [] where
  finished := trivial
  seen _ := by simp

/-- A list of a place and all it leads to, the place first and none twice. -/
structure Lists (next : κ → Option (List κ)) (k : κ) (found : List κ) : Prop where
  head : found.head? = some k
  nodup : found.Nodup
  mem_iff : ∀ x, x ∈ found ↔ ReflTransGen (Asks (parentsOf next)) k x

/-- The places of a finished walk lead to finished places only. -/
theorem Finished.mem_of_reached {parents : κ → List κ} (h : Finished parents ks) {m : κ} (hk : k ∈ ks)
    (hreach : ReflTransGen (Asks parents) k m) : m ∈ ks := by
  rcases reflTransGen_iff_eq_or_transGen.1 hreach with heq | hreach
  · rw [heq]
    exact hk
  · exact h.mem_of_asks hk hreach

/-- With enough fuel, a walk lists all that a place leads to, unless it leads to a place where a walk is
stuck. -/
theorem expandPlace_start {places : List κ} (hplaces : ∀ k parents, next k = some parents → k ∈ places)
    (hfuel : places.length < fuel) (k : κ) :
    (∃ found seen', expandPlace next fuel [] [] k = .ok (found, seen') ∧ Lists next k found ∧
        ∀ m, ReflTransGen (Asks (parentsOf next)) k m → ¬Stuck next m) ∨
      ∃ e, expandPlace next fuel [] [] k = .error e ∧ FailsAt next k e := by
  cases h : expandPlace next fuel [] [] k with
  | error e =>
    refine .inr ⟨e, rfl, ?_⟩
    refine expandPlace_raises hplaces (fun v hv => absurd hv List.not_mem_nil) ?_ e h
    exact Nat.lt_of_le_of_lt (List.length_filter_le _ _) hfuel
  | ok result =>
    obtain ⟨found, seen'⟩ := result
    have ⟨added, hadded⟩ := expandPlace_ok (Ready.start next) h
    have hfinished : Finished (parentsOf next) added := by
      have hready := hadded.ready.finished
      rw [List.append_nil] at hready
      exact hready
    have hk : k ∈ added := by
      have hasked := hadded.asked k (List.mem_singleton.2 rfl)
      rw [List.append_nil] at hasked
      exact hasked
    refine .inl ⟨found, seen', rfl, ⟨?_, hadded.perm.nodup_iff.1 hadded.nodup, fun x => ?_⟩, fun m hm hstuck => ?_⟩
    · exact head_expandPlace List.not_mem_nil h
    · rw [← hadded.perm.mem_iff]
      constructor
      · intro hx
        have ⟨m, hm, hreach⟩ := hadded.reached x hx
        rw [List.mem_singleton.1 hm] at hreach
        exact hreach
      · exact hfinished.mem_of_reached hk
    · have hmem := hfinished.mem_of_reached hk hm
      rcases hstuck with hunknown | hloop
      · have hknown := hadded.known m hmem
        rw [hunknown] at hknown
        cases hknown
      · exact hfinished.acyclic m hmem hloop

end Phlo.Library
