import Mathlib.Logic.Relation
import Phlo.Library.Fallible
import Phlo.Library.VisitedWalk

/-!
# Walking a dependency graph depth first

`visitPlace` walks from a place to everything it depends on, with the places on the way and the places that
are finished, and fails when the way comes back to itself.  The finished places are kept with the last one
in front.
-/

namespace Phlo.Library

open Relation

variable {κ : Type}

/-- `k` asks for `m`. -/
def Asks (next : κ → List κ) (k m : κ) : Prop := m ∈ next k

variable {next : κ → List κ}

/-! ### Finished places -/

/-- Every place comes after all it depends on. -/
def Finished (next : κ → List κ) : List κ → Prop
  | [] => True
  | k :: ks => (∀ m ∈ next k, m ∈ ks) ∧ Finished next ks

theorem Finished.mem_of_asks {ks : List κ} (h : Finished next ks) {k m : κ} (hk : k ∈ ks)
    (hasks : TransGen (Asks next) k m) : m ∈ ks := by
  induction ks generalizing k with
  | nil => cases hk
  | cons first ks ih =>
    have htail : ∀ {a : κ}, a ∈ ks → TransGen (Asks next) a m → m ∈ ks := fun ha ham => ih h.2 ha ham
    rcases List.mem_cons.1 hk with rfl | hk
    · rcases TransGen.head'_iff.1 hasks with ⟨c, hc, hrest⟩
      have hmem := h.1 c hc
      rcases reflTransGen_iff_eq_or_transGen.1 hrest with rfl | hrest
      · exact List.mem_cons_of_mem _ hmem
      · exact List.mem_cons_of_mem _ (htail hmem hrest)
    · exact List.mem_cons_of_mem _ (htail hk hasks)

theorem Finished.acyclic {ks : List κ} (h : Finished next ks) : ∀ k ∈ ks, ¬TransGen (Asks next) k k := by
  induction ks with
  | nil =>
    intro k hk
    cases hk
  | cons first ks ih =>
    intro k hk hloop
    by_cases htail : k ∈ ks
    · exact ih h.2 k htail hloop
    · obtain rfl : k = first := (List.mem_cons.1 hk).resolve_right htail
      -- the way back leads through the places that were finished before
      obtain ⟨c, hc, hrest⟩ := TransGen.head'_iff.1 hloop
      rcases reflTransGen_iff_eq_or_transGen.1 hrest with heq | hrest
      · rw [heq] at htail
        exact htail (h.1 c hc)
      · exact htail (h.2.mem_of_asks (h.1 c hc) hrest)

/-! ### The way to a place -/

/-- The way to `k`: every place on it depends on `k`. -/
def LeadsTo (next : κ → List κ) (visiting : List κ) (k : κ) : Prop :=
  ∀ v ∈ visiting, TransGen (Asks next) v k

theorem LeadsTo.step {visiting : List κ} {k m : κ} (h : LeadsTo next visiting k) (hm : m ∈ next k) :
    LeadsTo next (k :: visiting) m := by
  intro v hv
  rcases List.mem_cons.1 hv with rfl | hv
  · exact TransGen.single hm
  · exact (h v hv).tail hm

/-! ### The walk -/

inductive WalkError (κ : Type) where
  | outOfFuel
  | cycle (k : κ)

section

variable [DecidableEq κ]

/-- Finish `k` and all it depends on. -/
def visitPlace (next : κ → List κ) : ℕ → List κ → List κ → κ → Except (WalkError κ) (List κ)
  | 0, _, _, _ => .error .outOfFuel
  | fuel + 1, visiting, visited, k =>
    if k ∈ visited then .ok visited
    else if k ∈ visiting then .error (.cycle k)
    else do
      let visited ← (next k).foldlM (visitPlace next fuel (k :: visiting)) visited
      .ok (k :: visited)

def visitAll (next : κ → List κ) (fuel : ℕ) (places : List κ) : Except (WalkError κ) (List κ) :=
  places.foldlM (visitPlace next fuel []) []

end

/-! ### What a walk finishes -/

/-- The rule for a loop whose rounds each finish a place. -/
theorem foldlM_finishes {f : List κ → κ → Except (WalkError κ) (List κ)}
    (hf : ∀ visited k visited', Finished next visited → f visited k = .ok visited' →
      Finished next visited' ∧ k ∈ visited' ∧ visited ⊆ visited')
    {ks visited visited' : List κ} (hvisited : Finished next visited) (h : ks.foldlM f visited = .ok visited') :
    Finished next visited' ∧ (∀ k ∈ ks, k ∈ visited') ∧ visited ⊆ visited' := by
  induction ks generalizing visited with
  | nil =>
    cases h
    exact ⟨hvisited, fun k hk => absurd hk List.not_mem_nil, fun _ hk => hk⟩
  | cons k ks ih =>
    rw [List.foldlM_cons] at h
    obtain ⟨middle, hmiddle, hrest⟩ := bind_eq_ok.1 h
    obtain ⟨hfinished, hk, hsub⟩ := hf visited k middle hvisited hmiddle
    obtain ⟨hfinished', hks, hsub'⟩ := ih hfinished hrest
    refine ⟨hfinished', fun m hm => ?_, fun m hm => hsub' (hsub hm)⟩
    rcases List.mem_cons.1 hm with rfl | hm
    · exact hsub' hk
    · exact hks m hm

variable [DecidableEq κ]

variable {fuel : ℕ} {places : List κ}

theorem visitPlace_finishes : ∀ {visiting visited : List κ} {k : κ} {visited' : List κ},
    Finished next visited → visitPlace next fuel visiting visited k = .ok visited' →
    Finished next visited' ∧ k ∈ visited' ∧ visited ⊆ visited' := by
  induction fuel with
  | zero =>
    intro visiting visited k visited' _ h
    cases h
  | succ fuel ih =>
    intro visiting visited k visited' hvisited h
    rw [visitPlace] at h
    split_ifs at h with hdone hloop
    · cases h
      exact ⟨hvisited, hdone, fun _ hm => hm⟩
    · obtain ⟨middle, hmiddle, hcons⟩ := bind_eq_ok.1 h
      cases hcons
      obtain ⟨hfinished, hnext, hsub⟩ :=
        foldlM_finishes (fun _ _ _ hv hf => ih hv hf) hvisited hmiddle
      exact ⟨⟨hnext, hfinished⟩, List.mem_cons_self, fun m hm => List.mem_cons_of_mem _ (hsub hm)⟩

/-! ### What a walk fails with -/

/-- Over places closed under dependencies a walk with enough fuel fails only at a place that depends on
itself. -/
theorem visitPlace_raises (hclosed : ∀ k ∈ places, ∀ m ∈ next k, m ∈ places) :
    ∀ {visiting visited : List κ} {k : κ}, k ∈ places → LeadsTo next visiting k →
      (places.filter (· ∉ visiting)).length < fuel →
      Raises (fun e => (∃ m, e = .cycle m) ∧ ∃ m ∈ places, TransGen (Asks next) m m)
        (visitPlace next fuel visiting visited k) := by
  induction fuel with
  | zero =>
    intro visiting visited k _ _ hfuel
    exact absurd hfuel (Nat.not_lt_zero _)
  | succ fuel ih =>
    intro visiting visited k hk hleads hfuel
    rw [visitPlace]
    split_ifs with hdone hloop
    · exact raises_ok
    · intro e he
      cases he
      exact ⟨⟨k, rfl⟩, k, hk, hleads k hloop⟩
    · have hless := unseen_lt hk hloop
      refine Raises.bind (raises_foldlM (fun visited m hm => ?_) visited) fun _ _ => raises_ok
      exact ih (hclosed k hk m hm) (hleads.step hm) (by omega)

theorem visitAll_raises (hclosed : ∀ k ∈ places, ∀ m ∈ next k, m ∈ places) (hfuel : places.length < fuel) :
    Raises (fun e => (∃ m, e = .cycle m) ∧ ∃ m ∈ places, TransGen (Asks next) m m) (visitAll next fuel places) := by
  refine raises_foldlM (fun visited k hk => ?_) []
  refine visitPlace_raises hclosed hk (fun v hv => absurd hv List.not_mem_nil) ?_
  exact Nat.lt_of_le_of_lt (List.length_filter_le _ _) hfuel

/-- The walk over all places succeeds exactly when none depends on itself. -/
theorem visitAll_ok_iff (hclosed : ∀ k ∈ places, ∀ m ∈ next k, m ∈ places) (hfuel : places.length < fuel) :
    (∃ visited, visitAll next fuel places = .ok visited) ↔ ∀ k ∈ places, ¬TransGen (Asks next) k k := by
  constructor
  · rintro ⟨visited, h⟩ k hk
    obtain ⟨hfinished, hall, -⟩ := foldlM_finishes (fun _ _ _ hv hf => visitPlace_finishes hv hf)
      (show Finished next [] from trivial) h
    exact hfinished.acyclic k (hall k hk)
  · intro hacyclic
    cases h : visitAll next fuel places with
    | ok visited => exact ⟨visited, rfl⟩
    | error e =>
      obtain ⟨-, m, hm, hloop⟩ := visitAll_raises hclosed hfuel e h
      exact absurd hloop (hacyclic m hm)

end Phlo.Library
