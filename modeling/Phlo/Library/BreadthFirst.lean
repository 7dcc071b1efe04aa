import Mathlib.Data.Finset.Card
import Mathlib.Data.List.Pairwise
import Mathlib.Logic.Function.Basic

/-!
# Breadth-first search with a bound on the depth

A queue of places with their depths, and the set of the places gone on from.  What a place leads to is noted when
it is gone on from; it is queued only if the depth allows it.

* `Search` — what holds of the queue and of the places at any time.
-/

namespace Phlo.Library

variable {α : Type} {next : α → List α}

/-! ### Steps -/

/-- `b` is `n` steps away from `a`. -/
def StepsIn (next : α → List α) : ℕ → α → α → Prop
  | 0, a, b => a = b
  | n + 1, a, c => ∃ b, StepsIn next n a b ∧ c ∈ next b

theorem stepsIn_one {a b : α} : StepsIn next 1 a b ↔ b ∈ next a := by
  constructor
  · rintro ⟨a', heq, hb⟩
    rw [heq]
    exact hb
  · exact fun h => ⟨a, rfl, h⟩

theorem stepsIn_succ' {n : ℕ} {a c : α} : StepsIn next (n + 1) a c ↔ ∃ b ∈ next a, StepsIn next n b c := by
  induction n generalizing c with
  | zero =>
    rw [stepsIn_one]
    constructor
    · exact fun h => ⟨c, h, rfl⟩
    · rintro ⟨b, hb, heq⟩
      rw [← heq]
      exact hb
  | succ n ih =>
    constructor
    · rintro ⟨d, hd, hc⟩
      have ⟨b, hb, hbd⟩ := ih.1 hd
      exact ⟨b, hb, d, hbd, hc⟩
    · rintro ⟨b, hb, d, hbd, hc⟩
      exact ⟨d, ih.2 ⟨b, hb, hbd⟩, hc⟩

theorem stepsIn_swap {back : α → List α} (h : ∀ a b, b ∈ next a ↔ a ∈ back b) (n : ℕ) (a b : α) :
    StepsIn next n a b ↔ StepsIn back n b a := by
  induction n generalizing b with
  | zero => exact eq_comm
  | succ n ih =>
    have hback : StepsIn back (n + 1) b a ↔ ∃ d ∈ back b, StepsIn back n d a := stepsIn_succ'
    rw [hback]
    constructor
    · rintro ⟨d, hd, hb⟩
      exact ⟨d, (h d b).1 hb, (ih d).1 hd⟩
    · rintro ⟨d, hb, hd⟩
      exact ⟨d, (ih d).2 hd, (h d b).2 hb⟩

/-! ### The search -/

def Within (limit : Option ℕ) (depth : ℕ) : Prop := ∀ d ∈ limit, depth ≤ d

def mayDescend (limit : Option ℕ) (depth : ℕ) : Bool := limit.all fun d => depth < d

theorem within_succ_iff {limit : Option ℕ} {depth : ℕ} : Within limit (depth + 1) ↔ mayDescend limit depth = true := by
  cases limit with
  | none => exact ⟨fun _ => rfl, fun _ d hd => by cases hd⟩
  | some d =>
    rw [mayDescend, Option.all_some, decide_eq_true_iff]
    exact ⟨fun h => h d rfl, fun h d' hd' => by cases hd'; exact h⟩

theorem Within.of_le {limit : Option ℕ} {m n : ℕ} (h : Within limit n) (hle : m ≤ n) : Within limit m :=
  fun d hd => hle.trans (h d hd)

/-- What is queued of a place that is gone on from. -/
def successors (next : α → List α) (limit : Option ℕ) (place : α × ℕ) : List (α × ℕ) :=
  if mayDescend limit place.2 then (next place.1).map fun b => (b, place.2 + 1) else []

/-- What holds while a search from `start` is under way, `level` being the depths the places were gone on from. -/
structure Search (next : α → List α) (limit : Option ℕ) (start : α) (level : α → ℕ) (queue : List (α × ℕ))
    (visited found : Finset α) : Prop where
  found : ∀ b, b ∈ found ↔ ∃ a ∈ visited, b ∈ next a
  reached : ∀ a ∈ visited, Within limit (level a) ∧ StepsIn next (level a) start a
  queued : ∀ e ∈ queue, Within limit e.2 ∧ StepsIn next e.2 start e.1
  sorted : queue.Pairwise fun e e' => e.2 ≤ e'.2
  near : ∀ e ∈ queue, ∀ e' ∈ queue, e'.2 ≤ e.2 + 1
  below : ∀ a ∈ visited, ∀ e ∈ queue, level a ≤ e.2
  started : start ∈ visited ∧ level start = 0 ∨ (start, 0) ∈ queue
  pursued : ∀ a ∈ visited, mayDescend limit (level a) = true → ∀ b ∈ next a,
    (b ∈ visited ∧ level b ≤ level a + 1) ∨ ∃ e ∈ queue, e.1 = b ∧ e.2 ≤ level a + 1

variable {limit : Option ℕ} {start : α} {level : α → ℕ} {queue : List (α × ℕ)} {visited found : Finset α}

theorem search_start (next : α → List α) (limit : Option ℕ) (start : α) (level : α → ℕ) :
    Search next limit start level [(start, 0)] ∅ ∅ where
  found b := by simp
  reached a ha := absurd ha (Finset.notMem_empty a)
  queued e he := by
    rw [List.mem_singleton.1 he]
    exact ⟨fun d _ => Nat.zero_le d, rfl⟩
  sorted := List.pairwise_singleton _ _
  near e he e' he' := by
    rw [List.mem_singleton.1 he, List.mem_singleton.1 he']
    exact Nat.le_succ _
  below a ha := absurd ha (Finset.notMem_empty a)
  started := .inr (List.mem_singleton.2 rfl)
  pursued a ha := absurd ha (Finset.notMem_empty a)

variable {place : α × ℕ}

theorem Search.skip (h : Search next limit start level (place :: queue) visited found) (hold : place.1 ∈ visited) :
    Search next limit start level queue visited found where
  found := h.found
  reached := h.reached
  queued e he := h.queued e (List.mem_cons_of_mem _ he)
  sorted := h.sorted.of_cons
  near e he e' he' := h.near e (List.mem_cons_of_mem _ he) e' (List.mem_cons_of_mem _ he')
  below a ha e he := h.below a ha e (List.mem_cons_of_mem _ he)
  started := by
    rcases h.started with hstarted | hmem
    · exact .inl hstarted
    · rcases List.mem_cons.1 hmem with heq | hmem
      · rw [← heq] at hold
        refine .inl ⟨hold, ?_⟩
        have hle := h.below start hold (start, 0) (heq ▸ List.mem_cons_self)
        exact Nat.le_zero.1 hle
      · exact .inr hmem
  pursued a ha hdescend b hb := by
    rcases h.pursued a ha hdescend b hb with hdone | ⟨e, he, hplace, hdepth⟩
    · exact .inl hdone
    · rcases List.mem_cons.1 he with heq | he
      · have hle := h.below place.1 hold place List.mem_cons_self
        rw [heq] at hplace hdepth
        rw [← hplace]
        exact .inl ⟨hold, hle.trans hdepth⟩
      · exact .inr ⟨e, he, hplace, hdepth⟩

theorem mem_successors {e : α × ℕ} : e ∈ successors next limit place ↔
    mayDescend limit place.2 = true ∧ e.1 ∈ next place.1 ∧ e.2 = place.2 + 1 := by
  unfold successors
  split
  next hdescend =>
    rw [List.mem_map]
    constructor
    · rintro ⟨b, hb, heq⟩
      rw [← heq]
      exact ⟨hdescend, hb, rfl⟩
    · rintro ⟨_, hb, hdepth⟩
      exact ⟨e.1, hb, by rw [← hdepth]⟩
  next hdescend => exact ⟨fun h => absurd h List.not_mem_nil, fun h => absurd h.1 hdescend⟩

variable [DecidableEq α]

theorem Search.visit (h : Search next limit start level (place :: queue) visited found) (hnew : place.1 ∉ visited) :
    Search next limit start (Function.update level place.1 place.2) (queue ++ successors next limit place)
      (insert place.1 visited) (found ∪ (next place.1).toFinset) := by
  have hsame : Function.update level place.1 place.2 place.1 = place.2 := Function.update_self _ _ _
  have hother : ∀ a ∈ visited, Function.update level place.1 place.2 a = level a := by
    intro a ha
    refine Function.update_of_ne (fun heq => ?_) _ _
    rw [heq] at ha
    exact hnew ha
  have hfirst : ∀ e ∈ queue, place.2 ≤ e.2 := (List.pairwise_cons.1 h.sorted).1
  have hlast : ∀ e ∈ queue, e.2 ≤ place.2 + 1 :=
    fun e he => h.near place List.mem_cons_self e (List.mem_cons_of_mem _ he)
  constructor
  · intro b
    rw [Finset.mem_union, h.found, List.mem_toFinset]
    constructor
    · rintro (⟨a, ha, hb⟩ | hb)
      · exact ⟨a, Finset.mem_insert_of_mem ha, hb⟩
      · exact ⟨place.1, Finset.mem_insert_self _ _, hb⟩
    · rintro ⟨a, ha, hb⟩
      rcases Finset.mem_insert.1 ha with heq | ha
      · rw [heq] at hb
        exact .inr hb
      · exact .inl ⟨a, ha, hb⟩
  · intro a ha
    rcases Finset.mem_insert.1 ha with heq | ha
    · rw [heq, hsame]
      exact h.queued place List.mem_cons_self
    · rw [hother a ha]
      exact h.reached a ha
  · intro e he
    rcases List.mem_append.1 he with he | he
    · exact h.queued e (List.mem_cons_of_mem _ he)
    · have ⟨hdescend, hplace, hdepth⟩ := mem_successors.1 he
      rw [hdepth]
      exact ⟨within_succ_iff.2 hdescend, place.1, (h.queued place List.mem_cons_self).2, hplace⟩
  · refine List.pairwise_append.2 ⟨h.sorted.of_cons, ?_, fun e he e' he' => ?_⟩
    · refine List.pairwise_of_forall_mem_list fun e he e' he' => ?_
      rw [(mem_successors.1 he).2.2, (mem_successors.1 he').2.2]
    · rw [(mem_successors.1 he').2.2]
      exact hlast e he
  · intro e he e' he'
    rcases List.mem_append.1 he with he | he
    · rcases List.mem_append.1 he' with he' | he'
      · exact h.near e (List.mem_cons_of_mem _ he) e' (List.mem_cons_of_mem _ he')
      · rw [(mem_successors.1 he').2.2]
        exact Nat.succ_le_succ (hfirst e he)
    · rw [(mem_successors.1 he).2.2]
      rcases List.mem_append.1 he' with he' | he'
      · exact (hlast e' he').trans (Nat.le_succ _)
      · rw [(mem_successors.1 he').2.2]
        exact Nat.le_succ _
  · intro a ha e he
    have hle : Function.update level place.1 place.2 a ≤ place.2 := by
      rcases Finset.mem_insert.1 ha with heq | ha
      · rw [heq, hsame]
      · rw [hother a ha]
        exact h.below a ha place List.mem_cons_self
    rcases List.mem_append.1 he with he | he
    · exact hle.trans (hfirst e he)
    · rw [(mem_successors.1 he).2.2]
      exact hle.trans (Nat.le_succ _)
  · rcases h.started with ⟨hmem, hlevel⟩ | hmem
    · exact .inl ⟨Finset.mem_insert_of_mem hmem, by rw [hother start hmem, hlevel]⟩
    · rcases List.mem_cons.1 hmem with heq | hmem
      · rw [← heq]
        exact .inl ⟨Finset.mem_insert_self _ _, Function.update_self _ _ _⟩
      · exact .inr (List.mem_append_left _ hmem)
  · intro a ha hdescend b hb
    rcases Finset.mem_insert.1 ha with heq | ha
    · rw [heq, hsame] at hdescend ⊢
      rw [heq] at hb
      exact .inr ⟨(b, place.2 + 1), List.mem_append_right _ (mem_successors.2 ⟨hdescend, hb, rfl⟩), rfl, le_refl _⟩
    · rw [hother a ha] at hdescend ⊢
      rcases h.pursued a ha hdescend b hb with ⟨hdone, hlevel⟩ | ⟨e, he, hplace, hdepth⟩
      · exact .inl ⟨Finset.mem_insert_of_mem hdone, by rw [hother b hdone]; exact hlevel⟩
      · rcases List.mem_cons.1 he with heq | he
        · rw [heq] at hplace hdepth
          rw [← hplace, hsame]
          exact .inl ⟨Finset.mem_insert_self _ _, hdepth⟩
        · exact .inr ⟨e, List.mem_append_left _ he, hplace, hdepth⟩

/-- The search; all places that lead on are among finitely many. -/
def collect (next : α → List α) (places : Finset α) (hplaces : ∀ a, next a ≠ [] → a ∈ places)
    (limit : Option ℕ) (queue : List (α × ℕ)) (visited found : Finset α) : Finset α :=
  match queue with
  | [] => found
  | place :: queue =>
    if place.1 ∈ visited then collect next places hplaces limit queue visited found
    else
      collect next places hplaces limit (queue ++ successors next limit place) (insert place.1 visited)
        (found ∪ (next place.1).toFinset)
termination_by ((places \ visited).card, queue.length)
decreasing_by
  · exact Prod.Lex.right _ (Nat.lt_succ_self _)
  next hnew =>
    by_cases hnext : next place.1 = []
    · have hnone : successors next limit place = [] := by
        unfold successors
        split
        · rw [hnext, List.map_nil]
        · rfl
      have hle : (places \ insert place.1 visited).card ≤ (places \ visited).card :=
        Finset.card_le_card (Finset.sdiff_subset_sdiff (Finset.Subset.refl _) (Finset.subset_insert _ _))
      rw [hnone, List.append_nil]
      rcases hle.lt_or_eq with hlt | heq
      · exact Prod.Lex.left _ _ hlt
      · rw [heq]
        exact Prod.Lex.right _ (Nat.lt_succ_self _)
    · refine Prod.Lex.left _ _ (Finset.card_lt_card ?_)
      rw [Finset.ssubset_iff_of_subset
        (Finset.sdiff_subset_sdiff (Finset.Subset.refl _) (Finset.subset_insert _ _))]
      refine ⟨place.1, Finset.mem_sdiff.2 ⟨hplaces _ hnext, hnew⟩, fun hmem => ?_⟩
      exact (Finset.mem_sdiff.1 hmem).2 (Finset.mem_insert_self _ _)

variable (places : Finset α) (hplaces : ∀ a, next a ≠ [] → a ∈ places)

theorem search_collect (h : Search next limit start level queue visited found) :
    ∃ level' visited', Search next limit start level' [] visited'
      (collect next places hplaces limit queue visited found) := by
  fun_induction collect next places hplaces limit queue visited found generalizing level with
  | case1 visited found => exact ⟨level, visited, h⟩
  | case2 visited found place queue hold ih => exact ih (h.skip hold)
  | case3 visited found place queue hnew ih => exact ih (h.visit hnew)

omit [DecidableEq α] in
/-- A place not beyond the bound has been gone on from, once the queue is empty. -/
theorem Search.visited_of_stepsIn (h : Search next limit start level [] visited found) {n : ℕ} {a : α}
    (hn : Within limit n) (ha : StepsIn next n start a) : a ∈ visited ∧ level a ≤ n := by
  induction n generalizing a with
  | zero =>
    have heq : start = a := ha
    rcases h.started with ⟨hmem, hlevel⟩ | hmem
    · rw [← heq]
      exact ⟨hmem, hlevel.le⟩
    · cases hmem
  | succ n ih =>
    have ⟨b, hb, hab⟩ := ha
    have ⟨hmem, hlevel⟩ := ih (hn.of_le (Nat.le_succ n)) hb
    have hdescend : mayDescend limit (level b) = true :=
      within_succ_iff.1 (hn.of_le (Nat.succ_le_succ hlevel))
    rcases h.pursued b hmem hdescend a hab with ⟨hdone, hle⟩ | ⟨e, he, _⟩
    · exact ⟨hdone, hle.trans (Nat.succ_le_succ hlevel)⟩
    · cases he

/-- The places noted are those at most one step beyond the bound. -/
theorem mem_collect_iff {b : α} :
    b ∈ collect next places hplaces limit [(start, 0)] ∅ ∅ ↔ ∃ n, Within limit n ∧ StepsIn next (n + 1) start b := by
  have ⟨level, visited, h⟩ := search_collect places hplaces (search_start next limit start fun _ => 0)
  rw [h.found]
  constructor
  · rintro ⟨a, ha, hb⟩
    have ⟨hwithin, hsteps⟩ := h.reached a ha
    exact ⟨level a, hwithin, a, hsteps, hb⟩
  · rintro ⟨n, hwithin, a, hsteps, hb⟩
    exact ⟨a, (h.visited_of_stepsIn hwithin hsteps).1, hb⟩

end Phlo.Library
