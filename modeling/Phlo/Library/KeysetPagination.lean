import Phlo.Library.KeyedSort

/-!
# Keyset pagination

A listing is handed out in pages: a page holds the first `limit` rows after a position, in the order
of a key, and comes with a token made of its last row while rows remain.  What a token stands for is
`resume row`; a token that is not accepted stands for no position, that is for the first page.

* `rowsAfter_position` — the rows after the row at rank `i` are the sorted rows from rank `i` on.
-/

namespace Phlo.Library.Keyset

variable {α κ : Type*} [LinearOrder κ]

def rowsAfter (key : α → κ) (position : Option κ) (l : List α) : List α :=
  sortBy key (l.filter fun a => position.all fun k => decide (k < key a))

/-- One page, and its last row while there are rows after it. -/
def page (key : α → κ) (limit : ℕ) (position : Option κ) (l : List α) : List α × Option α :=
  let rows := (rowsAfter key position l).take (limit + 1)
  (rows.take limit, if limit < rows.length then (rows.take limit).getLast? else none)

/-- The pages a client collects that follows the tokens; `none` when the fuel is used up. -/
def drain (key : α → κ) (limit : ℕ) (resume : α → Option κ) (l : List α) :
    ℕ → Option κ → Option (List (List α))
  | 0, _ => none
  | fuel + 1, position =>
    match page key limit position l with
    | (rows, none) => some [rows]
    | (rows, some last) => (drain key limit resume l fuel (resume last)).map (rows :: ·)

/-! ### Strictly sorted lists -/

theorem strict_sortBy (key : α → κ) {l : List α} (hn : (l.map key).Nodup) :
    (sortBy key l).Pairwise fun a b => key a < key b := by
  have hnodup : ((sortBy key l).map key).Nodup :=
    ((sortBy_perm key l).map key).nodup_iff.2 hn
  have hne : (sortBy key l).Pairwise fun a b => key a ≠ key b := List.pairwise_map.1 hnodup
  exact (pairwise_sortBy key l).imp₂ (fun a b hle hne => lt_of_le_of_ne hle hne) hne

variable {i : ℕ}

/-- In a strictly sorted list the rows above the last of the first `i` rows are the others. -/
theorem filter_above_take {key : α → κ} {l : List α} (hs : l.Pairwise fun a b => key a < key b) {last : α}
    (h : (l.take i).getLast? = some last) : (l.filter fun a => decide (key last < key a)) = l.drop i := by
  have hlast : last ∈ l.take i := List.mem_of_getLast? h
  have hsplit : ((l.take i) ++ l.drop i).Pairwise fun a b => key a < key b := by
    rw [List.take_append_drop]
    exact hs
  obtain ⟨htake, -, hcross⟩ := List.pairwise_append.1 hsplit
  have hbelow : (l.take i).filter (fun a => decide (key last < key a)) = [] := by
    rw [List.filter_eq_nil_iff]
    intro a ha
    obtain ⟨front, hfront⟩ := List.getLast?_eq_some_iff.1 h
    rw [hfront] at ha htake
    rw [decide_eq_true_eq, not_lt]
    rcases List.mem_append.1 ha with ha | ha
    · exact le_of_lt ((List.pairwise_append.1 htake).2.2 a ha last (List.mem_singleton_self last))
    · rw [List.mem_singleton.1 ha]
  have habove : (l.drop i).filter (fun a => decide (key last < key a)) = l.drop i := by
    rw [List.filter_eq_self]
    intro a ha
    exact decide_eq_true (hcross last hlast a ha)
  calc l.filter (fun a => decide (key last < key a))
      = (l.take i ++ l.drop i).filter (fun a => decide (key last < key a)) := by
        rw [List.take_append_drop]
    _ = l.drop i := by rw [List.filter_append, hbelow, habove, List.nil_append]

/-! ### Pages -/

section Pages

variable {key : α → κ} {limit : ℕ} {resume : α → Option κ} {l : List α}

/-- The position after the first `i` rows. -/
def positionAt (key : α → κ) (l : List α) (i : ℕ) : Option κ :=
  ((sortBy key l).take i).getLast?.map key

theorem rowsAfter_position (hn : (l.map key).Nodup) (i : ℕ) :
    rowsAfter key (positionAt key l i) l = (sortBy key l).drop i := by
  rw [rowsAfter, sortBy_filter key hn, positionAt]
  cases h : ((sortBy key l).take i).getLast? with
  | none =>
    have hdrop : (sortBy key l).drop i = sortBy key l := by
      rw [List.getLast?_eq_none_iff, List.take_eq_nil_iff] at h
      rcases h with rfl | hnil
      · rfl
      · rw [hnil, List.drop_nil]
    rw [hdrop]
    simp
  | some last => exact filter_above_take (strict_sortBy key hn) h

/-- The page at rank `i`: its rows, and its last row when rows remain after it. -/
theorem page_position (hn : (l.map key).Nodup) (hl : 0 < limit) (i : ℕ) : page key limit (positionAt key l i) l =
      (((sortBy key l).drop i).take limit,
        if i + limit < l.length then ((sortBy key l).take (i + limit)).getLast? else none) := by
  have hlen : (sortBy key l).length = l.length := length_sortBy key l
  have htake : (((sortBy key l).drop i).take (limit + 1)).take limit = ((sortBy key l).drop i).take limit := by
    rw [List.take_take, Nat.min_eq_left (Nat.le_succ limit)]
  have hmore : limit < (((sortBy key l).drop i).take (limit + 1)).length ↔ i + limit < l.length := by
    rw [List.length_take, List.length_drop, hlen]
    omega
  rw [page, rowsAfter_position hn i]
  simp only [htake, hmore]
  by_cases h : i + limit < l.length
  · have hlast : ((sortBy key l).take (i + limit)).getLast? = (((sortBy key l).drop i).take limit).getLast? := by
      rw [List.take_add, List.getLast?_append_of_ne_nil]
      rw [ne_eq, List.take_eq_nil_iff, List.drop_eq_nil_iff]
      omega
    rw [if_pos h, if_pos h, hlast]
  · rw [if_neg h, if_neg h]

def EndsPage (key : α → κ) (limit : ℕ) (l : List α) (last : α) : Prop :=
  ∃ n, 0 < n ∧ n * limit < l.length ∧ ((sortBy key l).take (n * limit)).getLast? = some last

theorem exists_last (key : α → κ) (hi : 0 < i) (h : i < l.length) :
    ∃ last, ((sortBy key l).take i).getLast? = some last := by
  apply Option.ne_none_iff_exists'.1
  have hlen : (sortBy key l).length = l.length := length_sortBy key l
  rw [ne_eq, List.getLast?_eq_none_iff, List.take_eq_nil_iff, ← List.length_eq_zero_iff, hlen]
  omega

theorem drain_of_last (hn : (l.map key).Nodup) (hl : 0 < limit) (h : l.length ≤ i + limit) (fuel : ℕ) :
    drain key limit resume l (fuel + 1) (positionAt key l i) = some [(sortBy key l).drop i] := by
  have htake : ((sortBy key l).drop i).take limit = (sortBy key l).drop i := by
    apply List.take_of_length_le
    rw [List.length_drop, length_sortBy]
    omega
  rw [drain, page_position hn hl, if_neg (by omega), htake]

theorem drain_of_more (hn : (l.map key).Nodup) (hl : 0 < limit) (h : i + limit < l.length) {last : α}
    (hlast : ((sortBy key l).take (i + limit)).getLast? = some last) (fuel : ℕ) :
    drain key limit resume l (fuel + 1) (positionAt key l i) =
      (drain key limit resume l fuel (resume last)).map (((sortBy key l).drop i).take limit :: ·) := by
  rw [drain, page_position hn hl, if_pos h, hlast]

/-! ### Following the tokens -/

/-- Tokens that are accepted stand for the row they were made of. -/
def Resumes (key : α → κ) (resume : α → Option κ) : Prop :=
  ∀ a, resume a = none ∨ resume a = some (key a)

/-- The run rule.  A run that ends at all collects the sorted rows from its rank on, and met no token
that is refused: such a token leads back to the first page, and from there to itself. -/
theorem drain_from (hn : (l.map key).Nodup) (hl : 0 < limit) (hr : Resumes key resume) :
    ∀ (fuel n : ℕ) (pages : List (List α)),
      drain key limit resume l fuel (positionAt key l (n * limit)) = some pages →
        pages.flatten = (sortBy key l).drop (n * limit) ∧ ∀ m, n < m → m * limit < l.length → ∀ last,
            ((sortBy key l).take (m * limit)).getLast? = some last → resume last ≠ none := by
  intro fuel
  induction fuel with
  | zero =>
    intro n pages h
    exact absurd h (by simp [drain])
  | succ fuel ih =>
    intro n pages h
    have hnext : (n + 1) * limit = n * limit + limit := Nat.succ_mul n limit
    by_cases hmore : n * limit + limit < l.length
    · obtain ⟨last, hlast⟩ := exists_last key (by omega) hmore
      rw [drain_of_more hn hl hmore hlast] at h
      obtain ⟨rest, hrest, rfl⟩ := Option.map_eq_some_iff.1 h
      rcases hr last with hnone | hsome
      · -- refused: the rest starts over at the first page, whose run meets this token again
        have hfirst : resume last = positionAt key l (0 * limit) := by
          rw [hnone, Nat.zero_mul]
          rfl
        rw [hfirst] at hrest
        have hmet := (ih 0 rest hrest).2 (n + 1) (Nat.succ_pos n) (by omega) last (by rwa [hnext])
        exact absurd hnone hmet
      · have hposition : resume last = positionAt key l ((n + 1) * limit) := by
          rw [hsome, positionAt, hnext, hlast]
          rfl
        rw [hposition] at hrest
        obtain ⟨hflatten, hlater⟩ := ih (n + 1) rest hrest
        refine ⟨?_, fun m hm hlt last' hlast' => ?_⟩
        · rw [List.flatten_cons, hflatten, hnext, ← List.drop_drop, List.take_append_drop]
        · rcases Nat.lt_or_eq_of_le (Nat.succ_le_of_lt hm) with hgt | rfl
          · exact hlater m hgt hlt last' hlast'
          · rw [hnext, hlast] at hlast'
            rw [← Option.some.inj hlast', hsome]
            exact Option.some_ne_none _
    · rw [drain_of_last hn hl (by omega)] at h
      refine ⟨by rw [← Option.some.inj h, List.flatten_singleton], fun m hm hlt => ?_⟩
      have hge : (n + 1) * limit ≤ m * limit := Nat.mul_le_mul_right limit hm
      omega

/-- With every later token accepted, a run ends after at most one page for each row. -/
theorem exists_drain_from (hn : (l.map key).Nodup) (hl : 0 < limit) (hr : Resumes key resume)
    (hok : ∀ last, EndsPage key limit l last → resume last ≠ none) :
    ∀ fuel n : ℕ, n * limit ≤ l.length → l.length < (n + fuel) * limit →
      ∃ pages, drain key limit resume l fuel (positionAt key l (n * limit)) = some pages := by
  intro fuel
  induction fuel with
  | zero =>
    intro n hle hlt
    rw [Nat.add_zero] at hlt
    omega
  | succ fuel ih =>
    intro n hle hlt
    have hnext : (n + 1) * limit = n * limit + limit := Nat.succ_mul n limit
    by_cases hmore : n * limit + limit < l.length
    · obtain ⟨last, hlast⟩ := exists_last key (by omega) hmore
      have haccepted : resume last = positionAt key l ((n + 1) * limit) := by
        rcases hr last with hnone | hsome
        · exact absurd hnone (hok last ⟨n + 1, Nat.succ_pos n, by omega, by rwa [hnext]⟩)
        · rw [hsome, positionAt, hnext, hlast]
          rfl
      have hfuel : n + 1 + fuel = n + (fuel + 1) := by omega
      obtain ⟨rest, hrest⟩ := ih (n + 1) (by omega) (by rwa [hfuel])
      rw [drain_of_more hn hl hmore hlast, haccepted, hrest]
      exact ⟨_, rfl⟩
    · exact ⟨_, drain_of_last hn hl (by omega) fuel⟩

/-- What following the tokens from the first page collects is the sorted listing. -/
theorem drain_sorted (hn : (l.map key).Nodup) (hl : 0 < limit) (hr : Resumes key resume) {fuel : ℕ}
    {pages : List (List α)} (h : drain key limit resume l fuel none = some pages) : pages.flatten = sortBy key l := by
  have hzero : positionAt key l (0 * limit) = none := by
    rw [Nat.zero_mul]
    rfl
  have hfrom := (drain_from hn hl hr fuel 0 pages (by rwa [hzero])).1
  rwa [Nat.zero_mul, List.drop_zero] at hfrom

/-- Following the tokens ends exactly when each token handed out is accepted. -/
theorem exists_drain_iff (hn : (l.map key).Nodup) (hl : 0 < limit) (hr : Resumes key resume) :
    (∃ fuel pages, drain key limit resume l fuel none = some pages) ↔
      ∀ last, EndsPage key limit l last → resume last ≠ none := by
  have hzero : positionAt key l (0 * limit) = none := by
    rw [Nat.zero_mul]
    rfl
  constructor
  · rintro ⟨fuel, pages, h⟩ last ⟨m, hm, hlt, hlast⟩
    exact (drain_from hn hl hr fuel 0 pages (by rwa [hzero])).2 m hm hlt last hlast
  · intro hok
    have hfuel : l.length < (0 + (l.length + 1)) * limit := by
      rw [Nat.zero_add]
      exact lt_of_lt_of_le (Nat.lt_succ_self _) (Nat.le_mul_of_pos_right _ hl)
    obtain ⟨pages, hpages⟩ := exists_drain_from hn hl hr hok (l.length + 1) 0 (by omega) hfuel
    rw [hzero] at hpages
    exact ⟨l.length + 1, pages, hpages⟩

end Pages

end Phlo.Library.Keyset
