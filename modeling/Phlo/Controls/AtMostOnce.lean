import Phlo.Controls.ReplayOrExecute

/-!
# Mutations are executed at most once

Reports are matched by the key and the word `pending`; they do not say which claim they are about.  A
claim that is resolved while its process is still at work can be granted again, and the late report of
the first process is then taken for one of the second.

* `late_report_completes_another_claim` — a report may complete a claim of somebody else.
-/

namespace Phlo.Controls

open Phlo.Library
open Phlo.Library.Program (perform)

/-! ### Runs of the provider -/

def opens (i : Identity) : ControlsMoment → Bool
  | ⟨.claim _, w⟩ => (w.store.find i).isSome && ((w.store.deleteExpired w.now).find i).isNone
  | ⟨.resolve r, w⟩ =>
    r.identity = i && r.resolution = .safeToRetry && (w.store.find i).any fun row => row.state.active
  | _ => false

/-- How often the provider was run since the last operation that made room for it. -/
def invocations {ι : Type} (i : Identity) : List (ControlsEntry ι) → ℕ
  | [] => 0
  | e :: l =>
    if opens i e.moment then 0
    else if executes e.moment.op = some i then invocations i l + 1
    else invocations i l

/-! ### The invariant -/

/-- The processes with a claim, against the store and the runs of the provider counted so far: `holds` is
the claim of a process, `begun` says that it has run the provider. -/
structure Orderly {ι : Type} (s : ControlsStore) (holds : ι → Option (Identity × ℕ)) (begun : ι → Bool)
    (count : Identity → ℕ) : Prop where
  bound : ∀ j i c, holds j = some (i, c) → c < s.claims
  own : ∀ j i c row, holds j = some (i, c) → s.find i = some row → row.state = .pending → row.claim = c
  distinct : ∀ j j' i i' c, holds j = some (i, c) → holds j' = some (i', c) → j = j'
  once : ∀ i, count i ≤ 1
  retry : ∀ i, (∀ row, s.find i = some row → row.state = .safeToRetry) → count i = 0
  fresh : ∀ i row j, s.find i = some row → row.state = .pending → holds j = some (i, row.claim) →
    begun j = false → count i = 0

section

variable {ι : Type} [DecidableEq ι] {s : ControlsStore} {holds : ι → Option (Identity × ℕ)}
  {begun : ι → Bool} {count : Identity → ℕ}

/-- A process without a claim does not matter. -/
theorem Orderly.forget (h : Orderly s holds begun count) (j : ι) (b : Bool) :
    Orderly s (Function.update holds j none) (Function.update begun j b) count := by
  have hothers : ∀ j' i c, Function.update holds j none j' = some (i, c) →
      holds j' = some (i, c) ∧ Function.update begun j b j' = begun j' := by
    intro j' i c hj'
    by_cases hsame : j' = j
    · rw [hsame, Function.update_self] at hj'
      cases hj'
    · rw [Function.update_of_ne hsame] at hj'
      exact ⟨hj', Function.update_of_ne hsame _ _⟩
  refine ⟨?_, ?_, ?_, h.once, h.retry, ?_⟩
  · intro j' i c hj'
    exact h.bound j' i c (hothers j' i c hj').1
  · intro j' i c row hj'
    exact h.own j' i c row (hothers j' i c hj').1
  · intro j' j'' i i' c hj' hj''
    exact h.distinct j' j'' i i' c (hothers j' i c hj').1 (hothers j'' i' c hj'').1
  · intro i row j' hrow hpending hj' hbegun
    obtain ⟨hholds, hsame⟩ := hothers j' i _ hj'
    exact h.fresh i row j' hrow hpending hholds (hsame ▸ hbegun)

omit [DecidableEq ι] in
theorem Orderly.expire (h : Orderly s holds begun count) (now : ℕ) : Orderly (s.deleteExpired now) holds begun
      (fun i => if (s.find i).isSome && ((s.deleteExpired now).find i).isNone then 0 else count i) := by
  have hkept : ∀ i row, (s.deleteExpired now).find i = some row → s.find i = some row := by
    intro i row hrow
    rw [find_deleteExpired] at hrow
    exact (Option.filter_eq_some_iff.1 hrow).1
  refine ⟨h.bound, ?_, h.distinct, ?_, ?_, ?_⟩
  · intro j i c row hj hrow
    exact h.own j i c row hj (hkept i row hrow)
  · intro i
    split
    · exact Nat.zero_le 1
    · exact h.once i
  · intro i hretry
    split
    · rfl
    next hopen =>
      refine h.retry i fun row hrow => ?_
      cases hafter : (s.deleteExpired now).find i with
      | none => simp [hrow, hafter] at hopen
      | some row' =>
        have hsame := hkept i row' hafter
        rw [hrow] at hsame
        cases hsame
        exact hretry row hafter
  · intro i row j hrow hpending hj hbegun
    split
    · rfl
    · exact h.fresh i row j (hkept i row hrow) hpending hj hbegun

theorem find_grant_self (now : ℕ) (r : ClaimRequest) :
    ∃ row, (s.grant now r).find r.identity = some row ∧ row.state = .pending ∧ row.claim = s.claims := by
  have hfind : (s.operations.upsert (r.row now s.claims) (r.reopen now s.claims) fun _ => rfl).find
      (r.row now s.claims).identity = some _ := KeyedTable.find_upsert_self s.operations (r.row now s.claims)
  refine ⟨_, hfind, ?_⟩
  cases s.operations.find (r.row now s.claims).identity with
  | none => exact ⟨rfl, rfl⟩
  | some row => exact ⟨rfl, rfl⟩

theorem find_grant_of_ne (now : ℕ) {r : ClaimRequest} {i : Identity} (hi : i ≠ r.identity) :
    (s.grant now r).find i = s.find i :=
  KeyedTable.find_upsert_of_ne s.operations (a := r.row now s.claims) hi

theorem Orderly.grant (h : Orderly s holds begun count) (now : ℕ) (r : ClaimRequest) (j : ι)
    (hretry : ∀ row, s.find r.identity = some row → row.state = .safeToRetry)
    (hnobody : ∀ j' c, holds j' ≠ some (r.identity, c)) :
    Orderly (s.grant now r) (Function.update holds j (some (r.identity, s.claims)))
      (Function.update begun j false) count := by
  obtain ⟨new, hnew, hpending, hclaim⟩ := find_grant_self (s := s) now r
  have hcases : ∀ j' i c, Function.update holds j (some (r.identity, s.claims)) j' = some (i, c) →
      (j' = j ∧ i = r.identity ∧ c = s.claims) ∨ (j' ≠ j ∧ i ≠ r.identity ∧ holds j' = some (i, c)) := by
    intro j' i c hj'
    by_cases hsame : j' = j
    · rw [hsame, Function.update_self] at hj'
      cases hj'
      exact .inl ⟨hsame, rfl, rfl⟩
    · rw [Function.update_of_ne hsame] at hj'
      refine .inr ⟨hsame, fun hi => ?_, hj'⟩
      rw [hi] at hj'
      exact hnobody j' c hj'
  refine ⟨?_, ?_, ?_, h.once, ?_, ?_⟩
  · intro j' i c hj'
    show c < s.claims + 1
    obtain ⟨-, -, rfl⟩ | ⟨-, -, hold⟩ := hcases j' i c hj'
    · omega
    · have hbound := h.bound j' i c hold
      omega
  · intro j' i c row hj' hrow hstate
    obtain ⟨-, rfl, rfl⟩ | ⟨-, hi, hold⟩ := hcases j' i c hj'
    · rw [hnew] at hrow
      cases hrow
      exact hclaim
    · rw [find_grant_of_ne now hi] at hrow
      exact h.own j' i c row hold hrow hstate
  · intro j' j'' i i' c hj' hj''
    obtain ⟨rfl, -, rfl⟩ | ⟨-, -, hold⟩ := hcases j' i c hj'
    · obtain ⟨rfl, -, -⟩ | ⟨-, -, hold'⟩ := hcases j'' i' _ hj''
      · rfl
      · exact absurd (h.bound j'' i' _ hold') (Nat.lt_irrefl _)
    · obtain ⟨-, -, rfl⟩ | ⟨-, -, hold'⟩ := hcases j'' i' c hj''
      · exact absurd (h.bound j' i _ hold) (Nat.lt_irrefl _)
      · exact h.distinct j' j'' i i' c hold hold'
  · intro i hsafe
    by_cases hi : i = r.identity
    · subst hi
      exact h.retry _ hretry
    · refine h.retry i fun row hrow => hsafe row ?_
      rw [find_grant_of_ne now hi, hrow]
  · intro i row j' hrow hstate hj' hbegun
    obtain ⟨-, rfl, -⟩ | ⟨hj, hi, hold⟩ := hcases j' i _ hj'
    · exact h.retry _ hretry
    · rw [find_grant_of_ne now hi] at hrow
      rw [Function.update_of_ne hj] at hbegun
      exact h.fresh i row j' hrow hstate hold hbegun

omit [DecidableEq ι] in
/-- A report takes the word `pending` from the row. -/
theorem Orderly.finish (h : Orderly s holds begun count) (i : Identity)
    (f : OperationRow → OperationRow) (hf : ∀ row, (f row).identity = row.identity)
    (hpending : ∀ row, (f row).state ≠ .pending) (hretry : ∀ row, (f row).state ≠ .safeToRetry) :
    Orderly (s.finish i f hf).1 holds begun count := by
  -- a row that is pending afterwards has not been touched, and neither has one that is safe to retry
  have hrows : ∀ k row, (s.finish i f hf).1.find k = some row → ∃ old, s.find k = some old ∧
      (row = old ∨ (old.state = .pending ∧ row = f old)) := by
    intro k row hrow
    rw [find_finish] at hrow
    split at hrow
    next hk =>
      obtain ⟨old, hold, rfl⟩ := Option.map_eq_some_iff.1 hrow
      refine ⟨old, hk ▸ hold, ?_⟩
      rw [ifPending]
      split
      next hstate => exact .inr ⟨hstate, rfl⟩
      next => exact .inl rfl
    next => exact ⟨row, hrow, .inl rfl⟩
  have hstays : ∀ k row, (s.finish i f hf).1.find k = some row → row.state = .pending → s.find k = some row := by
    intro k row hrow hstate
    obtain ⟨old, hold, rfl | ⟨-, rfl⟩⟩ := hrows k row hrow
    · exact hold
    · exact absurd hstate (hpending old)
  refine ⟨h.bound, ?_, h.distinct, h.once, ?_, ?_⟩
  · intro j k c row hj hrow hstate
    exact h.own j k c row hj (hstays k row hrow hstate) hstate
  · intro k hsafe
    refine h.retry k fun old hold => ?_
    cases hrow : (s.finish i f hf).1.find k with
    | none =>
      rw [find_finish] at hrow
      split at hrow
      next hk =>
        rw [← hk, hold] at hrow
        cases hrow
      next =>
        rw [hold] at hrow
        cases hrow
    | some row =>
      obtain ⟨old', hold', rfl | ⟨-, rfl⟩⟩ := hrows k row hrow
      · rw [hold] at hold'
        cases hold'
        exact hsafe _ hrow
      · exact absurd (hsafe _ hrow) (hretry old')
  · intro k row j hrow hstate hj hbegun
    exact h.fresh k row j (hstays k row hrow hstate) hstate hj hbegun

omit [DecidableEq ι] in
theorem Orderly.resolve (h : Orderly s holds begun count) (now : ℕ) (r : ResolveRequest)
    (hactive : ∃ row, s.find r.identity = some row ∧ row.state.active = true) : Orderly (s.resolve now r) holds begun
      (fun i => if r.identity = i && r.resolution = .safeToRetry &&
        (s.find i).any fun row => row.state.active then 0 else count i) := by
  obtain ⟨old, hold, hstate⟩ := hactive
  have hself : (s.resolve now r).find r.identity = some (r.row now old) := by
    rw [find_resolve, if_pos rfl, hold]
    rfl
  have hstays : ∀ k row, (s.resolve now r).find k = some row → row.state = .pending → s.find k = some row := by
    intro k row hrow hpending
    by_cases hk : k = r.identity
    · rw [hk, hself] at hrow
      cases hrow
      have hinactive : r.resolution.state ≠ .pending := by cases r.resolution <;> nofun
      exact absurd hpending hinactive
    · rw [find_resolve, if_neg hk] at hrow
      exact hrow
  refine ⟨h.bound, ?_, h.distinct, ?_, ?_, ?_⟩
  · intro j k c row hj hrow hpending
    exact h.own j k c row hj (hstays k row hrow hpending) hpending
  · intro k
    split
    · exact Nat.zero_le 1
    · exact h.once k
  · intro k hsafe
    split
    · rfl
    next hno =>
      by_cases hk : k = r.identity
      · subst hk
        have hresolution : r.resolution.state = .safeToRetry := hsafe _ hself
        have hkind : r.resolution = .safeToRetry := by
          cases hr : r.resolution <;> rw [hr] at hresolution <;> first | rfl | cases hresolution
        simp [hkind, hold, hstate] at hno
      · refine h.retry k fun row hrow => hsafe row ?_
        rw [find_resolve, if_neg hk, hrow]
  · intro k row j hrow hpending hj hbegun
    split
    · rfl
    · exact h.fresh k row j (hstays k row hrow hpending) hpending hj hbegun

/-- A process runs the provider for the claim that stands. -/
theorem Orderly.execute (h : Orderly s holds begun count) {j : ι} {i : Identity} {c : ℕ}
    {row : OperationRow} (hj : holds j = some (i, c)) (hbegun : begun j = false)
    (hrow : s.find i = some row) (hstate : row.state = .pending) (hclaim : row.claim = c) :
    Orderly s holds (Function.update begun j true) (Function.update count i (count i + 1)) := by
  have hzero : count i = 0 := h.fresh i row j hrow hstate (hclaim ▸ hj) hbegun
  refine ⟨h.bound, h.own, h.distinct, ?_, ?_, ?_⟩
  · intro k
    by_cases hk : k = i
    · rw [hk, Function.update_self, hzero]
    · rw [Function.update_of_ne hk]
      exact h.once k
  · intro k hsafe
    by_cases hk : k = i
    · rw [hk] at hsafe
      rw [hsafe row hrow] at hstate
      cases hstate
    · rw [Function.update_of_ne hk]
      exact h.retry k hsafe
  · intro k row' j' hrow' hstate' hj' hbegun'
    by_cases hsame : j' = j
    · rw [hsame, Function.update_self] at hbegun'
      cases hbegun'
    · rw [Function.update_of_ne hsame] at hbegun'
      by_cases hk : k = i
      · -- the claim of the row is held by one process only
        subst hk
        rw [hrow] at hrow'
        cases hrow'
        rw [hclaim] at hj'
        exact absurd (h.distinct j' j _ _ c hj' hj) hsame
      · rw [Function.update_of_ne hk]
        exact h.fresh k row' j' hrow' hstate' hj' hbegun'

end

/-! ### Careful runs -/

section

variable {ι : Type}

def ControlsNetwork.holds (n : ControlsNetwork ι) (j : ι) : Option (Identity × ℕ) :=
  (n.threads j).bind fun t => holding t.past

/-- Whether each process has run the provider. -/
def ControlsNetwork.begun (n : ControlsNetwork ι) (j : ι) : Bool :=
  (n.threads j).any fun t => started t.past

/-- A claim is granted only when no process is at work on it, and the provider is run only for a claim
that stands. -/
def CarefulOp (n : ControlsNetwork ι) (past : List ControlsMoment) : {β : Type} → ControlsOp β → Prop
  | _, .claim r => (claimIdempotencyKey n.shared.now r n.shared.store).2.granted = true →
      ∀ j c, ControlsNetwork.holds n j ≠ some (r.identity, c)
  | _, .execute i => ∃ c row, holding past = some (i, c) ∧ n.shared.store.find i = some row ∧
      row.state = .pending ∧ row.claim = c
  | _, _ => True

variable [DecidableEq ι]

def CarefulStep (n n' : ControlsNetwork ι) : Prop :=
  ControlsStep n n' ∧ ∀ e, n'.trace = e :: n.trace → CarefulOp n e.past e.moment.op

def CarefulRun (w₀ : ControlsWorld) (n : ControlsNetwork ι) : Prop :=
  Relation.ReflTransGen CarefulStep (Network.idle w₀) n

variable {n : ControlsNetwork ι} {w₀ : ControlsWorld} {past : List ControlsMoment}
  {p : Program ControlsOp MutationOutcome}

theorem CarefulRun.reachable (h : CarefulRun w₀ n) :
    Network.Reachable controlsSemantics IsControlsCall TimePasses w₀ n :=
  Relation.ReflTransGen.mono (fun _ _ hstep => hstep.1) _ _ h

def ControlsNetwork.operated (n : ControlsNetwork ι) (j : ι) (past : List ControlsMoment) {β : Type}
    (op : ControlsOp β) (rest : β → Program ControlsOp MutationOutcome) : ControlsNetwork ι where
  shared := (controlsSemantics.exec op n.shared).1
  threads := Function.update n.threads j
    (some ⟨rest (controlsSemantics.exec op n.shared).2, ⟨op, n.shared⟩ :: past⟩)
  trace := ⟨j, past, ⟨op, n.shared⟩⟩ :: n.trace

theorem holds_update (n : ControlsNetwork ι) (j : ι) (t : Thread ControlsOp ControlsWorld MutationOutcome)
    (s : ControlsWorld) (l : List (ControlsEntry ι)) :
    ControlsNetwork.holds (⟨s, Function.update n.threads j (some t), l⟩ : ControlsNetwork ι) =
      Function.update (ControlsNetwork.holds n) j (holding t.past) := by
  funext k
  by_cases hk : k = j
  · subst hk
    simp [ControlsNetwork.holds]
  · simp [ControlsNetwork.holds, hk]

theorem begun_update (n : ControlsNetwork ι) (j : ι) (t : Thread ControlsOp ControlsWorld MutationOutcome)
    (s : ControlsWorld) (l : List (ControlsEntry ι)) :
    ControlsNetwork.begun (⟨s, Function.update n.threads j (some t), l⟩ : ControlsNetwork ι) =
      Function.update (ControlsNetwork.begun n) j (started t.past) := by
  funext k
  by_cases hk : k = j
  · subst hk
    simp [ControlsNetwork.begun]
  · simp [ControlsNetwork.begun, hk]

def OrderlyNetwork (n : ControlsNetwork ι) : Prop :=
  Orderly n.shared.store (ControlsNetwork.holds n) (ControlsNetwork.begun n) fun i =>
    invocations i n.trace

variable {β : Type}

/-- The step: one case per operation. -/
theorem orderly_operated (h : OrderlyNetwork n) {j : ι} {op : ControlsOp β}
    {rest : β → Program ControlsOp MutationOutcome} (hj : n.threads j = some ⟨.call op rest, past⟩)
    (hguarantee : ControlsGuarantee past ⟨op, n.shared⟩) (hcareful : CarefulOp n past op) :
    OrderlyNetwork (ControlsNetwork.operated n j past op rest) := by
  have hholds : ControlsNetwork.holds n j = holding past := by rw [ControlsNetwork.holds, hj]; rfl
  have hbegun : ControlsNetwork.begun n j = started past := by rw [ControlsNetwork.begun, hj]; rfl
  rw [OrderlyNetwork, ControlsNetwork.operated, holds_update, begun_update]
  cases op with
  | claim r =>
    obtain rfl : past = [] := hguarantee
    have hexpired := h.expire n.shared.now
    have hcount : (fun i => invocations i ((⟨j, [], ⟨.claim r, n.shared⟩⟩ : ControlsEntry ι) :: n.trace)) =
        fun i => if (n.shared.store.find i).isSome &&
          ((n.shared.store.deleteExpired n.shared.now).find i).isNone then 0 else
            invocations i n.trace := by
      funext i
      rfl
    rw [hcount]
    generalize hclaim : claimIdempotencyKey n.shared.now r n.shared.store = result
    obtain ⟨s', answer⟩ := result
    have hstore : (controlsSemantics.exec (.claim r) n.shared).1.store = s' :=
      congrArg Prod.fst hclaim
    have hafter : holding [⟨.claim r, n.shared⟩] =
        if answer.granted then some (r.identity, n.shared.store.claims) else none := by
      show (if (claimIdempotencyKey n.shared.now r n.shared.store).2.granted then _ else _ : Option _).or
        none = _
      rw [hclaim, Option.or_none]
    rw [hstore, hafter]
    obtain ⟨rfl, hretry, -, rfl⟩ | ⟨hanswer, rfl⟩ := claim_cases hclaim
    · refine hexpired.grant n.shared.now r j hretry fun j' c => ?_
      refine hcareful ?_ j' c
      rw [hclaim]
      rfl
    · have hrefused : answer.granted = false := by
        cases answer with
        | claimed => exact absurd rfl hanswer
        | existing state response => rfl
        | targetMismatch => rfl
        | operationActive state => rfl
      rw [hrefused]
      exact hexpired.forget j _
  | execute i =>
    obtain ⟨c, row, hholding, hrow, hstate, hclaim⟩ := hcareful
    have hafter : holding (⟨.execute i, n.shared⟩ :: past) = ControlsNetwork.holds n j := hholds.symm
    have hcount : (fun k => invocations k ((⟨j, past, ⟨.execute i, n.shared⟩⟩ : ControlsEntry ι) ::
        n.trace)) = Function.update (fun k => invocations k n.trace) i (invocations i n.trace + 1) := by
      funext k
      by_cases hk : k = i
      · subst hk
        rw [Function.update_self]
        exact if_pos rfl
      · rw [Function.update_of_ne hk]
        exact if_neg fun hsame => hk (Option.some.inj hsame).symm
    rw [hcount, hafter, Function.update_eq_self]
    exact h.execute (hholds.trans hholding) (hbegun.trans hguarantee.2) hrow hstate hclaim
  | audit i response =>
    have hafter : holding (⟨.audit i response, n.shared⟩ :: past) = ControlsNetwork.holds n j :=
      hholds.symm
    have hstarted : started (⟨.audit i response, n.shared⟩ :: past) = ControlsNetwork.begun n j :=
      hbegun.symm
    rw [hafter, hstarted, Function.update_eq_self, Function.update_eq_self]
    exact h
  | complete i response =>
    have hreported := h.finish i (OperationRow.completed n.shared.now response) (fun _ => rfl)
      (fun _ hsame => by cases hsame) fun _ hsame => by cases hsame
    exact hreported.forget j _
  | fail i state =>
    have hstate : state ≠ .pending ∧ state ≠ .safeToRetry := by
      obtain rfl | rfl := hguarantee.2
      · exact ⟨nofun, nofun⟩
      · exact ⟨nofun, nofun⟩
    have hreported := h.finish i (OperationRow.inState state) (fun _ => rfl) (fun _ => hstate.1)
      fun _ => hstate.2
    exact hreported.forget j _
  | resolve r =>
    have hafter : holding (⟨.resolve r, n.shared⟩ :: past) = ControlsNetwork.holds n j := hholds.symm
    have hstarted : started (⟨.resolve r, n.shared⟩ :: past) = ControlsNetwork.begun n j := hbegun.symm
    rw [hafter, hstarted, Function.update_eq_self, Function.update_eq_self]
    have hcount : (fun k => invocations k ((⟨j, past, ⟨.resolve r, n.shared⟩⟩ : ControlsEntry ι) ::
        n.trace)) = fun k => if r.identity = k && r.resolution = .safeToRetry &&
          (n.shared.store.find k).any fun row => row.state.active then 0 else invocations k n.trace := by
      funext k
      rfl
    rw [hcount]
    show Orderly (resolveIdempotencyClaim n.shared.now r n.shared.store).1 _ _ _
    obtain ⟨heq, hactive, -⟩ | ⟨heq, hno⟩ := resolve_cases (s := n.shared.store) r
    · rw [heq]
      exact h.resolve n.shared.now r hactive
    · have hsame : (fun k => if r.identity = k && r.resolution = .safeToRetry &&
          (n.shared.store.find k).any fun row => row.state.active then 0 else invocations k n.trace) =
            fun k => invocations k n.trace := by
        funext k
        refine if_neg fun hopen => ?_
        simp only [Bool.and_eq_true, decide_eq_true_eq] at hopen
        obtain ⟨⟨rfl, hretry⟩, hactive⟩ := hopen
        rw [hno hretry] at hactive
        cases hactive
      rw [heq, hsame]
      exact h

/-! ### What an operation changes -/

/-- An operation touches an unresolved row only as the report of the process whose claim it is, or as a
resolution; a report touches nothing but the claim of its process. -/
structure LawfulChange (e : ControlsEntry ι) : Prop where
  unresolved : ∀ i row, e.moment.before.store.find i = some row → row.state.active = true →
    (e.moment.after controlsSemantics).store.find i ≠ some row →
    (reports e.moment.op = some i ∧ holding e.past = some (i, row.claim)) ∨ resolves e.moment.op = some i
  report : ∀ i row, (reports e.moment.op).isSome = true → e.moment.before.store.find i = some row →
    (e.moment.after controlsSemantics).store.find i ≠ some row →
    reports e.moment.op = some i ∧ holding e.past = some (i, row.claim)

/-- The response an operation puts on record. -/
def supplied : {β : Type} → ControlsOp β → Option (Identity × JsonValue)
  | _, .complete i response => some (i, response)
  | _, .resolve r => if r.resolution = .succeeded then r.response.map fun v => (r.identity, v) else none
  | _, _ => none

/-- A response of a claim is the one its process has reported, or a resolution has supplied. -/
def Supplies (i : Identity) (claim : ℕ) (v : JsonValue) (e : ControlsEntry ι) : Prop :=
  supplied e.moment.op = some (i, v) ∧
    ((reports e.moment.op).isSome = true → holding e.past = some (i, claim))

/-- Every response on record was there at the start, or has been supplied for its claim. -/
def Recorded (s₀ : ControlsStore) (n : ControlsNetwork ι) : Prop :=
  ∀ i row, n.shared.store.find i = some row → row.state = .completed →
    s₀.find i = some row ∨ ∃ f ∈ n.trace, ∃ v, row.response = some v ∧ Supplies i row.claim v f

omit [DecidableEq ι] in
theorem finish_change {s : ControlsStore} {i k : Identity} {f : OperationRow → OperationRow}
    {hf : ∀ row, (f row).identity = row.identity} {row : OperationRow} (hrow : s.find k = some row)
    (hchange : (s.finish i f hf).1.find k ≠ some row) : k = i ∧ row.state = .pending := by
  rw [find_finish] at hchange
  split at hchange
  next hk =>
    refine ⟨hk, ?_⟩
    by_contra hstate
    rw [← hk, hrow, Option.map_some, ifPending, if_neg hstate] at hchange
    exact hchange rfl
  next => exact absurd hrow hchange

theorem find_claim {s : ControlsStore} {now : ℕ} {r : ClaimRequest} {i : Identity} {row : OperationRow}
    (hrow : s.find i = some row) (hcompleted : row.state ≠ .completed)
    (hretry : row.state ≠ .safeToRetry) : (claimIdempotencyKey now r s).1.find i = some row := by
  have hkept : (s.deleteExpired now).find i = some row := by
    rw [find_deleteExpired, hrow, Option.filter_some, if_pos]
    simp [hcompleted]
  generalize hclaim : claimIdempotencyKey now r s = result
  obtain ⟨s', answer⟩ := result
  obtain ⟨-, hsafe, -, rfl⟩ | ⟨-, rfl⟩ := claim_cases hclaim
  · by_cases hi : i = r.identity
    · subst hi
      exact absurd (hsafe row hkept) hretry
    · show (ControlsStore.grant _ now r).find i = some row
      rw [find_grant_of_ne now hi, hkept]
  · exact hkept

omit [DecidableEq ι] in
theorem claim_of_report (h : OrderlyNetwork n) {j : ι} (hj : n.threads j = some ⟨p, past⟩) {i : Identity}
    (hholding : ∃ c, holding past = some (i, c)) {row : OperationRow} (hrow : n.shared.store.find i = some row)
    (hstate : row.state = .pending) : holding past = some (i, row.claim) := by
  obtain ⟨c, hc⟩ := hholding
  have hholds : ControlsNetwork.holds n j = some (i, c) := by
    rw [ControlsNetwork.holds, hj]
    exact hc
  rw [hc, h.own j i c row hholds hrow hstate]

theorem active_of_state {state : ClaimState} (h : state.active = true) :
    state ≠ .completed ∧ state ≠ .safeToRetry := by
  refine ⟨fun hstate => ?_, fun hstate => ?_⟩
  · rw [hstate] at h
    cases h
  · rw [hstate] at h
    cases h

omit [DecidableEq ι] in
theorem report_change (h : OrderlyNetwork n) {j : ι} (hj : n.threads j = some ⟨p, past⟩) {i k : Identity}
    (hholding : ∃ c, holding past = some (i, c)) {f : OperationRow → OperationRow}
    (hf : ∀ row, (f row).identity = row.identity) {row : OperationRow} (hrow : n.shared.store.find k = some row)
    (hchange : (n.shared.store.finish i f hf).1.find k ≠ some row) :
    some i = some k ∧ holding past = some (k, row.claim) := by
  obtain ⟨rfl, hstate⟩ := finish_change hrow hchange
  exact ⟨rfl, claim_of_report h hj hholding hrow hstate⟩

omit [DecidableEq ι] in
theorem lawful_operated (h : OrderlyNetwork n) {j : ι} {op : ControlsOp β}
    {rest : β → Program ControlsOp MutationOutcome} (hj : n.threads j = some ⟨.call op rest, past⟩)
    (hguarantee : ControlsGuarantee past ⟨op, n.shared⟩) :
    LawfulChange (⟨j, past, ⟨op, n.shared⟩⟩ : ControlsEntry ι) := by
  cases op with
  | claim r =>
    refine ⟨fun i row hrow hactive hchange => ?_, nofun⟩
    obtain ⟨hcompleted, hretry⟩ := active_of_state hactive
    exact absurd (find_claim hrow hcompleted hretry) hchange
  | execute i => exact ⟨fun k row hrow _ hchange => absurd hrow hchange, nofun⟩
  | audit i response => exact ⟨fun k row hrow _ hchange => absurd hrow hchange, nofun⟩
  | complete i response =>
    have hidentity := OperationRow.identity_completed n.shared.now response
    refine ⟨fun k row hrow _ hchange => .inl ?_, fun k row _ hrow hchange => ?_⟩
    · exact report_change h hj hguarantee hidentity hrow hchange
    · exact report_change h hj hguarantee hidentity hrow hchange
  | fail i state =>
    have hidentity := OperationRow.identity_inState state
    refine ⟨fun k row hrow _ hchange => .inl ?_, fun k row _ hrow hchange => ?_⟩
    · exact report_change h hj hguarantee.1 hidentity hrow hchange
    · exact report_change h hj hguarantee.1 hidentity hrow hchange
  | resolve r =>
    refine ⟨fun i row hrow _ hchange => .inr ?_, nofun⟩
    have hchange' : (resolveIdempotencyClaim n.shared.now r n.shared.store).1.find i ≠ some row := hchange
    obtain ⟨heq, -⟩ | ⟨heq, -⟩ := resolve_cases (s := n.shared.store) r
    · rw [heq, find_resolve] at hchange'
      split at hchange'
      next hi => rw [hi]; rfl
      next => exact absurd hrow hchange'
    · rw [heq] at hchange'
      exact absurd hrow hchange'

theorem recorded_operated {s₀ : ControlsStore} (h : OrderlyNetwork n) (hrecorded : Recorded s₀ n) {j : ι}
    {op : ControlsOp β} {rest : β → Program ControlsOp MutationOutcome}
    (hj : n.threads j = some ⟨.call op rest, past⟩) (hguarantee : ControlsGuarantee past ⟨op, n.shared⟩) :
    Recorded s₀ (ControlsNetwork.operated n j past op rest) := by
  -- a response that was on record stays what it was
  have hold : ∀ i row, n.shared.store.find i = some row → row.state = .completed →
      s₀.find i = some row ∨ ∃ f ∈ (⟨j, past, ⟨op, n.shared⟩⟩ : ControlsEntry ι) :: n.trace,
        ∃ v, row.response = some v ∧ Supplies i row.claim v f := by
    intro i row hrow hstate
    obtain hstart | ⟨f, hf, hsupplied⟩ := hrecorded i row hrow hstate
    · exact .inl hstart
    · exact .inr ⟨f, List.mem_cons_of_mem _ hf, hsupplied⟩
  intro k row hrow hstate
  cases op with
  | claim r =>
    have hrow' : (claimIdempotencyKey n.shared.now r n.shared.store).1.find k = some row := hrow
    have hkept : ∀ row, (n.shared.store.deleteExpired n.shared.now).find k = some row →
        n.shared.store.find k = some row := by
      intro row hrow
      rw [find_deleteExpired] at hrow
      exact (Option.filter_eq_some_iff.1 hrow).1
    generalize hclaim : claimIdempotencyKey n.shared.now r n.shared.store = result at hrow'
    obtain ⟨s', answer⟩ := result
    obtain ⟨-, -, -, rfl⟩ | ⟨-, rfl⟩ := claim_cases hclaim
    · by_cases hk : k = r.identity
      · obtain ⟨new, hnew, hpending, -⟩ :=
          find_grant_self (s := n.shared.store.deleteExpired n.shared.now) n.shared.now r
        rw [hk] at hrow'
        rw [show ControlsStore.find _ r.identity = some new from hnew] at hrow'
        cases hrow'
        rw [hpending] at hstate
        cases hstate
      · rw [show ControlsStore.find _ k = _ from find_grant_of_ne n.shared.now hk] at hrow'
        exact hold k row (hkept row hrow') hstate
    · exact hold k row (hkept row hrow') hstate
  | execute i => exact hold k row hrow hstate
  | audit i response => exact hold k row hrow hstate
  | complete i response =>
    have hrow' : (n.shared.store.finish i (OperationRow.completed n.shared.now response)
      (OperationRow.identity_completed n.shared.now response)).1.find k = some row := hrow
    rw [find_finish] at hrow'
    split at hrow'
    next hk =>
      obtain ⟨old, hfind, rfl⟩ := Option.map_eq_some_iff.1 hrow'
      rw [ifPending] at hstate ⊢
      split at hstate
      next hpending =>
        rw [if_pos hpending]
        refine .inr ⟨_, List.mem_cons_self, response, rfl, ?_, fun _ => ?_⟩
        · rw [hk]
          rfl
        · rw [hk]
          have hheld : holding past = some (i, old.claim) :=
            claim_of_report h hj hguarantee hfind hpending
          exact hheld
      next hpending =>
        rw [if_neg hpending]
        exact hold k old (hk ▸ hfind) hstate
    next => exact hold k row hrow' hstate
  | fail i state =>
    have hrow' : (n.shared.store.finish i (OperationRow.inState state)
      (OperationRow.identity_inState state)).1.find k = some row := hrow
    rw [find_finish] at hrow'
    split at hrow'
    next hk =>
      obtain ⟨old, hfind, rfl⟩ := Option.map_eq_some_iff.1 hrow'
      rw [ifPending] at hstate ⊢
      split at hstate
      next hpending =>
        have hfailed : state = .completed := hstate
        obtain rfl | rfl := hguarantee.2
        · cases hfailed
        · cases hfailed
      next hpending =>
        rw [if_neg hpending]
        exact hold k old (hk ▸ hfind) hstate
    next => exact hold k row hrow' hstate
  | resolve r =>
    have hrow' : (resolveIdempotencyClaim n.shared.now r n.shared.store).1.find k = some row := hrow
    obtain ⟨heq, -, hresponse⟩ | ⟨heq, -⟩ := resolve_cases (s := n.shared.store) r
    · rw [heq, find_resolve] at hrow'
      split at hrow'
      next hk =>
        obtain ⟨old, -, rfl⟩ := Option.map_eq_some_iff.1 hrow'
        have hresolution : r.resolution.state = .completed := hstate
        have hsucceeded : r.resolution = .succeeded := by
          cases hr : r.resolution <;> rw [hr] at hresolution <;> first | rfl | cases hresolution
        obtain ⟨v, hv⟩ := Option.isSome_iff_exists.1 (hresponse hsucceeded)
        refine .inr ⟨_, List.mem_cons_self, v, hv, ?_, fun hreports => by cases hreports⟩
        show (if r.resolution = .succeeded then _ else _) = _
        rw [if_pos hsucceeded, hv, hk]
        rfl
      next => exact hold k row hrow' hstate
    · rw [heq] at hrow'
      exact hold k row hrow' hstate

/-! ### Runs -/

/-- What a careful run keeps. -/
structure InOrder (w₀ : ControlsWorld) (n : ControlsNetwork ι) : Prop where
  orderly : OrderlyNetwork n
  recorded : Recorded w₀.store n
  lawful : ∀ e ∈ n.trace, LawfulChange e

omit [DecidableEq ι] in
theorem inOrder_idle (w₀ : ControlsWorld) : InOrder w₀ (Network.idle w₀ : ControlsNetwork ι) := by
  refine ⟨⟨nofun, nofun, nofun, fun _ => Nat.zero_le 1, fun _ _ => rfl, fun _ _ _ _ _ _ _ => rfl⟩, ?_, nofun⟩
  intro i row hrow _
  exact .inl hrow

theorem InOrder.step {n' : ControlsNetwork ι} (hrun : CarefulRun w₀ n) (h : InOrder w₀ n) (hstep : CarefulStep n n') :
    InOrder w₀ n' := by
  obtain ⟨hstep, hcareful⟩ := hstep
  cases hstep with
  | start j p hp =>
    refine ⟨?_, h.recorded, h.lawful⟩
    rw [OrderlyNetwork, holds_update, begun_update]
    exact h.orderly.forget j false
  | operate j op rest past hj =>
    have hguarantee := (controlsGuarded hrun.reachable).operation (fun _ => trivial) hj
    refine ⟨?_, ?_, fun e he => ?_⟩
    · exact orderly_operated h.orderly hj hguarantee (hcareful _ rfl)
    · exact recorded_operated h.orderly h.recorded hj hguarantee
    · obtain rfl | he := List.mem_cons.1 he
      · exact lawful_operated h.orderly hj hguarantee
      · exact h.lawful e he
  | drift w hw =>
    obtain ⟨t, rfl⟩ := hw
    exact ⟨h.orderly, h.recorded, h.lawful⟩

theorem CarefulRun.inOrder (h : CarefulRun w₀ n) : InOrder w₀ n := by
  induction h with
  | refl => exact inOrder_idle w₀
  | tail hrun hstep ih => exact ih.step hrun hstep

theorem CarefulRun.call (h : CarefulRun w₀ n) (j : ι) (hp : IsControlsCall p) : CarefulRun w₀ (n.call j p) :=
  h.tail ⟨Network.Step.start n j p hp, fun e he => absurd he.symm (List.cons_ne_self e n.trace)⟩

theorem CarefulRun.operate (h : CarefulRun w₀ n) (j : ι) {op : ControlsOp β}
    {rest : β → Program ControlsOp MutationOutcome} (hj : n.threads j = some ⟨.call op rest, past⟩)
    (hcareful : CarefulOp n past op) : CarefulRun w₀ (ControlsNetwork.operated n j past op rest) := by
  refine h.tail ⟨Network.Step.operate n j op rest past hj, fun e he => ?_⟩
  obtain rfl := (List.cons.inj he).1
  exact hcareful

/-- **Mutations are executed at most once**, and what is replayed is the response of the execution that
holds the claim, as long as the provider is run only for claims that stand and claims are granted only
when no process is at work on them. -/
theorem mutations_at_most_once {w₀ : ControlsWorld} {n : ControlsNetwork ι} (h : CarefulRun w₀ n) :
    (∀ i, invocations i n.trace ≤ 1) ∧ (∀ e ∈ n.trace, LawfulChange e) ∧
      ∀ r response, (claimIdempotencyKey n.shared.now r n.shared.store).2 = .existing .completed response →
        ∃ row, n.shared.store.find r.identity = some row ∧ row.response = response ∧
          (w₀.store.find r.identity = some row ∨
            ∃ e ∈ n.trace, ∃ v, response = some v ∧ Supplies r.identity row.claim v e) := by
  refine ⟨h.inOrder.orderly.once, h.inOrder.lawful, fun r response hreplay => ?_⟩
  obtain ⟨row, hrow, hstate, hresponse⟩ := claim_existing hreplay
  refine ⟨row, hrow, hresponse, ?_⟩
  rw [← hresponse]
  exact h.inOrder.recorded r.identity row hrow hstate

end

/-! ### A run is cancelled -/

def cancelIdentity : Identity := ⟨"shop", "k1", "cancel", "run-1"⟩

def cancelCall : ReplayCall := { request := { identity := cancelIdentity } }

/-- The provider answers with the number of the attempt. -/
def cancelWorld : ControlsWorld :=
  ⟨ControlsStore.empty, 0, [.response (.int 1), .response (.int 2)], []⟩

/-- One process claims, runs the provider and reports. -/
theorem mutations_at_most_once_cancel : ∃ n : ControlsNetwork Unit, invocations cancelIdentity n.trace = 1 ∧
    (∀ i, invocations i n.trace ≤ 1) ∧ (∀ e ∈ n.trace, LawfulChange e) ∧
      ∀ r response, (claimIdempotencyKey n.shared.now r n.shared.store).2 = .existing .completed response →
        ∃ row, n.shared.store.find r.identity = some row ∧ row.response = response ∧
          (cancelWorld.store.find r.identity = some row ∨
            ∃ e ∈ n.trace, ∃ v, response = some v ∧ Supplies r.identity row.claim v e) := by
  have hcalled : CarefulRun cancelWorld ((Network.idle cancelWorld : ControlsNetwork Unit).call ()
      (replayOrExecute cancelCall)) := CarefulRun.call Relation.ReflTransGen.refl () (.call cancelCall)
  have hclaimed := hcalled.operate () rfl fun _ _ _ hj => by cases hj
  have hexecuted := hclaimed.operate () rfl ⟨0, _, rfl, rfl, rfl, rfl⟩
  have hcompleted := hexecuted.operate () rfl trivial
  exact ⟨_, rfl, mutations_at_most_once hcompleted⟩

/-- An operator takes a process for dead that is only slow. -/
def cancelResolution : ResolveRequest where
  identity := cancelIdentity
  resolution := .safeToRetry
  resolvedBy := "ops"
  evidence := .obj []

/-- A process runs the provider, its claim is found safe to retry, another process claims, and the report
of the first completes the claim of the second. -/
theorem late_report_completes_another_claim : ∃ n : ControlsNetwork ℕ,
    Network.Reachable controlsSemantics IsControlsCall TimePasses cancelWorld n ∧ ∃ e ∈ n.trace, ¬LawfulChange e := by
  refine ⟨[0, 0, 2, 1, 0].foldl (Network.tick controlsSemantics)
    ((((Network.idle cancelWorld).call 0 (replayOrExecute cancelCall)).call 2
      (resolveClaim cancelResolution)).call 1 (replayOrExecute cancelCall)), ?_, ?_⟩
  · refine Network.Reachable.schedule ?_ _
    exact ((Network.Reachable.init.call 0 (.call cancelCall)).call 2 (.resolve cancelResolution)).call 1
      (.call cancelCall)
  · refine ⟨_, List.mem_cons_self, fun hlawful => ?_⟩
    obtain ⟨-, hheld⟩ := hlawful.report cancelIdentity _ rfl rfl fun hsame => by
      cases congrArg (Option.map OperationRow.state) hsame
    cases hheld

end Phlo.Controls
