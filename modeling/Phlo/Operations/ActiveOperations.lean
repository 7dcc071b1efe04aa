import Phlo.Operations.Journal

/-!
# At most one active operation per target

Any number of processes call the functions of the journal on one store; their calls of the store come in
any order.  A claim is refused while the target is held, and completing an operation releases it.  But
marking an operation submitted or unknown makes its entry active whatever state it is in: an operation
that has ended is revived, and may then hold its target next to another one.

* `JournalSafe` — at every moment at most one entry for an action and a target is active, and no entry
  that has ended becomes active again;
* `late_mark_revives` — a run in which one is.
-/

namespace Phlo.Operations

open Phlo.Library Phlo.Library.Program
open Phlo.RunEvidence (Dict)

/-! ### Processes at work on one journal -/

/-- The calls that change a journal. -/
inductive JournalCall where
  | claim (operationId subject action target planToken : String)
  | submitted (operationId : String)
  | complete (operationId : String) (result : Dict)
  | unknown (operationId : String)
  | reconcile (operationId : String) (result : Dict)

def JournalCall.program : JournalCall → Program JournalOp (Journaled Unit)
  | claim operationId subject action target planToken => do
    let entry ← claimOperation operationId subject action target planToken
    return entry.map fun _ => ()
  | submitted operationId => markSubmitted operationId
  | complete operationId result => completeOperation operationId result
  | unknown operationId => markUnknown operationId
  | reconcile operationId result => reconcileUnknown operationId result

abbrev JournalNetwork (ι : Type) := Network ι JournalOp JournalStore (Journaled Unit)

abbrev JournalReached {ι : Type} [DecidableEq ι] (naming : FileNaming) (n : JournalNetwork ι) : Prop :=
  Network.Reachable (journalSemantics naming) (fun p => ∃ call : JournalCall, p = call.program)
    (fun _ _ => False) JournalStore.empty n

/-! ### Safety -/

def UniqueActive (s : JournalStore) : Prop :=
  ∀ a b r q, s.files.get a = some r → s.files.get b = some q → r.state.active = true →
    q.state.active = true → r.action = q.action → r.target = q.target → a = b

def StaysEnded (s s' : JournalStore) : Prop :=
  ∀ name r r', s.files.get name = some r → r.state.active = false → s'.files.get name = some r' →
    r'.state.active = false

/-- The targets are held once at every moment, and no operation has revived an entry. -/
structure JournalSafe {ι : Type} (naming : FileNaming) (n : JournalNetwork ι) : Prop where
  now : UniqueActive n.shared
  before : ∀ e ∈ n.trace, UniqueActive e.moment.before
  ended : ∀ e ∈ n.trace, StaysEnded e.moment.before (e.moment.after (journalSemantics naming))

/-- The call does not make an entry active that has ended. -/
def forward (naming : FileNaming) (m : Moment JournalOp JournalStore) : Bool :=
  match m with
  | ⟨.transition operationId state _, s⟩ =>
    !state.active || (s.entry naming operationId).all fun record => record.state.active
  | _ => true

section

variable {naming : FileNaming} {s : JournalStore}

theorem StaysEnded.refl (s : JournalStore) : StaysEnded s s := by
  intro name r r' hr hended hr'
  rw [hr] at hr'
  cases hr'
  exact hended

theorem UniqueActive.write (h : UniqueActive s) {entry : OperationJournalEntry}
    (hheld : s.held entry.action entry.target = false) : UniqueActive (s.write naming entry) := by
  have hnone := held_eq_false.1 hheld
  intro a b r q hr hq hractive hqactive haction htarget
  rw [JournalStore.write, OrderedDict.get_set] at hr hq
  split at hr
  next ha =>
    split at hq
    next hb => exact ha.trans hb.symm
    · cases hr
      rw [hnone b q hq haction.symm htarget.symm] at hqactive
      cases hqactive
  next ha =>
    split at hq
    · cases hq
      rw [hnone a r hr haction htarget] at hractive
      cases hractive
    · exact h a b r q hr hq hractive hqactive haction htarget

theorem staysEnded_write {entry : OperationJournalEntry}
    (hnew : s.entry naming entry.operationId = none) : StaysEnded s (s.write naming entry) := by
  intro name r r' hr hended hr'
  rw [JournalStore.write, OrderedDict.get_set] at hr'
  split at hr'
  next hname =>
    subst hname
    rw [JournalStore.entry, hr] at hnew
    cases hnew
  · rw [hr] at hr'
    cases hr'
    exact hended

variable {record : OperationJournalEntry} {state : OperationJournalState}

/-- The update of an entry that stays what it was, or ends. -/
theorem UniqueActive.update (h : UniqueActive s) {name : String} (hrecord : s.files.get name = some record)
    (result : Option Dict) (hforward : state.active = true → record.state.active = true) :
    UniqueActive ⟨s.files.set name { record with state := state, result := result }⟩ := by
  -- whatever is active afterwards was active before, under the same action and target
  have hbefore : ∀ a r, (s.files.set name { record with state := state, result := result }).get a =
      some r → r.state.active = true →
      ∃ r', s.files.get a = some r' ∧ r'.state.active = true ∧ r'.action = r.action ∧
        r'.target = r.target := by
    intro a r hr hactive
    rw [OrderedDict.get_set] at hr
    split at hr
    next ha =>
      cases hr
      exact ⟨record, by rw [ha]; exact hrecord, hforward hactive, rfl, rfl⟩
    · exact ⟨r, hr, hactive, rfl, rfl⟩
  intro a b r q hr hq hractive hqactive haction htarget
  obtain ⟨r', hr', hractive', hraction, hrtarget⟩ := hbefore a r hr hractive
  obtain ⟨q', hq', hqactive', hqaction, hqtarget⟩ := hbefore b q hq hqactive
  refine h a b r' q' hr' hq' hractive' hqactive' ?_ ?_
  · rw [hraction, hqaction, haction]
  · rw [hrtarget, hqtarget, htarget]

theorem staysEnded_update {name : String} (hrecord : s.files.get name = some record) (result : Option Dict)
    (hforward : state.active = true → record.state.active = true) :
    StaysEnded s ⟨s.files.set name { record with state := state, result := result }⟩ := by
  intro a r r' hr hended hr'
  rw [OrderedDict.get_set] at hr'
  split at hr'
  next ha =>
    subst ha
    cases hr'
    rw [hrecord] at hr
    cases hr
    refine Bool.eq_false_iff.2 fun hactive => ?_
    rw [hforward hactive] at hended
    cases hended
  · rw [hr] at hr'
    cases hr'
    exact hended

theorem forward_transition {operationId : String} {result : Option Dict}
    (hrecord : s.entry naming operationId = some record) :
    forward naming ⟨.transition operationId state result, s⟩ = true ↔
      (state.active = true → record.state.active = true) := by
  show (!state.active || (s.entry naming operationId).all _) = true ↔ _
  rw [hrecord, Option.all_some]
  cases state.active <;> simp

/-- A call that revives nothing keeps the targets unique. -/
theorem step_safe {m : Moment JournalOp JournalStore} (hforward : forward naming m = true)
    (h : UniqueActive m.before) : UniqueActive (m.after (journalSemantics naming)) ∧
      StaysEnded m.before (m.after (journalSemantics naming)) := by
  obtain ⟨op, s⟩ := m
  cases op with
  | read operationId => exact ⟨h, StaysEnded.refl s⟩
  | claim entry =>
    show UniqueActive (s.claim naming entry).1 ∧ StaysEnded s (s.claim naming entry).1
    obtain ⟨hnew, hheld, hclaim⟩ | hclaim := claim_cases naming s entry
    · rw [hclaim]
      exact ⟨UniqueActive.write h hheld, staysEnded_write hnew⟩
    · rw [hclaim]
      exact ⟨h, StaysEnded.refl s⟩
  | transition operationId state result =>
    show UniqueActive (s.transition naming operationId state result).1 ∧
      StaysEnded s (s.transition naming operationId state result).1
    obtain ⟨record, hrecord, htransition⟩ | ⟨-, htransition⟩ :=
      transition_cases naming s operationId state result
    · have hstate := (forward_transition hrecord).1 hforward
      rw [htransition]
      exact ⟨UniqueActive.update h hrecord result hstate, staysEnded_update hrecord result hstate⟩
    · rw [htransition]
      exact ⟨h, StaysEnded.refl s⟩

theorem forward_of_staysEnded {m : Moment JournalOp JournalStore}
    (h : StaysEnded m.before (m.after (journalSemantics naming))) : forward naming m = true := by
  obtain ⟨op, s⟩ := m
  cases op with
  | read operationId => rfl
  | claim entry => rfl
  | transition operationId state result =>
    obtain ⟨record, hrecord, htransition⟩ | ⟨hnone, -⟩ :=
      transition_cases naming s operationId state result
    · refine (forward_transition hrecord).2 fun hactive => ?_
      by_contra hended
      have hafter : StaysEnded s (s.transition naming operationId state result).1 := h
      rw [htransition] at hafter
      have hstate := hafter _ record _ hrecord (Bool.eq_false_iff.2 hended)
        (by rw [OrderedDict.get_set, if_pos rfl])
      rw [show ({ record with state := state, result := result } : OperationJournalEntry).state =
        state from rfl, hactive] at hstate
      cases hstate
    · show (!state.active || (s.entry naming operationId).all _) = true
      rw [hnone, Option.all_none, Bool.or_true]

end

/-! ### Every run -/

section

variable {ι : Type} [DecidableEq ι]

/-- What a run without revivals keeps. -/
def SafeSoFar (naming : FileNaming) (s : JournalStore) (trace : List (Entry ι JournalOp JournalStore)) : Prop :=
  (∀ e ∈ trace, forward naming e.moment = true) → UniqueActive s ∧
    ∀ e ∈ trace, UniqueActive e.moment.before ∧
      StaysEnded e.moment.before (e.moment.after (journalSemantics naming))

theorem safeSoFar_of_reached {naming : FileNaming} {n : JournalNetwork ι} (h : JournalReached naming n) :
    SafeSoFar naming n.shared n.trace := by
  refine trace_inv_of_operations ?_ (fun _ _ _ hdrift => False.elim hdrift) ?_ h
  · intro _
    exact ⟨fun _ _ _ _ hnone => (by cases hnone), fun e he => absurd he List.not_mem_nil⟩
  · intro l e ih hforward
    obtain ⟨hunique, hbefore⟩ := ih fun e' he' => hforward e' (List.mem_cons_of_mem _ he')
    obtain ⟨hafter, hended⟩ := step_safe (hforward e List.mem_cons_self) hunique
    refine ⟨hafter, fun e' he' => ?_⟩
    obtain rfl | he' := List.mem_cons.1 he'
    · exact ⟨hunique, hended⟩
    · exact hbefore e' he'

/-- **At most one active operation per target.**  Whatever the processes call and in whatever order their
calls come, the run is safe exactly if none of them marks an operation that has ended. -/
theorem journal_safe_iff (naming : FileNaming) (n : JournalNetwork ι) (h : JournalReached naming n) :
    JournalSafe naming n ↔ ∀ e ∈ n.trace, forward naming e.moment = true := by
  constructor
  · intro hsafe e he
    exact forward_of_staysEnded (hsafe.ended e he)
  · intro hforward
    obtain ⟨hnow, htrace⟩ := safeSoFar_of_reached h hforward
    exact ⟨hnow, fun e he => (htrace e he).1, fun e he => (htrace e he).2⟩

end

/-! ### Two runs -/

/-- Letters and digits are ASCII, and digests are the texts themselves. -/
def plainNaming : FileNaming := ⟨Char.isAlphanum, id⟩

def callOnce (n : JournalNetwork Unit) (call : JournalCall) : JournalNetwork Unit :=
  (n.call () call.program).tick (journalSemantics plainNaming) ()

/-- A process makes calls one after the other. -/
def callsInTurn (calls : List JournalCall) : JournalNetwork Unit :=
  calls.foldl callOnce (Network.idle JournalStore.empty)

theorem reached_callsInTurn (calls : List JournalCall) : JournalReached plainNaming (callsInTurn calls) := by
  have hreached : ∀ n, JournalReached plainNaming n → JournalReached plainNaming (calls.foldl callOnce n) := by
    induction calls with
    | nil => exact fun n hn => hn
    | cons call calls ih => exact fun n hn => ih _ ((Network.Reachable.call hn () ⟨call, rfl⟩).tick ())
  exact hreached _ Network.Reachable.init

/-- Two operations hold a target one after the other. -/
def inTurn : List JournalCall :=
  [.claim "a" "cli" "backup" "lake" "t", .submitted "a", .unknown "a",
    .reconcile "a" [("accepted", .bool true)], .claim "b" "cli" "backup" "lake" "u", .submitted "b"]

theorem journal_safe_iff_inTurn : JournalSafe plainNaming (callsInTurn inTurn) :=
  (journal_safe_iff plainNaming _ (reached_callsInTurn inTurn)).2
    (List.all_eq_true.1 (show (callsInTurn inTurn).trace.all
      (fun e => forward plainNaming e.moment) = true by decide +kernel))

/-- An operation is marked unknown after it has failed and another one has claimed the target. -/
def lateMark : List JournalCall :=
  [.claim "a" "cli" "backup" "lake" "t", .complete "a" [("accepted", .bool false)],
    .claim "b" "cli" "backup" "lake" "u", .unknown "a"]

/-- Both are active then. -/
theorem late_mark_revives :
    ¬ ∀ n : JournalNetwork Unit, JournalReached plainNaming n → JournalSafe plainNaming n := by
  intro hall
  have hunique := (hall _ (reached_callsInTurn lateMark)).now
  have hheld : ["a", "b"].map (fun name => ((callsInTurn lateMark).shared.files.get name).map
      fun r => (r.state.active, r.action, r.target)) =
      [some (true, "backup", "lake"), some (true, "backup", "lake")] := by decide +kernel
  obtain ⟨ha, hrest⟩ := List.cons.inj hheld
  obtain ⟨r, hr, hra⟩ := Option.map_eq_some_iff.1 ha
  obtain ⟨q, hq, hqa⟩ := Option.map_eq_some_iff.1 (List.cons.inj hrest).1
  obtain ⟨hractive, hraction⟩ := Prod.mk.inj hra
  obtain ⟨hqactive, hqaction⟩ := Prod.mk.inj hqa
  have hsame := Prod.mk.inj (hraction.trans hqaction.symm)
  exact absurd (hunique "a" "b" r q hr hq hractive hqactive hsame.1 hsame.2) (by decide)

end Phlo.Operations
