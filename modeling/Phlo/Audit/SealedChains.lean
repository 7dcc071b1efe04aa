import Phlo.Audit.NumberedRows

/-!
# The chains that appended events make

What `append_event` leaves in the table when nobody else writes to it: under each surface, one chain of
rows for the events filed there.

* `filed_appendAll` — the rows under a surface are `sealRows` of the dictionaries filed under it;
* `rowsLinked_sealRows` — such rows are linked, so `verify_chain` accepts them.
-/

namespace Phlo.Audit

open Phlo.Library
open CanonicalAuditEvent (Fresh ofKwargs)

/-! ### Rows for a list of dictionaries -/

/-- The row `append_event` writes for an event with dictionary `d` at the time `now`. -/
def sealRow (sl : Sealing) (surface : String) (sequenceNumber : ℤ) (previousHash : String)
    (entry : JsonValue × String) : AuditRow :=
  ⟨surface, sequenceNumber, entry.2, previousHash,
    sl.hexdigest (payload sequenceNumber entry.1.dumps previousHash), entry.1⟩

@[simp] theorem sealRow_surface (sl : Sealing) (surface : String) (n : ℤ) (prev : String)
    (entry : JsonValue × String) : (sealRow sl surface n prev entry).surface = surface := rfl

/-- One row after another, each over the hash of the one before it. -/
def sealRows (sl : Sealing) (surface : String) : ℤ → String → List (JsonValue × String) → List AuditRow
  | _, _, [] => []
  | sequenceNumber, previousHash, entry :: entries =>
    let row := sealRow sl surface sequenceNumber previousHash entry
    row :: sealRows sl surface (sequenceNumber + 1) row.recordHash entries

/-- The dictionary of an event filed under `surface`, with the time it is sealed at. -/
def dictUnder (surface : String) (event : CanonicalAuditEvent × String) : Option (JsonValue × String) :=
  match orUnknown event.1.surface, event.1.toDict with
  | .ok name, .ok d => if name = surface then some (d, event.2) else none
  | _, _ => none

def dictsUnder (surface : String) (events : List (CanonicalAuditEvent × String)) : List (JsonValue × String) :=
  events.filterMap (dictUnder surface)

variable {sl : Sealing} {surface : String}

variable {entries : List (JsonValue × String)} {prev : String} {events : List (CanonicalAuditEvent × String)}

variable {n : ℤ}

theorem length_sealRows : (sealRows sl surface n prev entries).length = entries.length := by
  induction entries generalizing n prev with
  | nil => rfl
  | cons entry entries ih => rw [sealRows, List.length_cons, ih, List.length_cons]

def lastHash (prev : String) (rows : List AuditRow) : String := rows.getLast?.elim prev AuditRow.recordHash

theorem lastHash_cons (prev : String) (row : AuditRow) (rows : List AuditRow) :
    lastHash prev (row :: rows) = lastHash row.recordHash rows := by
  rw [lastHash, lastHash, List.getLast?_cons]
  cases rows.getLast? <;> rfl

theorem sealRows_snoc {entry : JsonValue × String} : sealRows sl surface n prev (entries ++ [entry]) =
      sealRows sl surface n prev entries ++
        [sealRow sl surface (n + entries.length) (lastHash prev (sealRows sl surface n prev entries)) entry] := by
  induction entries generalizing n prev with
  | nil => simp [sealRows, lastHash]
  | cons first entries ih =>
    rw [List.cons_append, sealRows, ih, sealRows, lastHash_cons, List.length_cons, List.cons_append]
    have hnumber : n + 1 + (entries.length : ℤ) = n + ((entries.length + 1 : ℕ) : ℤ) := by omega
    rw [hnumber]

theorem numbered_sealRows : Numbered n (sealRows sl surface n prev entries) := by
  induction entries generalizing n prev with
  | nil => trivial
  | cons entry entries ih => exact ⟨rfl, ih⟩

theorem surface_sealRows : ∀ row ∈ sealRows sl surface n prev entries, row.surface = surface := by
  induction entries generalizing n prev with
  | nil =>
    intro row hrow
    cases hrow
  | cons entry entries ih =>
    intro row hrow
    obtain rfl | htail := List.mem_cons.1 hrow
    · rfl
    · exact ih row htail

/-! ### The table of appended events -/

/-- Every surface has the rows of the dictionaries filed under it. -/
def Honest (sl : Sealing) (events : List (CanonicalAuditEvent × String)) (log : AuditLog) : Prop :=
  ∀ surface, log.filed surface = sealRows sl surface 1 GENESIS_HASH (dictsUnder surface events)

theorem appendEvent_eq {log : AuditLog} (h : Honest sl events log) {event : CanonicalAuditEvent} (now : String)
    {name : String} {d : JsonValue} (hname : orUnknown event.surface = .ok name) (hd : event.toDict = .ok d) :
    ∃ log' record, appendEvent sl log event now = .ok (log', record) ∧ log'.rows = log.rows ++
        [sealRow sl name (1 + (dictsUnder name events).length)
          (lastHash GENESIS_HASH (sealRows sl name 1 GENESIS_HASH (dictsUnder name events))) (d, now)] := by
  have hfree : ∀ old ∈ log.rows, ¬(old.surface = name ∧
      old.sequenceNumber = 1 + (dictsUnder name events).length) := by
    intro old hold hsame
    have hfiled : old ∈ log.filed name := List.mem_filter.2 ⟨hold, decide_eq_true hsame.1⟩
    rw [h name] at hfiled
    have hhigh := (numbered_sealRows.lt hfiled).2
    rw [length_sealRows] at hhigh
    omega
  rw [appendEvent, hname, ok_bind, h name, numbered_sealRows.head_sortBy]
  dsimp only
  rw [numbered_sealRows.elim_getLast, length_sealRows, SealedAuditRecord.sealEvent, computeRecordHash, hd]
  simp only [ok_bind]
  rw [AuditLog.insert, dif_pos hfree]
  exact ⟨_, _, rfl, rfl⟩

/-- The step: what one call makes of an honest table. -/
theorem Honest.append {log : AuditLog} (h : Honest sl events log) (event : CanonicalAuditEvent) (now : String) :
    Honest sl (events ++ [(event, now)]) (appendStep sl log (event, now)) := by
  intro surface
  have hsplit : dictsUnder surface (events ++ [(event, now)]) =
      dictsUnder surface events ++ (dictUnder surface (event, now)).toList := by
    rw [dictsUnder, List.filterMap_append]
    cases hone : dictUnder surface (event, now) with
    | none => simp [dictsUnder, hone]
    | some entry => simp [dictsUnder, hone]
  rw [hsplit]
  cases hname : orUnknown event.surface with
  | error e =>
    have hnone : dictUnder surface (event, now) = none := by simp only [dictUnder, hname]
    have hraise : appendEvent sl log event now = .error e := by rw [appendEvent, hname]; rfl
    rw [hnone, appendStep, hraise, Option.toList_none, List.append_nil]
    exact h surface
  | ok name =>
    cases hd : event.toDict with
    | error e =>
      have hnone : dictUnder surface (event, now) = none := by simp only [dictUnder, hname, hd]
      have hraise : appendEvent sl log event now = .error e := by
        rw [appendEvent, hname, ok_bind]
        dsimp only
        rw [SealedAuditRecord.sealEvent, computeRecordHash, hd]
        rfl
      rw [hnone, appendStep, hraise, Option.toList_none, List.append_nil]
      exact h surface
    | ok d =>
      obtain ⟨log', record, happend, hrows⟩ := appendEvent_eq h now hname hd
      rw [appendStep, happend]
      show log'.filed surface = _
      rw [AuditLog.filed, hrows, List.filter_append, ← AuditLog.filed, h surface]
      by_cases hsame : name = surface
      · subst hsame
        have hone : dictUnder name (event, now) = some (d, now) := by
          simp only [dictUnder, hname, hd, if_pos]
        rw [hone, Option.toList_some, sealRows_snoc]
        simp
      · have hnone : dictUnder surface (event, now) = none := by
          simp only [dictUnder, hname, hd, if_neg hsame]
        rw [hnone, Option.toList_none]
        simp [hsame]

theorem honest_appendAll (sl : Sealing) (events : List (CanonicalAuditEvent × String)) :
    Honest sl events (appendAll sl events) := by
  induction events using List.reverseRecOn with
  | nil =>
    intro surface
    rfl
  | append_singleton events event ih =>
    rw [appendAll, List.foldl_append]
    exact ih.append event.1 event.2

theorem filed_appendAll (sl : Sealing) (events : List (CanonicalAuditEvent × String))
    (surface : String) : (appendAll sl events).filed surface =
      sealRows sl surface 1 GENESIS_HASH (dictsUnder surface events) :=
  honest_appendAll sl events surface

theorem stored_appendAll (sl : Sealing) (events : List (CanonicalAuditEvent × String))
    (surface : String) : (appendAll sl events).stored surface =
      sealRows sl surface 1 GENESIS_HASH (dictsUnder surface events) := by
  rw [AuditLog.stored, filed_appendAll, numbered_sealRows.sortBy_eq]

/-! ### Reading the rows back -/

theorem exists_of_mem_dictsUnder {entry : JsonValue × String} (h : entry ∈ dictsUnder surface events) :
    ∃ event : CanonicalAuditEvent, orUnknown event.surface = .ok surface ∧ event.toDict = .ok entry.1 := by
  obtain ⟨event, -, hone⟩ := List.mem_filterMap.1 h
  rw [dictUnder] at hone
  split at hone
  · next name d hname hd =>
    split at hone
    · next hsame =>
      cases hone
      exact ⟨event.1, by rw [hname, hsame], hd⟩
    · cases hone
  · cases hone

theorem decodeEvent_toDict (sl : Sealing) (fr : Fresh) {event : CanonicalAuditEvent} {d : JsonValue}
    (hd : event.toDict = .ok d) :
    ∃ back, decodeEvent sl fr d = .ok back ∧ back.toDict = .ok d ∧ back.surface = event.surface := by
  obtain ⟨roles, hroles, rfl⟩ := CanonicalAuditEvent.toDict_eq_ok.1 hd
  have hdecode : decodeEvent sl fr (.obj (event.members roles)) =
      .ok { event with actorRoles := roles } := CanonicalAuditEvent.ofKwargs_members fr event roles
  refine ⟨_, hdecode, ?_, rfl⟩
  exact CanonicalAuditEvent.toDict_eq_ok.2 ⟨roles, CanonicalAuditEvent.listOf_listOf hroles, rfl⟩

theorem rowsLinked_sealRows (fresh : AuditRow → Fresh)
    (h : ∀ entry ∈ entries, ∃ event : CanonicalAuditEvent, event.toDict = .ok entry.1) :
    RowsLinked sl fresh prev (sealRows sl surface n prev entries) := by
  induction entries generalizing n prev with
  | nil => trivial
  | cons entry entries ih =>
    obtain ⟨event, hd⟩ := h entry List.mem_cons_self
    obtain ⟨back, hdecode, hback, -⟩ :=
      decodeEvent_toDict sl (fresh (sealRow sl surface n prev entry)) hd
    refine ⟨rfl, ⟨_, record_eq_ok.2 ⟨back, hdecode, rfl⟩, ?_⟩, ih fun e he => h e (List.mem_cons_of_mem _ he)⟩
    rw [computeRecordHash, hback]
    rfl

end Phlo.Audit
