import Mathlib.Tactic.NormNum
import Phlo.Audit.StoredValues
import Phlo.Audit.TamperEvidence

/-!
# Chains of events that were appended

An event is hashed as it is in memory and verified as it is read back from its JSONB column.

* `rowsLinked_iff_portable` — rows sealed one over the other are linked exactly if the events survive the
  column.
-/

namespace Phlo.Audit

open Phlo.Library JsonValue
open CanonicalAuditEvent (Fresh ofKwargs)

variable {floats : Floats}

/-! ### Events in memory -/

/-- `CanonicalAuditEvent` with fields of their declared types. -/
structure PythonEvent (floats : Floats) where
  schemaVersion : String
  eventType : String
  eventId : String
  timestamp : String
  surface : String
  actorSubject : String
  actorType : String
  actorRoles : List String
  authenticationSource : String
  action : String
  resourceType : String
  resourceId : String
  decision : String
  reasonCode : String
  policyId : Option String
  explanation : Option String
  requestId : Option String
  correlationId : String
  parentCorrelationId : String
  runId : Option String
  sourceIp : Option String
  targetStateBefore : Option (List (PyKey floats × PyValue floats))
  targetStateAfter : Option (List (PyKey floats × PyValue floats))
  changeReason : Option String
  outcome : String
  attributes : List (PyKey floats × PyValue floats)

def optionalStr : Option String → PyValue floats
  | some s => .str s
  | none => .null

def optionalDict : Option (List (PyKey floats × PyValue floats)) → PyValue floats
  | some fields => .obj fields
  | none => .null

namespace PythonEvent

def members (e : PythonEvent floats) : List (String × PyValue floats) :=
  [("schema_version", .str e.schemaVersion), ("event_type", .str e.eventType), ("event_id", .str e.eventId),
    ("timestamp", .str e.timestamp), ("surface", .str e.surface), ("actor_subject", .str e.actorSubject),
    ("actor_type", .str e.actorType), ("actor_roles", .arr (e.actorRoles.map .str)),
    ("authentication_source", .str e.authenticationSource), ("action", .str e.action),
    ("resource_type", .str e.resourceType), ("resource_id", .str e.resourceId), ("decision", .str e.decision),
    ("reason_code", .str e.reasonCode), ("policy_id", optionalStr e.policyId),
    ("explanation", optionalStr e.explanation), ("request_id", optionalStr e.requestId),
    ("correlation_id", .str e.correlationId), ("parent_correlation_id", .str e.parentCorrelationId),
    ("run_id", optionalStr e.runId), ("source_ip", optionalStr e.sourceIp),
    ("target_state_before", optionalDict e.targetStateBefore),
    ("target_state_after", optionalDict e.targetStateAfter), ("change_reason", optionalStr e.changeReason),
    ("outcome", .str e.outcome), ("attributes", .obj e.attributes)]

def toDict (e : PythonEvent floats) : PyValue floats := .obj (e.members.map fun m => (.str m.1, m.2))

/-- What the column gives back for the event. -/
def stored (e : PythonEvent floats) : JsonValue := e.toDict.jsonb

/-- `surface or "unknown"` -/
def filedUnder (e : PythonEvent floats) : String := if e.surface = "" then "unknown" else e.surface

/-- The states and attributes of the event survive the column. -/
structure Survives (e : PythonEvent floats) : Prop where
  targetStateBefore : (optionalDict e.targetStateBefore).Portable
  targetStateAfter : (optionalDict e.targetStateAfter).Portable
  attributes : (PyValue.obj e.attributes).Portable

end PythonEvent

/-! ### Appending -/

/-- The row of an event whose document is `document`. -/
def eventRow (sl : Sealing) (sequenceNumber : ℤ) (previousHash : String) (e : PythonEvent floats)
    (now : String) (document : JsonValue) : AuditRow :=
  ⟨e.filedUnder, sequenceNumber, now, previousHash,
    sl.hexdigest (payload sequenceNumber (String.ofList document.render) previousHash), e.stored⟩

/-- `append_event` of an event in memory.  The database may refuse a row for what is in it. -/
def appendPython (sl : Sealing) (refuses : AuditRow → Bool) (log : AuditLog) (e : PythonEvent floats)
    (now : String) : Except AuditError AuditLog := do
  let last := (sortBy (fun row => -row.sequenceNumber) (log.filed e.filedUnder)).head?
  let sequenceNumber := last.elim 1 fun row => row.sequenceNumber + 1
  let previousHash := last.elim GENESIS_HASH fun row => row.recordHash
  let document ← e.toDict.text
  let row := eventRow sl sequenceNumber previousHash e now document
  require (refuses row = false) .databaseError
  log.insert row

/-- The table, and the events that were appended, each with its document. -/
structure Appended (floats : Floats) where
  log : AuditLog
  events : List (PythonEvent floats × String × JsonValue)

def Appended.step (sl : Sealing) (refuses : AuditRow → Bool) (s : Appended floats)
    (call : PythonEvent floats × String) : Appended floats :=
  match call.1.toDict.text, appendPython sl refuses s.log call.1 call.2 with
  | .ok document, .ok log => ⟨log, s.events ++ [(call.1, call.2, document)]⟩
  | _, _ => s

/-- The table after calls of any sinks, in the order of their transactions. -/
def runAppends (sl : Sealing) (refuses : AuditRow → Bool) (calls : List (PythonEvent floats × String)) :
    Appended floats :=
  calls.foldl (Appended.step sl refuses) ⟨AuditLog.empty, []⟩

def Appended.under (s : Appended floats) (surface : String) : List (PythonEvent floats × String × JsonValue) :=
  s.events.filter fun entry => entry.1.filedUnder = surface

/-! ### Rows of a chain -/

/-- One row after another, each over the hash of the one before it. -/
def eventRows (sl : Sealing) : ℤ → String → List (PythonEvent floats × String × JsonValue) → List AuditRow
  | _, _, [] => []
  | sequenceNumber, previousHash, entry :: entries =>
    let row := eventRow sl sequenceNumber previousHash entry.1 entry.2.1 entry.2.2
    row :: eventRows sl (sequenceNumber + 1) row.recordHash entries

variable {sl : Sealing} {refuses : AuditRow → Bool}

variable {entries : List (PythonEvent floats × String × JsonValue)} {n : ℤ} {prev : String} {document : JsonValue}
  {e : PythonEvent floats}

theorem length_eventRows : (eventRows sl n prev entries).length = entries.length := by
  induction entries generalizing n prev with
  | nil => rfl
  | cons entry entries ih => rw [eventRows, List.length_cons, ih, List.length_cons]

theorem numbered_eventRows : Numbered n (eventRows sl n prev entries) := by
  induction entries generalizing n prev with
  | nil => trivial
  | cons entry entries ih => exact ⟨rfl, ih⟩

theorem take_eventRows (k : ℕ) : (eventRows sl n prev entries).take k = eventRows sl n prev (entries.take k) := by
  induction entries generalizing n prev k with
  | nil => rw [List.take_nil, eventRows, List.take_nil]
  | cons entry entries ih =>
    cases k with
    | zero => rfl
    | succ k => rw [eventRows, List.take_succ_cons, List.take_succ_cons, eventRows, ih]

theorem eventRows_concat {entry : PythonEvent floats × String × JsonValue} :
    eventRows sl n prev (entries ++ [entry]) = eventRows sl n prev entries ++
      [eventRow sl (n + entries.length) (lastHash prev (eventRows sl n prev entries)) entry.1 entry.2.1
        entry.2.2] := by
  induction entries generalizing n prev with
  | nil => simp [eventRows, lastHash]
  | cons first entries ih =>
    have hnumber : n + 1 + (entries.length : ℤ) = n + ((entries.length + 1 : ℕ) : ℤ) := by omega
    rw [List.cons_append, eventRows, ih, eventRows, lastHash_cons, List.length_cons, List.cons_append, hnumber]

/-- Every surface has the chain of its events, and their documents are the ones that were hashed. -/
structure Faithful (sl : Sealing) (s : Appended floats) : Prop where
  filed : ∀ surface, s.log.filed surface = eventRows sl 1 GENESIS_HASH (s.under surface)
  documents : ∀ entry ∈ s.events, entry.1.toDict.text = .ok entry.2.2

theorem appendPython_eq_ok {s : Appended floats} (h : Faithful sl s) {now : String} {log : AuditLog}
    (hdocument : e.toDict.text = .ok document) (happend : appendPython sl refuses s.log e now = .ok log) :
    log.rows = s.log.rows ++ [eventRow sl (1 + (s.under e.filedUnder).length)
      (lastHash GENESIS_HASH (eventRows sl 1 GENESIS_HASH (s.under e.filedUnder))) e now document] := by
  obtain ⟨document', hdocument', happend⟩ := bind_eq_ok.1 happend
  obtain rfl := Except.ok.inj (hdocument.symm.trans hdocument')
  obtain ⟨_, -, hinsert⟩ := bind_eq_ok.1 happend
  rw [h.filed, numbered_eventRows.head_sortBy, numbered_eventRows.elim_getLast, length_eventRows] at hinsert
  unfold AuditLog.insert at hinsert
  split at hinsert
  · rw [← Except.ok.inj hinsert]
    rfl
  · cases hinsert

theorem Faithful.step {s : Appended floats} (h : Faithful sl s) (call : PythonEvent floats × String) :
    Faithful sl (s.step sl refuses call) := by
  unfold Appended.step
  split
  next document log hdocument happend =>
    have hrows := appendPython_eq_ok h hdocument happend
    constructor
    · intro surface
      show log.filed surface = eventRows sl 1 GENESIS_HASH
        ((s.events ++ [(call.1, call.2, document)]).filter fun entry => entry.1.filedUnder = surface)
      rw [AuditLog.filed, hrows, List.filter_append, List.filter_append]
      show s.log.filed surface ++ _ = eventRows sl 1 GENESIS_HASH (s.under surface ++ _)
      rw [h.filed surface]
      by_cases hsurface : call.1.filedUnder = surface
      · subst hsurface
        have hentry : [(call.1, call.2, document)].filter (fun entry => entry.1.filedUnder = call.1.filedUnder) =
            [(call.1, call.2, document)] := List.filter_eq_self.2 (by simp)
        rw [hentry, eventRows_concat, List.filter_eq_self.2 (by simp [eventRow])]
      · have hentry : [(call.1, call.2, document)].filter (fun entry => entry.1.filedUnder = surface) = [] :=
          List.filter_eq_nil_iff.2 (by simp [hsurface])
        rw [hentry, List.append_nil, List.filter_eq_nil_iff.2 (by simp [eventRow, hsurface]), List.append_nil]
    · intro entry hentry
      obtain hentry | hentry := List.mem_append.1 hentry
      · exact h.documents entry hentry
      · rw [List.mem_singleton.1 hentry]
        exact hdocument
  · exact h

theorem faithful_runAppends (sl : Sealing) (refuses : AuditRow → Bool)
    (calls : List (PythonEvent floats × String)) : Faithful sl (runAppends sl refuses calls) := by
  have hstart : Faithful sl (⟨AuditLog.empty, []⟩ : Appended floats) :=
    ⟨fun _ => rfl, fun _ h => absurd h List.not_mem_nil⟩
  unfold runAppends
  generalize (⟨AuditLog.empty, []⟩ : Appended floats) = s at hstart
  induction calls generalizing s with
  | nil => exact hstart
  | cons call calls ih => exact ih _ (hstart.step call)

/-! ### Reading back -/

theorem jsonbItems_strs (roles : List String) :
    PyValue.jsonbItems (roles.map PyValue.str : List (PyValue floats)) = roles.map JsonValue.str := by
  induction roles with
  | nil => simp [PyValue.jsonbItems]
  | cons role roles ih => rw [List.map_cons, PyValue.jsonbItems, ih, PyValue.jsonb, List.map_cons]

theorem jsonbFields_strs (members : List (String × PyValue floats)) :
    PyValue.jsonbFields (members.map fun m => (PyKey.str m.1, m.2)) = members.map fun m => (m.1, m.2.jsonb) := by
  induction members with
  | nil => simp [PyValue.jsonbFields]
  | cons m members ih =>
    rw [List.map_cons, PyValue.jsonbFields, ih, List.map_cons]
    rfl

theorem nodup_fieldNames : CanonicalAuditEvent.fieldNames.Nodup := by decide

def PythonEvent.readBack (e : PythonEvent floats) : CanonicalAuditEvent where
  schemaVersion := .str e.schemaVersion
  eventType := .str e.eventType
  eventId := .str e.eventId
  timestamp := .str e.timestamp
  surface := .str e.surface
  actorSubject := .str e.actorSubject
  actorType := .str e.actorType
  actorRoles := .arr (e.actorRoles.map .str)
  authenticationSource := .str e.authenticationSource
  action := .str e.action
  resourceType := .str e.resourceType
  resourceId := .str e.resourceId
  decision := .str e.decision
  reasonCode := .str e.reasonCode
  policyId := (optionalStr e.policyId : PyValue floats).jsonb
  explanation := (optionalStr e.explanation : PyValue floats).jsonb
  requestId := (optionalStr e.requestId : PyValue floats).jsonb
  correlationId := .str e.correlationId
  parentCorrelationId := .str e.parentCorrelationId
  runId := (optionalStr e.runId : PyValue floats).jsonb
  sourceIp := (optionalStr e.sourceIp : PyValue floats).jsonb
  targetStateBefore := (optionalDict e.targetStateBefore).jsonb
  targetStateAfter := (optionalDict e.targetStateAfter).jsonb
  changeReason := (optionalStr e.changeReason : PyValue floats).jsonb
  outcome := .str e.outcome
  attributes := (PyValue.obj e.attributes).jsonb

theorem stored_eq (e : PythonEvent floats) : e.stored = .obj (e.readBack.members e.readBack.actorRoles) := by
  have hnodup : ((e.members.map fun m => (m.1, m.2.jsonb)).map Prod.fst).Nodup := by
    rw [List.map_map]
    exact nodup_fieldNames
  have hitems := congrArg OrderedDict.items (OrderedDict.ofList_items ⟨e.members.map fun m => (m.1, m.2.jsonb), hnodup⟩)
  show PyValue.jsonb (.obj (e.members.map fun m => (.str m.1, m.2))) = _
  rw [PyValue.jsonb, jsonbFields_strs, hitems]
  show JsonValue.obj (e.members.map fun m => (m.1, m.2.jsonb)) = _
  simp [PythonEvent.members, PythonEvent.readBack, CanonicalAuditEvent.members, PyValue.jsonb, jsonbItems_strs]

theorem decode_stored (sl : Sealing) (fr : Fresh) (e : PythonEvent floats) :
    ∃ back, decodeEvent sl fr e.stored = .ok back ∧ back.toDict = .ok e.stored := by
  have hroles : listOf e.readBack.actorRoles = .ok e.readBack.actorRoles := rfl
  have hdict : e.readBack.toDict = .ok e.stored :=
    CanonicalAuditEvent.toDict_eq_ok.2 ⟨_, hroles, stored_eq e⟩
  obtain ⟨back, hdecode, hback, -⟩ := decodeEvent_toDict sl fr hdict
  exact ⟨back, hdecode, hback⟩

/-! ### Which events survive -/

theorem portableFields_iff {fields : List (PyKey floats × PyValue floats)} :
    PyValue.PortableFields fields ↔ ∀ field ∈ fields, field.2.Portable := by
  induction fields with
  | nil => simp [PyValue.PortableFields]
  | cons field fields ih =>
    obtain ⟨key, value⟩ := field
    rw [PyValue.PortableFields, ih, List.forall_mem_cons]

theorem portable_strs (roles : List String) : (PyValue.arr (roles.map .str) : PyValue floats).Portable := by
  rw [PyValue.Portable]
  induction roles with
  | nil => simp [PyValue.PortableItems]
  | cons role roles ih =>
    rw [List.map_cons, PyValue.PortableItems]
    exact ⟨by simp [PyValue.Portable], ih⟩

theorem portable_optionalStr (s : Option String) : (optionalStr s : PyValue floats).Portable := by
  cases s <;> simp [optionalStr, PyValue.Portable]

/-- The members of an event other than its states and attributes are texts, so nothing happens to them. -/
theorem portable_toDict_iff (e : PythonEvent floats) : e.toDict.Portable ↔ e.Survives := by
  have hkeys : (e.members.map fun m => (PyKey.str m.1, m.2)).map Prod.fst =
      CanonicalAuditEvent.fieldNames.map (PyKey.str : String → PyKey floats) := rfl
  have hincrease : PyValue.KeysIncrease
      ((e.members.map fun m => (PyKey.str m.1, m.2)).map (Prod.fst : PyKey floats × PyValue floats → _)) := by
    rw [hkeys]
    refine keysIncrease_of_str (List.all_eq_true.2 fun key hkey => ?_) ?_
    · obtain ⟨name, -, rfl⟩ := List.mem_map.1 hkey
      rfl
    · rw [List.map_map]
      exact nodup_fieldNames
  have hstr : ∀ s : String, (PyValue.str s : PyValue floats).Portable := fun s => by simp [PyValue.Portable]
  rw [PythonEvent.toDict, PyValue.Portable, portableFields_iff]
  constructor
  · rintro ⟨-, h⟩
    exact ⟨h (.str "target_state_before", optionalDict e.targetStateBefore) (by simp [PythonEvent.members]),
      h (.str "target_state_after", optionalDict e.targetStateAfter) (by simp [PythonEvent.members]),
      h (.str "attributes", _) (by simp [PythonEvent.members])⟩
  · intro h
    refine ⟨hincrease, ?_⟩
    have hroles : (PyValue.arr (e.actorRoles.map .str) : PyValue floats).Portable := portable_strs e.actorRoles
    simp only [PythonEvent.members, List.map_cons, List.map_nil, List.forall_mem_cons, hstr, hroles,
      portable_optionalStr, h.targetStateBefore, h.targetStateAfter, h.attributes, List.not_mem_nil,
      IsEmpty.forall_iff, implies_true, and_self]

/-! ### Which chains verify -/

/-- The text that was hashed for an event, and the text its row is verified with, have different hashes
unless they are the same. -/
def NoCollision (sl : Sealing) (entries : List (PythonEvent floats × String × JsonValue))
    (rows : List AuditRow) : Prop :=
  ∀ entry ∈ entries, ∀ row ∈ rows,
    sl.hexdigest (payload row.sequenceNumber (String.ofList entry.2.2.render) row.previousHash) =
      sl.hexdigest (payload row.sequenceNumber entry.1.stored.dumps row.previousHash) →
    String.ofList entry.2.2.render = entry.1.stored.dumps

theorem NoCollision.mono {entries' : List (PythonEvent floats × String × JsonValue)} {rows rows' : List AuditRow}
    (h : NoCollision sl entries rows) (hentries : entries' ⊆ entries) (hrows : rows' ⊆ rows) :
    NoCollision sl entries' rows' :=
  fun entry hentry row hrow => h entry (hentries hentry) row (hrows hrow)

/-- The text of an event as it is read back is the one of the event in memory exactly if it survives. -/
theorem text_stored_iff (h : e.toDict.text = .ok document) :
    String.ofList document.render = e.stored.dumps ↔ e.Survives := by
  rw [← portable_toDict_iff, ← PyValue.sortKeys_jsonb h]
  constructor
  · intro htext
    exact (JsonValue.render_injective (String.ofList_injective htext)).symm
  · intro hsort
    rw [← hsort]
    rfl

theorem eventRow_hash_iff (fr : Fresh) {now : String} (h : e.toDict.text = .ok document)
    (hcollision : NoCollision sl [(e, now, document)] [eventRow sl n prev e now document]) :
    (∃ record, (eventRow sl n prev e now document).record sl fr = .ok record ∧
      computeRecordHash sl record.event record.sequenceNumber record.previousHash = .ok record.recordHash) ↔
      e.Survives := by
  obtain ⟨back, hdecode, hback⟩ := decode_stored sl fr e
  have hhash : computeRecordHash sl back n prev = .ok (sl.hexdigest (payload n e.stored.dumps prev)) := by
    rw [computeRecordHash, hback]
    rfl
  rw [← text_stored_iff h]
  constructor
  · rintro ⟨record, hrecord, hrehash⟩
    obtain ⟨event, hevent, rfl⟩ := record_eq_ok.1 hrecord
    obtain rfl := Except.ok.inj (hdecode.symm.trans hevent)
    have hsame := Except.ok.inj (hhash.symm.trans hrehash)
    exact hcollision _ (List.mem_singleton_self _) _ (List.mem_singleton_self _) hsame.symm
  · intro htext
    refine ⟨_, record_eq_ok.2 ⟨back, hdecode, rfl⟩, ?_⟩
    show computeRecordHash sl back n prev = .ok (sl.hexdigest (payload n (String.ofList document.render) prev))
    rw [hhash, htext]

theorem rowsLinked_iff_portable (fresh : AuditRow → Fresh)
    (hdocuments : ∀ entry ∈ entries, entry.1.toDict.text = .ok entry.2.2)
    (hcollision : NoCollision sl entries (eventRows sl n prev entries)) :
    RowsLinked sl fresh prev (eventRows sl n prev entries) ↔ ∀ entry ∈ entries, entry.1.Survives := by
  induction entries generalizing n prev with
  | nil =>
    constructor
    · intro _ entry hentry
      cases hentry
    · intro _
      trivial
  | cons entry entries ih =>
    have hhead := eventRow_hash_iff (fresh (eventRow sl n prev entry.1 entry.2.1 entry.2.2))
      (hdocuments entry List.mem_cons_self)
      (hcollision.mono (List.cons_subset.2 ⟨List.mem_cons_self, List.nil_subset _⟩)
        (List.cons_subset.2 ⟨List.mem_cons_self, List.nil_subset _⟩))
    have htail := ih (fun e he => hdocuments e (List.mem_cons_of_mem _ he))
      (hcollision.mono (List.subset_cons_self _ _) (List.subset_cons_self _ _))
    rw [List.forall_mem_cons, ← hhead, ← htail]
    constructor
    · rintro ⟨-, hrecord, hrows⟩
      exact ⟨hrecord, hrows⟩
    · rintro ⟨hrecord, hrows⟩
      exact ⟨rfl, hrecord, hrows⟩

/-- After any appends a surface verifies, with one record for each of its events, exactly if they survive
the column and are at most as many as one call reads. -/
theorem honest_chain_verifies_iff (sl : Sealing) (refuses : AuditRow → Bool) (fresh : AuditRow → Fresh)
    (calls : List (PythonEvent floats × String)) (surface : String)
    (hcollision : NoCollision sl (runAppends sl refuses calls).events (runAppends sl refuses calls).log.rows) :
    (∃ r, verifyChain sl fresh (runAppends sl refuses calls).log surface = .ok r ∧ r.valid = true ∧
      r.totalRecords = ((runAppends sl refuses calls).under surface).length) ↔
      ((runAppends sl refuses calls).under surface).length ≤ VERIFY_LIMIT ∧
        ∀ entry ∈ (runAppends sl refuses calls).under surface, entry.1.Survives := by
  have hfaithful := faithful_runAppends sl refuses calls
  generalize runAppends sl refuses calls = s at hcollision hfaithful
  have hunder : s.under surface ⊆ s.events := fun entry hentry => (List.mem_filter.1 hentry).1
  have hrows : eventRows sl 1 GENESIS_HASH (s.under surface) ⊆ s.log.rows := by
    rw [← hfaithful.filed surface]
    exact fun row hrow => (List.mem_filter.1 hrow).1
  have hlinked := rowsLinked_iff_portable fresh (fun entry hentry => hfaithful.documents entry (hunder hentry))
    (hcollision.mono hunder hrows)
  have hstored : s.log.stored surface = eventRows sl 1 GENESIS_HASH (s.under surface) := by
    rw [AuditLog.stored, hfaithful.filed surface, numbered_eventRows.sortBy_eq]
  constructor
  · rintro ⟨r, hverify, hvalid, htotal⟩
    obtain ⟨hread, rfl⟩ := verifyChain_valid_iff.1 ⟨hverify, hvalid⟩
    have hlength : (s.under surface).length ≤ VERIFY_LIMIT := by
      have hmin : ((s.log.stored surface).take VERIFY_LIMIT).length = (s.under surface).length := htotal
      rw [List.length_take, hstored, length_eventRows] at hmin
      omega
    rw [hstored, List.take_of_length_le (by rw [length_eventRows]; exact hlength)] at hread
    exact ⟨hlength, hlinked.1 hread⟩
  · rintro ⟨hlength, hsurvive⟩
    have htake : (s.log.stored surface).take VERIFY_LIMIT = eventRows sl 1 GENESIS_HASH (s.under surface) := by
      rw [hstored, List.take_of_length_le (by rw [length_eventRows]; exact hlength)]
    have hread : RowsLinked sl fresh GENESIS_HASH ((s.log.stored surface).take VERIFY_LIMIT) := by
      rw [htake]
      exact hlinked.2 hsurvive
    refine ⟨_, (verifyChain_valid_iff.2 ⟨hread, rfl⟩).1, rfl, ?_⟩
    show ((s.log.stored surface).take VERIFY_LIMIT).length = _
    rw [htake, length_eventRows]

/-! ### A chain with a whole float -/

def wholeText : FloatText := ⟨['1', 'e', '+', '1', '6'], by simp [isNumeral], 'e', by decide, .inr rfl⟩

def halvesText : FloatText := ⟨['2', '.', '5'], by simp [isNumeral], '.', by decide, .inl rfl⟩

def threeFloats : Floats where
  nearest q := if q = 0 then zeroText else if q < 3 then halvesText else wholeText
  exact text := if text = zeroText then 0 else if text = halvesText then 5 / 2 else 10 ^ 16
  nearest_zero := if_pos rfl

def wholeFloat : PyFloat threeFloats where
  text := wholeText
  readBack := by
    left
    have hvalue : (decimalOf wholeText).value = 10 ^ 16 := by
      simp [Decimal.value, decimalOf, wholeText, digitsValue, exponentValue]
    rw [hvalue]
    norm_num [threeFloats]

def halvesFloat : PyFloat threeFloats where
  text := halvesText
  readBack := by
    left
    have hvalue : (decimalOf halvesText).value = 5 / 2 := by
      simp [Decimal.value, decimalOf, halvesText, digitsValue, exponentValue]
      norm_num
    rw [hvalue]
    norm_num [threeFloats]

def runEnded (key : String) (x : PyFloat threeFloats) : PythonEvent threeFloats where
  schemaVersion := AUDIT_SCHEMA_VERSION
  eventType := "authorization"
  eventId := "5d20"
  timestamp := "2026-01-05T09:00:00+00:00"
  surface := "dagster"
  actorSubject := "ada"
  actorType := "user"
  actorRoles := ["analyst"]
  authenticationSource := "proxy"
  action := "run"
  resourceType := "asset"
  resourceId := "orders"
  decision := "allow"
  reasonCode := ""
  policyId := none
  explanation := none
  requestId := none
  correlationId := ""
  parentCorrelationId := ""
  runId := some "r1"
  sourceIp := none
  targetStateBefore := none
  targetStateAfter := none
  changeReason := none
  outcome := "success"
  attributes := [(.str key, .float x)]

def noRefusal : AuditRow → Bool := fun _ => false

/-- The table after one such event. -/
def oneRun (sl : Sealing) (key : String) (x : PyFloat threeFloats) : Appended threeFloats :=
  runAppends sl noRefusal [(runEnded key x, "2026-01-05T09:00:01+00:00")]

theorem oneRun_eq (sl : Sealing) {key : String} {x : PyFloat threeFloats}
    (h : (runEnded key x).toDict.text = .ok document) :
    (oneRun sl key x).events = [(runEnded key x, "2026-01-05T09:00:01+00:00", document)] ∧
      (oneRun sl key x).log.rows =
        [eventRow sl 1 GENESIS_HASH (runEnded key x) "2026-01-05T09:00:01+00:00" document] := by
  have happend : appendPython sl noRefusal AuditLog.empty (runEnded key x) "2026-01-05T09:00:01+00:00" =
      .ok ⟨[eventRow sl 1 GENESIS_HASH (runEnded key x) "2026-01-05T09:00:01+00:00" document],
        List.pairwise_singleton _ _⟩ := by
    unfold appendPython
    rw [h]
    rfl
  unfold oneRun runAppends
  rw [List.foldl_cons, List.foldl_nil]
  unfold Appended.step
  dsimp only
  rw [h, happend]
  exact ⟨rfl, rfl⟩

theorem survives_runEnded_iff {key : String} {x : PyFloat threeFloats} :
    (runEnded key x).Survives ↔ PyValue.PortableFloat x := by
  have hkeys : PyValue.KeysIncrease [(PyKey.str key : PyKey threeFloats)] :=
    keysIncrease_of_str rfl (List.nodup_singleton _)
  constructor
  · intro h
    have hattributes := h.attributes
    rw [runEnded, PyValue.Portable, portableFields_iff] at hattributes
    have hx := hattributes.2 (.str key, .float x) (List.mem_singleton_self _)
    rwa [PyValue.Portable] at hx
  · intro h
    refine ⟨by simp [runEnded, optionalDict, PyValue.Portable],
      by simp [runEnded, optionalDict, PyValue.Portable], ?_⟩
    rw [runEnded, PyValue.Portable, portableFields_iff]
    refine ⟨hkeys, fun field hfield => ?_⟩
    rw [List.mem_singleton.1 hfield, PyValue.Portable]
    exact h

/-- A digest that tells one text from every other. -/
def telling (known : String) : Sealing where
  hexdigest text := String.ofList (List.replicate 64 (if text = known then '1' else '2'))
  length_hexdigest text := by rw [String.toList_ofList, List.length_replicate]
  loads _ := .error .jsonDecodeError

theorem telling_eq {known text : String} (h : (telling known).hexdigest text = (telling known).hexdigest known) :
    text = known := by
  by_contra hne
  have hdigits := String.ofList_injective h
  rw [if_neg hne, if_pos rfl] at hdigits
  exact absurd (List.head_eq_of_cons_eq hdigits) (by decide)

def verifiedText (e : PythonEvent threeFloats) : String := payload 1 e.stored.dumps GENESIS_HASH

/-- The digest tells the text that was hashed from the one the row is verified with; still the one event
of the log, that nobody has touched, does not verify. -/
theorem whole_float_breaks_chain :
    let run := oneRun (telling (verifiedText (runEnded "rows" wholeFloat))) "rows" wholeFloat
    NoCollision (telling (verifiedText (runEnded "rows" wholeFloat))) run.events run.log.rows ∧
      (run.under "dagster").length = 1 ∧
      ¬∃ r, verifyChain (telling (verifiedText (runEnded "rows" wholeFloat))) noFresh run.log "dagster" = .ok r ∧
        r.valid = true := by
  intro run
  have htext : (runEnded "rows" wholeFloat).toDict.text.toOption.isSome = true := by decide +kernel
  cases hdocument : (runEnded "rows" wholeFloat).toDict.text with
  | error e =>
    rw [hdocument] at htext
    cases htext
  | ok document =>
    obtain ⟨hevents, hrows⟩ := oneRun_eq (telling (verifiedText (runEnded "rows" wholeFloat))) hdocument
    have hcollision : NoCollision (telling (verifiedText (runEnded "rows" wholeFloat))) run.events run.log.rows := by
      intro entry hentry row hrow hhash
      rw [hevents] at hentry
      rw [hrows] at hrow
      obtain rfl := List.mem_singleton.1 hentry
      obtain rfl := List.mem_singleton.1 hrow
      exact (payload_injective rfl (telling_eq hhash)).2.1
    have hunder : run.under "dagster" =
        [(runEnded "rows" wholeFloat, "2026-01-05T09:00:01+00:00", document)] := by
      rw [Appended.under, hevents]
      rfl
    refine ⟨hcollision, by rw [hunder]; rfl, ?_⟩
    rintro ⟨r, hr⟩
    have hlinked := (verifyChain_valid_iff.1 hr).1
    have hstored : run.log.stored "dagster" =
        eventRows (telling (verifiedText (runEnded "rows" wholeFloat))) 1 GENESIS_HASH run.events := by
      rw [AuditLog.stored, AuditLog.filed, hrows, hevents]
      rfl
    have hshort : run.events.length ≤ VERIFY_LIMIT := by
      rw [hevents]
      exact Nat.succ_le_of_lt (by decide)
    rw [hstored, take_eventRows, List.take_of_length_le hshort, hevents] at hlinked
    rw [hevents, hrows] at hcollision
    have hsurvive := (rowsLinked_iff_portable noFresh (by simpa using hdocument) hcollision).1 hlinked _
      (List.mem_singleton_self _)
    have hportable := survives_runEnded_iff.1 hsurvive
    exact absurd hportable.1 (by decide)

theorem honest_chain_verifies_halves :
    ∃ r, verifyChain standIn noFresh (oneRun standIn "seconds" halvesFloat).log "dagster" = .ok r ∧
      r.valid = true ∧ r.totalRecords = 1 := by
  have htext : (runEnded "seconds" halvesFloat).toDict.text.toOption.isSome = true := by decide +kernel
  cases hdocument : (runEnded "seconds" halvesFloat).toDict.text with
  | error e =>
    rw [hdocument] at htext
    cases htext
  | ok document =>
    obtain ⟨hevents, hrows⟩ := oneRun_eq standIn hdocument
    have hsurvive : (runEnded "seconds" halvesFloat).Survives :=
      survives_runEnded_iff.2 ⟨by decide, by decide⟩
    have hunder : (oneRun standIn "seconds" halvesFloat).under "dagster" =
        [(runEnded "seconds" halvesFloat, "2026-01-05T09:00:01+00:00", document)] := by
      rw [Appended.under, hevents]
      rfl
    have hverify := (honest_chain_verifies_iff standIn noRefusal noFresh
      [(runEnded "seconds" halvesFloat, "2026-01-05T09:00:01+00:00")] "dagster" (by
        intro entry hentry row _ _
        rw [show (runAppends standIn noRefusal _).events = _ from hevents] at hentry
        rw [List.mem_singleton.1 hentry]
        exact (text_stored_iff hdocument).2 hsurvive)).2 (by
        rw [show (runAppends standIn noRefusal _).under "dagster" = _ from hunder]
        refine ⟨Nat.succ_le_of_lt (Nat.succ_pos _), fun entry hentry => ?_⟩
        rw [List.mem_singleton.1 hentry]
        exact hsurvive)
    rw [show (runAppends standIn noRefusal _).under "dagster" = _ from hunder] at hverify
    exact hverify

end Phlo.Audit
