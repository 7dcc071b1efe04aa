import Phlo.Audit.Events

/-!
# Sealing and storing audit events

`computeRecordHash` and `SealedAuditRecord` of the sealing module, and the Postgres store:
`appendEvent`, `query` and `verifyChain` over the rows of `compliance_audit_log`.  The HMAC under the
key in use, the JSON reader and the default factories of events come from a `Sealing`.
-/

namespace Phlo.Audit

open Phlo.Library
open CanonicalAuditEvent (Fresh ofKwargs)

/-- `"0" * 64` -/
def GENESIS_HASH : String := String.ofList (List.replicate 64 '0')

/-- `hexdigest` is HMAC-SHA256 under the key in use; `loads` reads a JSON text. -/
structure Sealing where
  hexdigest : String → String
  length_hexdigest : ∀ payload, (hexdigest payload).toList.length = 64
  loads : String → Except AuditError JsonValue

/-! ### Sealed records -/

/-- `f"{sequence_number}:{text}:{previous_hash}"` -/
def payload (sequenceNumber : ℤ) (text previousHash : String) : String :=
  sequenceNumber.repr ++ ":" ++ text ++ ":" ++ previousHash

def computeRecordHash (sl : Sealing) (event : CanonicalAuditEvent) (sequenceNumber : ℤ)
    (previousHash : String) : Except AuditError String := do
  let eventDict ← event.toDict
  .ok (sl.hexdigest (payload sequenceNumber eventDict.dumps previousHash))

structure SealedAuditRecord where
  sequenceNumber : ℤ
  event : CanonicalAuditEvent
  previousHash : String
  recordHash : String
  sealedAt : String

/-- `seal` -/
def SealedAuditRecord.sealEvent (sl : Sealing) (event : CanonicalAuditEvent) (sequenceNumber : ℤ)
    (previousHash now : String) : Except AuditError SealedAuditRecord := do
  let recordHash ← computeRecordHash sl event sequenceNumber previousHash
  .ok ⟨sequenceNumber, event, previousHash, recordHash, now⟩

/-! ### The table -/

/-- A row of `compliance_audit_log`. -/
structure AuditRow where
  surface : String
  sequenceNumber : ℤ
  sealedAt : String
  previousHash : String
  recordHash : String
  eventData : JsonValue

/-- The rows in the order they were inserted; a surface has one row for a sequence number. -/
structure AuditLog where
  rows : List AuditRow
  unique : rows.Pairwise fun a b => ¬(a.surface = b.surface ∧ a.sequenceNumber = b.sequenceNumber)

namespace AuditLog

def empty : AuditLog := ⟨[], List.Pairwise.nil⟩

/-- `WHERE surface = %s` -/
def filed (log : AuditLog) (surface : String) : List AuditRow :=
  log.rows.filter fun row => row.surface = surface

/-- `ORDER BY sequence_number ASC` -/
def stored (log : AuditLog) (surface : String) : List AuditRow :=
  sortBy AuditRow.sequenceNumber (log.filed surface)

/-- `INSERT`, refused when the surface has a row for the sequence number. -/
def insert (log : AuditLog) (row : AuditRow) : Except AuditError AuditLog :=
  if h : ∀ old ∈ log.rows, ¬(old.surface = row.surface ∧ old.sequenceNumber = row.sequenceNumber) then
    .ok ⟨log.rows ++ [row], List.pairwise_append.2
      ⟨log.unique, List.pairwise_singleton _ row, fun old hold new hnew => by
        rw [List.mem_singleton.1 hnew]
        exact h old hold⟩⟩
  else .error .databaseError

end AuditLog

/-- `PostgresAuditStore.append_event`; a transaction that raises leaves the table as it was. -/
def appendEvent (sl : Sealing) (log : AuditLog) (event : CanonicalAuditEvent) (now : String) :
    Except AuditError (AuditLog × SealedAuditRecord) := do
  let surface ← orUnknown event.surface
  let last := (sortBy (fun row => -row.sequenceNumber) (log.filed surface)).head?
  let sequenceNumber := last.elim 1 fun row => row.sequenceNumber + 1
  let previousHash := last.elim GENESIS_HASH fun row => row.recordHash
  let record ← SealedAuditRecord.sealEvent sl event sequenceNumber previousHash now
  let eventData ← event.toDict
  let log ← log.insert
    ⟨surface, record.sequenceNumber, record.sealedAt, record.previousHash, record.recordHash, eventData⟩
  .ok (log, record)

/-- The table after a call for an event at a time; one that raises leaves no row. -/
def appendStep (sl : Sealing) (log : AuditLog) (event : CanonicalAuditEvent × String) : AuditLog :=
  match appendEvent sl log event.1 event.2 with
  | .ok (log, _) => log
  | .error _ => log

/-- The table after events have been appended one after another. -/
def appendAll (sl : Sealing) (events : List (CanonicalAuditEvent × String)) : AuditLog :=
  events.foldl (appendStep sl) AuditLog.empty

/-! ### Reading -/

/-- `_decode_event_data` -/
def decodeEventData (sl : Sealing) : JsonValue → Except AuditError JsonValue
  | .obj fields => .ok (.obj fields)
  | .str text => sl.loads text
  | v => .error (.typeError ("the JSON object must be str, bytes or bytearray, not " ++ typeName v))

/-- `CanonicalAuditEvent(**_decode_event_data(data))` -/
def decodeEvent (sl : Sealing) (fresh : Fresh) (data : JsonValue) : Except AuditError CanonicalAuditEvent := do
  match ← decodeEventData sl data with
  | .obj kwargs => ofKwargs fresh kwargs
  | v =>
    .error (.typeError ("phlo.audit.events.CanonicalAuditEvent() argument after ** must be a " ++
      "mapping, not " ++ typeName v))

def AuditRow.record (sl : Sealing) (fresh : Fresh) (row : AuditRow) : Except AuditError SealedAuditRecord := do
  let event ← decodeEvent sl fresh row.eventData
  .ok ⟨row.sequenceNumber, event, row.previousHash, row.recordHash, row.sealedAt⟩

/-- `PostgresAuditStore.query` -/
def query (sl : Sealing) (fresh : AuditRow → Fresh) (log : AuditLog) (surface : String)
    (after before : Option ℤ) (limit : ℕ) : Except AuditError (List SealedAuditRecord) :=
  let rows := (log.filed surface).filter fun row =>
    (after.all fun bound => decide (bound < row.sequenceNumber)) &&
      before.all fun bound => decide (row.sequenceNumber < bound)
  ((sortBy AuditRow.sequenceNumber rows).take limit).mapM fun row => row.record sl (fresh row)

structure ChainVerificationResult where
  valid : Bool
  surface : String
  totalRecords : ℕ
  firstInvalidSequence : Option ℤ := none
  errorMessage : Option String := none
  verifiedHashes : List String := []
  deriving DecidableEq

/-- The loop of `verify_chain`; `none` when it runs to its end. -/
def verifyRecords (sl : Sealing) (surface : String) (total : ℕ) :
    String → List SealedAuditRecord → Except AuditError (Option ChainVerificationResult)
  | _, [] => .ok none
  | expectedPrev, record :: records =>
    if record.previousHash ≠ expectedPrev then
      .ok (some
        { valid := false, surface, totalRecords := total
          firstInvalidSequence := some record.sequenceNumber
          errorMessage := some ("Previous hash mismatch at sequence " ++ record.sequenceNumber.repr) })
    else do
      let expectedHash ← computeRecordHash sl record.event record.sequenceNumber record.previousHash
      if record.recordHash ≠ expectedHash then
        .ok (some
          { valid := false, surface, totalRecords := total
            firstInvalidSequence := some record.sequenceNumber
            errorMessage := some ("Record hash mismatch at sequence " ++ record.sequenceNumber.repr) })
      else verifyRecords sl surface total record.recordHash records

/-- The bound on the rows `verify_chain` asks for. -/
def VERIFY_LIMIT : ℕ := 100000

/-- `PostgresAuditStore.verify_chain` -/
def verifyChain (sl : Sealing) (fresh : AuditRow → Fresh) (log : AuditLog) (surface : String) :
    Except AuditError ChainVerificationResult := do
  let records ← query sl fresh log surface none none VERIFY_LIMIT
  if records.isEmpty then
    .ok { valid := true, surface, totalRecords := 0 }
  else
    match ← verifyRecords sl surface records.length GENESIS_HASH records with
    | some failed => .ok failed
    | none =>
      .ok
        { valid := true, surface, totalRecords := records.length
          verifiedHashes := records.map SealedAuditRecord.recordHash }

/-! ### What the hashed text spells -/

/-- The colon after the number and the fixed length of the previous hash leave one way to read a
payload. -/
theorem payload_injective {n n' : ℤ} {text text' prev prev' : String}
    (hlen : prev.toList.length = prev'.toList.length)
    (h : payload n text prev = payload n' text' prev') : n = n' ∧ text = text' ∧ prev = prev' := by
  have hchars : (n.repr.toList ++ ':' :: text.toList) ++ ':' :: prev.toList =
      (n'.repr.toList ++ ':' :: text'.toList) ++ ':' :: prev'.toList := by
    have htoList := congrArg String.toList h
    simpa [payload] using htoList
  have hcolon : ∀ (m : ℤ) (l : List Char),
      (m.repr.toList ++ ':' :: l).takeWhile (fun c => c ≠ ':') = m.repr.toList := by
    intro m l
    have hne : ∀ c ∈ m.repr.toList, decide (c ≠ ':') = true := by
      intro c hc
      obtain hdigit | rfl := JsonValue.numeral_of_mem_repr hc
      · exact decide_eq_true fun heq => by cases heq ▸ hdigit
      · rfl
    rw [List.takeWhile_append_of_pos hne]
    simp
  obtain ⟨hfront, hback⟩ := List.append_inj' hchars (by simp [hlen])
  have hnumber : n.repr.toList = n'.repr.toList := by
    rw [← hcolon n text.toList, hfront, hcolon]
  obtain rfl := JsonValue.repr_toList_injective hnumber
  have htext : text.toList = text'.toList := List.tail_eq_of_cons_eq (List.append_cancel_left hfront)
  exact ⟨rfl, String.toList_inj.1 htext, String.toList_inj.1 (List.tail_eq_of_cons_eq hback)⟩

/-! ### What `verify_chain` accepts -/

def RowsLinked (sl : Sealing) (fresh : AuditRow → Fresh) : String → List AuditRow → Prop
  | _, [] => True
  | expectedPrev, row :: rows =>
    row.previousHash = expectedPrev ∧
      (∃ record, row.record sl (fresh row) = .ok record ∧
        computeRecordHash sl record.event record.sequenceNumber record.previousHash =
          .ok record.recordHash) ∧
      RowsLinked sl fresh row.recordHash rows

variable {sl : Sealing} {fresh : AuditRow → Fresh} {log : AuditLog} {surface : String}

theorem record_eq_ok {fr : Fresh} {row : AuditRow} {record : SealedAuditRecord} : row.record sl fr = .ok record ↔
      ∃ event, decodeEvent sl fr row.eventData = .ok event ∧
        record = ⟨row.sequenceNumber, event, row.previousHash, row.recordHash, row.sealedAt⟩ := by
  rw [AuditRow.record, bind_eq_ok]
  constructor
  · intro h
    obtain ⟨event, hevent, heq⟩ := h
    cases heq
    exact ⟨event, hevent, rfl⟩
  · intro h
    obtain ⟨event, hevent, rfl⟩ := h
    exact ⟨event, hevent, rfl⟩

theorem query_all (limit : ℕ) : query sl fresh log surface none none limit =
      ((log.stored surface).take limit).mapM fun row => row.record sl (fresh row) := by
  simp [query, AuditLog.stored]

/-- The rows are read back and the loop runs to its end exactly when they are linked. -/
theorem rowsLinked_iff (total : ℕ) : ∀ {rows : List AuditRow} {prev : String},
    RowsLinked sl fresh prev rows ↔
      ∃ records, rows.mapM (fun row => row.record sl (fresh row)) = .ok records ∧
        verifyRecords sl surface total prev records = .ok none
  | [], prev => by
    constructor
    · intro _
      exact ⟨[], rfl, rfl⟩
    · intro _
      trivial
  | row :: rows, prev => by
    constructor
    · intro h
      obtain ⟨hprev, ⟨record, hrecord, hhash⟩, htail⟩ := h
      obtain ⟨records, hrecords, hloop⟩ := (rowsLinked_iff total).1 htail
      refine ⟨record :: records, ?_, ?_⟩
      · rw [List.mapM_cons, hrecord, ok_bind, hrecords]
        rfl
      · obtain ⟨event, -, rfl⟩ := record_eq_ok.1 hrecord
        rw [verifyRecords, if_neg (by simpa using hprev), hhash, ok_bind, if_neg (by simp)]
        exact hloop
    · intro h
      obtain ⟨all, hall, hloop⟩ := h
      rw [List.mapM_cons] at hall
      obtain ⟨record, hrecord, hall⟩ := bind_eq_ok.1 hall
      obtain ⟨records, hrecords, hall⟩ := bind_eq_ok.1 hall
      cases hall
      rw [verifyRecords] at hloop
      split at hloop
      · cases hloop
      · next hprev =>
        obtain ⟨hash, hhash, hloop⟩ := bind_eq_ok.1 hloop
        split at hloop
        · cases hloop
        · next heq =>
          have hsame : record.recordHash = hash := not_not.1 heq
          subst hsame
          obtain ⟨event, hevent, rfl⟩ := record_eq_ok.1 hrecord
          exact ⟨not_not.1 hprev, ⟨_, hrecord, hhash⟩, (rowsLinked_iff total).2 ⟨records, hrecords, hloop⟩⟩

theorem verifyRecords_invalid {total : ℕ} : ∀ {records : List SealedAuditRecord} {prev : String}
    {r : ChainVerificationResult}, verifyRecords sl surface total prev records = .ok (some r) →
      r.valid = false
  | [], _, _, h => by cases h
  | record :: records, prev, r, h => by
    rw [verifyRecords] at h
    split at h
    · cases h
      rfl
    · obtain ⟨hash, -, h⟩ := bind_eq_ok.1 h
      split at h
      · cases h
        rfl
      · exact verifyRecords_invalid h

theorem length_of_mapM_eq_ok {rows : List AuditRow} {records : List SealedAuditRecord}
    (h : rows.mapM (fun row => row.record sl (fresh row)) = .ok records) : records.length = rows.length ∧
      records.map SealedAuditRecord.recordHash = rows.map AuditRow.recordHash := by
  induction rows generalizing records with
  | nil =>
    cases h
    exact ⟨rfl, rfl⟩
  | cons row rows ih =>
    rw [List.mapM_cons] at h
    obtain ⟨record, hrecord, h⟩ := bind_eq_ok.1 h
    obtain ⟨tail, htail, h⟩ := bind_eq_ok.1 h
    cases h
    obtain ⟨event, -, rfl⟩ := record_eq_ok.1 hrecord
    obtain ⟨hlength, hhashes⟩ := ih htail
    exact ⟨by simp [hlength], by simp [hhashes]⟩

/-- `verify_chain` calls a chain valid exactly when the rows it reads are linked; the answer is about
these rows. -/
theorem verifyChain_valid_iff {r : ChainVerificationResult} :
    verifyChain sl fresh log surface = .ok r ∧ r.valid = true ↔
      RowsLinked sl fresh GENESIS_HASH ((log.stored surface).take VERIFY_LIMIT) ∧
        r = { valid := true, surface
              totalRecords := ((log.stored surface).take VERIFY_LIMIT).length
              verifiedHashes := ((log.stored surface).take VERIFY_LIMIT).map AuditRow.recordHash } := by
  rw [verifyChain, query_all]
  generalize (log.stored surface).take VERIFY_LIMIT = rows
  constructor
  · intro h
    obtain ⟨hanswer, hvalid⟩ := h
    obtain ⟨records, hrecords, hanswer⟩ := bind_eq_ok.1 hanswer
    obtain ⟨hlength, hhashes⟩ := length_of_mapM_eq_ok hrecords
    rw [rowsLinked_iff records.length]
    split at hanswer
    · next hempty =>
      obtain rfl := List.isEmpty_iff.1 hempty
      obtain rfl := List.length_eq_zero_iff.1 hlength.symm
      cases hanswer
      exact ⟨⟨[], rfl, rfl⟩, rfl⟩
    · obtain ⟨outcome, houtcome, hanswer⟩ := bind_eq_ok.1 hanswer
      cases outcome with
      | some failed =>
        cases hanswer
        rw [verifyRecords_invalid houtcome] at hvalid
        cases hvalid
      | none =>
        cases hanswer
        exact ⟨⟨records, hrecords, houtcome⟩, by rw [hlength, hhashes]⟩
  · intro h
    obtain ⟨hlinked, rfl⟩ := h
    obtain ⟨records, hrecords, hloop⟩ := (rowsLinked_iff rows.length).1 hlinked
    obtain ⟨hlength, hhashes⟩ := length_of_mapM_eq_ok hrecords
    refine ⟨?_, rfl⟩
    rw [hrecords, ok_bind]
    split
    · next hempty =>
      obtain rfl := List.isEmpty_iff.1 hempty
      obtain rfl := List.length_eq_zero_iff.1 hlength.symm
      rfl
    · rw [hlength, hloop, ok_bind, hhashes]

theorem verifyChain_of_rowsLinked (h : RowsLinked sl fresh GENESIS_HASH ((log.stored surface).take VERIFY_LIMIT)) :
    verifyChain sl fresh log surface = .ok
          { valid := true, surface
            totalRecords := ((log.stored surface).take VERIFY_LIMIT).length
            verifiedHashes := ((log.stored surface).take VERIFY_LIMIT).map AuditRow.recordHash } :=
  (verifyChain_valid_iff.2 ⟨h, rfl⟩).1

end Phlo.Audit
