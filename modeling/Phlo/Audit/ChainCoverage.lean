import Phlo.Audit.TamperEvidence

/-!
# How much of a chain is verified

`verify_chain` verifies the rows that one bounded query returns.

* `verified_covers_iff` — an answer that calls the chain valid is about all of its records exactly when
  there are no more of them than the bound.
-/

namespace Phlo.Audit

open Phlo.Library
open CanonicalAuditEvent (Fresh)

/-- In a valid answer all stored records of the surface are linked and counted, with their hashes
listed, exactly when the query reaches all of them. -/
theorem verified_covers_iff (sl : Sealing) (fresh : AuditRow → Fresh) (log : AuditLog)
    (surface : String) (r : ChainVerificationResult)
    (hverify : verifyChain sl fresh log surface = .ok r) (hvalid : r.valid = true) :
    (RowsLinked sl fresh GENESIS_HASH (log.stored surface) ∧ r.totalRecords = (log.stored surface).length ∧
        r.verifiedHashes = (log.stored surface).map AuditRow.recordHash) ↔
      (log.stored surface).length ≤ VERIFY_LIMIT := by
  obtain ⟨hlinked, rfl⟩ := verifyChain_valid_iff.1 ⟨hverify, hvalid⟩
  constructor
  · intro h
    have htotal : ((log.stored surface).take VERIFY_LIMIT).length = (log.stored surface).length := h.2.1
    rw [List.length_take] at htotal
    omega
  · intro h
    rw [List.take_of_length_le h] at hlinked ⊢
    exact ⟨hlinked, rfl, rfl⟩

theorem verified_covers_iff_signIn :
    (RowsLinked standIn noFresh GENESIS_HASH ((signInLog "phlo-api").stored "phlo-api") ∧
        1 = ((signInLog "phlo-api").stored "phlo-api").length ∧ [(signInRow "phlo-api").recordHash] =
          ((signInLog "phlo-api").stored "phlo-api").map AuditRow.recordHash) ↔
      ((signInLog "phlo-api").stored "phlo-api").length ≤ VERIFY_LIMIT :=
  verified_covers_iff standIn noFresh (signInLog "phlo-api") "phlo-api" _
    (verifyChain_signInLog "phlo-api") rfl

/-! ### A chain longer than the bound -/

theorem length_recordHash {sl : Sealing} {fresh : AuditRow → Fresh} {prev : String}
    {rows : List AuditRow} (h : RowsLinked sl fresh prev rows) : ∀ row ∈ rows, row.recordHash.toList.length = 64 := by
  intro row hrow
  obtain ⟨links, -, -, hhashes⟩ := links_of_rowsLinked h
  have hmem : row.recordHash ∈ links.map (Link.tag sl) := by
    rw [← hhashes]
    exact List.mem_map_of_mem hrow
  obtain ⟨l, -, htag⟩ := List.mem_map.1 hmem
  rw [← htag]
  exact sl.length_hexdigest l.payload

/-- As many genuine records as the query returns. -/
def fullChain : List AuditRow :=
  sealRows standIn "phlo-api" 1 GENESIS_HASH (List.replicate VERIFY_LIMIT signInEntry)

/-- A record with no hashes, numbered as the next one. -/
def unsealedRow : AuditRow := ⟨"phlo-api", 1 + VERIFY_LIMIT, signInEntry.2, "", "", signInEntry.1⟩

theorem length_fullChain : fullChain.length = VERIFY_LIMIT := by
  rw [fullChain, length_sealRows, List.length_replicate]

theorem overlong_increasing :
    (fullChain ++ [unsealedRow]).Pairwise fun a b => a.sequenceNumber < b.sequenceNumber := by
  refine List.pairwise_append.2 ⟨numbered_sealRows.increasing, List.pairwise_singleton _ _, ?_⟩
  intro old hold row hrow
  obtain rfl := List.mem_singleton.1 hrow
  have hhigh := (numbered_sealRows.lt hold).2
  rw [length_sealRows, List.length_replicate] at hhigh
  exact hhigh

def overlongLog : AuditLog where
  rows := fullChain ++ [unsealedRow]
  unique := overlong_increasing.imp fun hlt hsame => by omega

theorem stored_overlongLog : overlongLog.stored "phlo-api" = fullChain ++ [unsealedRow] := by
  have hfiled : overlongLog.filed "phlo-api" = fullChain ++ [unsealedRow] := by
    apply List.filter_eq_self.2
    intro row hrow
    obtain hfull | hlast := List.mem_append.1 hrow
    · exact decide_eq_true (surface_sealRows row hfull)
    · rw [List.mem_singleton.1 hlast]
      rfl
  rw [AuditLog.stored, hfiled]
  exact (overlong_increasing.imp fun hlt => le_of_lt hlt).insertionSort_eq

theorem verifies_of_stored {log : AuditLog} (hstored : log.stored "phlo-api" = fullChain ++ [unsealedRow]) :
    ∃ r, verifyChain standIn noFresh log "phlo-api" = .ok r ∧ r.valid = true ∧
      ¬RowsLinked standIn noFresh GENESIS_HASH (log.stored "phlo-api") ∧
      r.totalRecords + 1 = (log.stored "phlo-api").length := by
  have hread : (log.stored "phlo-api").take VERIFY_LIMIT = fullChain := by
    rw [hstored, List.take_left' length_fullChain]
  have hlinked : RowsLinked standIn noFresh GENESIS_HASH
      ((log.stored "phlo-api").take VERIFY_LIMIT) := by
    rw [hread, fullChain]
    apply rowsLinked_sealRows
    intro entry hentry
    rw [List.eq_of_mem_replicate hentry]
    exact ⟨signIn, rfl⟩
  refine ⟨_, verifyChain_of_rowsLinked hlinked, rfl, ?_, ?_⟩
  · intro h
    have hmem : unsealedRow ∈ log.stored "phlo-api" := by
      rw [hstored]
      exact List.mem_append_right _ List.mem_cons_self
    cases length_recordHash h unsealedRow hmem
  · show ((log.stored "phlo-api").take VERIFY_LIMIT).length + 1 = _
    rw [hread, hstored, List.length_append, List.length_singleton]

/-- A record without hashes stored after the last one the query returns does not keep the chain from
being called valid, and is not counted. -/
theorem overlong_chain_verifies : ∃ r, verifyChain standIn noFresh overlongLog "phlo-api" = .ok r ∧ r.valid = true ∧
      ¬RowsLinked standIn noFresh GENESIS_HASH (overlongLog.stored "phlo-api") ∧
      r.totalRecords + 1 = (overlongLog.stored "phlo-api").length :=
  verifies_of_stored stored_overlongLog

end Phlo.Audit
