import Mathlib.Data.List.Infix
import Phlo.Audit.SealedChains
import Phlo.Library.HashChain

/-!
# What an accepted chain says

Somebody without the key may write any rows into the table; what they cannot do is make up the hash of
a text that was never sealed.  A chain that `verify_chain` accepts is then a prefix of the chain of
*one* surface.  It need not be the surface it is filed under, and rows past the bound of the query are
not looked at.
-/

namespace Phlo.Audit

open Phlo.Library
open CanonicalAuditEvent (Fresh ofKwargs)

/-! ### Links -/

/-- What a record's hash is computed from; the event is its dictionary with the members in order. -/
structure Link where
  sequenceNumber : ℤ
  event : JsonValue
  previousHash : String

namespace Link

def payload (l : Link) : String :=
  Audit.payload l.sequenceNumber (String.ofList l.event.render) l.previousHash

/-- An event and its place. -/
def content (l : Link) : ℤ × JsonValue := (l.sequenceNumber, l.event)

def tag (sl : Sealing) (l : Link) : String := sl.hexdigest l.payload

theorem payload_inj {l l' : Link} (hlen : l.previousHash.toList.length = l'.previousHash.toList.length)
    (h : l.payload = l'.payload) : l = l' := by
  obtain ⟨hnumber, htext, hprev⟩ := payload_injective hlen h
  have hevent : l.event = l'.event := JsonValue.render_injective (String.ofList_injective htext)
  cases l
  cases l'
  cases hnumber
  cases hevent
  cases hprev
  rfl

end Link

def AuditRow.link (sl : Sealing) (fresh : Fresh) (row : AuditRow) : Except AuditError Link := do
  let record ← row.record sl fresh
  let eventDict ← record.event.toDict
  .ok ⟨record.sequenceNumber, eventDict.sortKeys, record.previousHash⟩

/-- The link `append_event` sealed when it wrote a row. -/
def AuditRow.sealedLink (row : AuditRow) : Link :=
  ⟨row.sequenceNumber, row.eventData.sortKeys, row.previousHash⟩

/-- The records stored for a surface, event for event with their sequence numbers. -/
def AuditLog.contents (sl : Sealing) (fresh : AuditRow → Fresh) (log : AuditLog) (surface : String) :
    List (Except AuditError (ℤ × JsonValue)) :=
  (log.stored surface).map fun row => (row.link sl (fresh row)).map Link.content

/-- The events filed under a surface, each with its place in the order they were sealed in. -/
def sealedContents (surface : String) (events : List (CanonicalAuditEvent × String)) :
    List (Except AuditError (ℤ × JsonValue)) :=
  (dictsUnder surface events).mapIdx fun i entry => .ok ((i : ℤ) + 1, entry.1.sortKeys)

/-- Every text the key was used on while the events were appended, for whatever surface. -/
def sealedPayloads (sl : Sealing) (events : List (CanonicalAuditEvent × String)) : List String :=
  (appendAll sl events).rows.map fun row => row.sealedLink.payload

/-- Whoever wrote the table did not forge the hash of a text that was never sealed, and the hashes of
the sealed texts do not collide. -/
structure Unforged (sl : Sealing) (fresh : AuditRow → Fresh)
    (events : List (CanonicalAuditEvent × String)) (log : AuditLog) : Prop where
  known : ∀ row ∈ log.rows, ∀ l, row.link sl (fresh row) = .ok l →
    row.recordHash = l.tag sl → l.payload ∈ sealedPayloads sl events
  collisionFree : ∀ p ∈ sealedPayloads sl events, ∀ q ∈ sealedPayloads sl events,
    sl.hexdigest p = sl.hexdigest q → p = q
  notGenesis : ∀ p ∈ sealedPayloads sl events, sl.hexdigest p ≠ GENESIS_HASH

variable {sl : Sealing} {fresh : AuditRow → Fresh} {surface : String}

theorem link_eq_ok {fr : Fresh} {row : AuditRow} {l : Link} : row.link sl fr = .ok l ↔
      ∃ event d, decodeEvent sl fr row.eventData = .ok event ∧ event.toDict = .ok d ∧
        l = ⟨row.sequenceNumber, d.sortKeys, row.previousHash⟩ := by
  constructor
  · intro h
    obtain ⟨record, hrecord, h⟩ := bind_eq_ok.1 h
    obtain ⟨d, hd, h⟩ := bind_eq_ok.1 h
    obtain ⟨event, hevent, rfl⟩ := record_eq_ok.1 hrecord
    cases h
    exact ⟨event, d, hevent, hd, rfl⟩
  · intro h
    obtain ⟨event, d, hevent, hd, rfl⟩ := h
    rw [AuditRow.link, record_eq_ok.2 ⟨event, hevent, rfl⟩, ok_bind, hd]
    rfl

theorem links_of_rowsLinked : ∀ {rows : List AuditRow} {prev : String},
    RowsLinked sl fresh prev rows → ∃ links : List Link,
      rows.map (fun row => row.link sl (fresh row)) = links.map .ok ∧
        Linked (Link.tag sl) Link.previousHash prev links ∧
        rows.map AuditRow.recordHash = links.map (Link.tag sl)
  | [], _, _ => ⟨[], rfl, trivial, rfl⟩
  | row :: rows, prev, h => by
    obtain ⟨hprev, ⟨record, hrecord, hhash⟩, htail⟩ := h
    obtain ⟨links, hlinks, hlinked, hhashes⟩ := links_of_rowsLinked htail
    obtain ⟨event, hevent, rfl⟩ := record_eq_ok.1 hrecord
    obtain ⟨d, hd, hhash⟩ := bind_eq_ok.1 hhash
    have hlink : row.link sl (fresh row) = .ok ⟨row.sequenceNumber, d.sortKeys, row.previousHash⟩ :=
      link_eq_ok.2 ⟨event, d, hevent, hd, rfl⟩
    have htag : row.recordHash = (⟨row.sequenceNumber, d.sortKeys, row.previousHash⟩ : Link).tag sl :=
      (Except.ok.inj hhash).symm
    refine ⟨⟨row.sequenceNumber, d.sortKeys, row.previousHash⟩ :: links, ?_, ⟨hprev, ?_⟩, ?_⟩
    · rw [List.map_cons, hlink, hlinks]
      rfl
    · rw [← htag]
      exact hlinked
    · rw [List.map_cons, List.map_cons, ← htag, hhashes]

/-! ### The sealed chains -/

def sealedChain (sl : Sealing) (events : List (CanonicalAuditEvent × String)) (surface : String) : List Link :=
  ((appendAll sl events).stored surface).map AuditRow.sealedLink

variable {prev : String}

/-- A row that `append_event` wrote is read back as the link it sealed. -/
theorem link_sealRow {fr : Fresh} {n : ℤ} {entry : JsonValue × String} {event : CanonicalAuditEvent}
    (hd : event.toDict = .ok entry.1) :
    (sealRow sl surface n prev entry).link sl fr = .ok (sealRow sl surface n prev entry).sealedLink := by
  obtain ⟨back, hdecode, hback, -⟩ := decodeEvent_toDict sl fr hd
  exact link_eq_ok.2 ⟨back, entry.1, hdecode, hback, rfl⟩

theorem map_link_sealRows {n : ℤ} {entries : List (JsonValue × String)}
    (h : ∀ entry ∈ entries, ∃ event : CanonicalAuditEvent, event.toDict = .ok entry.1) :
    (sealRows sl surface n prev entries).map (fun row => row.link sl (fresh row)) =
      ((sealRows sl surface n prev entries).map AuditRow.sealedLink).map .ok := by
  induction entries generalizing n prev with
  | nil => rfl
  | cons entry entries ih =>
    obtain ⟨event, hd⟩ := h entry List.mem_cons_self
    simp only [sealRows, List.map_cons, link_sealRow hd, ih fun e he => h e (List.mem_cons_of_mem _ he)]

variable {events : List (CanonicalAuditEvent × String)}

theorem exists_toDict_of_mem :
    ∀ entry ∈ dictsUnder surface events, ∃ event : CanonicalAuditEvent, event.toDict = .ok entry.1 := by
  intro entry hentry
  obtain ⟨event, -, hd⟩ := exists_of_mem_dictsUnder hentry
  exact ⟨event, hd⟩

theorem sealedChain_linked (events : List (CanonicalAuditEvent × String)) (surface : String) :
    Linked (Link.tag sl) Link.previousHash GENESIS_HASH (sealedChain sl events surface) := by
  have fresh : AuditRow → Fresh := fun _ => ⟨"", ""⟩
  have hrows : RowsLinked sl fresh GENESIS_HASH (sealRows sl surface 1 GENESIS_HASH (dictsUnder surface events)) :=
    rowsLinked_sealRows fresh exists_toDict_of_mem
  obtain ⟨links, hlinks, hlinked, -⟩ := links_of_rowsLinked hrows
  rw [map_link_sealRows exists_toDict_of_mem] at hlinks
  have hsame : sealedChain sl events surface = links := by
    rw [sealedChain, stored_appendAll]
    exact List.map_injective_iff.2 (fun _ _ h => Except.ok.inj h) hlinks
  rw [hsame]
  exact hlinked

theorem length_previousHash {links : List Link} {h : String} (hh : h.toList.length = 64)
    (hl : Linked (Link.tag sl) Link.previousHash h links) : ∀ l ∈ links, l.previousHash.toList.length = 64 := by
  induction links generalizing h with
  | nil =>
    intro l hmem
    cases hmem
  | cons first links ih =>
    intro l hmem
    obtain rfl | htail := List.mem_cons.1 hmem
    · rw [hl.1]
      exact hh
    · have htag : (Link.tag sl first).toList.length = 64 := sl.length_hexdigest first.payload
      exact ih htag hl.2 l htail

theorem length_genesis : GENESIS_HASH.toList.length = 64 := by
  show (String.ofList (List.replicate 64 '0')).toList.length = 64
  rw [String.toList_ofList]
  exact List.length_replicate

theorem getElem_sealRows {n : ℤ} {entries : List (JsonValue × String)} {i : ℕ} :
    ((sealRows sl surface n prev entries).map AuditRow.sealedLink)[i]?.map Link.content =
      entries[i]?.map fun entry => (n + i, entry.1.sortKeys) := by
  induction entries generalizing n prev i with
  | nil => rfl
  | cons entry entries ih =>
    cases i with
    | zero => simp [sealRows, sealRow, AuditRow.sealedLink, Link.content]
    | succ i =>
      have hnumber : n + 1 + (i : ℤ) = n + ((i + 1 : ℕ) : ℤ) := by omega
      rw [sealRows, List.map_cons, List.getElem?_cons_succ, ih, List.getElem?_cons_succ, hnumber]

theorem content_sealedChain (sl : Sealing) (surface : String) (events : List (CanonicalAuditEvent × String)) (i : ℕ) :
    (sealedChain sl events surface)[i]?.map Link.content =
      (dictsUnder surface events)[i]?.map fun entry => (1 + (i : ℤ), entry.1.sortKeys) := by
  rw [sealedChain, stored_appendAll, getElem_sealRows]

theorem sealedContents_eq (sl : Sealing) (surface : String) (events : List (CanonicalAuditEvent × String)) :
    sealedContents surface events = (sealedChain sl events surface).map fun l => .ok l.content := by
  apply List.ext_getElem?
  intro i
  have hcontent := content_sealedChain sl surface events i
  have hmap : ((sealedChain sl events surface).map fun l => (.ok l.content : Except AuditError _))[i]? =
      ((sealedChain sl events surface)[i]?.map Link.content).map .ok := by
    rw [List.getElem?_map, Option.map_map]
    rfl
  rw [hmap, hcontent, sealedContents, List.getElem?_mapIdx, Option.map_map]
  congr 1
  funext entry
  show Except.ok ((i : ℤ) + 1, _) = Except.ok (1 + (i : ℤ), _)
  rw [Int.add_comm]

theorem exists_of_mem_sealedChain {l : Link} (h : l ∈ sealedChain sl events surface) :
    ∃ event : CanonicalAuditEvent, ∃ d, orUnknown event.surface = .ok surface ∧
      event.toDict = .ok d ∧ l.event = d.sortKeys := by
  obtain ⟨i, hi⟩ := List.mem_iff_getElem?.1 h
  have hcontent := content_sealedChain sl surface events i
  rw [hi] at hcontent
  cases hentry : (dictsUnder surface events)[i]? with
  | none =>
    rw [hentry] at hcontent
    cases hcontent
  | some entry =>
    rw [hentry] at hcontent
    obtain ⟨event, hname, hd⟩ := exists_of_mem_dictsUnder (List.mem_of_getElem? hentry)
    exact ⟨event, entry.1, hname, hd, congrArg Prod.snd (Option.some.inj hcontent)⟩

theorem sequenceNumber_of_getElem {i : ℕ} {l : Link} (h : (sealedChain sl events surface)[i]? = some l) :
    l.sequenceNumber = 1 + (i : ℤ) := by
  have hcontent := content_sealedChain sl surface events i
  rw [h] at hcontent
  cases hentry : (dictsUnder surface events)[i]? with
  | none =>
    rw [hentry] at hcontent
    cases hcontent
  | some entry =>
    rw [hentry] at hcontent
    exact congrArg Prod.fst (Option.some.inj hcontent)

/-- A text was sealed exactly when it is that of a link of some chain. -/
theorem mem_sealedPayloads {p : String} :
    p ∈ sealedPayloads sl events ↔ ∃ surface, ∃ l ∈ sealedChain sl events surface, l.payload = p := by
  constructor
  · intro h
    obtain ⟨row, hrow, rfl⟩ := List.mem_map.1 h
    have hfiled : row ∈ (appendAll sl events).filed row.surface :=
      List.mem_filter.2 ⟨hrow, decide_eq_true rfl⟩
    have hstored := (mem_sortBy AuditRow.sequenceNumber _ row).2 hfiled
    exact ⟨row.surface, row.sealedLink, List.mem_map_of_mem hstored, rfl⟩
  · intro h
    obtain ⟨surface, l, hl, rfl⟩ := h
    obtain ⟨row, hrow, rfl⟩ := List.mem_map.1 hl
    have hfiled := (mem_sortBy AuditRow.sequenceNumber _ row).1 hrow
    exact List.mem_map_of_mem (List.mem_of_mem_filter hfiled)

theorem chains_of_unforged {log : AuditLog} (h : Unforged sl fresh events log) :
    Chains (Link.tag sl) Link.previousHash GENESIS_HASH (sealedChain sl events) where
  linked := sealedChain_linked events
  collisionFree i j p hp q hq htag := by
    have hpayload : p.payload = q.payload := h.collisionFree p.payload
      (mem_sealedPayloads.2 ⟨i, p, hp, rfl⟩) q.payload (mem_sealedPayloads.2 ⟨j, q, hq, rfl⟩) htag
    have hplen := length_previousHash length_genesis (sealedChain_linked events i) p hp
    have hqlen := length_previousHash length_genesis (sealedChain_linked events j) q hq
    exact Link.payload_inj (hplen.trans hqlen.symm) hpayload
  notGenesis i p hp := h.notGenesis p.payload (mem_sealedPayloads.2 ⟨i, p, hp, rfl⟩)
  place i j m n l hm hn := by
    obtain ⟨event, d, hname, hd, hevent⟩ := exists_of_mem_sealedChain (List.mem_of_getElem? hm)
    obtain ⟨event', d', hname', hd', hevent'⟩ := exists_of_mem_sealedChain (List.mem_of_getElem? hn)
    have hsame := CanonicalAuditEvent.orUnknown_eq_of_sortKeys hd hd' (hevent.symm.trans hevent')
    rw [hname, hname'] at hsame
    have hm' := sequenceNumber_of_getElem hm
    have hn' := sequenceNumber_of_getElem hn
    exact ⟨Except.ok.inj hsame, by omega⟩

/-! ### What an accepted chain says -/

theorem prefix_of_take_drop {α : Type} {l m : List α} {n : ℕ} (htake : l.take n <+: m)
    (hdrop : l.drop n <+: m.drop n) : l <+: m := by
  by_cases hlen : l.length ≤ n
  · rwa [List.take_of_length_le hlen] at htake
  · have hsame : l.take n = m.take n := by
      have hprefix := List.prefix_iff_eq_take.1 htake
      rwa [List.length_take, Nat.min_eq_left (by omega)] at hprefix
    obtain ⟨rest, hrest⟩ := hdrop
    refine ⟨rest, ?_⟩
    rw [← List.take_append_drop n l, List.append_assoc, hrest, hsame, List.take_append_drop]

theorem orUnknown_of_sealed {l : Link} (hl : l ∈ sealedChain sl events surface) {event : CanonicalAuditEvent}
    {d : JsonValue} (hd : event.toDict = .ok d) (hevent : d.sortKeys = l.event) :
    orUnknown event.surface = .ok surface := by
  obtain ⟨event', d', hname, hd', hevent'⟩ := exists_of_mem_sealedChain hl
  rw [CanonicalAuditEvent.orUnknown_eq_of_sortKeys hd hd' (hevent.trans hevent'), hname]

/-- A chain that verifies holds, event for event and in order, a prefix of what was sealed for its
surface exactly when its first record is of an event of the surface and the records past those that
the verifier reads are the ones sealed there. -/
theorem verified_prefix_iff (sl : Sealing) (fresh : AuditRow → Fresh)
    (events : List (CanonicalAuditEvent × String)) (log : AuditLog) (surface : String)
    (hmac : Unforged sl fresh events log) (r : ChainVerificationResult)
    (hverify : verifyChain sl fresh log surface = .ok r) (hvalid : r.valid = true) :
    log.contents sl fresh surface <+: sealedContents surface events ↔
      (∀ row ∈ (log.stored surface).head?, ∃ record, row.record sl (fresh row) = .ok record ∧
        orUnknown record.event.surface = .ok surface) ∧ (log.contents sl fresh surface).drop VERIFY_LIMIT <+:
        (sealedContents surface events).drop VERIFY_LIMIT := by
  have hchains := chains_of_unforged hmac
  obtain ⟨hrows, -⟩ := verifyChain_valid_iff.1 ⟨hverify, hvalid⟩
  obtain ⟨links, hlinks, hlinked, hhashes⟩ := links_of_rowsLinked hrows
  have hsealed : ∀ l ∈ links, ∃ name, l ∈ sealedChain sl events name := by
    intro l hl
    obtain ⟨i, hi⟩ := List.mem_iff_getElem?.1 hl
    have hlink : (((log.stored surface).take VERIFY_LIMIT).map
        fun row => row.link sl (fresh row))[i]? = some (.ok l) := by
      rw [hlinks, List.getElem?_map, hi]
      rfl
    have htag : (((log.stored surface).take VERIFY_LIMIT).map AuditRow.recordHash)[i]? = some (l.tag sl) := by
      rw [hhashes, List.getElem?_map, hi]
      rfl
    rw [List.getElem?_map] at hlink htag
    obtain ⟨row, hrow, hl⟩ := Option.map_eq_some_iff.1 hlink
    rw [hrow] at htag
    have hmem : row ∈ log.rows := List.mem_of_mem_filter
      ((mem_sortBy AuditRow.sequenceNumber _ row).1 (List.mem_of_mem_take (List.mem_of_getElem? hrow)))
    obtain ⟨name, sealed, hsealed, hpayload⟩ :=
      mem_sealedPayloads.1 (hmac.known row hmem l hl (Option.some.inj htag))
    have hlen := length_previousHash length_genesis (sealedChain_linked events name) sealed hsealed
    have hlen' := length_previousHash length_genesis hlinked l (List.mem_of_getElem? hi)
    rw [← Link.payload_inj (hlen.trans hlen'.symm) hpayload]
    exact ⟨name, hsealed⟩
  have htake : (log.contents sl fresh surface).take VERIFY_LIMIT =
      links.map fun l => .ok l.content := by
    have hmap := congrArg (List.map (Except.map Link.content)) hlinks
    rw [List.map_map, List.map_map] at hmap
    rw [AuditLog.contents, ← List.map_take]
    exact hmap
  constructor
  · intro h
    refine ⟨?_, h.drop VERIFY_LIMIT⟩
    intro row hrow
    obtain ⟨rest, hrest⟩ : ∃ rest, log.stored surface = row :: rest := List.head?_eq_some_iff.1 hrow
    rw [AuditLog.contents, hrest, List.map_cons, sealedContents_eq sl] at h
    cases hchain : sealedChain sl events surface with
    | nil =>
      rw [hchain] at h
      cases List.prefix_nil.1 h
    | cons first later =>
      rw [hchain, List.map_cons] at h
      obtain ⟨l, hl, hcontent⟩ := map_eq_ok.1 (List.cons_prefix_cons.1 h).1
      obtain ⟨event, d, hevent, hd, rfl⟩ := link_eq_ok.1 hl
      have hfirst : first ∈ sealedChain sl events surface := by
        rw [hchain]
        exact List.mem_cons_self
      exact ⟨_, record_eq_ok.2 ⟨event, hevent, rfl⟩,
        orUnknown_of_sealed hfirst hd (congrArg Prod.snd hcontent)⟩
  · intro h
    obtain ⟨hhead, hdrop⟩ := h
    refine prefix_of_take_drop ?_ hdrop
    rw [htake, sealedContents_eq sl]
    refine List.IsPrefix.map _ ((Linked.prefix_iff hchains hlinked hsealed surface).2 ?_)
    intro p hp
    cases hrows : log.stored surface with
    | nil =>
      rw [hrows, List.take_nil, List.map_nil] at hlinks
      obtain rfl := List.map_eq_nil_iff.1 hlinks.symm
      cases hp
    | cons row rest =>
      obtain ⟨more, rfl⟩ := List.head?_eq_some_iff.1 hp
      rw [hrows, VERIFY_LIMIT, List.take_succ_cons, List.map_cons, List.map_cons] at hlinks
      obtain ⟨event, d, hevent, hd, hlink⟩ := link_eq_ok.1 (List.cons.inj hlinks).1
      obtain ⟨record, hrecord, hname⟩ := hhead row (by rw [hrows]; rfl)
      obtain ⟨event', hevent', rfl⟩ := record_eq_ok.1 hrecord
      obtain rfl : event = event' := Except.ok.inj (hevent.symm.trans hevent')
      obtain ⟨name, hmem⟩ := hsealed p List.mem_cons_self
      have hother := orUnknown_of_sealed hmem hd (congrArg Link.event hlink).symm
      rw [Except.ok.inj (hname.symm.trans hother)]
      exact hmem

/-! ### A relabelled chain -/

/-- A checksum of 64 digits, none of them the genesis hash, in place of the keyed digest. -/
def standIn : Sealing where
  hexdigest text :=
    let sum := text.toList.foldl (fun sum c => sum * 131 + c.toNat) 7
    String.ofList ('1' :: (List.range 63).map fun i => hexDigit (sum / 16 ^ i))
  length_hexdigest text := by
    rw [String.toList_ofList, List.length_cons, List.length_map, List.length_range]
  loads _ := .error .jsonDecodeError

theorem standIn_ne_genesis (text : String) : standIn.hexdigest text ≠ GENESIS_HASH := by
  intro h
  have hchars := String.ofList_injective h
  have hfirst : '1' = '0' := (List.cons.inj hchars).1
  exact absurd hfirst (by decide)

def signIn : CanonicalAuditEvent where
  schemaVersion := .str AUDIT_SCHEMA_VERSION
  eventType := .str "authentication"
  eventId := .str "8f1c"
  timestamp := .str "2026-01-05T09:00:00+00:00"
  surface := .str "phlo-api"
  actorSubject := .str "ada"
  actorType := .str "user"
  actorRoles := .arr [.str "analyst"]
  authenticationSource := .str "proxy"
  action := .str "login"
  resourceType := .str ""
  resourceId := .str ""
  decision := .str "allow"
  reasonCode := .str ""
  policyId := .null
  explanation := .null
  requestId := .null
  correlationId := .str ""
  parentCorrelationId := .str ""
  runId := .null
  sourceIp := .null
  targetStateBefore := .null
  targetStateAfter := .null
  changeReason := .null
  outcome := .str "success"
  attributes := .obj []

/-- The dictionary of the sign-in with the time it is sealed at. -/
def signInEntry : JsonValue × String :=
  (.obj (signIn.members signIn.actorRoles), "2026-01-05T09:00:01+00:00")

def signInRow (surface : String) : AuditRow := sealRow standIn surface 1 GENESIS_HASH signInEntry

def signInLog (surface : String) : AuditLog := ⟨[signInRow surface], List.pairwise_singleton _ _⟩

def noFresh : AuditRow → Fresh := fun _ => ⟨"", ""⟩

theorem dictsUnder_signIn : dictsUnder "phlo-api" [(signIn, signInEntry.2)] = [signInEntry] ∧
      dictsUnder "dagster" [(signIn, signInEntry.2)] = [] :=
  ⟨rfl, rfl⟩

/-- What `append_event` stores for the sign-in. -/
theorem rows_appendAll_signIn : (appendAll standIn [(signIn, signInEntry.2)]).rows = [signInRow "phlo-api"] := by
  have hempty : Honest standIn [] AuditLog.empty := fun _ => rfl
  have hname : orUnknown signIn.surface = .ok "phlo-api" := rfl
  have hd : signIn.toDict = .ok signInEntry.1 := rfl
  obtain ⟨log, record, happend, hrows⟩ := appendEvent_eq hempty signInEntry.2 hname hd
  have hlog : appendAll standIn [(signIn, signInEntry.2)] = log := by
    show appendStep standIn AuditLog.empty (signIn, signInEntry.2) = log
    rw [appendStep, happend]
  rw [hlog, hrows]
  rfl

theorem stored_signInLog (surface : String) : (signInLog surface).stored surface = [signInRow surface] := by
  simp [AuditLog.stored, AuditLog.filed, signInLog, signInRow, sortBy]

/-- The row, under whatever name, holds a hash that was sealed. -/
theorem unforged_signInLog (surface : String) :
    Unforged standIn noFresh [(signIn, signInEntry.2)] (signInLog surface) where
  known row hrow l hl htag := by
    obtain rfl := List.mem_singleton.1 hrow
    have hd : signIn.toDict = .ok signInEntry.1 := rfl
    have hlink : (signInRow surface).link standIn (noFresh (signInRow surface)) =
        .ok (signInRow surface).sealedLink := link_sealRow hd
    obtain rfl := Except.ok.inj (hl.symm.trans hlink)
    rw [sealedPayloads, rows_appendAll_signIn]
    exact List.mem_singleton.2 rfl
  collisionFree p hp q hq _ := by
    rw [sealedPayloads, rows_appendAll_signIn] at hp hq
    exact (List.mem_singleton.1 hp).trans (List.mem_singleton.1 hq).symm
  notGenesis p _ := standIn_ne_genesis p

theorem verifyChain_signInLog (surface : String) :
    verifyChain standIn noFresh (signInLog surface) surface =
      .ok { valid := true, surface, totalRecords := 1, verifiedHashes := [(signInRow surface).recordHash] } := by
  have hlinked : RowsLinked standIn noFresh GENESIS_HASH (sealRows standIn surface 1 GENESIS_HASH [signInEntry]) := by
    apply rowsLinked_sealRows
    intro entry hentry
    rw [List.mem_singleton.1 hentry]
    exact ⟨signIn, rfl⟩
  have hread : ((signInLog surface).stored surface).take VERIFY_LIMIT = [signInRow surface] := by
    rw [stored_signInLog]
    rfl
  have hverify : verifyChain standIn noFresh (signInLog surface) surface = .ok _ :=
    verifyChain_of_rowsLinked (by
      rw [hread]
      exact hlinked)
  rw [hread] at hverify
  exact hverify

theorem verified_prefix_iff_signIn : (signInLog "phlo-api").contents standIn noFresh "phlo-api" <+:
        sealedContents "phlo-api" [(signIn, signInEntry.2)] ↔
      (∀ row ∈ ((signInLog "phlo-api").stored "phlo-api").head?, ∃ record,
        row.record standIn (noFresh row) = .ok record ∧ orUnknown record.event.surface = .ok "phlo-api") ∧
      ((signInLog "phlo-api").contents standIn noFresh "phlo-api").drop VERIFY_LIMIT <+:
        (sealedContents "phlo-api" [(signIn, signInEntry.2)]).drop VERIFY_LIMIT :=
  verified_prefix_iff standIn noFresh [(signIn, signInEntry.2)] (signInLog "phlo-api") "phlo-api"
    (unforged_signInLog "phlo-api") _ (verifyChain_signInLog "phlo-api") rfl

/-- The row of a sign-in at the API, moved to another surface, verifies as that surface's chain, for
which nothing was ever sealed. -/
theorem relabelled_chain_verifies : Unforged standIn noFresh [(signIn, signInEntry.2)] (signInLog "dagster") ∧
      (∃ r, verifyChain standIn noFresh (signInLog "dagster") "dagster" = .ok r ∧ r.valid = true) ∧
      ¬(signInLog "dagster").contents standIn noFresh "dagster" <+:
        sealedContents "dagster" [(signIn, signInEntry.2)] := by
  refine ⟨unforged_signInLog "dagster", ⟨_, verifyChain_signInLog "dagster", rfl⟩, ?_⟩
  intro h
  rw [AuditLog.contents, stored_signInLog, sealedContents, dictsUnder_signIn.2] at h
  cases List.prefix_nil.1 h

end Phlo.Audit
