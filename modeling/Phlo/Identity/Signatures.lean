import Phlo.Identity.Changes

/-!
# Signatures are used once, as they were given

* `Exactly`, `Reviewed` — what an approval and an independent review must say;
* `consumeSignature_eq_true_iff` — when a consumption succeeds;
* `SignaturesLater` — no call removes, alters or restores a signature.
-/

namespace Phlo.Identity

open Phlo.Library

/-! ### Approvals and reviews -/

/-- The stored signature is unused, authentic and says exactly what is intended. -/
structure Exactly (host : Host) (item : StoredSignature) (intent : SignatureRequest) : Prop where
  unconsumed : item.consumedAt = none
  signed : item.record.signatureHash ≠ ""
  authentic : host.hmac item.record.toSignaturePayload = item.record.signatureHash
  assured : item.record.authenticationAssurance = "mfa"
  signer : item.record.signerSubject = intent.signerSubject
  meaning : item.record.meaning = intent.meaning
  action : item.record.action = intent.action
  recordType : item.record.recordType = intent.recordType
  recordId : item.record.recordId = intent.recordId
  recordVersion : item.record.recordVersion = intent.recordVersion
  justification : ∀ text, intent.justification = some text → item.record.justification = some text

/-- The review is another person's, of the same record, and the person may review. -/
structure Reviewed (state : AuthorityState) (signatureId : String) (expected : SignatureRequest)
    (reviewId : String) (reviewer : SignatureRequest) : Prop where
  other : reviewId ≠ signatureId
  independent : reviewer.signerSubject ≠ expected.signerSubject
  review : reviewer.meaning = .reviewed
  approval : expected.meaning = .approved
  action : reviewer.action = expected.action
  recordType : reviewer.recordType = expected.recordType
  recordId : reviewer.recordId = expected.recordId
  recordVersion : reviewer.recordVersion = expected.recordVersion
  member : ∃ member, state.members.get reviewer.signerSubject = some member ∧ member.active = true ∧
    member.principalType = "user" ∧ ("admin" ∈ member.roles ∨ "operator" ∈ member.roles)

def ApprovedIn (host : Host) (state : AuthorityState) (intent : String × SignatureRequest) : Prop :=
  ∃ item, state.signatures.get intent.1 = some item ∧ Exactly host item intent.2

section

variable {host : Host} {state state' : AuthorityState} {call : Call} {answer : Answer}

theorem approves_iff {item : StoredSignature} {intent : SignatureRequest} :
    host.approves item intent = true ↔ Exactly host item intent := by
  have hjustification : (intent.justification = none ∨ item.record.justification = intent.justification) ↔
      ∀ text, intent.justification = some text → item.record.justification = some text := by
    cases intent.justification with
    | none => simp
    | some text => simp
  unfold Host.approves Host.hasValidHash
  simp only [Bool.and_eq_true, decide_eq_true_eq, Bool.or_eq_true, ne_eq, hjustification]
  constructor
  · rintro ⟨⟨⟨⟨⟨⟨⟨⟨⟨h₁, h₂, h₃⟩, h₄⟩, h₅⟩, h₆⟩, h₇⟩, h₈⟩, h₉⟩, h₁₀⟩, h₁₁⟩
    exact ⟨h₁, h₂, h₃, h₄, h₅, h₆, h₇, h₈, h₉, h₁₀, h₁₁⟩
  · rintro ⟨h₁, h₂, h₃, h₄, h₅, h₆, h₇, h₈, h₉, h₁₀, h₁₁⟩
    exact ⟨⟨⟨⟨⟨⟨⟨⟨⟨h₁, h₂, h₃⟩, h₄⟩, h₅⟩, h₆⟩, h₇⟩, h₈⟩, h₉⟩, h₁₀⟩, h₁₁⟩

theorem admitsReview_iff {signatureId reviewId : String} {expected reviewer : SignatureRequest} :
    state.admitsReview signatureId expected reviewId reviewer = true ↔
      Reviewed state signatureId expected reviewId reviewer := by
  have hmember : ((state.members.get reviewer.signerSubject).any fun member =>
        member.active && member.principalType = "user" &&
          (["admin", "operator"].any fun role => member.roles.contains role)) = true ↔
      ∃ member, state.members.get reviewer.signerSubject = some member ∧ member.active = true ∧
        member.principalType = "user" ∧ ("admin" ∈ member.roles ∨ "operator" ∈ member.roles) := by
    rw [Option.any_eq_true]
    simp [and_assoc]
  unfold AuthorityState.admitsReview
  simp only [Bool.and_eq_true, decide_eq_true_eq, ne_eq, hmember]
  constructor
  · rintro ⟨⟨⟨⟨⟨⟨⟨⟨h₁, h₂⟩, h₃⟩, h₄⟩, h₅⟩, h₆⟩, h₇⟩, h₈⟩, h₉⟩
    exact ⟨h₁, h₂, h₃, h₄, h₅, h₆, h₇, h₈, h₉⟩
  · rintro ⟨h₁, h₂, h₃, h₄, h₅, h₆, h₇, h₈, h₉⟩
    exact ⟨⟨⟨⟨⟨⟨⟨⟨h₁, h₂⟩, h₃⟩, h₄⟩, h₅⟩, h₆⟩, h₇⟩, h₈⟩, h₉⟩

theorem consumeSignature_eq_true_iff {clock : ℕ → ℤ} {r : ConsumeSignature} :
    (consumeSignature host clock r state).2 = true ↔
      (∀ review ∈ r.review, Reviewed state r.signatureId r.expected review.1 review.2) ∧
        ∀ intent ∈ r.intents, ApprovedIn host state intent := by
  have hreview : (r.review.all fun review =>
        state.admitsReview r.signatureId r.expected review.1 review.2) = true ↔
      ∀ review ∈ r.review, Reviewed state r.signatureId r.expected review.1 review.2 := by
    cases r.review with
    | none => simp
    | some review => simp [admitsReview_iff]
  have hintents : (r.intents.all fun intent =>
        (state.signatures.get intent.1).any fun item => host.approves item intent.2) = true ↔
      ∀ intent ∈ r.intents, ApprovedIn host state intent := by
    simp only [List.all_eq_true, Option.any_eq_true, approves_iff, ApprovedIn]
  rw [← hreview, ← hintents, ← Bool.and_eq_true]
  unfold consumeSignature
  split
  next hall => simp [hall]
  next hall => simpa using hall

/-! ### The loop that consumes -/

theorem get_consumeAt (signatures : OrderedDict String StoredSignature) (identifier : String) (at_ : ℤ)
    (id : String) :
    (consumeAt signatures identifier at_).get id = if id = identifier then
      (signatures.get id).map fun item => { item with consumedAt := some at_ } else signatures.get id := by
  unfold consumeAt
  cases hget : signatures.get identifier with
  | none =>
    show signatures.get id = _
    split
    next hid =>
      rw [hid, hget]
      rfl
    · rfl
  | some item =>
    show (signatures.set identifier { item with consumedAt := some at_ }).get id = _
    rw [OrderedDict.get_set]
    split
    next hid =>
      rw [hid, hget]
      rfl
    · rfl

variable {id : String}

theorem get_consumeAll_of_notMem {clock : ℕ → ℤ} {intents : List (String × SignatureRequest)}
    (h : id ∉ intents.map Prod.fst) (n : ℕ) (signatures : OrderedDict String StoredSignature) :
    (consumeAll clock n intents signatures).get id = signatures.get id := by
  induction intents generalizing n signatures with
  | nil => rfl
  | cons intent intents ih =>
    rw [List.map_cons, List.mem_cons, not_or] at h
    show (consumeAll clock (n + 1) intents _).get id = _
    rw [ih h.2, get_consumeAt, if_neg h.1]

theorem get_consumeAll_of_mem (clock : ℕ → ℤ) {intents : List (String × SignatureRequest)}
    (h : id ∈ intents.map Prod.fst) (n : ℕ) {signatures : OrderedDict String StoredSignature}
    {item : StoredSignature} (hget : signatures.get id = some item) :
    ∃ at_, (consumeAll clock n intents signatures).get id = some { item with consumedAt := some at_ } := by
  induction intents generalizing n signatures item with
  | nil => cases h
  | cons intent intents ih =>
    show ∃ at_, (consumeAll clock (n + 1) intents _).get id = _
    by_cases hid : id = intent.1
    · have hnext : (consumeAt signatures intent.1 (clock n)).get id =
          some { item with consumedAt := some (clock n) } := by
        rw [get_consumeAt, if_pos hid, hget]
        rfl
      by_cases hrest : id ∈ intents.map Prod.fst
      · obtain ⟨at_, hafter⟩ := ih hrest (n + 1) hnext
        exact ⟨at_, hafter⟩
      · refine ⟨clock n, ?_⟩
        rw [get_consumeAll_of_notMem hrest, hnext]
    · have hrest : id ∈ intents.map Prod.fst := by
        rw [List.map_cons, List.mem_cons] at h
        exact h.resolve_left hid
      refine ih hrest (n + 1) ?_
      rw [get_consumeAt, if_neg hid, hget]

/-! ### What no call takes back -/

/-- The signature is in the document, and used. -/
def ConsumedIn (state : AuthorityState) (id : String) : Prop :=
  ∃ item, state.signatures.get id = some item ∧ item.consumedAt ≠ none

/-- No signature is removed, altered or restored, and no key forgets what it was used for. -/
structure SignaturesLater (state state' : AuthorityState) : Prop where
  signatures : ∀ id item, state.signatures.get id = some item →
    ∃ item', state'.signatures.get id = some item' ∧ item'.record = item.record ∧
      (item.consumedAt ≠ none → item'.consumedAt = item.consumedAt)
  operations : ∀ id operation, state.operations.get id = some operation →
    state'.operations.get id = some operation

theorem SignaturesLater.refl (state : AuthorityState) : SignaturesLater state state :=
  ⟨fun _ item hget => ⟨item, hget, rfl, fun _ => rfl⟩, fun _ _ hget => hget⟩

theorem SignaturesLater.trans {a b c : AuthorityState} (h : SignaturesLater a b) (h' : SignaturesLater b c) :
    SignaturesLater a c := by
  refine ⟨fun id item hget => ?_, fun id operation hget => h'.operations id operation (h.operations id operation hget)⟩
  obtain ⟨item', hget', hrecord, hconsumed⟩ := h.signatures id item hget
  obtain ⟨item'', hget'', hrecord', hconsumed'⟩ := h'.signatures id item' hget'
  refine ⟨item'', hget'', hrecord'.trans hrecord, fun hused => ?_⟩
  have hsame := hconsumed hused
  exact (hconsumed' (hsame ▸ hused)).trans hsame

theorem SignaturesLater.consumed (h : SignaturesLater state state') (hused : ConsumedIn state id) :
    ConsumedIn state' id := by
  obtain ⟨item, hget, hne⟩ := hused
  obtain ⟨item', hget', -, hsame⟩ := h.signatures id item hget
  exact ⟨item', hget', by rw [hsame hne]; exact hne⟩

theorem Change.signaturesLater (h : Change host call state state' answer) : SignaturesLater state state' := by
  refine ⟨fun id item hget => ?_, fun id operation hget => h.operations hget⟩
  cases h with
  | saved r operations hrequest hnew hunkeyed hkeyed =>
    refine ⟨item, ?_, rfl, fun _ => rfl⟩
    rw [OrderedDict.get_set]
    split
    next hid =>
      rw [hid, hnew] at hget
      cases hget
    · exact hget
  | consumed r hrequest hreview happroved =>
    by_cases hid : id ∈ r.intents.map Prod.fst
    · obtain ⟨at_, hafter⟩ := get_consumeAll_of_mem call.clock hid 0 hget
      refine ⟨_, hafter, rfl, fun hused => ?_⟩
      obtain ⟨intent, hintent, rfl⟩ := List.mem_map.1 hid
      obtain ⟨item', hget', happroves⟩ := happroved intent hintent
      rw [hget] at hget'
      cases hget'
      exact absurd (approves_iff.1 happroves).unconsumed hused
    · exact ⟨item, (get_consumeAll_of_notMem hid 0 state.signatures).trans hget, rfl, fun _ => rfl⟩
  | _ => exact ⟨item, hget, rfl, fun _ => rfl⟩

theorem Change.consumed_by (h : Change host call state state' answer) (hnot : ¬ ConsumedIn state id)
    (hused : ConsumedIn state' id) :
    ∃ r, call.request = .consumeSignature r ∧ answer = .consumed true ∧ id ∈ r.intents.map Prod.fst := by
  cases h with
  | saved r operations hrequest hnew hunkeyed hkeyed =>
    obtain ⟨item, hget, hne⟩ := hused
    rw [OrderedDict.get_set] at hget
    split at hget
    · cases hget
      exact absurd rfl hne
    · exact absurd ⟨item, hget, hne⟩ hnot
  | consumed r hrequest hreview happroved =>
    refine ⟨r, hrequest, rfl, ?_⟩
    by_contra hid
    obtain ⟨item, hget, hne⟩ := hused
    exact hnot ⟨item, (get_consumeAll_of_notMem hid 0 state.signatures).symm.trans hget, hne⟩
  | _ => exact absurd hused hnot

end

/-! ### Whole runs -/

/-- The call uses the signature up. -/
def Consumes (e : AuthorityEvent) (id : String) : Prop :=
  ¬ ConsumedIn (readState e.before) id ∧ ConsumedIn (readState e.after) id

/-- What the authority promises of the signatures in the calls it has served. -/
structure SignaturesKept (host : Host) (events : List AuthorityEvent) : Prop where
  /-- No call removes, alters or restores a signature, and so no sequence of calls does. -/
  kept : ∀ e ∈ events, SignaturesLater (readState e.before) (readState e.after)
  kept_later : events.Pairwise fun e e' => SignaturesLater (readState e.after) (readState e'.before)
  /-- A signature is used up by a consumption that names it and answers `True`, and once. -/
  consumed_by : ∀ e ∈ events, ∀ id, Consumes e id → ∃ r, e.call.request = .consumeSignature r ∧
    e.answer = .ok (.consumed true) ∧ id ∈ r.intents.map Prod.fst
  consumed_once : events.Pairwise fun e e' => ∀ id, Consumes e id → ¬ Consumes e' id
  /-- A consumption answers `True` only for what the document says, and uses all of it up. -/
  granted : ∀ e ∈ events, ∀ r, e.call.request = .consumeSignature r → e.answer = .ok (.consumed true) →
    ApprovedIn host (readState e.before) (r.signatureId, r.expected) ∧
      (∀ review ∈ r.review, Reviewed (readState e.before) r.signatureId r.expected review.1 review.2 ∧
        ApprovedIn host (readState e.before) review) ∧
      ∀ intent ∈ r.intents, Consumes e intent.1
  /-- A consumption that answers `False` changes nothing. -/
  refused : ∀ e ∈ events, ∀ r, e.call.request = .consumeSignature r → e.answer = .ok (.consumed false) →
    readState e.after = readState e.before
  /-- A key that a signer uses again gives the signature it gave before, and stores none. -/
  replayed : events.Pairwise fun e e' => ∀ r r' key record record', e.call.request = .saveSignature r →
    e'.call.request = .saveSignature r' → r.record.signerSubject = r'.record.signerSubject →
    r.idempotencyKey = some key → r'.idempotencyKey = some key → e.answer = .ok (.signature record) →
    e'.answer = .ok (.signature record') → record' = record ∧ readState e'.after = readState e'.before

section

variable {host : Host} {calls : List Call} {e : AuthorityEvent}

theorem keeps_true : KeepsInv (step host) (fun _ _ => True) fun _ _ => True := fun _ _ _ _ _ => trivial

theorem follows_signaturesLater : Follows (step host) (fun _ _ => True) (fun _ _ => True)
    fun stored stored' => SignaturesLater (readState stored) (readState stored') := by
  intro past stored call _ _
  rcases step_change host stored call with ⟨answer, -, hchange⟩ | ⟨hsame, -⟩
  · exact hchange.signaturesLater
  · rw [hsame]
    exact .refl _

theorem signaturesLater_of_mem (he : e ∈ authorityHistory host calls) :
    SignaturesLater (readState e.before) (readState e.after) := by
  rw [after_of_mem he]
  exact follows_signaturesLater [] e.before e.call trivial fun _ _ => trivial

theorem signaturesLater_pairwise (host : Host) (calls : List Call) :
    (authorityHistory host calls).Pairwise fun e e' => SignaturesLater (readState e.after) (readState e'.before) :=
  history_pairwise (fun _ _ => True) _ keeps_true (fun _ => .refl _) (fun h h' => h.trans h')
    follows_signaturesLater trivial (List.pairwise_of_forall fun _ _ => trivial)

theorem consumed_of_mem (he : e ∈ authorityHistory host calls) {r : ConsumeSignature}
    (hrequest : e.call.request = .consumeSignature r) :
    e.answer = .ok (.consumed (consumeSignature host e.call.clock r (readState e.before)).2) ∧
      readState e.after = (consumeSignature host e.call.clock r (readState e.before)).1 := by
  have hperform : perform host e.call (readState e.before) = .ok
      ((consumeSignature host e.call.clock r (readState e.before)).1,
        .consumed (consumeSignature host e.call.clock r (readState e.before)).2) := by
    rw [perform, hrequest]
  rw [answer_of_mem he, after_of_mem he, step_ok hperform]
  exact ⟨rfl, rfl⟩

theorem saved_of_mem (he : e ∈ authorityHistory host calls) {r : SaveSignature} {key : String}
    (hrequest : e.call.request = .saveSignature r) (hkey : r.idempotencyKey = some key)
    {record : SignatureRecord} (hanswer : e.answer = .ok (.signature record)) :
    ∃ operation signatureId, operation.target = .signatureId signatureId ∧
      (∃ item, (readState e.after).signatures.get signatureId = some item ∧ item.record = record) ∧
      (readState e.after).operations.get (host.signatureOperation r.record.signerSubject key) = some operation ∧
      ((readState e.before).operations.get (host.signatureOperation r.record.signerSubject key) = none ∨
        readState e.after = readState e.before) := by
  have hperform := perform_of_mem he hanswer
  rw [perform, hrequest] at hperform
  obtain ⟨⟨state', record'⟩, hsave, heq⟩ := map_eq_ok.1 hperform
  have hstate : state' = readState e.after := congrArg Prod.fst heq
  have hrecord : record' = record := Answer.signature.inj (congrArg Prod.snd heq)
  rw [hstate, hrecord] at hsave
  rcases saveSignatureIdempotent_eq_ok hsave with
    ⟨hsame, key', operation, signatureId, item, hkey', hoperation, htarget, hget, hreturned⟩ |
    ⟨hreturned, hnew, operations, hsaved, -, hkeyed⟩
  · rw [hkey] at hkey'
    cases hkey'
    rw [hsame]
    exact ⟨operation, signatureId, htarget, ⟨item, hget, hreturned.symm⟩, hoperation, .inr rfl⟩
  · obtain ⟨hfree, digest, at_, hset⟩ := hkeyed key hkey
    refine ⟨⟨digest, .signatureId r.record.signatureId, at_⟩, r.record.signatureId, rfl, ⟨⟨r.record, none⟩, ?_, ?_⟩,
      ?_, .inl hfree⟩
    · rw [hsaved, OrderedDict.get_set, if_pos rfl]
    · exact hreturned.symm
    · rw [hsaved]
      show operations.get _ = _
      rw [hset, OrderedDict.get_set, if_pos rfl]

theorem replayed_of_later {e' : AuthorityEvent} (he : e ∈ authorityHistory host calls)
    (he' : e' ∈ authorityHistory host calls) (hlater : SignaturesLater (readState e.after) (readState e'.before))
    {r r' : SaveSignature} {key : String} {record record' : SignatureRecord}
    (hrequest : e.call.request = .saveSignature r) (hrequest' : e'.call.request = .saveSignature r')
    (hsigner : r.record.signerSubject = r'.record.signerSubject) (hkey : r.idempotencyKey = some key)
    (hkey' : r'.idempotencyKey = some key) (hanswer : e.answer = .ok (.signature record))
    (hanswer' : e'.answer = .ok (.signature record')) :
    record' = record ∧ readState e'.after = readState e'.before := by
  obtain ⟨operation, id, htarget, ⟨item, hget, hitem⟩, hused, -⟩ := saved_of_mem he hrequest hkey hanswer
  obtain ⟨operation', id', htarget', ⟨item', hget', hitem'⟩, hused', hreplay⟩ :=
    saved_of_mem he' hrequest' hkey' hanswer'
  rw [← hsigner] at hused' hreplay
  have hfound := hlater.operations _ operation hused
  rcases hreplay with hfree | hsame
  · rw [hfound] at hfree
    cases hfree
  · rw [hsame] at hused' hget'
    rw [hfound] at hused'
    cases hused'
    rw [htarget] at htarget'
    cases htarget'
    obtain ⟨item'', hget'', hrecord, -⟩ := hlater.signatures id item hget
    rw [hget'] at hget''
    cases hget''
    exact ⟨hitem'.symm.trans (hrecord.trans hitem), hsame⟩

/-- Signatures are single-use, exact and independently reviewed, in whatever order the calls are served. -/
theorem signatures_kept (host : Host) (calls : List Call) : SignaturesKept host (authorityHistory host calls) where
  kept e he := signaturesLater_of_mem he
  kept_later := signaturesLater_pairwise host calls
  consumed_by e he id hconsumes := by
    obtain ⟨hnot, hused⟩ := hconsumes
    rcases change_of_mem he with ⟨answer, hanswer, hchange⟩ | ⟨hsame, -⟩
    · obtain ⟨r, hrequest, htrue, hid⟩ := hchange.consumed_by hnot hused
      exact ⟨r, hrequest, hanswer.trans (by rw [htrue]), hid⟩
    · rw [hsame] at hused
      exact absurd hused hnot
  consumed_once := by
    refine (signaturesLater_pairwise host calls).imp fun {e e'} hlater id hconsumes hconsumes' => ?_
    exact hconsumes'.1 (hlater.consumed hconsumes.2)
  granted e he r hrequest htrue := by
    obtain ⟨hanswer, hafter⟩ := consumed_of_mem he hrequest
    rw [htrue] at hanswer
    have hconsumed : (consumeSignature host e.call.clock r (readState e.before)).2 = true :=
      (Answer.consumed.inj (Except.ok.inj hanswer)).symm
    obtain ⟨hreview, happroved⟩ := consumeSignature_eq_true_iff.1 hconsumed
    have hstate : readState e.after =
      { readState e.before with
        signatures := consumeAll e.call.clock 0 r.intents (readState e.before).signatures } := by
      rw [hafter]
      unfold consumeSignature at hconsumed ⊢
      split at hconsumed
      next hall => rw [if_pos hall]
      · cases hconsumed
    refine ⟨happroved _ List.mem_cons_self, fun review hmem => ⟨hreview review hmem, ?_⟩, fun intent hintent => ?_⟩
    · exact happroved review (List.mem_cons_of_mem _ (Option.mem_toList.2 hmem))
    · obtain ⟨item, hget, hexact⟩ := happroved intent hintent
      constructor
      · rintro ⟨item', hget', hne⟩
        rw [hget] at hget'
        cases hget'
        exact hne hexact.unconsumed
      · obtain ⟨at_, hconsumedAt⟩ :=
          get_consumeAll_of_mem e.call.clock (List.mem_map_of_mem hintent) 0 hget
        rw [hstate]
        exact ⟨_, hconsumedAt, by simp⟩
  refused e he r hrequest hfalse := by
    obtain ⟨hanswer, hafter⟩ := consumed_of_mem he hrequest
    rw [hfalse] at hanswer
    have hrefused : (consumeSignature host e.call.clock r (readState e.before)).2 = false :=
      (Answer.consumed.inj (Except.ok.inj hanswer)).symm
    rw [hafter]
    unfold consumeSignature at hrefused ⊢
    split at hrefused
    · cases hrefused
    next hall => rw [if_neg hall]
  replayed := by
    refine (signaturesLater_pairwise host calls).imp_of_mem fun {e e'} he he' hlater r r' key record record' hr hr'
      hsigner hkey hkey' hanswer hanswer' => ?_
    exact replayed_of_later he he' hlater hr hr' hsigner hkey hkey' hanswer hanswer'

end

end Phlo.Identity
