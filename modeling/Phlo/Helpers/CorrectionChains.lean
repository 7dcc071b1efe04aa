import Mathlib.Data.List.Chain
import Phlo.Helpers.Rows
import Phlo.Library.FollowedLinks

/-!
# Chains of corrections

`correction_chain` starts at a record and goes on to the first row that corrects it, then to the first
row with that row's id, until no row corrects the record it has reached.

* `correctionLoop` — the loop of the source, with fuel; a result of `error` is a raised exception.
-/

namespace Phlo.Helpers

open Phlo.Library Relation

variable {V : Type} [PyValue V]

/-- The fields that hold a record's id and the id it corrects. -/
structure CorrectionFields where
  idField : String := "record_id"
  correctsField : String := "corrects_record_id"

variable (f : CorrectionFields) (rows : List (Row V))

def recordWithId (id : String) : Option (Row V) := rows.find? fun row => row.text f.idField == id

def correctingRow (id : String) : Option (Row V) :=
  rows.find? fun row => row.statedText f.correctsField == id

/-- `row[id_field]` as a text; the error is the missing key. -/
def idOf (row : Row V) : Except String String :=
  match row.get f.idField with
  | some value => .ok (PyValue.str value)
  | none => .error f.idField

/-- The id to go on with from a record; there are rows to compare, the record is one of them. -/
def nextId (current : Row V) : Except String (Option String) := do
  let id ← idOf f current
  match correctingRow f rows id with
  | some row => return some (← idOf f row)
  | none => return none

/-- The loop of `correction_chain`; none when the fuel runs out. -/
def correctionLoop : ℕ → Option String → List (Row V) → Option (Except String (List (Row V)))
  | 0, _, _ => none
  | _ + 1, none, chain => some (.ok chain)
  | fuel + 1, some id, chain =>
    match recordWithId f rows id with
    | none => some (.ok chain)
    | some current =>
      match nextId f rows current with
      | .error e => some (.error e)
      | .ok next => correctionLoop fuel next (chain ++ [current])

/-- `correction_chain` -/
def correctionChain (originalId : String) (fuel : ℕ) : Option (Except String (List (Row V))) :=
  correctionLoop f rows fuel (some originalId) []

/-! ### The records the loop collects -/

/-- The records collected from an id on, when the loop ends. -/
inductive Trail : Option String → List (Row V) → Prop
  | stop : Trail none []
  | absent {id : String} : recordWithId f rows id = none → Trail (some id) []
  | step {id : String} {next : Option String} {current : Row V} {rest : List (Row V)} :
      recordWithId f rows id = some current → nextId f rows current = .ok next → Trail next rest →
      Trail (some id) (current :: rest)

variable {f rows}

variable {chain : List (Row V)} {cur : Option String} {id : String}

theorem correctionLoop_ok_iff {seen : List (Row V)} :
    (∃ fuel, correctionLoop f rows fuel cur seen = some (.ok chain)) ↔
      ∃ rest, Trail f rows cur rest ∧ chain = seen ++ rest := by
  constructor
  · intro h
    obtain ⟨fuel, h⟩ := h
    induction fuel generalizing cur seen with
    | zero => cases h
    | succ fuel ih =>
      cases cur with
      | none =>
        cases h
        exact ⟨[], .stop, (List.append_nil _).symm⟩
      | some id =>
        rw [correctionLoop] at h
        split at h
        next hnone =>
          cases h
          exact ⟨[], .absent hnone, (List.append_nil _).symm⟩
        next current hcurrent =>
          split at h
          · cases h
          next next hnext =>
            obtain ⟨rest, htrail, hchain⟩ := ih h
            exact ⟨current :: rest, .step hcurrent hnext htrail, by rw [hchain, List.append_assoc]; rfl⟩
  · intro h
    obtain ⟨rest, htrail, hchain⟩ := h
    induction htrail generalizing seen with
    | stop => exact ⟨1, by rw [hchain, List.append_nil]; rfl⟩
    | absent hnone => exact ⟨1, by rw [hchain, List.append_nil, correctionLoop, hnone]⟩
    | @step id next current rest hcurrent hnext _ ih =>
      have hsplit : chain = (seen ++ [current]) ++ rest := by rw [hchain, List.append_assoc]; rfl
      obtain ⟨fuel, hfuel⟩ := ih hsplit
      refine ⟨fuel + 1, ?_⟩
      rw [correctionLoop, hcurrent]
      simp only [hnext]
      exact hfuel

theorem Trail.unique {chain' : List (Row V)} (h : Trail f rows cur chain) (h' : Trail f rows cur chain') :
    chain = chain' := by
  induction h generalizing chain' with
  | stop =>
    cases h'
    rfl
  | absent hnone =>
    cases h' with
    | absent _ => rfl
    | step hcurrent _ _ =>
      rw [hnone] at hcurrent
      cases hcurrent
  | step hcurrent hnext _ ih =>
    cases h' with
    | absent hnone =>
      rw [hnone] at hcurrent
      cases hcurrent
    | step hcurrent' hnext' hrest' =>
      rw [hcurrent] at hcurrent'
      cases hcurrent'
      rw [hnext] at hnext'
      cases hnext'
      rw [ih hrest']

theorem recordWithId_text {current : Row V} (h : recordWithId f rows id = some current) :
    current.text f.idField = id := by
  simpa using List.find?_some h

theorem Trail.from (h : Trail f rows cur chain) {record : Row V} (hrecord : record ∈ chain) :
    ∃ rest, record :: rest <:+ chain ∧ Trail f rows (some (record.text f.idField)) (record :: rest) := by
  induction h with
  | stop => cases hrecord
  | absent _ => cases hrecord
  | @step id next current rest hcurrent hnext htrail ih =>
    rcases List.mem_cons.1 hrecord with rfl | hrecord
    · refine ⟨rest, List.suffix_refl _, ?_⟩
      rw [recordWithId_text hcurrent]
      exact .step hcurrent hnext htrail
    · obtain ⟨rest', hsuffix, htrail'⟩ := ih hrecord
      exact ⟨rest', hsuffix.trans (List.suffix_cons _ _), htrail'⟩

/-- No record is collected twice, since the loop would not have ended. -/
theorem Trail.nodup (h : Trail f rows cur chain) : chain.Nodup := by
  induction h with
  | stop => exact List.nodup_nil
  | absent _ => exact List.nodup_nil
  | @step id next current rest hcurrent hnext htrail ih =>
    refine List.nodup_cons.2 ⟨fun hmem => ?_, ih⟩
    obtain ⟨rest', hsuffix, htrail'⟩ := htrail.from hmem
    rw [recordWithId_text hcurrent] at htrail'
    have hsame := htrail'.unique (.step hcurrent hnext htrail)
    have hlength := hsuffix.length_le
    rw [hsame, List.length_cons] at hlength
    omega

/-! ### Chains, and the rows that make one -/

variable (f rows)

def Names (row record : Row V) : Prop :=
  ∃ stated id, row.get f.correctsField = some stated ∧ record.get f.idField = some id ∧
    PyValue.str stated = PyValue.str id

/-- Distinct rows, the first with the original id, each later one naming its predecessor. -/
structure IsCorrectionChain (originalId : String) (chain : List (Row V)) : Prop where
  mem : ∀ record ∈ chain, record ∈ rows
  nodup : chain.Nodup
  first : ∀ record, chain.head? = some record → record.text f.idField = originalId
  corrects : chain.IsChain fun record row => Names f row record

def corrector (id : String) : Option String := do
  let _ ← recordWithId f rows id
  let row ← correctingRow f rows id
  (row.get f.idField).map PyValue.str

def Met (originalId id : String) : Prop := ReflTransGen (LinksTo (corrector f rows)) originalId id

/-- On the way from the original id no id comes back, the rows have ids, and the first row with an id
corrects the id before it. -/
structure Traceable (originalId : String) : Prop where
  record : ∀ id, Met f rows originalId id → ∀ current, recordWithId f rows id = some current →
    (current.get f.idField).isSome = true
  correcting : ∀ id, Met f rows originalId id → ∀ current, recordWithId f rows id = some current →
    ∀ row, correctingRow f rows id = some row → (row.get f.idField).isSome = true
  acyclic : ∀ id, Met f rows originalId id → ¬TransGen (LinksTo (corrector f rows)) id id
  named : ∀ id, Met f rows originalId id → ∀ next, corrector f rows id = some next →
    ∀ current, recordWithId f rows id = some current →
      ∀ row, recordWithId f rows next = some row → Names f row current

variable {f rows} {originalId : String}

theorem nextId_of_record {current : Row V} (hcurrent : recordWithId f rows id = some current) {next : Option String} :
    nextId f rows current = .ok next ↔ (current.get f.idField).isSome = true ∧
        (∀ row, correctingRow f rows id = some row → (row.get f.idField).isSome = true) ∧
        corrector f rows id = next := by
  have htext := recordWithId_text hcurrent
  cases hid : current.get f.idField with
  | none => simp [nextId, idOf, hid, bind, Except.bind]
  | some value =>
    have hvalue : PyValue.str value = id := by rw [← Row.text_of_get hid, htext]
    cases hrow : correctingRow f rows id with
    | none =>
      simp [nextId, idOf, hid, bind, Except.bind, hvalue, hrow, corrector, hcurrent, pure, Except.pure]
    | some row =>
      cases hnext : row.get f.idField with
      | none => simp [nextId, idOf, hid, bind, Except.bind, hvalue, hrow, hnext]
      | some value' =>
        simp [nextId, idOf, hid, bind, Except.bind, hvalue, hrow, hnext, corrector, hcurrent, pure, Except.pure]

theorem recordWithId_of_corrector {next : String} (h : corrector f rows id = some next) :
    ∃ row, recordWithId f rows next = some row := by
  simp only [corrector, bind, Option.bind_eq_some_iff, Option.map_eq_some_iff] at h
  obtain ⟨current, -, row, hrow, value, hvalue, rfl⟩ := h
  have hmem := List.mem_of_find?_eq_some hrow
  refine Option.isSome_iff_exists.1 (List.find?_isSome.2 ⟨row, hmem, ?_⟩)
  rw [Row.text_of_get hvalue, beq_self_eq_true]

theorem corrector_mem {a b : String} (h : corrector f rows a = some b) :
    b ∈ rows.map fun row => row.text f.idField := by
  obtain ⟨row, hrow⟩ := recordWithId_of_corrector h
  exact List.mem_map.2 ⟨row, List.mem_of_find?_eq_some hrow, recordWithId_text hrow⟩

theorem Trail.met (h : Trail f rows (some id) chain) {other : String} (hmet : Met f rows id other) :
    ∃ rest, Trail f rows (some other) rest ∧ rest <:+ chain := by
  induction hmet with
  | refl => exact ⟨chain, h, List.suffix_refl _⟩
  | @tail a b _ hlink ih =>
    obtain ⟨rest, htrail, hsuffix⟩ := ih
    have hcorrector : corrector f rows a = some b := hlink
    cases htrail with
    | absent hnone => simp [corrector, hnone] at hcorrector
    | step hcurrent hnext hrest =>
      rw [← ((nextId_of_record hcurrent).1 hnext).2.2, hcorrector] at hrest
      exact ⟨_, hrest, (List.suffix_cons _ _).trans hsuffix⟩

theorem Trail.acc (h : Trail f rows cur chain) :
    ∀ id, cur = some id → Acc (fun b a => LinksTo (corrector f rows) a b) id := by
  induction h with
  | stop =>
    intro id hid
    cases hid
  | @absent id hnone =>
    intro _ hid
    cases hid
    refine Acc.intro id fun b hb => ?_
    have hcorrector : corrector f rows id = some b := hb
    simp [corrector, hnone] at hcorrector
  | @step id next current rest hcurrent hnext _ ih =>
    intro _ hid
    cases hid
    refine Acc.intro id fun b hb => ih b ?_
    rw [← ((nextId_of_record hcurrent).1 hnext).2.2]
    exact hb

theorem Trail.traceable (h : Trail f rows (some originalId) chain)
    (hcorrects : chain.IsChain fun record row => Names f row record) : Traceable f rows originalId := by
  have hnext : ∀ id, Met f rows originalId id → ∀ current, recordWithId f rows id = some current →
      (current.get f.idField).isSome = true ∧
        ∀ row, correctingRow f rows id = some row → (row.get f.idField).isSome = true := by
    intro id hmet current hcurrent
    obtain ⟨rest, htrail, -⟩ := h.met hmet
    cases htrail with
    | absent hnone =>
      rw [hnone] at hcurrent
      cases hcurrent
    | step hcurrent' hnext _ =>
      rw [hcurrent] at hcurrent'
      cases hcurrent'
      have hfacts := (nextId_of_record hcurrent).1 hnext
      exact ⟨hfacts.1, hfacts.2.1⟩
  refine ⟨fun id hmet current hcurrent => (hnext id hmet current hcurrent).1,
    fun id hmet current hcurrent => (hnext id hmet current hcurrent).2, fun id hmet => ?_,
    fun id hmet next hlink current hcurrent row hrow => ?_⟩
  · obtain ⟨rest, htrail, -⟩ := h.met hmet
    exact not_cyclic_of_acc (htrail.acc id rfl)
  · obtain ⟨rest, htrail, hsuffix⟩ := h.met hmet
    have hchain := hcorrects.suffix hsuffix
    cases htrail with
    | absent hnone =>
      rw [hnone] at hcurrent
      cases hcurrent
    | step hcurrent' hnext hrest =>
      rw [hcurrent] at hcurrent'
      cases hcurrent'
      rw [← ((nextId_of_record hcurrent).1 hnext).2.2, hlink] at hrest
      cases hrest with
      | absent hnone =>
        rw [hnone] at hrow
        cases hrow
      | step hrow' _ _ =>
        rw [hrow] at hrow'
        cases hrow'
        exact (List.isChain_cons_cons.1 hchain).1

theorem Traceable.trail (h : Traceable f rows originalId) (hmet : Met f rows originalId id) :
    ∃ chain, Trail f rows (some id) chain ∧ chain.IsChain fun record row => Names f row record := by
  have hacc : Acc (fun b a => LinksTo (corrector f rows) a b) id :=
    acc_of_acyclic (fun a b hlink => corrector_mem hlink) fun b hb => h.acyclic b (hmet.trans hb)
  induction hacc with
  | intro id _ ih =>
    cases hcurrent : recordWithId f rows id with
    | none => exact ⟨[], .absent hcurrent, List.isChain_nil⟩
    | some current =>
      have hnext := (nextId_of_record hcurrent).2
        ⟨h.record id hmet current hcurrent, h.correcting id hmet current hcurrent, rfl⟩
      cases hlink : corrector f rows id with
      | none =>
        rw [hlink] at hnext
        exact ⟨[current], .step hcurrent hnext .stop, List.isChain_singleton _⟩
      | some next =>
        rw [hlink] at hnext
        obtain ⟨chain, htrail, hchain⟩ := ih next hlink (hmet.tail hlink)
        refine ⟨current :: chain, .step hcurrent hnext htrail, ?_⟩
        cases htrail with
        | absent hnone => exact List.isChain_singleton _
        | step hrow _ _ =>
          exact List.isChain_cons_cons.2 ⟨h.named id hmet next hlink current hcurrent _ hrow, hchain⟩

theorem Trail.mem (h : Trail f rows cur chain) : ∀ record ∈ chain, record ∈ rows := by
  induction h with
  | stop => exact fun _ hrecord => absurd hrecord List.not_mem_nil
  | absent _ => exact fun _ hrecord => absurd hrecord List.not_mem_nil
  | step hcurrent _ _ ih =>
    intro record hrecord
    rcases List.mem_cons.1 hrecord with rfl | hrecord
    · exact List.mem_of_find?_eq_some hcurrent
    · exact ih record hrecord

/-- `correction_chain` returns a chain of corrections exactly when, on the way from the original id, no
id comes back, the rows have ids, and the first row with an id corrects the id before it. -/
theorem correction_chain_iff (f : CorrectionFields) (rows : List (Row V)) (originalId : String) :
    (∃ fuel chain, correctionChain f rows originalId fuel = some (.ok chain) ∧
      IsCorrectionChain f rows originalId chain) ↔ Traceable f rows originalId := by
  constructor
  · intro h
    obtain ⟨fuel, chain, hchain, hcorrection⟩ := h
    obtain ⟨rest, htrail, rfl⟩ := correctionLoop_ok_iff.1 ⟨fuel, hchain⟩
    exact htrail.traceable hcorrection.corrects
  · intro h
    obtain ⟨chain, htrail, hcorrects⟩ := h.trail ReflTransGen.refl
    obtain ⟨fuel, hfuel⟩ := correctionLoop_ok_iff.2 ⟨chain, htrail, rfl⟩
    refine ⟨fuel, chain, hfuel, htrail.mem, htrail.nodup, fun record hhead => ?_, hcorrects⟩
    cases htrail with
    | absent _ => cases hhead
    | step hcurrent _ _ =>
      cases hhead
      exact recordWithId_text hcurrent

/-! ### Two records that correct one another -/

def correction (id : String) (corrects : Cell) : Row Cell :=
  .ofList [("record_id", .text id), ("corrects_record_id", corrects)]

def mutualCorrections : List (Row Cell) := [correction "1" (.text "2"), correction "2" (.text "1")]

/-- The loop goes round between the two and does not end, whatever the fuel. -/
theorem mutual_corrections_loop : ¬∃ fuel chain, correctionChain {} mutualCorrections "1" fuel = some (.ok chain) ∧
      IsCorrectionChain {} mutualCorrections "1" chain := by
  intro h
  obtain ⟨fuel, chain, hchain, -⟩ := h
  obtain ⟨rest, htrail, -⟩ := correctionLoop_ok_iff.1 ⟨fuel, hchain⟩
  have hforth : LinksTo (corrector {} mutualCorrections) "1" "2" := by
    show corrector _ _ _ = _
    decide +kernel
  have hback : LinksTo (corrector {} mutualCorrections) "2" "1" := by
    show corrector _ _ _ = _
    decide +kernel
  exact not_cyclic_of_acc (htrail.acc "1" rfl) (TransGen.tail (TransGen.single hforth) hback)

end Phlo.Helpers
