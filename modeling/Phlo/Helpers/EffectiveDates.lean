import Mathlib.Data.List.Pairwise
import Phlo.Helpers.IsoDates
import Phlo.Helpers.Rows
import Phlo.Helpers.WhereClauses
import Phlo.Library.Fallible

/-!
# Effective-dated reference rows

A reference row covers the times from `valid_from` on and before `valid_to`.  `row_effective_at` compares the
days of the values, `valid_at_predicate` renders a comparison of the values themselves.

* `rowEffectiveAt`, `effectiveJoin`, `assertNoReferenceGap`, `validAtPredicate` — the helpers;
* `covers`, `applies` — the windows as instants;
* `SameByDay` — what the days of the values do not get wrong.
-/

namespace Phlo.Helpers

open Phlo.Library RunEvidence

/-! ### The helpers -/

/-- A `date`, a naive `datetime` or a `str`. -/
inductive Moment where
  | date (day : ℤ)
  | datetime (wall : ℤ)
  | text (s : List Char)
  deriving DecidableEq

/-- The values of the rows; a value that is no moment is `None`. -/
class TimedValue (V : Type) extends PyValue V where
  moment : V → Option Moment

/-- `ValueError` and `KeyError` -/
inductive EffectiveError where
  | invalidIsoformat (text : List Char)
  | missing (field : String)
  deriving DecidableEq

/-- `_coerce_date` -/
def coerceDate : Option Moment → Except EffectiveError (Option ℤ)
  | none => .ok none
  | some (.datetime wall) => .ok (some (wall / dayLength))
  | some (.date day) => .ok (some day)
  | some (.text s) =>
    match dateFromIsoformat s with
    | some day => .ok (some day)
    | none => .error (.invalidIsoformat s)

section

variable {V : Type} [TimedValue V]

/-- `row.get(field)`, as a moment -/
def Row.moment (row : Row V) (field : String) : Option Moment := (row.get field).bind TimedValue.moment

/-- `row_effective_at` -/
def rowEffectiveAt (row : Row V) (asOf : Option Moment) (startField endField : String) :
    Except EffectiveError Bool := do
  match ← coerceDate asOf with
  | none => return false
  | some target =>
    let start ← coerceDate (row.moment startField)
    let stop ← coerceDate (row.moment endField)
    return start.all (· ≤ target) && stop.all (target < ·)

/-- `row[field]` -/
def Row.field (row : Row V) (field : String) : Except EffectiveError V :=
  match row.get field with
  | some value => .ok value
  | none => .error (.missing field)

def isEffectiveFor (factKey referenceKey factTime : String) (fact ref : Row V) : Except EffectiveError Bool := do
  let key ← ref.field referenceKey
  let wanted ← fact.field factKey
  if PyValue.str key = PyValue.str wanted then
    let time ← fact.field factTime
    rowEffectiveAt ref (TimedValue.moment time) "valid_from" "valid_to"
  else return false

def attached (refPrefix : String) (fact ref : Row V) : Row V :=
  fact.setAll (ref.items.map fun item => (refPrefix ++ item.1, item.2))

/-- `effective_join` -/
def effectiveJoin (facts references : List (Row V)) (factKey referenceKey factTime refPrefix : String) :
    Except EffectiveError (List (Row V)) :=
  facts.mapM fun fact => do
    match ← references.findM? (isEffectiveFor factKey referenceKey factTime fact) with
    | some ref => return attached refPrefix fact ref
    | none => return fact

def assertNoReferenceGap (facts references : List (Row V)) (factKey referenceKey factTime : String) :
    Except EffectiveError (List (Row V)) :=
  match facts with
  | [] => .ok []
  | fact :: facts => do
    let hasMatch ← references.anyM (isEffectiveFor factKey referenceKey factTime fact)
    let missing ← assertNoReferenceGap facts references factKey referenceKey factTime
    return if hasMatch then missing else fact :: missing

end

/-- `str(value)` -/
def Moment.str : Moment → List Char
  | .date day => isoDate day
  | .datetime wall => isoDatetime ' ' wall
  | .text s => s

/-- `valid_at_predicate` -/
def validAtPredicate (value : Moment) (startColumn endColumn : String) : Except ConfigError (List Char) := do
  let start ← tableRefSql startColumn
  let stop ← tableRefSql endColumn
  let rendered := literal (String.ofList value.str)
  return ("(" ++ start ++ " IS NULL OR " ++ start ++ " <= " ++ rendered ++ ") AND (" ++ stop ++
    " IS NULL OR " ++ rendered ++ " < " ++ stop ++ ")").toList

/-! ### Windows of instants -/

def Moment.instant? : Moment → Option ℤ
  | .date day => some (day * dayLength)
  | .datetime wall => some wall
  | .text s => instantFromText s

def Moment.Valid : Moment → Prop
  | .date day => IsDay day
  | .datetime wall => InCalendar wall
  | .text s => (∃ day, IsDay day ∧ s = isoDate day) ∨ ∃ wall, InCalendar wall ∧ s = isoDatetime 'T' wall

def Moment.IsTimeText (m : Moment) : Prop := ∃ wall, InCalendar wall ∧ m = .text (isoDatetime 'T' wall)

section

variable {V : Type} [TimedValue V]

def Row.instant? (row : Row V) (field : String) : Option ℤ := (row.moment field).bind Moment.instant?

def covers (ref : Row V) (t : ℤ) : Bool :=
  (ref.instant? "valid_from").all (· ≤ t) && (ref.instant? "valid_to").all (t < ·)

def applies (factKey referenceKey factTime : String) (fact ref : Row V) : Bool :=
  (ref.get referenceKey).map PyValue.str == (fact.get factKey).map PyValue.str &&
    (fact.instant? factTime).any (covers ref)

/-- What an atom of a rendered predicate is worth on a row: a comparison of instants, unknown if there is
nothing to compare. -/
def sqlAtom (row : Row V) : List QueryToken → Truth
  | [.word column, .word is, .word null] =>
    if is = "IS".toList ∧ null = "NULL".toList then .ofBool (row.moment (String.ofList column)).isNone
    else .unknown
  | [.word column, .symbol '<', .symbol '=', .quoted '\'' text] =>
    match row.instant? (String.ofList column), instantFromText text with
    | some a, some b => .ofBool (a ≤ b)
    | _, _ => .unknown
  | [.quoted '\'' text, .symbol '<', .word column] =>
    match instantFromText text, row.instant? (String.ofList column) with
    | some a, some b => .ofBool (a < b)
    | _, _ => .unknown
  | _ => .unknown

end

/-! ### Days and instants -/

variable {m : Moment} {t : ℤ}

theorem Moment.Valid.instant?_isSome (h : m.Valid) : ∃ t, m.instant? = some t := by
  cases m with
  | date day => exact ⟨_, rfl⟩
  | datetime wall => exact ⟨_, rfl⟩
  | text s =>
    rcases h with ⟨day, hday, hs⟩ | ⟨wall, hwall, hs⟩
    · exact ⟨_, hs ▸ instantFromText_isoDate hday⟩
    · exact ⟨_, hs ▸ instantFromText_isoDatetime hwall (.inl rfl)⟩

theorem coerceDate_of_valid (hm : m.Valid) (htext : ¬m.IsTimeText) (ht : m.instant? = some t) :
    coerceDate (some m) = .ok (some (t / dayLength)) := by
  have hlength : dayLength ≠ 0 := by decide
  cases m with
  | datetime wall => cases ht; rfl
  | date day =>
    cases ht
    rw [Int.mul_ediv_cancel day hlength]
    rfl
  | text s =>
    rcases hm with ⟨day, hday, hs⟩ | ⟨wall, hwall, hs⟩
    · rw [hs] at ht ⊢
      have hinstant : instantFromText (isoDate day) = some t := ht
      rw [instantFromText_isoDate hday] at hinstant
      cases hinstant
      rw [coerceDate, dateFromIsoformat_isoDate hday, Int.mul_ediv_cancel day hlength]
    · exact absurd ⟨wall, hwall, by rw [hs]⟩ htext

theorem coerceDate_some_ne (m : Moment) : coerceDate (some m) ≠ .ok none := by
  cases m with
  | date day => exact nofun
  | datetime wall => exact nofun
  | text s =>
    intro h
    rw [coerceDate] at h
    split at h <;> cases h

theorem coerceDate_of_isTimeText (h : m.IsTimeText) : ∃ error, coerceDate (some m) = .error error := by
  have ⟨wall, hwall, hm⟩ := h
  rw [hm, coerceDate, dateFromIsoformat_isoDatetime hwall]
  exact ⟨_, rfl⟩

def ValidEnd (m : Option Moment) : Prop := ∀ moment ∈ m, moment.Valid

theorem coerceDate_of_validEnd {m : Option Moment} (hm : ValidEnd m) (htext : ∀ moment ∈ m, ¬moment.IsTimeText) :
    coerceDate m = .ok ((m.bind Moment.instant?).map (· / dayLength)) := by
  cases m with
  | none => rfl
  | some moment =>
    have ⟨t, ht⟩ := (hm moment rfl).instant?_isSome
    rw [coerceDate_of_valid (hm moment rfl) (htext moment rfl) ht, Option.bind_some, ht]
    rfl

section

variable {V : Type} [TimedValue V]

/-- The ends of a row's window. -/
structure ValidEnds (ref : Row V) : Prop where
  start : ValidEnd (ref.moment "valid_from")
  stop : ValidEnd (ref.moment "valid_to")

/-- The moments that `row_effective_at` reads of a row, and the one it is asked about. -/
def momentsRead (ref : Row V) (m : Moment) : List Moment :=
  m :: ((ref.moment "valid_from").toList ++ (ref.moment "valid_to").toList)

/-- Comparing days is enough: no value is the text of a datetime, the time is not before the start on the
day of the start, unless its day is not before the end, and it is not before the end and from the start on
if it is on the day of the end. -/
structure SameByDay (ref : Row V) (m : Moment) : Prop where
  texts : ∀ moment ∈ momentsRead ref m, ¬moment.IsTimeText
  start : ∀ t ∈ m.instant?, ∀ start ∈ ref.instant? "valid_from", t < start → t / dayLength = start / dayLength →
    ∃ stop ∈ ref.instant? "valid_to", stop / dayLength ≤ t / dayLength
  stop : ∀ t ∈ m.instant?, ∀ stop ∈ ref.instant? "valid_to", t < stop → t / dayLength = stop / dayLength →
    ∃ start ∈ ref.instant? "valid_from", t < start

/-- The days of the window's ends, compared with a day. -/
def coversDay (ref : Row V) (day : ℤ) : Bool :=
  ((ref.instant? "valid_from").map (· / dayLength)).all (· ≤ day) &&
    ((ref.instant? "valid_to").map (· / dayLength)).all (day < ·)

variable {ref : Row V}

theorem rowEffectiveAt_of_not_isTimeText (href : ValidEnds ref) (hm : m.Valid)
    (htexts : ∀ moment ∈ momentsRead ref m, ¬moment.IsTimeText) (ht : m.instant? = some t) :
    rowEffectiveAt ref (some m) "valid_from" "valid_to" = .ok (coversDay ref (t / dayLength)) := by
  have htarget := coerceDate_of_valid hm (htexts m List.mem_cons_self) ht
  have hstart := coerceDate_of_validEnd href.start fun moment hmoment =>
    htexts moment (List.mem_cons_of_mem m (List.mem_append_left _ (Option.mem_toList.2 hmoment)))
  have hstop := coerceDate_of_validEnd href.stop fun moment hmoment =>
    htexts moment (List.mem_cons_of_mem m (List.mem_append_right _ (Option.mem_toList.2 hmoment)))
  rw [rowEffectiveAt, htarget]
  show (coerceDate (ref.moment "valid_from") >>= fun start => coerceDate (ref.moment "valid_to") >>= fun stop =>
    pure (start.all (· ≤ t / dayLength) && stop.all (t / dayLength < ·))) = _
  rw [hstart, hstop]
  rfl

theorem rowEffectiveAt_of_isTimeText {b : Bool} (h : rowEffectiveAt ref (some m) "valid_from" "valid_to" = .ok b) :
    ∀ moment ∈ momentsRead ref m, ¬moment.IsTimeText := by
  intro moment hmoment htext
  have ⟨error, herror⟩ := coerceDate_of_isTimeText htext
  have hread : ∀ {field : String}, moment ∈ (ref.moment field).toList → coerceDate (ref.moment field) = .error error := by
    intro field hfield
    rw [Option.mem_toList.1 hfield, herror]
  rw [rowEffectiveAt] at h
  rcases List.mem_cons.1 hmoment with hm | hends
  · rw [← hm, herror] at h
    cases h
  · cases htarget : coerceDate (some m) with
    | error e => rw [htarget] at h; cases h
    | ok target =>
      rw [htarget] at h
      cases target with
      | none => exact absurd htarget (coerceDate_some_ne m)
      | some target =>
        replace h : (coerceDate (ref.moment "valid_from") >>= fun start =>
          coerceDate (ref.moment "valid_to") >>= fun stop =>
            pure (start.all (· ≤ target) && stop.all (target < ·))) = Except.ok b := h
        rcases List.mem_append.1 hends with hstart | hstop
        · rw [hread hstart] at h
          cases h
        · rw [hread hstop] at h
          cases hfrom : coerceDate (ref.moment "valid_from") with
          | error e => rw [hfrom] at h; cases h
          | ok start => rw [hfrom] at h; cases h

/-- Comparing days gives what comparing instants gives exactly if it is enough. -/
theorem coversDay_eq_covers_iff (ht : m.instant? = some t)
    (htexts : ∀ moment ∈ momentsRead ref m, ¬moment.IsTimeText) :
    coversDay ref (t / dayLength) = covers ref t ↔ SameByDay ref m := by
  have hsame : SameByDay ref m ↔
      (∀ start ∈ ref.instant? "valid_from", t < start → t / dayLength = start / dayLength →
        ∃ stop ∈ ref.instant? "valid_to", stop / dayLength ≤ t / dayLength) ∧
      (∀ stop ∈ ref.instant? "valid_to", t < stop → t / dayLength = stop / dayLength →
        ∃ start ∈ ref.instant? "valid_from", t < start) := by
    constructor
    · intro h
      exact ⟨h.start t ht, h.stop t ht⟩
    · intro h
      refine ⟨htexts, fun t' ht' => ?_, fun t' ht' => ?_⟩
      · cases Option.some.inj (ht.symm.trans ht')
        exact h.1
      · cases Option.some.inj (ht.symm.trans ht')
        exact h.2
  have hlength : dayLength = 86400000000 := rfl
  rw [hsame, Bool.eq_iff_iff, coversDay, covers, hlength]
  cases ref.instant? "valid_from" with
  | none =>
    cases ref.instant? "valid_to" with
    | none => simp
    | some stop =>
      simp only [Option.map_none, Option.all_none, Bool.true_and, Option.map_some, Option.all_some,
        decide_eq_true_eq, Option.mem_def, reduceCtorEq, false_and, exists_false, imp_false,
        Option.some.injEq, forall_eq', IsEmpty.forall_iff, implies_true, true_and]
      omega
  | some start =>
    cases ref.instant? "valid_to" with
    | none =>
      simp only [Option.map_none, Option.all_none, Bool.and_true, Option.map_some, Option.all_some,
        decide_eq_true_eq, Option.mem_def, reduceCtorEq, false_and, exists_false, imp_false,
        Option.some.injEq, forall_eq', IsEmpty.forall_iff, implies_true, and_true]
      omega
    | some stop =>
      simp only [Option.map_some, Option.all_some, Bool.and_eq_true, decide_eq_true_eq, Option.mem_def,
        Option.some.injEq, forall_eq', exists_eq_left']
      omega

/-- On valid values, `row_effective_at` gives what the window of instants gives exactly if comparing days is
enough. -/
theorem rowEffectiveAt_eq_covers_iff (href : ValidEnds ref) (hm : m.Valid) (ht : m.instant? = some t) :
    rowEffectiveAt ref (some m) "valid_from" "valid_to" = .ok (covers ref t) ↔ SameByDay ref m := by
  constructor
  · intro h
    have htexts := rowEffectiveAt_of_isTimeText h
    rw [rowEffectiveAt_of_not_isTimeText href hm htexts ht] at h
    exact (coversDay_eq_covers_iff ht htexts).1 (Except.ok.inj h)
  · intro h
    rw [rowEffectiveAt_of_not_isTimeText href hm h.texts ht, (coversDay_eq_covers_iff ht h.texts).2 h]

end

/-! ### The rendered predicate -/

def quotedText (s : List Char) : List Char := '\'' :: (quotedContent '\'' s ++ ['\''])

theorem toList_literal (s : List Char) : (literal (String.ofList s)).toList = quotedText s := by
  simp only [literal, String.toList_append, String.toList_ofList]
  rfl

theorem scan_quotedText {front : List Char} {tokens : List QueryToken}
    (hfront : scan queryAlphabet .between front = some tokens) (s : List Char) {c : Char}
    (hc : queryAlphabet.Breaks c) (rest : List Char) :
    scan queryAlphabet .between (front ++ ' ' :: (quotedText s ++ c :: rest)) =
      (scan queryAlphabet .between (c :: rest)).map (tokens ++ .quoted '\'' s :: ·) := by
  have htext : quotedText s ++ c :: rest = '\'' :: (quotedContent '\'' s ++ '\'' :: c :: rest) := by
    rw [quotedText, List.cons_append, List.append_assoc, List.singleton_append]
  rw [scan_append Alphabet.breaks_space hfront, scan_blank queryAlphabet.space, htext,
    scan_quoted (by decide) s hc]
  cases scan queryAlphabet .between (c :: rest) with
  | none => rfl
  | some more => rfl

def validFrom : QueryToken := .word "valid_from".toList

def validTo : QueryToken := .word "valid_to".toList

/-- The atom `column IS NULL`. -/
def isNull (column : QueryToken) : Condition := .atom [column, .word "IS".toList, .word "NULL".toList]

/-- `(valid_from IS NULL OR valid_from <= 's') AND (valid_to IS NULL OR 's' < valid_to)` -/
def validAtCondition (s : List Char) : Condition :=
  .and (.group (.or (isNull validFrom) (.atom [validFrom, .symbol '<', .symbol '=', .quoted '\'' s])))
    (.group (.or (isNull validTo) (.atom [.quoted '\'' s, .symbol '<', validTo])))

theorem validAtPredicate_eq (m : Moment) : validAtPredicate m "valid_from" "valid_to" =
    .ok ("(valid_from IS NULL OR valid_from <=".toList ++ ' ' :: (quotedText m.str ++
      ')' :: (" AND (valid_to IS NULL OR".toList ++ ' ' :: (quotedText m.str ++ " < valid_to)".toList)))) := by
  have hstart : tableRefSql "valid_from" = .ok "valid_from" := by decide +kernel
  have hstop : tableRefSql "valid_to" = .ok "valid_to" := by decide +kernel
  rw [validAtPredicate, hstart, hstop]
  refine congrArg Except.ok ?_
  simp only [String.toList_append, toList_literal, List.append_assoc]
  rfl

theorem readCondition_validAtPredicate (m : Moment) : ∃ text, validAtPredicate m "valid_from" "valid_to" = .ok text ∧
      readCondition anyTokens text = some (validAtCondition m.str) := by
  refine ⟨_, validAtPredicate_eq m, ?_⟩
  have hfront : scan queryAlphabet .between "(valid_from IS NULL OR valid_from <=".toList = some
      [.opened, validFrom, .word "IS".toList, .word "NULL".toList, .word "OR".toList, validFrom, .symbol '<',
        .symbol '='] := by decide +kernel
  have hmiddle : scan queryAlphabet .between (')' :: " AND (valid_to IS NULL OR".toList) = some
      [.closed, .word "AND".toList, .opened, validTo, .word "IS".toList, .word "NULL".toList,
        .word "OR".toList] := by decide +kernel
  have hback : scan queryAlphabet .between (' ' :: "< valid_to)".toList) =
      some [.symbol '<', validTo, .closed] := by decide +kernel
  have hrest := scan_quotedText hmiddle m.str Alphabet.breaks_space "< valid_to)".toList
  rw [List.cons_append] at hrest
  have htext := scan_quotedText hfront m.str Alphabet.breaks_closed
    (" AND (valid_to IS NULL OR".toList ++ ' ' :: (quotedText m.str ++ ' ' :: "< valid_to)".toList))
  rw [hrest, hback] at htext
  rw [readCondition]
  refine (congrArg (·.bind (parseCondition anyTokens)) htext).trans ?_
  rfl

section

variable {V : Type} [TimedValue V]

theorem instantFromText_str (hm : m.Valid) (ht : m.instant? = some t) : instantFromText m.str = some t := by
  cases m with
  | date day => cases ht; exact instantFromText_isoDate hm
  | datetime wall => cases ht; exact instantFromText_isoDatetime hm (.inr rfl)
  | text s => exact ht

/-- An end that is null leaves its side open. -/
theorem isNone_sup_eq_true_iff {m : Option Moment} (hm : ValidEnd m) (p : ℤ → Bool) :
    Truth.ofBool m.isNone ⊔ (match m.bind Moment.instant? with
      | some a => Truth.ofBool (p a)
      | none => .unknown) = .true ↔ (m.bind Moment.instant?).all p = true := by
  cases m with
  | none => exact iff_of_true (Truth.sup_eq_true_iff.2 (.inl rfl)) rfl
  | some moment =>
    have ⟨a, ha⟩ := (hm moment rfl).instant?_isSome
    rw [Option.bind_some, ha, Truth.sup_eq_true_iff]
    show (Truth.ofBool false = .true ∨ Truth.ofBool (p a) = .true) ↔ p a = true
    rw [Truth.ofBool_eq_true_iff, Truth.ofBool_eq_true_iff]
    exact or_iff_right nofun

theorem value_validAtCondition {ref : Row V} (href : ValidEnds ref) (hm : m.Valid) (ht : m.instant? = some t) :
    (validAtCondition m.str).value Truth.not (sqlAtom ref) = .true ↔ covers ref t = true := by
  have hfrom : sqlAtom ref [validFrom, .symbol '<', .symbol '=', .quoted '\'' m.str] =
      match (ref.moment "valid_from").bind Moment.instant? with
      | some a => Truth.ofBool (decide (a ≤ t))
      | none => .unknown := by
    show (match ref.instant? "valid_from", instantFromText m.str with
      | some a, some b => Truth.ofBool (decide (a ≤ b))
      | _, _ => .unknown) = _
    rw [instantFromText_str hm ht, Row.instant?]
    cases (ref.moment "valid_from").bind Moment.instant? <;> rfl
  have hto : sqlAtom ref [.quoted '\'' m.str, .symbol '<', validTo] =
      match (ref.moment "valid_to").bind Moment.instant? with
      | some a => Truth.ofBool (decide (t < a))
      | none => .unknown := by
    show (match instantFromText m.str, ref.instant? "valid_to" with
      | some a, some b => Truth.ofBool (decide (a < b))
      | _, _ => .unknown) = _
    rw [instantFromText_str hm ht, Row.instant?]
    cases (ref.moment "valid_to").bind Moment.instant? <;> rfl
  show (Truth.ofBool (ref.moment "valid_from").isNone ⊔ sqlAtom ref _) ⊓
    (Truth.ofBool (ref.moment "valid_to").isNone ⊔ sqlAtom ref _) = .true ↔ _
  rw [hfrom, hto, Truth.inf_eq_true_iff, isNone_sup_eq_true_iff href.start, isNone_sup_eq_true_iff href.stop,
    covers, Bool.and_eq_true]
  rfl

/-! ### Joins -/

variable (facts references : List (Row V)) (factKey referenceKey factTime refPrefix : String)

/-- Rows with their keys, moments at their ends and event times, and windows of one key that do not overlap. -/
structure Timely : Prop where
  reference_key : ∀ ref ∈ references, ∃ key, ref.get referenceKey = some key
  fact_key : ∀ fact ∈ facts, ∃ key, fact.get factKey = some key
  ends : ∀ ref ∈ references, ValidEnds ref
  time : ∀ fact ∈ facts, ∃ m, fact.moment factTime = some m ∧ m.Valid
  separate : references.Pairwise fun ref ref' =>
    (ref.get referenceKey).map PyValue.str = (ref'.get referenceKey).map PyValue.str →
      ∀ t, ¬(covers ref t = true ∧ covers ref' t = true)

/-- Each fact is joined with the reference row that covers its time, or left as it is; the gaps are the facts
that no row covers; and a row is effective at a time exactly if the rendered predicate is true of it. -/
structure JoinsAsOf : Prop where
  joined : ∃ rows, effectiveJoin facts references factKey referenceKey factTime refPrefix = .ok rows ∧
    List.Forall₂ (fun fact row =>
      (∀ ref ∈ references, applies factKey referenceKey factTime fact ref = true →
        row = attached refPrefix fact ref) ∧
      ((∀ ref ∈ references, applies factKey referenceKey factTime fact ref = false) → row = fact)) facts rows
  gaps : assertNoReferenceGap facts references factKey referenceKey factTime =
    .ok (facts.filter fun fact => !references.any (applies factKey referenceKey factTime fact))
  rendered : ∀ ref ∈ references, ∀ fact ∈ facts, ∀ m ∈ fact.moment factTime, ∃ text condition effective,
    validAtPredicate m "valid_from" "valid_to" = .ok text ∧ readCondition anyTokens text = some condition ∧
      rowEffectiveAt ref (some m) "valid_from" "valid_to" = .ok effective ∧
      (effective = true ↔ condition.value Truth.not (sqlAtom ref) = .true)

/-- On every pair of a reference row and a fact, comparing days is enough. -/
def DaysSuffice : Prop :=
  ∀ ref ∈ references, ∀ fact ∈ facts, ∀ m ∈ fact.moment factTime, SameByDay ref m

variable {facts references factKey referenceKey factTime refPrefix}

theorem isEffectiveFor_eq (h : Timely facts references factKey referenceKey factTime)
    (hdays : DaysSuffice facts references factTime) {fact ref : Row V} (hfact : fact ∈ facts)
    (href : ref ∈ references) : isEffectiveFor factKey referenceKey factTime fact ref =
      .ok (applies factKey referenceKey factTime fact ref) := by
  have ⟨key, hkey⟩ := h.reference_key ref href
  have ⟨wanted, hwanted⟩ := h.fact_key fact hfact
  have ⟨m, hm, hvalid⟩ := h.time fact hfact
  have ⟨t, ht⟩ := hvalid.instant?_isSome
  have hsame := hdays ref href fact hfact m hm
  have ⟨time, htime, hmoment⟩ := Option.bind_eq_some_iff.1 hm
  rw [isEffectiveFor, applies, Row.field, hkey, Row.field, hwanted, Row.field, htime, Row.instant?, hm,
    Option.bind_some, ht]
  show (if PyValue.str key = PyValue.str wanted then
    rowEffectiveAt ref (TimedValue.moment time) "valid_from" "valid_to" else pure false) = _
  by_cases heq : PyValue.str key = PyValue.str wanted
  · rw [if_pos heq, hmoment, (rowEffectiveAt_eq_covers_iff (h.ends ref href) hvalid ht).2 hsame]
    simp [heq]
  · have hne : (PyValue.str key == PyValue.str wanted) = false := beq_false_of_ne heq
    rw [if_neg heq, Option.map_some, Option.map_some, Option.some_beq_some, hne]
    rfl

theorem Timely.applies_unique (h : Timely facts references factKey referenceKey factTime) {fact ref ref' : Row V}
    (href : ref ∈ references) (href' : ref' ∈ references)
    (happlies : applies factKey referenceKey factTime fact ref = true)
    (happlies' : applies factKey referenceKey factTime fact ref' = true) : ref = ref' := by
  by_contra hne
  have hsymm : Std.Symm fun r r' : Row V =>
      (r.get referenceKey).map PyValue.str = (r'.get referenceKey).map PyValue.str →
        ∀ t, ¬(covers r t = true ∧ covers r' t = true) :=
    ⟨fun r r' hrow hkey t hboth => hrow hkey.symm t hboth.symm⟩
  have hseparate := h.separate.forall href href' hne
  rw [applies, Bool.and_eq_true, beq_iff_eq] at happlies happlies'
  cases ht : fact.instant? factTime with
  | none => rw [ht] at happlies; cases happlies.2
  | some t =>
    rw [ht] at happlies happlies'
    exact hseparate (happlies.1.trans happlies'.1.symm) t ⟨happlies.2, happlies'.2⟩

def joinedRow (references : List (Row V)) (factKey referenceKey factTime refPrefix : String) (fact : Row V) : Row V :=
  match references.find? (applies factKey referenceKey factTime fact) with
  | some ref => attached refPrefix fact ref
  | none => fact

theorem effectiveJoin_eq (h : Timely facts references factKey referenceKey factTime)
    (hdays : DaysSuffice facts references factTime) :
    effectiveJoin facts references factKey referenceKey factTime refPrefix =
      .ok (facts.map (joinedRow references factKey referenceKey factTime refPrefix)) := by
  refine mapM_eq_ok_map fun fact hfact => ?_
  rw [findM?_eq_ok fun ref href => isEffectiveFor_eq h hdays hfact href, joinedRow]
  cases references.find? (applies factKey referenceKey factTime fact) <;> rfl

theorem joinedRow_spec (h : Timely facts references factKey referenceKey factTime) (fact : Row V) :
    (∀ ref ∈ references, applies factKey referenceKey factTime fact ref = true →
      joinedRow references factKey referenceKey factTime refPrefix fact = attached refPrefix fact ref) ∧
    ((∀ ref ∈ references, applies factKey referenceKey factTime fact ref = false) →
      joinedRow references factKey referenceKey factTime refPrefix fact = fact) := by
  rw [joinedRow]
  cases hfind : references.find? (applies factKey referenceKey factTime fact) with
  | none =>
    have hnone := List.find?_eq_none.1 hfind
    exact ⟨fun ref href happlies => absurd happlies (hnone ref href), fun _ => rfl⟩
  | some found =>
    have happlies' := List.find?_some hfind
    have hfound := List.mem_of_find?_eq_some hfind
    constructor
    · intro ref href happlies
      rw [h.applies_unique hfound href happlies' happlies]
    · intro hnone
      rw [hnone found hfound] at happlies'
      cases happlies'

theorem assertNoReferenceGap_eq {facts : List (Row V)} (hfacts : ∀ fact ∈ facts, ∀ ref ∈ references,
      isEffectiveFor factKey referenceKey factTime fact ref = .ok (applies factKey referenceKey factTime fact ref)) :
    assertNoReferenceGap facts references factKey referenceKey factTime =
      .ok (facts.filter fun fact => !references.any (applies factKey referenceKey factTime fact)) := by
  induction facts with
  | nil => rfl
  | cons fact facts ih =>
    rw [assertNoReferenceGap, anyM_eq_ok (hfacts fact List.mem_cons_self),
      ih fun fact' hfact' => hfacts fact' (List.mem_cons_of_mem fact hfact'), List.filter_cons]
    cases references.any (applies factKey referenceKey factTime fact) <;> rfl

/-- The helpers agree with the windows of instants exactly if comparing days is enough. -/
theorem effective_join_iff (h : Timely facts references factKey referenceKey factTime) :
    JoinsAsOf facts references factKey referenceKey factTime refPrefix ↔ DaysSuffice facts references factTime := by
  have hcovers : ∀ {ref fact : Row V} {m : Moment}, ref ∈ references → fact ∈ facts →
      fact.moment factTime = some m → ∃ t, m.Valid ∧ m.instant? = some t ∧ ValidEnds ref := by
    intro ref fact m href hfact hm
    have ⟨m', hm', hvalid⟩ := h.time fact hfact
    cases Option.some.inj (hm'.symm.trans hm)
    have ⟨t, ht⟩ := hvalid.instant?_isSome
    exact ⟨t, hvalid, ht, h.ends ref href⟩
  constructor
  · intro hjoins ref href fact hfact m hm
    have ⟨t, hvalid, ht, hends⟩ := hcovers href hfact hm
    have ⟨text, condition, effective, htext, hread, heffective, hiff⟩ := hjoins.rendered ref href fact hfact m hm
    have ⟨text', htext', hread'⟩ := readCondition_validAtPredicate m
    cases Except.ok.inj (htext.symm.trans htext')
    cases Option.some.inj (hread.symm.trans hread')
    rw [value_validAtCondition hends hvalid ht, ← Bool.eq_iff_iff] at hiff
    rw [hiff] at heffective
    exact (rowEffectiveAt_eq_covers_iff hends hvalid ht).1 heffective
  · intro hdays
    refine ⟨⟨_, effectiveJoin_eq h hdays, ?_⟩, ?_, ?_⟩
    · exact List.forall₂_map_right_iff.2 (List.forall₂_same.2 fun fact _ => joinedRow_spec h fact)
    · exact assertNoReferenceGap_eq fun fact hfact ref href => isEffectiveFor_eq h hdays hfact href
    · intro ref href fact hfact m hm
      have ⟨t, hvalid, ht, hends⟩ := hcovers href hfact hm
      have ⟨text, htext, hread⟩ := readCondition_validAtPredicate m
      exact ⟨text, _, covers ref t, htext, hread,
        (rowEffectiveAt_eq_covers_iff hends hvalid ht).2 (hdays ref href fact hfact m hm),
        (value_validAtCondition hends hvalid ht).symm⟩

end

/-! ### A price of two hours -/

/-- A null, a name or a moment. -/
inductive Entry where
  | null
  | name (s : String)
  | moment (m : Moment)

instance : TimedValue Entry where
  str
    | .null => "None"
    | .name s => s
    | .moment m => String.ofList m.str
  truthy
    | .null => false
    | .name s => s != ""
    | .moment _ => true
  moment
    | .moment m => some m
    | _ => none

/-- 2024-03-01, and an hour of it. -/
def marchFirst : ℤ := 19783

def hourOfMarchFirst (hour : ℤ) : ℤ := marchFirst * dayLength + hour * 3600000000

def priceFrom (start stop : Entry) : Row Entry :=
  .ofList [("item", .name "bread"), ("valid_from", start), ("valid_to", stop)]

def saleAt (time : Moment) : Row Entry := .ofList [("item", .name "bread"), ("sold_at", .moment time)]

theorem timely_of_bread (price sale : Row Entry) (hprice : ∃ key, price.get "item" = some key)
    (hsale : ∃ key, sale.get "item" = some key) (hends : ValidEnds price) (hm : sale.moment "sold_at" = some m)
    (hvalid : m.Valid) : Timely [sale] [price] "item" "item" "sold_at" where
  reference_key _ href := List.mem_singleton.1 href ▸ hprice
  fact_key _ hfact := List.mem_singleton.1 hfact ▸ hsale
  ends _ href := List.mem_singleton.1 href ▸ hends
  time _ hfact := List.mem_singleton.1 hfact ▸ ⟨m, hm, hvalid⟩
  separate := List.pairwise_singleton _ _

theorem marchFirst_isDay : IsDay marchFirst := by unfold IsDay; decide

theorem hourOfMarchFirst_inCalendar {hour : ℤ} (h : 0 ≤ hour ∧ hour < 24) : InCalendar (hourOfMarchFirst hour) := by
  have hday : hourOfMarchFirst hour / dayLength = marchFirst := by
    have hlength : dayLength = 86400000000 := rfl
    rw [hourOfMarchFirst, hlength]
    omega
  rw [InCalendar, hday]
  exact marchFirst_isDay

/-- A price from a day on is joined to a sale on that day. -/
theorem open_price_joined :
    JoinsAsOf [saleAt (.datetime (hourOfMarchFirst 11))] [priceFrom (.moment (.date marchFirst)) .null] "item" "item"
      "sold_at" "ref_" := by
  have htimely := timely_of_bread (priceFrom (.moment (.date marchFirst)) .null)
    (saleAt (.datetime (hourOfMarchFirst 11))) ⟨_, rfl⟩ ⟨_, rfl⟩
    ⟨fun m hm => Option.some.inj hm ▸ marchFirst_isDay, nofun⟩ rfl
    (hourOfMarchFirst_inCalendar ⟨by decide, by decide⟩)
  refine (effective_join_iff htimely).2 fun ref href fact hfact m hm => ?_
  cases List.mem_singleton.1 href
  cases List.mem_singleton.1 hfact
  cases hm
  refine ⟨?_, ?_, ?_⟩
  · rintro moment hmoment ⟨wall, _, htext⟩
    have hread : momentsRead (priceFrom (.moment (.date marchFirst)) .null) (.datetime (hourOfMarchFirst 11)) =
      [.datetime (hourOfMarchFirst 11), .date marchFirst] := rfl
    rw [hread, htext] at hmoment
    simp at hmoment
  · intro t ht start hstart hlt
    cases ht
    cases hstart
    exact absurd hlt (by decide)
  · intro t ht stop hstop
    cases hstop

/-- A price of two hours covers none of the sales in between: both ends are on one day. -/
theorem two_hours_missed : Timely [saleAt (.datetime (hourOfMarchFirst 11))]
        [priceFrom (.moment (.datetime (hourOfMarchFirst 10))) (.moment (.datetime (hourOfMarchFirst 12)))]
        "item" "item" "sold_at" ∧ ¬JoinsAsOf [saleAt (.datetime (hourOfMarchFirst 11))]
        [priceFrom (.moment (.datetime (hourOfMarchFirst 10))) (.moment (.datetime (hourOfMarchFirst 12)))]
        "item" "item" "sold_at" "ref_" := by
  refine ⟨timely_of_bread _ _ ⟨_, rfl⟩ ⟨_, rfl⟩
    ⟨fun m hm => Option.some.inj hm ▸ hourOfMarchFirst_inCalendar ⟨by decide, by decide⟩,
      fun m hm => Option.some.inj hm ▸ hourOfMarchFirst_inCalendar ⟨by decide, by decide⟩⟩ rfl
    (hourOfMarchFirst_inCalendar ⟨by decide, by decide⟩), fun h => ?_⟩
  have hcount := congrArg (fun result => result.toOption.map List.length) h.gaps
  exact absurd hcount (by decide +kernel)

end Phlo.Helpers
