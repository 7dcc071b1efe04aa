import Mathlib.Tactic.Ring
import Phlo.Library.FixedWidthText
import Phlo.RunEvidence.TimestampText

/-!
# The order of timestamp texts

What a comparison of texts in SQL says about the timestamps they were written from.

* `isoformat_lt_iff` — two timestamps are compared by what their clocks read, then by the texts of their
  offsets;
* `currentTimestampText_lt_isoformat_iff` — a time the database filled in is compared by its date.
-/

namespace Phlo.RunEvidence

open Phlo.Library

/-! ### The calendar -/

/-- Comparing dates year by year, month by month and day by day. -/
def CivilDate.Before (a b : CivilDate) : Prop :=
  a.year < b.year ∨ a.year = b.year ∧ (a.month < b.month ∨ a.month = b.month ∧ a.day < b.day)

def yearOfEra (dayOfEra : ℤ) : ℤ := (dayOfEra - dayOfEra / 1460 + dayOfEra / 36524 - dayOfEra / 146096) / 365

def marchYear (days : ℤ) : ℤ := yearOfEra ((days + 719468) % 146097) + 400 * ((days + 719468) / 146097)

/-- The days of the years before it. -/
def marchStart (year : ℤ) : ℤ := 365 * year + year / 4 - year / 100 + year / 400

def marchDay (days : ℤ) : ℤ := days + 719468 - marchStart (marchYear days)

def ofMarch (year day : ℤ) : CivilDate :=
  let month := (5 * day + 2) / 153
  { year := year + if month < 10 then 0 else 1
    month := if month < 10 then month + 3 else month - 9
    day := day - (153 * month + 2) / 5 + 1 }

theorem yearOfEra_spec {day : ℤ} (h0 : 0 ≤ day) (h1 : day < 146097) : 0 ≤ yearOfEra day ∧ yearOfEra day < 400 ∧
      365 * yearOfEra day + yearOfEra day / 4 - yearOfEra day / 100 ≤ day ∧
      day < 365 * (yearOfEra day + 1) + (yearOfEra day + 1) / 4 - (yearOfEra day + 1) / 100 +
        (yearOfEra day + 1) / 400 := by
  unfold yearOfEra
  generalize hyear : (day - day / 1460 + day / 36524 - day / 146096) / 365 = year
  have hfour : year / 4 ≤ day / 1460 ∧ day / 1460 ≤ (year + 1) / 4 := by omega
  have hcentury : day / 36524 = 0 ∨ day / 36524 = 1 ∨ day / 36524 = 2 ∨ day / 36524 = 3 ∨ day / 36524 = 4 := by
    omega
  rcases hcentury with hc | hc | hc | hc | hc
  · have hyear : 0 ≤ year ∧ year < 100 := by omega
    have hlast : year = 99 ∨ (year + 1) / 100 = 0 := by omega
    rcases hlast with hlast | hlast <;> omega
  · have hyear : 100 ≤ year ∧ year < 200 := by omega
    have hlast : year = 199 ∨ (year + 1) / 100 = 1 := by omega
    rcases hlast with hlast | hlast <;> omega
  · have hyear : 200 ≤ year ∧ year < 300 := by omega
    have hlast : year = 299 ∨ (year + 1) / 100 = 2 := by omega
    rcases hlast with hlast | hlast <;> omega
  · have hyear : 300 ≤ year ∧ year < 400 := by omega
    have hlast : year = 399 ∨ (year + 1) / 100 = 3 := by omega
    rcases hlast with hlast | hlast <;> omega
  · have hyear : year = 399 := by omega
    omega

theorem marchStart_add (year era : ℤ) : marchStart (year + 400 * era) = marchStart year + 146097 * era := by
  have hfour : (year + 400 * era) / 4 = year / 4 + 100 * era := by omega
  have hcentury : (year + 400 * era) / 100 = year / 100 + 4 * era := by omega
  have hera : (year + 400 * era) / 400 = year / 400 + era := by omega
  unfold marchStart
  omega

theorem marchStart_marchYear (days : ℤ) : marchStart (marchYear days) = 365 * yearOfEra ((days + 719468) % 146097) +
      yearOfEra ((days + 719468) % 146097) / 4 - yearOfEra ((days + 719468) % 146097) / 100 +
      146097 * ((days + 719468) / 146097) := by
  obtain ⟨h0, h1, -, -⟩ := @yearOfEra_spec ((days + 719468) % 146097) (by omega) (by omega)
  rw [marchYear, marchStart_add, marchStart]
  omega

theorem civilDate_eq (days : ℤ) : civilDate days = ofMarch (marchYear days) (marchDay days) := by
  have hday : (days + 719468) % 146097 - (365 * yearOfEra ((days + 719468) % 146097) +
      yearOfEra ((days + 719468) % 146097) / 4 - yearOfEra ((days + 719468) % 146097) / 100) = marchDay days := by
    rw [marchDay, marchStart_marchYear]
    omega
  rw [← hday]
  rfl

theorem marchYear_spec (days : ℤ) :
    marchStart (marchYear days) ≤ days + 719468 ∧ days + 719468 < marchStart (marchYear days + 1) := by
  obtain ⟨h0, h1, hstart, hend⟩ := @yearOfEra_spec ((days + 719468) % 146097) (by omega) (by omega)
  have hnext : marchStart (marchYear days + 1) = marchStart (yearOfEra ((days + 719468) % 146097) + 1) +
      146097 * ((days + 719468) / 146097) := by
    rw [← marchStart_add, marchYear]
    ring_nf
  rw [marchStart_marchYear, hnext, marchStart]
  omega

theorem marchDay_spec (days : ℤ) : 0 ≤ marchDay days ∧ marchDay days ≤ 365 := by
  obtain ⟨hstart, hend⟩ := marchYear_spec days
  unfold marchDay
  generalize marchYear days = year at hstart hend ⊢
  unfold marchStart at hstart hend ⊢
  omega

theorem marchStart_mono {a b : ℤ} (h : a ≤ b) : marchStart a ≤ marchStart b := by
  obtain ⟨n, rfl⟩ := Int.le.dest h
  induction n with
  | zero => simp
  | succ n ih =>
    refine (ih (by omega)).trans ?_
    unfold marchStart
    omega

theorem marchYear_mono {d e : ℤ} (h : d ≤ e) : marchYear d ≤ marchYear e := by
  by_contra hlt
  have hle : marchYear e + 1 ≤ marchYear d := by omega
  have hstart := marchStart_mono hle
  have hd := (marchYear_spec d).1
  have he := (marchYear_spec e).2
  omega

theorem ofMarch_before {year year' day day' : ℤ} (hday : 0 ≤ day ∧ day ≤ 365) (hday' : 0 ≤ day' ∧ day' ≤ 365)
    (h : year < year' ∨ year = year' ∧ day < day') : (ofMarch year day).Before (ofMarch year' day') := by
  have hmonth : 0 ≤ (5 * day + 2) / 153 ∧ (5 * day + 2) / 153 < 12 := by omega
  have hmonth' : 0 ≤ (5 * day' + 2) / 153 ∧ (5 * day' + 2) / 153 < 12 := by omega
  unfold CivilDate.Before ofMarch
  dsimp only
  split_ifs <;> omega

/-- Later days have later dates. -/
theorem civilDate_before {d e : ℤ} (h : d < e) : (civilDate d).Before (civilDate e) := by
  rw [civilDate_eq, civilDate_eq]
  refine ofMarch_before (marchDay_spec d) (marchDay_spec e) ?_
  have hyear := marchYear_mono h.le
  rcases hyear.lt_or_eq with hlt | heq
  · exact Or.inl hlt
  · refine Or.inr ⟨heq, ?_⟩
    unfold marchDay
    rw [heq]
    omega

theorem civilDate_fields (days : ℤ) : 1 ≤ (civilDate days).month ∧ (civilDate days).month ≤ 12 ∧
      1 ≤ (civilDate days).day ∧ (civilDate days).day ≤ 31 := by
  have hday := marchDay_spec days
  rw [civilDate_eq]
  generalize marchDay days = day at hday ⊢
  unfold ofMarch
  dsimp only
  split_ifs <;> omega

def firstDay : ℤ := -719162

def lastDay : ℤ := 2932896

theorem civilDate_year {days : ℤ} (hfirst : firstDay ≤ days) (hlast : days ≤ lastDay) :
    1 ≤ (civilDate days).year ∧ (civilDate days).year ≤ 9999 := by
  have hone : (civilDate firstDay).year = 1 := by decide
  have hend : (civilDate lastDay).year = 9999 := by decide
  constructor
  · rcases hfirst.lt_or_eq with hlt | heq
    · have hbefore := civilDate_before hlt
      unfold CivilDate.Before at hbefore
      omega
    · rw [← heq, hone]
  · rcases hlast.lt_or_eq with hlt | heq
    · have hbefore := civilDate_before hlt
      unfold CivilDate.Before at hbefore
      omega
    · rw [heq, hend]

/-! ### Fields -/

/-- A number is written with digits only. -/
theorem null_not_mem_padded (width : ℕ) (n : ℤ) : '\x00' ∉ (padded width n).toList := by
  intro h
  unfold padded at h
  rw [String.toList_append, String.toList_ofList, Nat.toString_eq_repr, Nat.toList_repr] at h
  rcases List.mem_append.1 h with h | h
  · exact absurd (List.eq_of_mem_replicate h) (by decide)
  · exact absurd (Nat.isDigit_of_mem_toDigits (by decide) (by decide) h) (by decide)

theorem toNat_lt_pow {width : ℕ} {n : ℤ} (h0 : 0 ≤ n) (hn : n < 10 ^ width) : n.toNat < 10 ^ width := by
  have hcast : (n.toNat : ℤ) = n := Int.toNat_of_nonneg h0
  rw [← hcast] at hn
  exact_mod_cast hn

theorem toList_padded {width : ℕ} {n : ℤ} (hwidth : 0 < width) (h0 : 0 ≤ n) (hn : n < 10 ^ width) :
    (padded width n).toList = fixedDigits width n.toNat := by
  rw [← replicate_append_toDigits hwidth (toNat_lt_pow h0 hn), padded]
  rw [String.toList_append, String.toList_ofList, Nat.toString_eq_repr, Nat.toList_repr, ← String.length_toList,
    Nat.toList_repr]

/-- A padded number decides before what follows it. -/
theorem padded_append_lt_iff {width : ℕ} {m n : ℤ} (hwidth : 0 < width) (hm : 0 ≤ m ∧ m < 10 ^ width)
    (hn : 0 ≤ n ∧ n < 10 ^ width) (c d : List Char) :
    (padded width m).toList ++ c < (padded width n).toList ++ d ↔ m < n ∨ m = n ∧ c < d := by
  have hmpow := toNat_lt_pow hm.1 hm.2
  have hnpow := toNat_lt_pow hn.1 hn.2
  rw [toList_padded hwidth hm.1 hm.2, toList_padded hwidth hn.1 hn.2, append_lt_append_iff (by simp),
    fixedDigits_lt_iff hmpow hnpow, fixedDigits_inj hmpow hnpow]
  have hlt : m.toNat < n.toNat ↔ m < n := by omega
  have heq : m.toNat = n.toNat ↔ m = n := by omega
  rw [hlt, heq]

theorem cons_lt_same_iff (x : Char) (c d : List Char) : x :: c < x :: d ↔ c < d := by
  simp

theorem toList_dash : "-".toList = ['-'] := rfl

theorem toList_colon : ":".toList = [':'] := rfl

theorem toList_dateText (date : CivilDate) : (dateText date).toList =
    (padded 4 date.year).toList ++ '-' :: ((padded 2 date.month).toList ++ '-' :: (padded 2 date.day).toList) := by
  unfold dateText
  simp only [String.toList_append, toList_dash, List.append_assoc, List.cons_append, List.nil_append]

/-- Dates are compared before what follows them. -/
theorem dateText_append_lt_iff {d e : ℤ} (hd : firstDay ≤ d ∧ d ≤ lastDay) (he : firstDay ≤ e ∧ e ≤ lastDay)
    (a b : List Char) :
    (dateText (civilDate d)).toList ++ a < (dateText (civilDate e)).toList ++ b ↔ d < e ∨ d = e ∧ a < b := by
  have hfields := civilDate_fields d
  have hfields' := civilDate_fields e
  have hyear := civilDate_year hd.1 hd.2
  have hyear' := civilDate_year he.1 he.2
  rw [toList_dateText, toList_dateText]
  simp only [List.append_assoc, List.cons_append]
  rw [padded_append_lt_iff (by decide) (by omega) (by omega), cons_lt_same_iff,
    padded_append_lt_iff (by decide) (by omega) (by omega), cons_lt_same_iff,
    padded_append_lt_iff (by decide) (by omega) (by omega)]
  rcases lt_trichotomy d e with hlt | rfl | hgt
  · have hbefore := civilDate_before hlt
    unfold CivilDate.Before at hbefore
    refine ⟨fun _ => Or.inl hlt, fun _ => ?_⟩
    rcases hbefore with h | ⟨h, h' | ⟨h', h''⟩⟩
    · exact Or.inl h
    · exact Or.inr ⟨h, Or.inl h'⟩
    · exact Or.inr ⟨h, Or.inr ⟨h', Or.inl h''⟩⟩
  · simp
  · have hbefore := civilDate_before hgt
    unfold CivilDate.Before at hbefore
    have hnot : ¬(d < e ∨ d = e ∧ a < b) := by omega
    refine iff_of_false ?_ hnot
    rintro (h | ⟨h, h' | ⟨h', h'' | ⟨h'', -⟩⟩⟩) <;> omega

theorem toList_clockText (seconds : ℤ) : (clockText seconds).toList =
    (padded 2 (seconds / 3600)).toList ++ ':' :: ((padded 2 (seconds / 60 % 60)).toList ++
      ':' :: (padded 2 (seconds % 60)).toList) := by
  unfold clockText
  simp only [String.toList_append, toList_colon, List.append_assoc, List.cons_append, List.nil_append]

theorem clockText_append_lt_iff {s t : ℤ} (hs : 0 ≤ s ∧ s < 86400) (ht : 0 ≤ t ∧ t < 86400) (a b : List Char) :
    (clockText s).toList ++ a < (clockText t).toList ++ b ↔ s < t ∨ s = t ∧ a < b := by
  rw [toList_clockText, toList_clockText]
  simp only [List.append_assoc, List.cons_append]
  rw [padded_append_lt_iff (by decide) (by omega) (by omega), cons_lt_same_iff,
    padded_append_lt_iff (by decide) (by omega) (by omega), cons_lt_same_iff,
    padded_append_lt_iff (by decide) (by omega) (by omega)]
  by_cases hab : a < b
  · simp only [hab, and_true]
    omega
  · simp only [hab, and_false, or_false]
    omega

/-! ### Fractions and offsets -/

/-- What can follow a number of seconds: nothing, or a character below the point. -/
def BelowPoint (c : List Char) : Prop := ∀ x ∈ c.head?, x < '.'

theorem toList_microsecondText {m : ℤ} (hm : m ≠ 0) : (microsecondText m).toList = '.' :: (padded 6 m).toList := by
  unfold microsecondText
  rw [if_neg hm, String.toList_append]
  exact congrArg (· ++ (padded 6 m).toList) (show ".".toList = ['.'] from rfl)

theorem lt_point {c : List Char} (h : BelowPoint c) (d : List Char) : c < '.' :: d := by
  cases c with
  | nil => exact List.nil_lt_cons _ _
  | cons x c => exact List.cons_lt_cons_iff.2 (Or.inl (h x rfl))

theorem microsecondText_append_lt_iff {m n : ℤ} (hm : 0 ≤ m ∧ m < 1000000) (hn : 0 ≤ n ∧ n < 1000000)
    {c d : List Char} (hc : BelowPoint c) (hd : BelowPoint d) :
    (microsecondText m).toList ++ c < (microsecondText n).toList ++ d ↔ m < n ∨ m = n ∧ c < d := by
  by_cases hm0 : m = 0
  · by_cases hn0 : n = 0
    · rw [hm0, hn0]
      simp [microsecondText]
    · rw [hm0, toList_microsecondText hn0]
      refine iff_of_true ?_ (Or.inl (by omega))
      exact lt_point hc _
  · by_cases hn0 : n = 0
    · rw [hn0, toList_microsecondText hm0]
      refine iff_of_false ?_ (by omega)
      exact (lt_point hd _).not_gt
    · rw [toList_microsecondText hm0, toList_microsecondText hn0, List.cons_append, List.cons_append,
        cons_lt_same_iff, padded_append_lt_iff (by decide) (by omega) (by omega)]

/-- An offset without its sign. -/
def offsetSizeText (size : ℤ) : List Char :=
  (padded 2 (size / 1000000 / 3600)).toList ++ ':' :: ((padded 2 (size / 1000000 / 60 % 60)).toList ++
    if size % 60000000 = 0 then []
    else ':' :: ((padded 2 (size / 1000000 % 60)).toList ++ (microsecondText (size % 1000000)).toList))

theorem toList_offsetText (offset : ℤ) :
    (offsetText offset).toList = (if offset < 0 then '-' else '+') :: offsetSizeText offset.natAbs := by
  have hplus : "+".toList = ['+'] := rfl
  unfold offsetText offsetSizeText
  dsimp only
  split_ifs <;> simp only [String.toList_append, toList_dash, toList_colon, hplus, List.append_assoc,
    List.cons_append, List.nil_append, List.append_nil]

theorem offsetSizeText_lt {a b : ℤ} (ha : 0 ≤ a) (hab : a < b) (hb : b < dayLength) :
    offsetSizeText a < offsetSizeText b := by
  unfold dayLength at hb
  unfold offsetSizeText
  rw [padded_append_lt_iff (by decide) (by omega) (by omega), cons_lt_same_iff,
    padded_append_lt_iff (by decide) (by omega) (by omega)]
  by_cases hminutes : a / 60000000 < b / 60000000
  · have hfields : a / 1000000 / 3600 < b / 1000000 / 3600 ∨ a / 1000000 / 3600 = b / 1000000 / 3600 ∧
        a / 1000000 / 60 % 60 < b / 1000000 / 60 % 60 := by omega
    rcases hfields with h | ⟨h, h'⟩
    · exact Or.inl h
    · exact Or.inr ⟨h, Or.inl h'⟩
  · refine Or.inr ⟨by omega, Or.inr ⟨by omega, ?_⟩⟩
    have hsecond : b % 60000000 ≠ 0 := by omega
    rw [if_neg hsecond]
    by_cases hfirst : a % 60000000 = 0
    · rw [if_pos hfirst]
      exact List.nil_lt_cons _ _
    · have hnone : BelowPoint [] := fun x hx => by cases hx
      have hmicro := @microsecondText_append_lt_iff (a % 1000000) (b % 1000000) (by omega) (by omega) [] [] hnone hnone
      rw [List.append_nil, List.append_nil] at hmicro
      rw [if_neg hfirst, cons_lt_same_iff, padded_append_lt_iff (by decide) (by omega) (by omega), hmicro]
      omega

theorem offsetText_lt {a b : ℤ} (hab : b < a) (hb : b.natAbs < dayLength) (hneg : b < 0) :
    (offsetText a).toList < (offsetText b).toList := by
  rw [toList_offsetText, toList_offsetText, if_pos hneg]
  by_cases ha0 : a < 0
  · rw [if_pos ha0, cons_lt_same_iff]
    exact offsetSizeText_lt (by omega) (by omega) hb
  · rw [if_neg ha0]
    exact List.cons_lt_cons_iff.2 (Or.inl (by decide))

theorem offsetText_gt {a b : ℤ} (hab : b < a) (ha : a.natAbs < dayLength) (hb : 0 ≤ b) :
    (offsetText b).toList < (offsetText a).toList := by
  rw [toList_offsetText, toList_offsetText, if_neg (by omega), if_neg (by omega), cons_lt_same_iff]
  exact offsetSizeText_lt (by omega) (by omega) ha

theorem belowPoint_offsetText (offset : ℤ) : BelowPoint (offsetText offset).toList := by
  intro x hx
  rw [toList_offsetText] at hx
  obtain rfl := Option.some.inj hx
  split_ifs <;> decide

/-! ### Timestamps -/

def InCalendar (time : ℤ) : Prop := firstDay ≤ time / dayLength ∧ time / dayLength ≤ lastDay

/-- The offset, none counting as UTC. -/
def Timestamp.shift (t : Timestamp) : ℤ := t.offset.getD 0

/-- An aware `datetime` that has a UTC equivalent: the others raise `OverflowError` when they are read. -/
structure Timestamp.Datetime (t : Timestamp) : Prop where
  aware : t.aware = true
  shift_lt : t.shift.natAbs < dayLength
  wall : InCalendar t.wall
  instant : InCalendar t.instant

theorem Timestamp.Datetime.offset {t : Timestamp} (h : t.Datetime) : t.offset = some t.shift := by
  obtain ⟨offset, hoffset⟩ := Option.isSome_iff_exists.1 h.aware
  rw [Timestamp.shift, hoffset, Option.getD_some]

theorem Timestamp.Datetime.canonical {t : Timestamp} (h : t.Datetime) : t.canonical.Datetime where
  aware := rfl
  shift_lt := show ((0 : ℤ).natAbs : ℤ) < dayLength by decide
  wall := h.instant
  instant := by
    rw [Timestamp.canonical_instant]
    exact h.instant

theorem Timestamp.Datetime.toList_isoformat {t : Timestamp} (h : t.Datetime) :
    t.isoformat.toList = (dateText (civilDate (t.wall / dayLength))).toList ++
      'T' :: ((clockText (t.wall % dayLength / 1000000)).toList ++
        ((microsecondText (t.wall % 1000000)).toList ++ (offsetText t.shift).toList)) := by
  have hletter : "T".toList = ['T'] := rfl
  unfold Timestamp.isoformat
  rw [h.offset, Option.map_some, Option.getD_some]
  simp only [String.toList_append, hletter, List.append_assoc, List.cons_append, List.nil_append]

theorem Timestamp.toList_currentTimestampText (t : Timestamp) :
    t.currentTimestampText.toList = (dateText (civilDate (t.wall / dayLength))).toList ++
      ' ' :: (clockText (t.wall % dayLength / 1000000)).toList := by
  have hblank : " ".toList = [' '] := rfl
  unfold Timestamp.currentTimestampText
  simp only [String.toList_append, hblank, List.append_assoc, List.cons_append, List.nil_append]

theorem Timestamp.null_not_mem_isoformat (t : Timestamp) : '\x00' ∉ t.isoformat.toList := by
  have hmicro : ∀ m, '\x00' ∉ (microsecondText m).toList := by
    intro m
    unfold microsecondText
    split_ifs
    · decide
    · simp [String.toList_append, null_not_mem_padded]
  have hoffset : ∀ z, '\x00' ∉ (offsetText z).toList := by
    intro z
    unfold offsetText
    dsimp only
    split_ifs <;> simp [String.toList_append, null_not_mem_padded, hmicro]
  unfold isoformat dateText clockText
  cases t.offset <;> simp [String.toList_append, null_not_mem_padded, hmicro, hoffset]

theorem Timestamp.null_not_mem_currentTimestampText (t : Timestamp) : '\x00' ∉ t.currentTimestampText.toList := by
  unfold currentTimestampText dateText clockText
  simp [String.toList_append, null_not_mem_padded]

section

variable {t u : Timestamp}

theorem isoformat_lt_iff (ht : t.Datetime) (hu : u.Datetime) : t.isoformat < u.isoformat ↔
      t.wall < u.wall ∨ t.wall = u.wall ∧ (offsetText t.shift).toList < (offsetText u.shift).toList := by
  rw [String.lt_iff_toList_lt, ht.toList_isoformat, hu.toList_isoformat, dateText_append_lt_iff ht.wall hu.wall,
    cons_lt_same_iff, clockText_append_lt_iff (by unfold dayLength; omega) (by unfold dayLength; omega),
    microsecondText_append_lt_iff (by omega) (by omega) (belowPoint_offsetText _) (belowPoint_offsetText _)]
  unfold dayLength
  by_cases hoffset : (offsetText t.shift).toList < (offsetText u.shift).toList
  · simp only [hoffset, and_true]
    omega
  · simp only [hoffset, and_false, or_false]
    omega

theorem currentTimestampText_lt_isoformat_iff (ht : InCalendar t.wall) (hu : u.Datetime) :
    t.currentTimestampText < u.isoformat ↔ t.wall / dayLength ≤ u.wall / dayLength := by
  have hletters : ' ' :: (clockText (t.wall % dayLength / 1000000)).toList <
      'T' :: ((clockText (u.wall % dayLength / 1000000)).toList ++
        ((microsecondText (u.wall % 1000000)).toList ++ (offsetText u.shift).toList)) :=
    List.cons_lt_cons_iff.2 (Or.inl (by decide))
  rw [String.lt_iff_toList_lt, t.toList_currentTimestampText, hu.toList_isoformat, dateText_append_lt_iff ht hu.wall]
  simp only [hletters, and_true]
  omega

theorem isoformat_lt_currentTimestampText_iff (ht : t.Datetime) (hu : InCalendar u.wall) :
    t.isoformat < u.currentTimestampText ↔ t.wall / dayLength < u.wall / dayLength := by
  have hletters : ¬ 'T' :: ((clockText (t.wall % dayLength / 1000000)).toList ++
      ((microsecondText (t.wall % 1000000)).toList ++ (offsetText t.shift).toList)) <
        ' ' :: (clockText (u.wall % dayLength / 1000000)).toList := by
    refine (List.cons_lt_cons_iff.2 (Or.inl (by decide))).not_gt
  rw [String.lt_iff_toList_lt, u.toList_currentTimestampText, ht.toList_isoformat, dateText_append_lt_iff ht.wall hu]
  simp only [hletters, and_false, or_false]

/-- Times the database filled in are compared by the second. -/
theorem currentTimestampText_lt_iff (ht : InCalendar t.wall) (hu : InCalendar u.wall) :
    t.currentTimestampText < u.currentTimestampText ↔ t.wall / 1000000 < u.wall / 1000000 := by
  have hclock := clockText_append_lt_iff (s := t.wall % dayLength / 1000000) (t := u.wall % dayLength / 1000000)
    (by unfold dayLength; omega) (by unfold dayLength; omega) [] []
  rw [List.append_nil, List.append_nil] at hclock
  rw [String.lt_iff_toList_lt, t.toList_currentTimestampText, u.toList_currentTimestampText,
    dateText_append_lt_iff ht hu, cons_lt_same_iff, hclock]
  unfold dayLength
  have hnil : ¬([] : List Char) < [] := by simp
  simp only [hnil, and_false, or_false]
  omega

end

end Phlo.RunEvidence
