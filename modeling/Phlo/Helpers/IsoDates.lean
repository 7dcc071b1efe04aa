import Phlo.RunEvidence.TimestampOrder

/-!
# Dates and times as texts

Days are counted from 1970-01-01 and naive times in microseconds from its midnight.

* `isoDate`, `isoDatetime` — `date.isoformat()`, and `datetime.isoformat()` with a separator;
* `dateFromIsoformat` — `date.fromisoformat`, of the form that `isoformat` writes.
-/

namespace Phlo.Helpers

open Phlo.Library RunEvidence

/-! ### Texts -/

def isoDate (day : ℤ) : List Char := (dateText (civilDate day)).toList

/-- `datetime.isoformat()`, or `str(datetime)` if the separator is a blank -/
def isoDatetime (separator : Char) (wall : ℤ) : List Char :=
  isoDate (wall / dayLength) ++ separator ::
    ((clockText (wall % dayLength / 1000000)).toList ++ (microsecondText (wall % 1000000)).toList)

def IsDay (day : ℤ) : Prop := firstDay ≤ day ∧ day ≤ lastDay

/-! ### Reading -/

def dayOf (date : CivilDate) : ℤ :=
  let year := if date.month ≤ 2 then date.year - 1 else date.year
  let month := if date.month ≤ 2 then date.month + 9 else date.month - 3
  marchStart year + (153 * month + 2) / 5 + date.day - 1 - 719468

theorem dayOf_civilDate (day : ℤ) : dayOf (civilDate day) = day := by
  have hday := marchDay_spec day
  have hstart : day = marchStart (marchYear day) + marchDay day - 719468 := by
    unfold marchDay
    omega
  rw [civilDate_eq]
  generalize marchYear day = year at hstart ⊢
  generalize marchDay day = march at hday hstart ⊢
  have hmonth : 0 ≤ (5 * march + 2) / 153 ∧ (5 * march + 2) / 153 < 12 := by omega
  by_cases hten : (5 * march + 2) / 153 < 10
  · have hdate : ofMarch year march =
        ⟨year, (5 * march + 2) / 153 + 3, march - (153 * ((5 * march + 2) / 153) + 2) / 5 + 1⟩ := by
      unfold ofMarch
      simp only [hten, if_true, add_zero]
    rw [hdate, dayOf, if_neg (show ¬(5 * march + 2) / 153 + 3 ≤ 2 by omega)]
    simp only [if_neg (show ¬(5 * march + 2) / 153 + 3 ≤ 2 by omega)]
    omega
  · have hdate : ofMarch year march =
        ⟨year + 1, (5 * march + 2) / 153 - 9, march - (153 * ((5 * march + 2) / 153) + 2) / 5 + 1⟩ := by
      unfold ofMarch
      simp only [hten, if_false]
    rw [hdate, dayOf, if_pos (show (5 * march + 2) / 153 - 9 ≤ 2 by omega)]
    simp only [if_pos (show (5 * march + 2) / 153 - 9 ≤ 2 by omega), add_sub_cancel_right]
    omega

def readChar (c : Char) : List Char → Option (List Char)
  | [] => none
  | x :: text => if x = c then some text else none

def readDate (text : List Char) : Option (ℤ × List Char) := do
  let (year, text) ← readFixed 4 text
  let text ← readChar '-' text
  let (month, text) ← readFixed 2 text
  let text ← readChar '-' text
  let (day, text) ← readFixed 2 text
  let date : CivilDate := ⟨year, month, day⟩
  if year ≠ 0 ∧ civilDate (dayOf date) = date then some (dayOf date, text) else none

/-- `date.fromisoformat` -/
def dateFromIsoformat (text : List Char) : Option ℤ :=
  match readDate text with
  | some (day, []) => some day
  | _ => none

/-- Microseconds behind a point, or nothing. -/
def readMicroseconds : List Char → Option ℤ
  | [] => some 0
  | text => do
    let text ← readChar '.' text
    match readFixed 6 text with
    | some (n, []) => some n
    | _ => none

def readClock (text : List Char) : Option ℤ := do
  let (hours, text) ← readFixed 2 text
  let text ← readChar ':' text
  let (minutes, text) ← readFixed 2 text
  let text ← readChar ':' text
  let (seconds, text) ← readFixed 2 text
  let microseconds ← readMicroseconds text
  if hours < 24 ∧ minutes < 60 ∧ seconds < 60 then
    some ((hours * 3600 + minutes * 60 + seconds) * 1000000 + microseconds)
  else none

/-- The time of a text: a date, which is its midnight, or a date and a clock. -/
def instantFromText (text : List Char) : Option ℤ :=
  match readDate text with
  | none => none
  | some (day, []) => some (day * dayLength)
  | some (day, c :: clock) =>
    if c = 'T' ∨ c = ' ' then (readClock clock).map (day * dayLength + ·) else none

/-! ### Reading back what was written -/

theorem readFixed_padded {width : ℕ} {n : ℤ} (hwidth : 0 < width) (h0 : 0 ≤ n) (hn : n < 10 ^ width)
    (rest : List Char) : readFixed width ((padded width n).toList ++ rest) = some (n.toNat, rest) := by
  rw [toList_padded hwidth h0 hn]
  exact readFixed_fixedDigits (toNat_lt_pow h0 hn) rest

theorem readChar_cons (c : Char) (text : List Char) : readChar c (c :: text) = some text := if_pos rfl

theorem readDate_isoDate {day : ℤ} (hday : IsDay day) (rest : List Char) :
    readDate (isoDate day ++ rest) = some (day, rest) := by
  have hyear := civilDate_year hday.1 hday.2
  have hfields := civilDate_fields day
  have hdate : (⟨((civilDate day).year.toNat : ℤ), ((civilDate day).month.toNat : ℤ),
      ((civilDate day).day.toNat : ℤ)⟩ : CivilDate) = civilDate day := by
    rw [Int.toNat_of_nonneg (by omega), Int.toNat_of_nonneg (by omega), Int.toNat_of_nonneg (by omega)]
  have hvalid : (civilDate day).year.toNat ≠ 0 ∧ civilDate (dayOf (civilDate day)) = civilDate day :=
    ⟨by omega, by rw [dayOf_civilDate]⟩
  rw [isoDate, toList_dateText, readDate]
  simp only [List.append_assoc, List.cons_append]
  rw [readFixed_padded (by decide) (by omega) (by omega)]
  simp only [Option.bind_eq_bind, Option.bind_some]
  rw [readChar_cons]
  simp only [Option.bind_some]
  rw [readFixed_padded (by decide) (by omega) (by omega)]
  simp only [Option.bind_some]
  rw [readChar_cons]
  simp only [Option.bind_some]
  rw [readFixed_padded (by decide) (by omega) (by omega)]
  simp only [Option.bind_some]
  rw [hdate, if_pos hvalid, dayOf_civilDate]

theorem dateFromIsoformat_isoDate {day : ℤ} (hday : IsDay day) : dateFromIsoformat (isoDate day) = some day := by
  have h := readDate_isoDate hday []
  rw [List.append_nil] at h
  rw [dateFromIsoformat, h]

/-- The text of a time is not the text of a date. -/
theorem dateFromIsoformat_isoDatetime {wall : ℤ} (hwall : InCalendar wall) (separator : Char) :
    dateFromIsoformat (isoDatetime separator wall) = none := by
  rw [dateFromIsoformat, isoDatetime, readDate_isoDate hwall]

theorem readMicroseconds_microsecondText {m : ℤ} (h0 : 0 ≤ m) (hm : m < 1000000) :
    readMicroseconds (microsecondText m).toList = some m := by
  by_cases hzero : m = 0
  · rw [hzero]
    rfl
  · have hread := readFixed_padded (show 0 < 6 by decide) h0 (show m < 10 ^ 6 by omega) []
    rw [List.append_nil] at hread
    rw [toList_microsecondText hzero, readMicroseconds]
    · rw [readChar_cons]
      simp only [Option.bind_eq_bind, Option.bind_some, hread, Int.toNat_of_nonneg h0]
    · exact nofun

theorem readClock_clockText {seconds m : ℤ} (h0 : 0 ≤ seconds) (hseconds : seconds < 86400) (hm0 : 0 ≤ m)
    (hm : m < 1000000) :
    readClock ((clockText seconds).toList ++ (microsecondText m).toList) = some (seconds * 1000000 + m) := by
  rw [toList_clockText, readClock]
  simp only [List.append_assoc, List.cons_append]
  rw [readFixed_padded (by decide) (by omega) (by omega)]
  simp only [Option.bind_eq_bind, Option.bind_some]
  rw [readChar_cons]
  simp only [Option.bind_some]
  rw [readFixed_padded (by decide) (by omega) (by omega)]
  simp only [Option.bind_some]
  rw [readChar_cons]
  simp only [Option.bind_some]
  rw [readFixed_padded (by decide) (by omega) (by omega)]
  simp only [Option.bind_some]
  rw [readMicroseconds_microsecondText hm0 hm]
  simp only [Option.bind_some]
  rw [if_pos (by omega)]
  congr 1
  omega

theorem instantFromText_isoDate {day : ℤ} (hday : IsDay day) :
    instantFromText (isoDate day) = some (day * dayLength) := by
  have h := readDate_isoDate hday []
  rw [List.append_nil] at h
  rw [instantFromText, h]

theorem instantFromText_isoDatetime {wall : ℤ} (hwall : InCalendar wall) {separator : Char}
    (hseparator : separator = 'T' ∨ separator = ' ') : instantFromText (isoDatetime separator wall) = some wall := by
  have hlength : dayLength = 86400000000 := rfl
  rw [instantFromText, isoDatetime, readDate_isoDate hwall]
  simp only
  rw [hlength, if_pos hseparator, readClock_clockText (by omega) (by omega) (by omega) (by omega)]
  simp only [Option.map_some, Option.some.injEq]
  omega

end Phlo.Helpers
