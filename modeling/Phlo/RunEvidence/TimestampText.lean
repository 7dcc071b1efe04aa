import Phlo.RunEvidence.Json

/-!
# The text of a timestamp

The TEXT columns hold `datetime.isoformat()` of a given timestamp and, for the columns the database
fills in, `CURRENT_TIMESTAMP`, which SQLite writes as `YYYY-MM-DD HH:MM:SS`.  Comparisons in SQL
are comparisons of these texts.
-/

namespace Phlo.RunEvidence

/-- A number in decimal, padded with zeros to `width` digits. -/
def padded (width : ℕ) (n : ℤ) : String :=
  let digits := toString n.toNat
  String.ofList (List.replicate (width - digits.length) '0') ++ digits

/-- A day of the proleptic Gregorian calendar. -/
structure CivilDate where
  year : ℤ
  month : ℤ
  day : ℤ
  deriving DecidableEq, Repr

/-- The date `days` after 1970-01-01.  Years are counted from March here, so that the leap day is
the last day of its year, in eras of 400 years with 146097 days. -/
def civilDate (days : ℤ) : CivilDate :=
  let shifted := days + 719468
  let era := shifted / 146097
  let dayOfEra := shifted % 146097
  let yearOfEra := (dayOfEra - dayOfEra / 1460 + dayOfEra / 36524 - dayOfEra / 146096) / 365
  let dayOfYear := dayOfEra - (365 * yearOfEra + yearOfEra / 4 - yearOfEra / 100)
  let month := (5 * dayOfYear + 2) / 153
  { year := yearOfEra + 400 * era + (if month < 10 then 0 else 1)
    month := if month < 10 then month + 3 else month - 9
    day := dayOfYear - (153 * month + 2) / 5 + 1 }

/-- `.ffffff`, left out when there are no microseconds. -/
def microsecondText (microseconds : ℤ) : String :=
  if microseconds = 0 then "" else "." ++ padded 6 microseconds

/-- `HH:MM:SS` of a number of seconds. -/
def clockText (seconds : ℤ) : String :=
  padded 2 (seconds / 3600) ++ ":" ++ padded 2 (seconds / 60 % 60) ++ ":" ++ padded 2 (seconds % 60)

/-- `+HH:MM`, with seconds and microseconds only when the offset has any. -/
def offsetText (offset : ℤ) : String :=
  let sign := if offset < 0 then "-" else "+"
  let size : ℤ := offset.natAbs
  let seconds := size / 1000000
  let minutes := sign ++ padded 2 (seconds / 3600) ++ ":" ++ padded 2 (seconds / 60 % 60)
  if size % 60000000 = 0 then minutes
  else minutes ++ ":" ++ padded 2 (seconds % 60) ++ microsecondText (size % 1000000)

def dateText (date : CivilDate) : String :=
  padded 4 date.year ++ "-" ++ padded 2 date.month ++ "-" ++ padded 2 date.day

def dayLength : ℤ := 86400000000

/-- `datetime.isoformat()` -/
def Timestamp.isoformat (t : Timestamp) : String :=
  dateText (civilDate (t.wall / dayLength)) ++ "T" ++
    clockText (t.wall % dayLength / 1000000) ++ microsecondText (t.wall % 1000000) ++
    (t.offset.map offsetText).getD ""

/-- What SQLite stores for `CURRENT_TIMESTAMP`. -/
def Timestamp.currentTimestampText (t : Timestamp) : String :=
  dateText (civilDate (t.wall / dayLength)) ++ " " ++ clockText (t.wall % dayLength / 1000000)

/-- 2024-02-29 23:59:59.25, a reading ahead of UTC by 05:30. -/
example : Timestamp.isoformat ⟨1709251199250000, some 19800000000⟩ =
    "2024-02-29T23:59:59.250000+05:30" := by decide +kernel

theorem Timestamp.isoformat_ne_empty (t : Timestamp) : t.isoformat ≠ "" := by
  intro h
  have htext := congrArg String.length h
  simp [isoformat, dateText, String.length_append] at htext

theorem Timestamp.currentTimestampText_ne_empty (t : Timestamp) : t.currentTimestampText ≠ "" := by
  intro h
  have htext := congrArg String.length h
  simp [currentTimestampText, dateText, String.length_append] at htext

end Phlo.RunEvidence
