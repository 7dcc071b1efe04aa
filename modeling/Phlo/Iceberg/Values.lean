import Mathlib.Data.Rat.Defs
import Mathlib.Data.List.Basic
import Mathlib.Data.String.Basic

/-!
# Values, types and tables of Arrow

The Python values a table's cells are read as, up to what `==` tells apart: a number is its value,
whatever its type, and the items of a dictionary are in the order of their names.  NaN is the exception,
`==` does not even find it equal to itself.

* `equal_iff` — `_equal` tells apart exactly different values.
-/

namespace Phlo.Iceberg

/-! ### Values -/

inductive Scalar where
  | number (q : ℚ)
  | nan
  | infinity (negative : Bool)
  | text (s : String)
  | bytes (b : List UInt8)
  /-- a date, a time or a duration -/
  | moment (kind : String) (n : ℤ)
  deriving DecidableEq

inductive Value where
  | null
  | scalar (s : Scalar)
  | list (items : List Value)
  | dict (items : List (String × Value))

/-- `left == right` of two scalars. -/
def Scalar.pyEq (left right : Scalar) : Bool := left = right && left ≠ .nan

mutual

/-- `_equal` -/
def equal : Value → Value → Bool
  | .scalar .nan, .scalar .nan => true
  | .dict left, .dict right => equalMembers left right
  | .list left, .list right => equalItems left right
  | .scalar left, .scalar right => left.pyEq right
  | .null, .null => true
  | _, _ => false

def equalMembers : List (String × Value) → List (String × Value) → Bool
  | [], [] => true
  | (key, left) :: lefts, (key', right) :: rights =>
    key == key' && equal left right && equalMembers lefts rights
  | _, _ => false

def equalItems : List Value → List Value → Bool
  | [], [] => true
  | left :: lefts, right :: rights => equal left right && equalItems lefts rights
  | _, _ => false

end

theorem equal_scalar (a b : Scalar) : equal (.scalar a) (.scalar b) = true ↔ a = b := by
  cases a <;> cases b <;> simp [equal, Scalar.pyEq]

mutual

theorem equal_iff : ∀ a b : Value, equal a b = true ↔ a = b
  | .scalar a, b => by
    cases b with
    | scalar b => rw [equal_scalar, Value.scalar.injEq]
    | _ => cases a <;> simp [equal]
  | .null, b => by cases b <;> simp [equal]
  | .list as, b => by
    cases b with
    | list bs => rw [equal, equalItems_iff as bs, Value.list.injEq]
    | _ => simp [equal]
  | .dict as, b => by
    cases b with
    | dict bs => rw [equal, equalMembers_iff as bs, Value.dict.injEq]
    | _ => simp [equal]

theorem equalItems_iff : ∀ as bs : List Value, equalItems as bs = true ↔ as = bs
  | [], bs => by cases bs <;> simp [equalItems]
  | a :: as, bs => by
    cases bs with
    | nil => simp [equalItems]
    | cons b bs =>
      rw [equalItems, Bool.and_eq_true, equal_iff a b, equalItems_iff as bs, List.cons.injEq]

theorem equalMembers_iff : ∀ as bs : List (String × Value), equalMembers as bs = true ↔ as = bs
  | [], bs => by cases bs <;> simp [equalMembers]
  | (k, a) :: as, bs => by
    cases bs with
    | nil => simp [equalMembers]
    | cons b bs =>
      obtain ⟨l, b⟩ := b
      rw [equalMembers, Bool.and_eq_true, Bool.and_eq_true, beq_iff_eq, equal_iff a b,
        equalMembers_iff as bs, List.cons.injEq, Prod.mk.injEq]

end

instance : DecidableEq Value := fun a b => decidable_of_iff _ (equal_iff a b)

/-- A row as a record of values, null where the table has no such column. -/
abbrev Row := String → Value

def Row.restrict (names : List String) (row : Row) : Row :=
  fun name => if name ∈ names then row name else .null

theorem Row.restrict_of_mem {names : List String} {name : String} (row : Row) (h : name ∈ names) :
    row.restrict names name = row name := if_pos h

theorem Row.restrict_of_notMem {names : List String} {name : String} (row : Row) (h : name ∉ names) :
    row.restrict names name = .null := if_neg h

@[simp] theorem Row.restrict_restrict (names : List String) (row : Row) :
    (row.restrict names).restrict names = row.restrict names := by
  funext name
  by_cases h : name ∈ names
  · rw [restrict_of_mem _ h]
  · rw [restrict_of_notMem _ h, restrict_of_notMem _ h]

/-! ### Types -/

mutual

inductive ArrowType where
  | null
  | bool
  | int (signed : Bool) (width : ℕ)
  | float (width : ℕ)
  | string
  | largeString
  | binary
  | largeBinary
  | date
  | time
  | timestamp (unit : String) (tz : Option String)
  | decimal (precision scale : ℕ)
  | struct (children : ArrowFields)
  | list (element : ArrowType) (nullable : Bool)
  | largeList (element : ArrowType) (nullable : Bool)
  | map (key item : ArrowType) (nullable : Bool)
  | other (name : String)

inductive ArrowFields where
  | nil
  | cons (name : String) (type : ArrowType) (nullable : Bool) (rest : ArrowFields)

end

deriving instance DecidableEq for ArrowType, ArrowFields

structure Field where
  name : String
  type : ArrowType
  nullable : Bool
  deriving DecidableEq

/-- A `pa.Table`. -/
structure ArrowTable where
  fields : List Field
  rows : List Row

def ArrowTable.columnNames (t : ArrowTable) : List String := t.fields.map Field.name

end Phlo.Iceberg
