import Phlo.Library.OrderedDict

/-!
# Rows of the helpers

The helpers take rows as mappings from field names to values of any kind.  Of a value they use its
`str` and its truth; `Cell` has the values that examples are made of.
-/

namespace Phlo.Helpers

open Phlo.Library

/-- What the helpers use of a value. -/
class PyValue (V : Type) where
  str : V → String
  truthy : V → Bool

/-- A row: a mapping from field names to values. -/
abbrev Row (V : Type) := OrderedDict String V

section

variable {V : Type} [PyValue V]

/-- `str(row.get(field, default))`, for a default with the given text -/
def Row.textOr (row : Row V) (field default : String) : String :=
  ((row.get field).map PyValue.str).getD default

/-- `str(row.get(field))` -/
def Row.text (row : Row V) (field : String) : String := row.textOr field "None"

/-- `str(row.get(field) or "")` -/
def Row.statedText (row : Row V) (field : String) : String :=
  match row.get field with
  | some value => if PyValue.truthy value then PyValue.str value else ""
  | none => ""

/-- `bool(row.get(field))` -/
def Row.marked (row : Row V) (field : String) : Bool :=
  (row.get field).any PyValue.truthy

theorem Row.text_of_get {row : Row V} {field : String} {value : V} (h : row.get field = some value) :
    row.text field = PyValue.str value := by
  rw [Row.text, Row.textOr, h]
  rfl

end

/-- A null, an integer or a text. -/
inductive Cell where
  | none
  | int (n : ℤ)
  | text (s : String)
  deriving DecidableEq

instance : PyValue Cell where
  str
    | .none => "None"
    | .int n => toString n
    | .text s => s
  truthy
    | .none => false
    | .int n => n != 0
    | .text s => s != ""

end Phlo.Helpers
