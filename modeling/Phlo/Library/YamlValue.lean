import Mathlib.Data.List.Basic
import Mathlib.Data.String.Basic

/-!
# YAML documents as values

What a safe loader makes of a document: scalars, lists, and mappings from scalars in the order in which
they were written.  A mapping has every key once; `find`, `put` and `drop` are its operations for a key that
is a text, and `equal` is the comparison of two loaded values, for which the order of a mapping and the
difference between `true`, `1` and `1.0` do not count.
-/

namespace Phlo.Library

/-- A scalar; a float by its shortest text, a value of any other type (a date) by its text. -/
inductive YamlScalar where
  | null
  | bool (b : Bool)
  | int (n : ℤ)
  | float (text : String)
  | str (s : String)
  | other (text : String)
  deriving DecidableEq

inductive Yaml where
  | scalar (s : YamlScalar)
  | list (items : List Yaml)
  | map (entries : List (YamlScalar × Yaml))

namespace YamlScalar

/-- `str(value)` -/
def text : YamlScalar → String
  | null => "None"
  | bool b => if b then "True" else "False"
  | int n => toString n
  | float text | other text => text
  | str s => s

def integer : YamlScalar → Option ℤ
  | bool b => some (if b then 1 else 0)
  | int n => some n
  | float text =>
    match text.toList.reverse with
    | '0' :: '.' :: digits => (String.ofList digits.reverse).toInt?
    | _ => none
  | null | str _ | other _ => none

def equal (a b : YamlScalar) : Bool :=
  match a.integer, b.integer with
  | some m, some n => m = n
  | _, _ => a = b ∧ a ≠ float "nan"

end YamlScalar

namespace Yaml

abbrev Entries := List (YamlScalar × Yaml)

def str (s : String) : Yaml := .scalar (.str s)

/-- `mapping.get(key)` -/
def find (key : String) (entries : Entries) : Option Yaml := entries.lookup (.str key)

/-- `mapping[key] = value` -/
def put (key : String) (value : Yaml) (entries : Entries) : Entries :=
  if (find key entries).isSome then entries.map fun entry => if entry.1 = .str key then (entry.1, value) else entry
  else entries ++ [(.str key, value)]

/-- `mapping.pop(key, None)` -/
def drop (key : String) (entries : Entries) : Entries := entries.filter fun entry => entry.1 ≠ .str key

/-- `value.get(key)` of a mapping. -/
def field (key : String) : Yaml → Option Yaml
  | .map entries => find key entries
  | _ => none

mutual

/-- `a == b` -/
def equal : Yaml → Yaml → Bool
  | .scalar a, .scalar b => a.equal b
  | .list xs, .list ys => equalItems xs ys
  | .map xs, .map ys => xs.length == ys.length && equalEntries xs ys
  | _, _ => false

def equalItems : List Yaml → List Yaml → Bool
  | [], [] => true
  | x :: xs, y :: ys => equal x y && equalItems xs ys
  | _, _ => false

def equalEntries : Entries → Entries → Bool
  | [], _ => true
  | (key, value) :: entries, ys =>
    (match ys.find? fun entry => key.equal entry.1 with
      | some entry => equal value entry.2
      | none => false) && equalEntries entries ys

end

end Yaml

end Phlo.Library
