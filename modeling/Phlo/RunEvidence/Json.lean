import Mathlib.Data.List.Basic
import Mathlib.Data.String.Basic

/-!
# Timestamps and JSON trees

`Timestamp` is a `datetime`: its wall clock reading and, when it is timezone-aware, the offset from
UTC.  Comparisons go through `instant`; `isoformat` shows reading and offset, so two datetimes have
the same text exactly when they are equal.

`Json` is the tree a canonical JSON text spells out.  Two kinds of text are kept as leaves of their
own instead of being spelled out: `instant` is the `isoformat` text of a datetime, and `digest` the
hexadecimal SHA-256 digest of the text of a payload.  SHA-256 is taken to be injective, so a digest
is represented by what was hashed.
-/

namespace Phlo.RunEvidence

/-- A `datetime`, in microseconds since the epoch; `offset` is `none` for a naive one. -/
structure Timestamp where
  wall : ℤ
  offset : Option ℤ := some 0
  deriving DecidableEq, Repr, Inhabited

namespace Timestamp

/-- The point in time; a naive datetime read back from the store counts as UTC. -/
def instant (t : Timestamp) : ℤ := t.wall - t.offset.getD 0

def aware (t : Timestamp) : Bool := t.offset.isSome

/-- `_canonical_timestamp`: the same instant in UTC. -/
def canonical (t : Timestamp) : Timestamp := ⟨t.instant, some 0⟩

@[simp] theorem canonical_instant (t : Timestamp) : t.canonical.instant = t.instant := by
  simp [canonical, instant]

@[simp] theorem canonical_canonical (t : Timestamp) : t.canonical.canonical = t.canonical := by
  simp [canonical, instant]

@[simp] theorem canonical_aware (t : Timestamp) : t.canonical.aware = true := rfl

end Timestamp

inductive Json where
  | null
  | bool (b : Bool)
  | int (n : ℤ)
  | float (text : String)
  | str (s : String)
  | instant (t : Timestamp)
  | digest (payload : Json)
  | arr (items : List Json)
  | obj (fields : List (String × Json))
  deriving Inhabited

/-- A Python `dict` with string keys, in insertion order. -/
abbrev Dict := List (String × Json)

namespace Json

mutual

def beq : Json → Json → Bool
  | .null, .null => true
  | .bool a, .bool b => a == b
  | .int a, .int b => a == b
  | .float a, .float b => a == b
  | .str a, .str b => a == b
  | .instant a, .instant b => a == b
  | .digest a, .digest b => beq a b
  | .arr a, .arr b => beqItems a b
  | .obj a, .obj b => beqFields a b
  | _, _ => false

def beqItems : List Json → List Json → Bool
  | [], [] => true
  | a :: as, b :: bs => beq a b && beqItems as bs
  | _, _ => false

def beqFields : List (String × Json) → List (String × Json) → Bool
  | [], [] => true
  | (k, a) :: as, (l, b) :: bs => k == l && beq a b && beqFields as bs
  | _, _ => false

end

instance : BEq Json := ⟨beq⟩

mutual

theorem eq_of_beq_tree : ∀ a b : Json, beq a b = true → a = b
  | .null, b, h => by cases b <;> simp_all [beq]
  | .bool _, b, h => by cases b <;> simp_all [beq]
  | .int _, b, h => by cases b <;> simp_all [beq]
  | .float _, b, h => by cases b <;> simp_all [beq]
  | .str _, b, h => by cases b <;> simp_all [beq]
  | .instant _, b, h => by cases b <;> simp_all [beq]
  | .digest a, b, h => by
      cases b with
      | digest b => rw [eq_of_beq_tree a b (by simpa [beq] using h)]
      | _ => simp [beq] at h
  | .arr as, b, h => by
      cases b with
      | arr bs => rw [eq_of_beqItems as bs (by simpa [beq] using h)]
      | _ => simp [beq] at h
  | .obj as, b, h => by
      cases b with
      | obj bs => rw [eq_of_beqFields as bs (by simpa [beq] using h)]
      | _ => simp [beq] at h

theorem eq_of_beqItems : ∀ as bs : List Json, beqItems as bs = true → as = bs
  | [], bs, h => by cases bs <;> simp_all [beqItems]
  | a :: as, bs, h => by
      cases bs with
      | nil => simp [beqItems] at h
      | cons b bs =>
        simp only [beqItems, Bool.and_eq_true] at h
        rw [eq_of_beq_tree a b h.1, eq_of_beqItems as bs h.2]

theorem eq_of_beqFields : ∀ as bs : List (String × Json), beqFields as bs = true → as = bs
  | [], bs, h => by cases bs <;> simp_all [beqFields]
  | (k, a) :: as, bs, h => by
      cases bs with
      | nil => simp [beqFields] at h
      | cons f bs =>
        simp only [beqFields, Bool.and_eq_true, beq_iff_eq] at h
        rw [h.1.1, eq_of_beq_tree a f.2 h.1.2, eq_of_beqFields as bs h.2]

end

mutual

theorem beq_refl_tree : ∀ a : Json, beq a a = true
  | .null => rfl
  | .bool _ | .int _ | .float _ | .str _ | .instant _ => by simp [beq]
  | .digest a => by simpa [beq] using beq_refl_tree a
  | .arr as => by simpa [beq] using beqItems_refl as
  | .obj as => by simpa [beq] using beqFields_refl as

theorem beqItems_refl : ∀ as : List Json, beqItems as as = true
  | [] => rfl
  | a :: as => by simp [beqItems, beq_refl_tree a, beqItems_refl as]

theorem beqFields_refl : ∀ as : List (String × Json), beqFields as as = true
  | [] => rfl
  | (k, a) :: as => by simp [beqFields, beq_refl_tree a, beqFields_refl as]

end

instance : LawfulBEq Json where
  eq_of_beq := eq_of_beq_tree _ _
  rfl := beq_refl_tree _

instance : DecidableEq Json := instDecidableEqOfLawfulBEq

/-! ### Leaves for optional values -/

def ofText : Option String → Json
  | some s => .str s
  | none => .null

def ofInt : Option ℤ → Json
  | some n => .int n
  | none => .null

/-- `value.isoformat() if value else None` -/
def ofInstant : Option Timestamp → Json
  | some t => .instant t
  | none => .null

def ofTexts (l : List String) : Json := .arr (l.map .str)

theorem ofText_injective : Function.Injective ofText := by
  intro a b h
  cases a <;> cases b <;> simp_all [ofText]

theorem ofInt_injective : Function.Injective ofInt := by
  intro a b h
  cases a <;> cases b <;> simp_all [ofInt]

theorem ofInstant_injective : Function.Injective ofInstant := by
  intro a b h
  cases a <;> cases b <;> simp_all [ofInstant]

theorem ofTexts_injective : Function.Injective ofTexts := by
  intro a b h
  have hs : Function.Injective Json.str := fun _ _ h => Json.str.inj h
  exact List.map_injective_iff.2 hs (Json.arr.inj h)

end Json

end Phlo.RunEvidence
