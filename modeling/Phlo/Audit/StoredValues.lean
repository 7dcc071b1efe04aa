import Mathlib.Algebra.Order.Field.Rat
import Phlo.Audit.Events
import Phlo.Library.OrderedDict

/-!
# Values in memory, in JSON texts and in JSONB columns

A value in memory has keys of several types and floats with their shortest texts.  `PyValue.text` is what
`json.dumps(value, sort_keys=True)` writes, `PyValue.jsonb` what a JSONB column gives back: numbers are
exact decimals, without the sign of a zero, and one without digits after the point is read as an integer;
keys are texts.

* `keysIncrease_of_str` — keys that are different texts put no condition on an object.
-/

namespace Phlo.Audit

open Phlo.Library JsonValue

/-! ### Decimals -/

/-- `mantissa / 10 ^ places` -/
structure Decimal where
  mantissa : ℤ
  places : ℤ
  deriving DecidableEq

def Decimal.value (d : Decimal) : ℚ := d.mantissa * (10 : ℚ) ^ (-d.places)

def digitsValue (digits : List Char) : ℕ := digits.foldl (fun n c => n * 10 + (c.toNat - 48)) 0

/-- The part of a number's text after its `e`. -/
def exponentValue : List Char → ℤ
  | '-' :: digits => -(digitsValue digits : ℤ)
  | '+' :: digits => digitsValue digits
  | digits => digitsValue digits

def decimalOf (text : FloatText) : Decimal :=
  let front := text.chars.takeWhile (· ≠ 'e')
  let whole := (front.takeWhile (· ≠ '.')).filter Char.isDigit
  let fraction := (front.dropWhile (· ≠ '.')).drop 1
  let sign : ℤ := if text.chars.head? = some '-' then -1 else 1
  ⟨sign * digitsValue (whole ++ fraction),
    fraction.length - exponentValue ((text.chars.dropWhile (· ≠ 'e')).drop 1)⟩

def zeroText : FloatText := ⟨['0', '.', '0'], by simp [isNumeral], '.', by decide, .inl rfl⟩

def negativeZeroText : FloatText := ⟨['-', '0', '.', '0'], by simp [isNumeral], '.', by decide, .inl rfl⟩

/-- Floats of the machine: the text of the float nearest to a number, and the number that the float with a
text is. -/
structure Floats where
  nearest : ℚ → FloatText
  exact : FloatText → ℚ
  nearest_zero : nearest 0 = zeroText

/-- The text of a float reads back as the float. -/
structure PyFloat (floats : Floats) where
  text : FloatText
  readBack : floats.nearest (decimalOf text).value = text ∨ text = negativeZeroText

/-! ### Values -/

inductive PyKey (floats : Floats) where
  | str (s : String)
  | none
  | bool (b : Bool)
  | int (n : ℤ)
  | float (x : PyFloat floats)

inductive PyValue (floats : Floats) where
  | null
  | bool (b : Bool)
  | int (n : ℤ)
  | float (x : PyFloat floats)
  | str (s : String)
  | arr (items : List (PyValue floats))
  | obj (fields : List (PyKey floats × PyValue floats))

variable {floats : Floats}

namespace PyKey

/-- A key as `json.dumps` writes it. -/
def text : PyKey floats → String
  | .str s => s
  | .none => "null"
  | .bool b => if b then "true" else "false"
  | .int n => n.repr
  | .float x => String.ofList x.text.chars

def isStr : PyKey floats → Bool
  | .str _ => true
  | _ => false

def isNumber : PyKey floats → Bool
  | .bool _ | .int _ | .float _ => true
  | _ => false

def number : PyKey floats → ℚ
  | .bool b => if b then 1 else 0
  | .int n => n
  | .float x => floats.exact x.text
  | _ => 0

end PyKey

/-- The items of a dictionary in the order of their keys; keys that cannot be compared are refused. -/
def orderFields {α : Type} (fields : List (PyKey floats × α)) : Except AuditError (List (PyKey floats × α)) :=
  if fields.length ≤ 1 then .ok fields
  else if fields.all fun f => f.1.isStr then .ok (sortBy (fun f => f.1.text) fields)
  else if fields.all fun f => f.1.isNumber then .ok (sortBy (fun f => f.1.number) fields)
  else .error (.typeError "'<' not supported between instances of the types of the keys")

namespace PyValue

mutual

/-- The document whose text `json.dumps(value, sort_keys=True)` is. -/
def text : PyValue floats → Except AuditError JsonValue
  | .null => .ok .null
  | .bool b => .ok (.bool b)
  | .int n => .ok (.int n)
  | .float x => .ok (.float x.text)
  | .str s => .ok (.str s)
  | .arr items => do
    let items ← textItems items
    .ok (.arr items)
  | .obj fields => do
    let fields ← textFields fields
    let fields ← orderFields fields
    .ok (.obj (fields.map fun f => (f.1.text, f.2)))

def textItems : List (PyValue floats) → Except AuditError (List JsonValue)
  | [] => .ok []
  | item :: items => do
    let item ← text item
    let items ← textItems items
    .ok (item :: items)

def textFields : List (PyKey floats × PyValue floats) → Except AuditError (List (PyKey floats × JsonValue))
  | [] => .ok []
  | (key, value) :: fields => do
    let value ← text value
    let fields ← textFields fields
    .ok ((key, value) :: fields)

end

/-- A float's text as a number of a JSONB column, read back. -/
def jsonbFloat (x : PyFloat floats) : JsonValue :=
  let d := decimalOf x.text
  if 0 < d.places then .float (floats.nearest d.value) else .int (d.mantissa * 10 ^ (-d.places).toNat)

mutual

/-- What is read back from a JSONB column; of several members with one key the last one is kept. -/
def jsonb : PyValue floats → JsonValue
  | .null => .null
  | .bool b => .bool b
  | .int n => .int n
  | .float x => jsonbFloat x
  | .str s => .str s
  | .arr items => .arr (jsonbItems items)
  | .obj fields => .obj (OrderedDict.ofList (jsonbFields fields)).items

def jsonbItems : List (PyValue floats) → List JsonValue
  | [] => []
  | item :: items => jsonb item :: jsonbItems items

def jsonbFields : List (PyKey floats × PyValue floats) → List (String × JsonValue)
  | [] => []
  | (key, value) :: fields => (key.text, jsonb value) :: jsonbFields fields

end

/-! ### Portable values -/

/-- In the order in which keys are written, their texts increase. -/
def KeysIncrease (keys : List (PyKey floats)) : Prop :=
  ∀ ordered, orderFields (keys.map fun key => (key, ())) = .ok ordered →
    (ordered.map fun key => key.1.text).Pairwise (· < ·)

/-- A float whose decimal has digits after the point, and that is not a negative zero. -/
def PortableFloat (x : PyFloat floats) : Prop := 0 < (decimalOf x.text).places ∧ x.text ≠ negativeZeroText

mutual

/-- Every float, and every dictionary's keys, survive a JSONB column. -/
def Portable : PyValue floats → Prop
  | .float x => PortableFloat x
  | .arr items => PortableItems items
  | .obj fields => KeysIncrease (fields.map Prod.fst) ∧ PortableFields fields
  | _ => True

def PortableItems : List (PyValue floats) → Prop
  | [] => True
  | item :: items => Portable item ∧ PortableItems items

def PortableFields : List (PyKey floats × PyValue floats) → Prop
  | [] => True
  | (_, value) :: fields => Portable value ∧ PortableFields fields

end

end PyValue

/-! ### The order of keys -/

theorem orderFields_perm {α : Type} {fields ordered : List (PyKey floats × α)}
    (h : orderFields fields = .ok ordered) : ordered.Perm fields := by
  unfold orderFields at h
  split_ifs at h
  · rw [← Except.ok.inj h]
  · rw [← Except.ok.inj h]
    exact sortBy_perm _ _
  · rw [← Except.ok.inj h]
    exact sortBy_perm _ _

theorem orderFields_keys {α : Type} {fields ordered : List (PyKey floats × α)}
    (h : orderFields fields = .ok ordered) :
    orderFields ((fields.map Prod.fst).map fun key => (key, ())) = .ok ((ordered.map Prod.fst).map fun key => (key, ())) := by
  have hmap : ∀ l : List (PyKey floats × α), (l.map Prod.fst).map (fun key => (key, ())) = l.map fun f => (f.1, ()) :=
    fun l => List.map_map
  have hall : ∀ p : PyKey floats → Bool, (fields.map fun f => (f.1, ())).all (fun f => p f.1) =
      fields.all fun f => p f.1 := fun p => List.all_map
  rw [hmap, hmap]
  unfold orderFields at h ⊢
  rw [List.length_map, hall, hall]
  split_ifs at h ⊢ with hshort hstr hnumber
  · rw [Except.ok.inj h]
  · rw [← Except.ok.inj h]
    exact congrArg Except.ok (map_sortBy (fun f : PyKey floats × Unit => f.1.text) (fun f => (f.1, ())) fields).symm
  · rw [← Except.ok.inj h]
    exact congrArg Except.ok (map_sortBy (fun f : PyKey floats × Unit => f.1.number) (fun f => (f.1, ())) fields).symm

theorem keysIncrease_of_str {keys : List (PyKey floats)} (hstr : keys.all PyKey.isStr = true)
    (hnodup : (keys.map PyKey.text).Nodup) : PyValue.KeysIncrease keys := by
  intro ordered hordered
  have hperm := (orderFields_perm hordered).map fun key => key.1.text
  have hsorted : (ordered.map fun key => key.1.text).Pairwise (· ≤ ·) := by
    unfold orderFields at hordered
    split_ifs at hordered with hshort hall hnumber
    · rw [← Except.ok.inj hordered]
      refine List.Pairwise.map _ (fun _ _ h => h) ?_
      cases keys with
      | nil => exact List.Pairwise.nil
      | cons key rest =>
        have hrest : rest = [] := by
          refine List.eq_nil_of_length_eq_zero ?_
          rw [List.map_cons, List.length_cons, List.length_map] at hshort
          omega
        subst hrest
        exact List.pairwise_singleton _ _
    · rw [← Except.ok.inj hordered]
      exact List.pairwise_map.2 (pairwise_sortBy _ _)
    · refine absurd ?_ hall
      rw [List.all_map]
      exact hstr
  have hkeys : (ordered.map fun key => key.1.text).Nodup := by
    rw [hperm.nodup_iff, List.map_map]
    exact hnodup
  exact (hsorted.and hkeys).imp fun h => lt_of_le_of_ne h.1 h.2

/-! ### Reading back -/

namespace PyValue

/-- A float is read back with its text exactly if it is portable. -/
theorem jsonbFloat_iff (x : PyFloat floats) : jsonbFloat x = .float x.text ↔ PortableFloat x := by
  unfold jsonbFloat PortableFloat
  dsimp only
  split
  next hplaces =>
    constructor
    · intro h
      refine ⟨hplaces, fun hnegative => ?_⟩
      -- the sign of a zero is lost
      have hzero : (decimalOf x.text).value = 0 := by
        rw [hnegative]
        simp [Decimal.value, decimalOf, negativeZeroText, digitsValue]
      rw [hzero, floats.nearest_zero, hnegative] at h
      exact absurd (congrArg FloatText.chars (JsonValue.float.inj h)) (by decide)
    · rintro ⟨-, hnegative⟩
      rw [x.readBack.resolve_right hnegative]
  next hplaces =>
    constructor
    · intro h
      cases h
    · intro h
      exact absurd h.1 hplaces

theorem map_fst_textFields : ∀ {fields : List (PyKey floats × PyValue floats)}
    {ws : List (PyKey floats × JsonValue)}, textFields fields = .ok ws → ws.map Prod.fst = fields.map Prod.fst
  | [], ws, h => by
    rw [textFields] at h
    rw [← Except.ok.inj h]
    rfl
  | (key, value) :: fields, ws, h => by
    rw [textFields] at h
    obtain ⟨w, -, h⟩ := bind_eq_ok.1 h
    obtain ⟨ws', hws', h⟩ := bind_eq_ok.1 h
    rw [← Except.ok.inj h, List.map_cons, List.map_cons, map_fst_textFields hws']

theorem map_fst_jsonbFields (fields : List (PyKey floats × PyValue floats)) :
    (jsonbFields fields).map Prod.fst = fields.map fun f => f.1.text := by
  induction fields with
  | nil =>
    rw [jsonbFields]
    rfl
  | cons f fields ih =>
    obtain ⟨key, value⟩ := f
    rw [jsonbFields, List.map_cons, ih, List.map_cons]

theorem sortFields_map (fields : List (String × JsonValue)) :
    sortFields fields = fields.map fun f => (f.1, f.2.sortKeys) := by
  induction fields with
  | nil => rfl
  | cons f fields ih =>
    obtain ⟨key, value⟩ := f
    rw [sortFields, ih, List.map_cons]

/-- The members of an object are read back in the order they are written in exactly if the keys increase
and the values are read back as written. -/
theorem sortBy_ofList_iff {stored : List (String × JsonValue)} {written ordered : List (String × JsonValue)}
    (hkeys : stored.map Prod.fst = written.map Prod.fst) (hperm : ordered.Perm written) :
    sortBy Prod.fst (sortFields (OrderedDict.ofList stored).items) = ordered ↔
      (ordered.map Prod.fst).Pairwise (· < ·) ∧ stored.map (fun f => (f.1, f.2.sortKeys)) = written := by
  have hkeys' : (stored.map fun f => (f.1, f.2.sortKeys)).map Prod.fst = written.map Prod.fst := by
    rw [List.map_map, ← hkeys]
    rfl
  have hitems : (written.map Prod.fst).Nodup → (OrderedDict.ofList stored).items = stored := by
    intro hnodup
    rw [← hkeys] at hnodup
    exact congrArg OrderedDict.items (OrderedDict.ofList_items ⟨stored, hnodup⟩)
  have hsort : (ordered.map Prod.fst).Pairwise (· < ·) → sortBy Prod.fst written = ordered := by
    intro hincrease
    have hnodup : (written.map Prod.fst).Nodup :=
      ((hperm.map Prod.fst).nodup_iff).1 (hincrease.imp fun h => ne_of_lt h)
    rw [sortBy_eq_of_perm Prod.fst hperm.symm hnodup]
    exact ((List.pairwise_map.1 hincrease).imp fun h => le_of_lt h).insertionSort_eq
  constructor
  · intro h
    have hincrease : (ordered.map Prod.fst).Pairwise (· < ·) := by
      have hnodup : (ordered.map Prod.fst).Nodup := by
        have hsame := (sortBy_perm Prod.fst (sortFields (OrderedDict.ofList stored).items)).map Prod.fst
        rw [h] at hsame
        rw [hsame.nodup_iff, sortFields_map, List.map_map]
        exact (OrderedDict.ofList stored).nodup
      have hle : (ordered.map Prod.fst).Pairwise (· ≤ ·) := by
        rw [← h, List.pairwise_map]
        exact pairwise_sortBy _ _
      exact (hle.and hnodup).imp fun h => lt_of_le_of_ne h.1 h.2
    have hnodup : (written.map Prod.fst).Nodup :=
      ((hperm.map Prod.fst).nodup_iff).1 (hincrease.imp fun h => ne_of_lt h)
    refine ⟨hincrease, sortBy_injective_of_keys Prod.fst hkeys' (hkeys' ▸ hnodup) ?_⟩
    rw [hsort hincrease, ← h, hitems hnodup, sortFields_map]
  · rintro ⟨hincrease, hvalues⟩
    have hnodup : (written.map Prod.fst).Nodup :=
      ((hperm.map Prod.fst).nodup_iff).1 (hincrease.imp fun h => ne_of_lt h)
    rw [hitems hnodup, sortFields_map, hvalues, hsort hincrease]

mutual

/-- A value is read back with its text exactly if it is portable. -/
theorem sortKeys_jsonb : ∀ {v : PyValue floats} {w : JsonValue}, text v = .ok w →
    ((jsonb v).sortKeys = w ↔ Portable v)
  | .null, w, h => by
    rw [text] at h
    rw [← Except.ok.inj h, Portable] <;> simp [jsonb, sortKeys]
  | .bool b, w, h => by
    rw [text] at h
    rw [← Except.ok.inj h, Portable] <;> simp [jsonb, sortKeys]
  | .int n, w, h => by
    rw [text] at h
    rw [← Except.ok.inj h, Portable] <;> simp [jsonb, sortKeys]
  | .str s, w, h => by
    rw [text] at h
    rw [← Except.ok.inj h, Portable] <;> simp [jsonb, sortKeys]
  | .float x, w, h => by
    rw [text] at h
    rw [← Except.ok.inj h, jsonb, Portable, ← jsonbFloat_iff]
    have hsort : (jsonbFloat x).sortKeys = jsonbFloat x := by
      unfold jsonbFloat
      dsimp only
      split <;> simp [sortKeys]
    rw [hsort]
  | .arr items, w, h => by
    rw [text] at h
    obtain ⟨ws, hws, h⟩ := bind_eq_ok.1 h
    rw [← Except.ok.inj h, jsonb, sortKeys, JsonValue.arr.injEq, Portable]
    exact sortItems_jsonb hws
  | .obj fields, w, h => by
    rw [text] at h
    obtain ⟨ws, hws, h⟩ := bind_eq_ok.1 h
    obtain ⟨ordered, hordered, h⟩ := bind_eq_ok.1 h
    have hperm := orderFields_perm hordered
    have hkeys : (jsonbFields fields).map Prod.fst =
        (ws.map fun f => (f.1.text, f.2)).map Prod.fst := by
      rw [map_fst_jsonbFields, List.map_map]
      have hfst := congrArg (List.map PyKey.text) (map_fst_textFields hws)
      rw [List.map_map, List.map_map] at hfst
      exact hfst.symm
    have horder := orderFields_keys hordered
    rw [map_fst_textFields hws] at horder
    have hincrease : KeysIncrease (fields.map Prod.fst) ↔
        ((ordered.map fun f => (f.1.text, f.2)).map Prod.fst).Pairwise (· < ·) := by
      have hmaps : ((ordered.map Prod.fst).map fun key => (key, ())).map (fun key => key.1.text) =
          (ordered.map fun f => (f.1.text, f.2)).map Prod.fst := by
        rw [List.map_map, List.map_map, List.map_map]
        rfl
      unfold KeysIncrease
      rw [horder]
      constructor
      · intro h
        rw [← hmaps]
        exact h _ rfl
      · intro h ordered' heq
        rw [← Except.ok.inj heq, hmaps]
        exact h
    rw [← Except.ok.inj h, jsonb, sortKeys, JsonValue.obj.injEq, Portable,
      sortBy_ofList_iff hkeys (hperm.map _), ← hincrease]
    exact and_congr_right fun _ => sortFields_jsonb hws

theorem sortItems_jsonb : ∀ {items : List (PyValue floats)} {ws : List JsonValue}, textItems items = .ok ws →
    (sortItems (jsonbItems items) = ws ↔ PortableItems items)
  | [], ws, h => by
    rw [textItems] at h
    rw [← Except.ok.inj h, PortableItems]
    simp [jsonbItems, sortItems]
  | item :: items, ws, h => by
    rw [textItems] at h
    obtain ⟨w, hw, h⟩ := bind_eq_ok.1 h
    obtain ⟨ws', hws', h⟩ := bind_eq_ok.1 h
    rw [← Except.ok.inj h, jsonbItems, sortItems, List.cons.injEq, PortableItems, sortKeys_jsonb hw,
      sortItems_jsonb hws']

theorem sortFields_jsonb : ∀ {fields : List (PyKey floats × PyValue floats)}
    {ws : List (PyKey floats × JsonValue)}, textFields fields = .ok ws →
    ((jsonbFields fields).map (fun f => (f.1, f.2.sortKeys)) = ws.map (fun f => (f.1.text, f.2)) ↔
      PortableFields fields)
  | [], ws, h => by
    rw [textFields] at h
    rw [← Except.ok.inj h, PortableFields]
    simp [jsonbFields]
  | (key, value) :: fields, ws, h => by
    rw [textFields] at h
    obtain ⟨w, hw, h⟩ := bind_eq_ok.1 h
    obtain ⟨ws', hws', h⟩ := bind_eq_ok.1 h
    rw [← Except.ok.inj h, jsonbFields, List.map_cons, List.map_cons, List.cons.injEq, PortableFields,
      ← sortKeys_jsonb hw, ← sortFields_jsonb hws', Prod.mk.injEq]
    simp

end

end PyValue

end Phlo.Audit
