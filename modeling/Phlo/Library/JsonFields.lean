import Phlo.Library.JsonText

/-!
# Members of JSON values, and values without some of their members

`member key v` is the value an object has under a key.  `removeField key` takes the members with a key
out of a value and of everything in it; `normal keys` takes out those with any of the keys and puts the
rest in the order of their keys.

* `member_normal`, `normal_arr` — what is left of the members and items of a value;
* `normal_of_mem`, `mem_keys_of_normal` — what equal rests have in common.
-/

namespace Phlo.Library.JsonValue

def member (key : String) : JsonValue → Option JsonValue
  | .obj fields => (fields.find? fun field => field.1 = key).map Prod.snd
  | _ => none

mutual

/-- The value without the members that have this key, at any depth. -/
def removeField (key : String) : JsonValue → JsonValue
  | .arr items => .arr (removeItems key items)
  | .obj fields => .obj (removeFields key fields)
  | v => v

def removeItems (key : String) : List JsonValue → List JsonValue
  | [] => []
  | item :: items => removeField key item :: removeItems key items

def removeFields (key : String) : List (String × JsonValue) → List (String × JsonValue)
  | [] => []
  | (k, value) :: fields =>
    if k = key then removeFields key fields else (k, removeField key value) :: removeFields key fields

end

/-- Take the members with any of the keys out, one key after the other. -/
def prune (keys : List String) (v : JsonValue) : JsonValue := keys.foldl (fun v key => removeField key v) v

/-- What is left, in the order of the keys. -/
def normal (keys : List String) (v : JsonValue) : JsonValue := (prune keys v).sortKeys

def KeysDistinct : JsonValue → Prop
  | .obj fields => (fields.map Prod.fst).Nodup
  | _ => True

/-! ### Items -/

theorem removeItems_eq (key : String) (items : List JsonValue) :
    removeItems key items = items.map (removeField key) := by
  induction items with
  | nil => rfl
  | cons item items ih => rw [removeItems, ih, List.map_cons]

theorem sortItems_eq (items : List JsonValue) : sortItems items = items.map sortKeys := by
  induction items with
  | nil => rfl
  | cons item items ih => rw [sortItems, ih, List.map_cons]

theorem prune_arr (keys : List String) (items : List JsonValue) :
    prune keys (.arr items) = .arr (items.map (prune keys)) := by
  induction keys generalizing items with
  | nil => exact congrArg arr (List.map_id' items).symm
  | cons key keys ih =>
    show prune keys (.arr (removeItems key items)) = _
    rw [removeItems_eq, ih, List.map_map]
    rfl

theorem normal_arr (keys : List String) (items : List JsonValue) :
    normal keys (.arr items) = .arr (items.map (normal keys)) := by
  show sortKeys (prune keys (.arr items)) = _
  rw [prune_arr, sortKeys, sortItems_eq, List.map_map]
  rfl

/-! ### Scalars -/

variable {v : JsonValue} {fields : List (String × JsonValue)}

/-- Nothing is taken out of a value without members, nor is it put in another order. -/
theorem normal_scalar (keys : List String) (hremove : ∀ key, removeField key v = v) (hsort : sortKeys v = v) :
    normal keys v = v := by
  have hprune : prune keys v = v := by
    induction keys with
    | nil => rfl
    | cons key keys ih =>
      show prune keys (removeField key v) = v
      rw [hremove, ih]
  rw [normal, hprune, hsort]

@[simp] theorem normal_null (keys : List String) : normal keys .null = .null :=
  normal_scalar keys (fun _ => by rw [removeField] <;> simp) (by rw [sortKeys] <;> simp)

@[simp] theorem normal_int (keys : List String) (n : ℤ) : normal keys (.int n) = .int n :=
  normal_scalar keys (fun _ => by rw [removeField] <;> simp) (by rw [sortKeys] <;> simp)

@[simp] theorem normal_str (keys : List String) (s : String) : normal keys (.str s) = .str s :=
  normal_scalar keys (fun _ => by rw [removeField] <;> simp) (by rw [sortKeys] <;> simp)

/-! ### Members -/

theorem removeFields_eq (key : String) (fields : List (String × JsonValue)) : removeFields key fields =
      (fields.filter fun field => field.1 ≠ key).map fun field => (field.1, removeField key field.2) := by
  induction fields with
  | nil => rfl
  | cons field fields ih =>
    obtain ⟨k, value⟩ := field
    rw [removeFields]
    by_cases h : k = key
    · rw [if_pos h, ih, List.filter_cons_of_neg (by simpa using h)]
    · rw [if_neg h, ih, List.filter_cons_of_pos (by simpa using h), List.map_cons]

theorem sortFields_eq (fields : List (String × JsonValue)) :
    sortFields fields = fields.map fun field => (field.1, sortKeys field.2) := by
  induction fields with
  | nil => rfl
  | cons field fields ih =>
    obtain ⟨k, value⟩ := field
    rw [sortFields, ih, List.map_cons]

theorem member_eq_some_iff (h : (fields.map Prod.fst).Nodup) {key : String} :
    member key (.obj fields) = some v ↔ (key, v) ∈ fields := by
  constructor
  · intro hmember
    obtain ⟨field, hfind, rfl⟩ := Option.map_eq_some_iff.1 hmember
    have hkey : field.1 = key := by simpa using List.find?_some hfind
    rw [← hkey]
    exact List.mem_of_find?_eq_some hfind
  · intro hmem
    cases hfind : fields.find? fun field => field.1 = key with
    | none => exact absurd (List.find?_eq_none.1 hfind _ hmem) (by simp)
    | some field =>
      have hkey : field.1 = key := by simpa using List.find?_some hfind
      have hsame := List.inj_on_of_nodup_map h (List.mem_of_find?_eq_some hfind) hmem hkey
      show Option.map Prod.snd (fields.find? fun field => field.1 = key) = some v
      rw [hfind, hsame]
      rfl

theorem member_removeField (key : String) (v : JsonValue) (k : String) :
    member k (removeField key v) = if k = key then none else (member k v).map (removeField key) := by
  cases v with
  | obj fields =>
    rw [removeField, removeFields_eq]
    show Option.map Prod.snd (List.find? _ _) = _
    rw [List.find?_map, List.find?_filter]
    split
    next hk =>
      rw [List.find?_eq_none.2]
      · rfl
      · intro field _
        simp [hk]
    next hk =>
      have hsame : (fun field : String × JsonValue => decide (decide (field.1 ≠ key) = true ∧
          ((fun field : String × JsonValue => decide (field.1 = k)) ∘
            fun field => (field.1, removeField key field.2)) field = true)) = fun field => decide (field.1 = k) := by
        funext field
        by_cases h : field.1 = k
        · simp [h, hk]
        · simp [h]
      rw [hsame, member, Option.map_map, Option.map_map]
      rfl
  | _ =>
    rw [removeField] <;> simp [member]

theorem keysDistinct_removeField (h : KeysDistinct v) (key : String) : KeysDistinct (removeField key v) := by
  cases v with
  | obj fields =>
    rw [removeField, removeFields_eq]
    show ((List.map _ _).map Prod.fst).Nodup
    rw [List.map_map]
    exact h.sublist (List.filter_sublist.map Prod.fst)
  | _ => rw [removeField] <;> simp [KeysDistinct]

theorem keysDistinct_prune (h : KeysDistinct v) (keys : List String) : KeysDistinct (prune keys v) := by
  induction keys generalizing v with
  | nil => exact h
  | cons key keys ih => exact ih (keysDistinct_removeField h key)

theorem member_prune (keys : List String) (v : JsonValue) (k : String) :
    member k (prune keys v) = if k ∈ keys then none else (member k v).map (prune keys) := by
  induction keys generalizing v with
  | nil =>
    show member k v = _
    rw [if_neg List.not_mem_nil]
    cases member k v <;> rfl
  | cons key keys ih =>
    show member k (prune keys (removeField key v)) = _
    rw [ih, member_removeField]
    by_cases hkeys : k ∈ keys
    · rw [if_pos hkeys, if_pos (List.mem_cons_of_mem _ hkeys)]
    · rw [if_neg hkeys]
      by_cases hkey : k = key
      · rw [if_pos hkey, if_pos (List.mem_cons.2 (.inl hkey))]
        rfl
      · rw [if_neg hkey, if_neg fun h => (List.mem_cons.1 h).elim hkey hkeys, Option.map_map]
        rfl

theorem member_sortKeys (h : KeysDistinct v) (k : String) : member k (sortKeys v) = (member k v).map sortKeys := by
  cases v with
  | obj fields =>
    rw [sortKeys, sortFields_eq]
    have hperm := sortBy_perm Prod.fst (fields.map fun field => (field.1, sortKeys field.2))
    have hkeys : ((fields.map fun field => (field.1, sortKeys field.2)).map Prod.fst).Nodup := by
      rw [List.map_map]
      exact h
    have hsorted := (hperm.map Prod.fst).nodup_iff.2 hkeys
    ext w
    rw [member_eq_some_iff hsorted, hperm.mem_iff, Option.map_eq_some_iff, List.mem_map]
    constructor
    · rintro ⟨field, hfield, heq⟩
      obtain ⟨rfl, rfl⟩ := Prod.mk.inj heq
      exact ⟨field.2, (member_eq_some_iff h).2 hfield, rfl⟩
    · rintro ⟨value, hvalue, rfl⟩
      exact ⟨(k, value), (member_eq_some_iff h).1 hvalue, rfl⟩
  | _ => rw [sortKeys] <;> simp [member]

theorem member_normal (keys : List String) (h : KeysDistinct v) (k : String) :
    member k (normal keys v) = if k ∈ keys then none else (member k v).map (normal keys) := by
  rw [normal, member_sortKeys (keysDistinct_prune h keys), member_prune]
  split
  · rfl
  · rw [Option.map_map]
    rfl

theorem member_normal_obj (keys : List String) (h : (fields.map Prod.fst).Nodup) (k : String) :
    member k (normal keys (.obj fields)) = if k ∈ keys then none else (member k (.obj fields)).map (normal keys) :=
  have hdistinct : KeysDistinct (.obj fields) := h
  member_normal keys hdistinct k

/-- Pruned values have one text exactly when their normal forms are equal. -/
theorem dumps_prune_eq_iff (keys : List String) (v w : JsonValue) :
    (prune keys v).dumps = (prune keys w).dumps ↔ normal keys v = normal keys w :=
  dumps_eq_iff _ _

/-- What is left of the members of equal rests is equal. -/
theorem normal_of_mem {keys : List String} {fields' : List (String × JsonValue)}
    (h : normal keys (.obj fields) = normal keys (.obj fields')) (hkeys : (fields.map Prod.fst).Nodup)
    (hkeys' : (fields'.map Prod.fst).Nodup) {k : String} (hk : k ∉ keys) {v' : JsonValue} (hv : (k, v) ∈ fields)
    (hv' : (k, v') ∈ fields') : normal keys v = normal keys v' := by
  have hmember := congrArg (member k) h
  rw [member_normal_obj keys hkeys, member_normal_obj keys hkeys', if_neg hk, if_neg hk,
    (member_eq_some_iff hkeys).2 hv, (member_eq_some_iff hkeys').2 hv'] at hmember
  exact Option.some.inj hmember

/-- A member that is left has its like in an equal rest. -/
theorem mem_keys_of_normal {keys : List String} {fields' : List (String × JsonValue)}
    (h : normal keys (.obj fields) = normal keys (.obj fields')) (hkeys : (fields.map Prod.fst).Nodup)
    (hkeys' : (fields'.map Prod.fst).Nodup) {k : String} (hk : k ∉ keys) (hv : (k, v) ∈ fields) :
    k ∈ fields'.map Prod.fst := by
  have hmember := congrArg (member k) h
  rw [member_normal_obj keys hkeys, member_normal_obj keys hkeys', if_neg hk, if_neg hk,
    (member_eq_some_iff hkeys).2 hv] at hmember
  obtain ⟨v', hv', -⟩ := Option.map_eq_some_iff.1 hmember.symm
  exact List.mem_map.2 ⟨(k, v'), (member_eq_some_iff hkeys').1 hv', rfl⟩

end Phlo.Library.JsonValue
