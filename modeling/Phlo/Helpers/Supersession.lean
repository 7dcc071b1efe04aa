import Mathlib
import Phlo.Helpers.Rows

/-!
# The latest record of each business key

`latest_records` groups rows by a text joined from their key fields and keeps, group by group, a row
with the greatest value of the order field.

* `latestRecords` — the loop over the rows, which fails where a row to compare has no order field.
-/

namespace Phlo.Helpers

open Phlo.Library

variable {V O : Type} [PyValue V]

/-- `supersession_key` -/
def supersessionKey (row : Row V) (fields : List String) (separator : String := "|") : String :=
  separator.intercalate (fields.map fun field => row.textOr field "")

/-- The options of `latest_records`. -/
structure LatestView where
  keyFields : List String
  orderField : String
  includeInvalidated : Bool := false
  invalidatedField : String := "invalidated"

variable (view : LatestView)

def LatestView.key (row : Row V) : String := supersessionKey row view.keyFields

def LatestView.hides (row : Row V) : Bool :=
  !view.includeInvalidated && row.marked view.invalidatedField

section

variable [LinearOrder O] (place : V → O)

/-- One round of the loop; `none` is a `KeyError`. -/
def latestRound (latest : OrderedDict String (Row V)) (row : Row V) : Option (OrderedDict String (Row V)) :=
  if view.hides row then some latest
  else
    match latest.get (view.key row) with
    | none => some (latest.set (view.key row) row)
    | some current =>
      match row.get view.orderField, current.get view.orderField with
      | some value, some best =>
        if place best < place value then some (latest.set (view.key row) row) else some latest
      | _, _ => none

/-- `latest_records` -/
def latestRecords (rows : List (Row V)) : Option (List (Row V)) :=
  (rows.foldlM (latestRound view place) .empty).map OrderedDict.values

end

/-! ### What the dictionary holds -/

section

variable [LinearOrder O] {place : V → O}

def AtLeast (place : V → O) (field : String) (best row : Row V) : Prop :=
  ∀ a b, row.get field = some a → best.get field = some b → place a ≤ place b

omit [PyValue V] in
theorem AtLeast.refl (place : V → O) (field : String) (row : Row V) : AtLeast place field row row := by
  intro a b ha hb
  rw [ha] at hb
  cases hb
  exact le_refl _

def LatestView.visible (rows : List (Row V)) : List (Row V) := rows.filter fun row => !view.hides row

/-- Under each text the dictionary has a latest one of the visible rows seen with this text. -/
structure Grouped (place : V → O) (seen : List (Row V)) (latest : OrderedDict String (Row V)) : Prop where
  row : ∀ text best, latest.get text = some best → best ∈ view.visible seen ∧ view.key best = text
  latest : ∀ row ∈ view.visible seen, ∃ best, latest.get (view.key row) = some best ∧
    AtLeast place view.orderField best row

def LatestView.Ordered (rows : List (Row V)) : Prop :=
  ∀ row ∈ view.visible rows, (row.get view.orderField).isSome = true

instance (rows : List (Row V)) : Decidable (view.Ordered rows) :=
  inferInstanceAs (Decidable (∀ row ∈ view.visible rows, (row.get view.orderField).isSome = true))

variable {view}

theorem visible_concat (seen : List (Row V)) (row : Row V) :
    view.visible (seen ++ [row]) = view.visible seen ++ if view.hides row then [] else [row] := by
  rw [LatestView.visible, List.filter_append, LatestView.visible]
  cases hrow : view.hides row <;> simp [hrow]

variable {latest : OrderedDict String (Row V)} {seen : List (Row V)}

theorem Grouped.set {row : Row V} (h : Grouped view place seen latest) (hrow : view.hides row = false)
    (hbest : ∀ other ∈ view.visible seen, view.key other = view.key row → AtLeast place view.orderField row other) :
    Grouped view place (seen ++ [row]) (latest.set (view.key row) row) := by
  refine ⟨fun text best hget => ?_, fun other hother => ?_⟩
  · rw [OrderedDict.get_set] at hget
    rw [visible_concat, hrow]
    split at hget
    next htext =>
      cases hget
      exact ⟨List.mem_append_right _ List.mem_cons_self, htext.symm⟩
    · obtain ⟨hmem, hkey⟩ := h.row text best hget
      exact ⟨List.mem_append_left _ hmem, hkey⟩
  · rw [visible_concat, hrow] at hother
    rw [OrderedDict.get_set]
    split
    next hkey =>
      refine ⟨row, rfl, ?_⟩
      rcases List.mem_append.1 hother with hseen | hnew
      · exact hbest other hseen hkey
      · cases List.mem_singleton.1 hnew
        exact AtLeast.refl place _ _
    next hkey =>
      rcases List.mem_append.1 hother with hseen | hnew
      · exact h.latest other hseen
      · cases List.mem_singleton.1 hnew
        exact absurd rfl hkey

theorem Grouped.keep {row : Row V} (h : Grouped view place seen latest)
    (hrow : view.hides row = false → ∃ best, latest.get (view.key row) = some best ∧ AtLeast place view.orderField best row) :
    Grouped view place (seen ++ [row]) latest := by
  refine ⟨fun text best hget => ?_, fun other hother => ?_⟩
  · obtain ⟨hmem, hkey⟩ := h.row text best hget
    rw [visible_concat]
    exact ⟨List.mem_append_left _ hmem, hkey⟩
  · rw [visible_concat] at hother
    rcases List.mem_append.1 hother with hseen | hnew
    · exact h.latest other hseen
    · cases hhides : view.hides row with
      | true =>
        rw [hhides] at hnew
        cases hnew
      | false =>
        rw [hhides] at hnew
        cases List.mem_singleton.1 hnew
        exact hrow hhides

theorem Grouped.latestRound {row : Row V} (h : Grouped view place seen latest)
    (hordered : view.Ordered (seen ++ [row])) : ∃ latest', latestRound view place latest row = some latest' ∧
      Grouped view place (seen ++ [row]) latest' := by
  rw [Helpers.latestRound]
  cases hhides : view.hides row with
  | true => exact ⟨latest, rfl, h.keep fun hfalse => by rw [hhides] at hfalse; cases hfalse⟩
  | false =>
    rw [if_neg Bool.false_ne_true]
    have hhas : ∀ other, other ∈ view.visible seen ∨ other = row →
        ∃ value, other.get view.orderField = some value := by
      intro other hother
      refine Option.isSome_iff_exists.1 (hordered other ?_)
      rw [visible_concat, hhides, List.mem_append]
      exact hother.imp_right fun heq => by rw [heq]; exact List.mem_singleton.2 rfl
    cases hget : latest.get (view.key row) with
    | none =>
      refine ⟨_, rfl, h.set hhides fun other hother hkey => ?_⟩
      obtain ⟨best, hbest, -⟩ := h.latest other hother
      rw [hkey, hget] at hbest
      cases hbest
    | some current =>
      obtain ⟨hcurrent, hcurrentKey⟩ := h.row _ _ hget
      obtain ⟨value, hvalue⟩ := hhas row (.inr rfl)
      obtain ⟨best, hbest⟩ := hhas current (.inl hcurrent)
      simp only [hvalue, hbest]
      by_cases hless : place best < place value
      · rw [if_pos hless]
        refine ⟨_, rfl, h.set hhides fun other hother hkey a b ha hb => ?_⟩
        obtain ⟨best', hbest', hatLeast⟩ := h.latest other hother
        rw [hkey, hget] at hbest'
        cases hbest'
        rw [hvalue] at hb
        cases hb
        exact le_trans (hatLeast a best ha hbest) (le_of_lt hless)
      · rw [if_neg hless]
        refine ⟨_, rfl, h.keep fun _ => ⟨current, hget, fun a b ha hb => ?_⟩⟩
        rw [hvalue] at ha
        rw [hbest] at hb
        cases ha
        cases hb
        exact not_lt.1 hless

/-- The loop over rows with an order field ends, with the invariant for all of them. -/
theorem grouped_latestRecords (place : V → O) {rows : List (Row V)} (hordered : view.Ordered rows) :
    ∃ latest, rows.foldlM (latestRound view place) .empty = some latest ∧ Grouped view place rows latest := by
  have hloop : ∀ (rest seen : List (Row V)) (latest : OrderedDict String (Row V)),
      Grouped view place seen latest → view.Ordered (seen ++ rest) →
      ∃ latest', rest.foldlM (latestRound view place) latest = some latest' ∧
        Grouped view place (seen ++ rest) latest' := by
    intro rest
    induction rest with
    | nil =>
      intro seen latest h _
      exact ⟨latest, rfl, by rw [List.append_nil]; exact h⟩
    | cons row rest ih =>
      intro seen latest h hordered
      have hsplit : seen ++ row :: rest = (seen ++ [row]) ++ rest := by
        rw [List.append_assoc, List.singleton_append]
      rw [hsplit] at hordered ⊢
      obtain ⟨next, hround, hnext⟩ := h.latestRound fun other hother =>
        hordered other (by rw [LatestView.visible, List.filter_append]; exact List.mem_append_left _ hother)
      rw [List.foldlM_cons, hround]
      exact ih _ next hnext hordered
  refine hloop rows [] .empty ⟨fun text best hget => ?_, fun row hrow => ?_⟩ hordered
  · cases hget
  · cases hrow

end

/-! ### One record per business key -/

section

/-- Rows with the same business key: in each key field the same value, or both without one. -/
def SameKey (fields : List String) (r s : Row V) : Prop :=
  ∀ field ∈ fields, r.get field = s.get field

theorem SameKey.key_eq {r s : Row V} (h : SameKey view.keyFields r s) : view.key r = view.key s := by
  have hparts : view.keyFields.map (fun field => r.textOr field "") =
      view.keyFields.map fun field => s.textOr field "" :=
    List.map_congr_left fun field hfield => by rw [Row.textOr, Row.textOr, h field hfield]
  rw [LatestView.key, LatestView.key, supersessionKey, supersessionKey, hparts]

/-- The result has one record for each business key of the visible rows, one with the greatest order
value of its key, and nothing else. -/
structure KeepsLatest [LinearOrder O] (place : V → O) (rows result : List (Row V)) : Prop where
  only : ∀ record ∈ result, record ∈ view.visible rows
  greatest : ∀ row ∈ view.visible rows, ∃ record ∈ result, SameKey view.keyFields record row ∧
    ∀ other ∈ view.visible rows, SameKey view.keyFields record other →
      AtLeast place view.orderField record other
  single : result.Pairwise fun record other => ¬SameKey view.keyFields record other

/-- Visible rows that are grouped together have one business key. -/
def LatestView.TextsTellKeys (rows : List (Row V)) : Prop :=
  ∀ r ∈ view.visible rows, ∀ s ∈ view.visible rows,
    view.key r = view.key s → SameKey view.keyFields r s

instance [DecidableEq V] (rows : List (Row V)) : Decidable (view.TextsTellKeys rows) :=
  inferInstanceAs (Decidable (∀ r ∈ view.visible rows, ∀ s ∈ view.visible rows,
    view.key r = view.key s → ∀ field ∈ view.keyFields, r.get field = s.get field))

variable {view}

theorem Grouped.values_get {rows : List (Row V)} [LinearOrder O] {place : V → O}
    {latest : OrderedDict String (Row V)} (h : Grouped view place rows latest) {record : Row V}
    (hrecord : record ∈ latest.values) : latest.get (view.key record) = some record := by
  obtain ⟨text, htext⟩ := OrderedDict.mem_values.1 hrecord
  rw [(h.row text record htext).2]
  exact htext

theorem Grouped.values_pairwise {rows : List (Row V)} [LinearOrder O] {place : V → O}
    {latest : OrderedDict String (Row V)} (h : Grouped view place rows latest) :
    latest.values.Pairwise fun record other => view.key record ≠ view.key other := by
  rw [OrderedDict.values, List.pairwise_map]
  refine ((List.pairwise_map.1 latest.nodup).imp_of_mem fun hitem hother hne => ?_)
  rwa [(h.row _ _ (OrderedDict.get_eq_some_iff.2 hitem)).2, (h.row _ _ (OrderedDict.get_eq_some_iff.2 hother)).2]

end

/-! ### A separator in a key -/

def tenantRow (tenant account : String) (version : ℤ) : Row Cell :=
  .ofList [("tenant", .text tenant), ("account", .text account), ("version", .int version)]

def accountsView : LatestView where
  keyFields := ["tenant", "account"]
  orderField := "version"

/-- The integers in their order, after everything else. -/
def Cell.place : Cell → ℤ
  | .int n => n
  | _ => 0

end Phlo.Helpers
