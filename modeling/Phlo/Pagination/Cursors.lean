import Phlo.Library.Base64

/-!
# The cursors of the listings

A cursor is base64 text of a small JSON object: an offset into the items, or the place of a run.  The
decoders send what is not base64, UTF-8 or JSON to the first page, but they ask any JSON document for its
fields, and only an object has fields.

* `decodeCursor_encodeCursor`, `decodeRunCursor_encodeRunCursor` — a position is read as it was written, a
  run's unless one of its texts is empty;
* `drained_from` — the pages from an offset on are the items from there on;
* `cursors_total_and_exact_iff` — the three together.
-/

namespace Phlo.Pagination

open Phlo.Library

/-! ### Reading a cursor -/

/-- What a handler of `ValueError` lets through. -/
inductive Raised where
  | attributeError
  | recursionError
  deriving DecidableEq, Repr

/-- How `json.loads` reads a number that is no integer, and the texts that are nested deeper than the stack. -/
structure Interpreter where
  float : FloatReader
  deep : List Char → Bool

abbrev Fields := List (String × JsonValue)

/-- `urlsafe_b64decode(cursor.encode("ascii")).decode("utf-8")`; `none` for a `ValueError`. -/
def decodedText (cursor : String) : Option (List Char) :=
  if cursor.toList.all fun c => c.toNat < 128 then (urlsafeB64Decode cursor.toList).bind decodeUtf8 else none

/-- `json.loads(…)` under `except (ValueError, json.JSONDecodeError)` -/
def loadPayload (py : Interpreter) (cursor : String) : Except Raised (Option JsonValue) :=
  match decodedText cursor with
  | none => .ok none
  | some text => if py.deep text then .error .recursionError else .ok (JsonValue.loads py.float text)

/-- `payload.get` -/
def payloadFields : JsonValue → Except Raised Fields
  | .obj fields => .ok fields
  | _ => .error .attributeError

/-- What both decoders do before they read their fields; `none` for the first page. -/
def cursorFields (py : Interpreter) : Option String → Except Raised (Option Fields)
  | none => .ok none
  | some cursor =>
    if cursor = "" then .ok none
    else
      match loadPayload py cursor with
      | .error e => .error e
      | .ok none => .ok none
      | .ok (some payload) => (payloadFields payload).map some

/-- `offset if isinstance(offset, int) and offset >= 0 else 0`; a truth value is an `int`. -/
def offsetOf : Option JsonValue → ℕ
  | some (.int n) => if 0 ≤ n then n.toNat else 0
  | some (.bool b) => b.toNat
  | _ => 0

def decodeCursor (py : Interpreter) (cursor : Option String) : Except Raised ℕ :=
  (cursorFields py cursor).map fun payload =>
    match payload with
    | none => 0
    | some fields => offsetOf (fields.lookup "offset")

structure RunPosition where
  activity : String
  projectId : String
  runId : String
  deriving DecidableEq, Repr

/-- `isinstance(value, str) and value` -/
def textOf : Option JsonValue → Option String
  | some (.str value) => if value = "" then none else some value
  | _ => none

def positionOf (fields : Fields) : Option RunPosition := do
  let activity ← textOf (fields.lookup "activity")
  let projectId ← textOf (fields.lookup "project_id")
  let runId ← textOf (fields.lookup "run_id")
  some ⟨activity, projectId, runId⟩

/-- `_decode_run_cursor` -/
def decodeRunCursor (py : Interpreter) (cursor : Option String) : Except Raised (Option RunPosition) :=
  (cursorFields py cursor).map fun payload => payload.bind positionOf

/-! ### Writing a cursor -/

/-- `urlsafe_b64encode(json.dumps(payload, separators=(",", ":")).encode("utf-8")).decode("ascii")` -/
def encodePayload (payload : Fields) : String :=
  String.ofList (urlsafeB64Encode (asciiBytes (JsonValue.compact (.obj payload))))

def offsetPayload (offset : ℤ) : Fields := [("offset", .int (max 0 offset))]

def encodeCursor (offset : ℤ) : String := encodePayload (offsetPayload offset)

def runPayload (position : RunPosition) : Fields :=
  [("activity", .str position.activity), ("project_id", .str position.projectId), ("run_id", .str position.runId)]

/-- `_encode_run_cursor` -/
def encodeRunCursor (position : RunPosition) : String := encodePayload (runPayload position)

/-! ### Pages -/

variable {α : Type*}

def safeLimit (limit : ℤ) : ℕ := (max 1 (min limit 500)).toNat

/-- `items[offset : offset + safe_limit]` -/
def pageAt (items : List α) (limit : ℤ) (offset : ℕ) : List α := (items.drop offset).take (safeLimit limit)

def nextCursor (items : List α) (nextOffset : ℕ) : Option String :=
  if nextOffset < items.length then some (encodeCursor nextOffset) else none

def paginateItems (py : Interpreter) (items : List α) (limit : ℤ) (cursor : Option String) :
    Except Raised (List α × Option String) :=
  (decodeCursor py cursor).map fun offset =>
    (pageAt items limit offset, nextCursor items (offset + (pageAt items limit offset).length))

/-- The pages of a client that feeds every next cursor back until there is none. -/
inductive Drained (py : Interpreter) (items : List α) (limit : ℤ) : Option String → List (List α) → Prop
  | last {cursor : Option String} {page : List α} :
      paginateItems py items limit cursor = .ok (page, none) → Drained py items limit cursor [page]
  | more {cursor : Option String} {page : List α} {next : String} {pages : List (List α)} :
      paginateItems py items limit cursor = .ok (page, some next) →
      Drained py items limit (some next) pages → Drained py items limit cursor (page :: pages)

/-! ### When the decoders return -/

/-- The cursor is text of a JSON object. -/
def Holds (py : Interpreter) (cursor : String) (fields : Fields) : Prop :=
  ∃ text, decodedText cursor = some text ∧ JsonValue.loads py.float text = some (.obj fields)

/-- The document of the cursor, if there is one, is an object, and the stack has room for it. -/
def Tame (py : Interpreter) (cursor : String) : Prop :=
  cursor = "" ∨ ∀ text, decodedText cursor = some text →
    py.deep text = false ∧ ∀ payload, JsonValue.loads py.float text = some payload → ∃ fields, payload = .obj fields

variable {cursor : String} {py : Interpreter}

theorem cursorFields_of_ne (h : cursor ≠ "") : cursorFields py (some cursor) =
      match loadPayload py cursor with
      | .error e => .error e
      | .ok none => .ok none
      | .ok (some payload) => (payloadFields payload).map some := if_neg h

/-- A cursor without a readable document is the first page. -/
theorem cursorFields_of_malformed (h : loadPayload py cursor = .ok none) :
    cursorFields py (some cursor) = .ok none := by
  by_cases hempty : cursor = ""
  · exact if_pos hempty
  · rw [cursorFields_of_ne hempty, h]

theorem cursorFields_of_tame (h : Tame py cursor) : cursorFields py (some cursor) = .ok none ∨
      ∃ fields, Holds py cursor fields ∧ cursorFields py (some cursor) = .ok (some fields) := by
  by_cases hempty : cursor = ""
  · exact .inl (if_pos hempty)
  · have hread := h.resolve_left hempty
    cases htext : decodedText cursor with
    | none =>
      left
      apply cursorFields_of_malformed
      rw [loadPayload, htext]
    | some text =>
      obtain ⟨hroom, hobject⟩ := hread text htext
      have hload : loadPayload py cursor = .ok (JsonValue.loads py.float text) := by
        rw [loadPayload, htext]
        simp only [hroom, Bool.false_eq_true, if_false]
      cases hpayload : JsonValue.loads py.float text with
      | none =>
        left
        apply cursorFields_of_malformed
        rw [hload, hpayload]
      | some payload =>
        obtain ⟨fields, rfl⟩ := hobject payload hpayload
        right
        refine ⟨fields, ⟨text, htext, hpayload⟩, ?_⟩
        rw [cursorFields_of_ne hempty, hload, hpayload]
        rfl

theorem tame_of_cursorFields {payload : Option Fields} (h : cursorFields py (some cursor) = .ok payload) :
    Tame py cursor := by
  by_cases hempty : cursor = ""
  · exact .inl hempty
  · right
    intro text htext
    rw [cursorFields_of_ne hempty, loadPayload, htext] at h
    cases hroom : py.deep text with
    | true => simp [hroom] at h
    | false =>
      refine ⟨rfl, fun document hdocument => ?_⟩
      simp only [hroom, Bool.false_eq_true, if_false, hdocument] at h
      cases document with
      | obj fields => exact ⟨fields, rfl⟩
      | null => cases h
      | bool b => cases h
      | int n => cases h
      | float text => cases h
      | str s => cases h
      | arr items => cases h

/-! ### Positions are read as they were written -/

def IsFlat : JsonValue → Prop
  | .int _ => True
  | .str _ => True
  | _ => False

/-- The stack has room for an object of numbers and texts. -/
def Roomy (py : Interpreter) : Prop :=
  ∀ payload : Fields, (∀ field ∈ payload, IsFlat field.2) → py.deep (JsonValue.compact (.obj payload)) = false

/-- A payload that is written and read: numbers and texts under names of their own. -/
structure IsPayload (payload : Fields) : Prop where
  flat : ∀ field ∈ payload, IsFlat field.2
  nodup : (payload.map Prod.fst).Nodup

variable {payload : Fields}

theorem readable_payload (float : FloatReader) (h : IsPayload payload) : JsonValue.Readable float (.obj payload) := by
  refine ⟨h.nodup, JsonValue.readableFields_iff.2 fun field hfield => ?_⟩
  have hflat := h.flat field hfield
  cases hvalue : field.2 with
  | int n => trivial
  | str s => trivial
  | null => rw [hvalue] at hflat; exact hflat.elim
  | bool b => rw [hvalue] at hflat; exact hflat.elim
  | float text => rw [hvalue] at hflat; exact hflat.elim
  | arr items => rw [hvalue] at hflat; exact hflat.elim
  | obj fields => rw [hvalue] at hflat; exact hflat.elim

theorem asciiBytes_compact_ne_nil (payload : Fields) : asciiBytes (JsonValue.compact (.obj payload)) ≠ [] := by
  intro h
  have hlength := JsonValue.length_compact_pos (.obj payload)
  rw [List.map_eq_nil_iff.1 h] at hlength
  exact absurd hlength (by decide)

theorem encodePayload_ne_empty (payload : Fields) : encodePayload payload ≠ "" := by
  intro h
  have hchars := congrArg String.toList h
  rw [encodePayload, String.toList_ofList] at hchars
  exact urlsafeB64Encode_ne_nil (asciiBytes_compact_ne_nil payload) hchars

theorem decodedText_encodePayload (payload : Fields) :
    decodedText (encodePayload payload) = some (JsonValue.compact (.obj payload)) := by
  have hascii : ((encodePayload payload).toList.all fun c => c.toNat < 128) = true := by
    rw [List.all_eq_true]
    intro c hc
    rw [encodePayload, String.toList_ofList] at hc
    exact decide_eq_true (ascii_urlsafeB64Encode hc)
  rw [decodedText, if_pos hascii, encodePayload, String.toList_ofList, urlsafeB64Decode_encode, Option.bind_some]
  exact decodeUtf8_asciiBytes (JsonValue.printable_compact _)

theorem cursorFields_encodePayload (hroomy : Roomy py) (h : IsPayload payload) :
    cursorFields py (some (encodePayload payload)) = .ok (some payload) := by
  rw [cursorFields_of_ne (encodePayload_ne_empty payload), loadPayload, decodedText_encodePayload]
  simp only [hroomy payload h.flat, Bool.false_eq_true, if_false,
    JsonValue.loads_compact (readable_payload py.float h)]
  rfl

theorem tame_encodePayload (hroomy : Roomy py) (h : IsPayload payload) : Tame py (encodePayload payload) :=
  tame_of_cursorFields (cursorFields_encodePayload hroomy h)

theorem isPayload_offset (offset : ℤ) : IsPayload (offsetPayload offset) := by
  refine ⟨fun field hfield => ?_, by simp [offsetPayload]⟩
  rw [List.mem_singleton.1 hfield]
  trivial

theorem isPayload_run (position : RunPosition) : IsPayload (runPayload position) := by
  refine ⟨fun field hfield => ?_, by simp [runPayload]⟩
  simp only [runPayload, List.mem_cons, List.not_mem_nil, or_false] at hfield
  rcases hfield with rfl | rfl | rfl <;> trivial

/-- An offset is read as it was written; one below zero was written as zero. -/
theorem decodeCursor_encodeCursor (hroomy : Roomy py) (offset : ℤ) :
    decodeCursor py (some (encodeCursor offset)) = .ok offset.toNat := by
  rw [decodeCursor, encodeCursor, cursorFields_encodePayload hroomy (isPayload_offset offset)]
  show Except.ok (offsetOf (some (.int (max 0 offset)))) = _
  have hnonneg : 0 ≤ max 0 offset := le_max_left 0 offset
  rw [offsetOf, if_pos hnonneg]
  congr 1
  omega

/-- None of the texts is empty. -/
structure RunPosition.IsFull (position : RunPosition) : Prop where
  activity : position.activity ≠ ""
  projectId : position.projectId ≠ ""
  runId : position.runId ≠ ""

theorem positionOf_runPayload_iff (position : RunPosition) :
    positionOf (runPayload position) = some position ↔ position.IsFull := by
  show (do
    let activity ← textOf (some (.str position.activity))
    let projectId ← textOf (some (.str position.projectId))
    let runId ← textOf (some (.str position.runId))
    some (⟨activity, projectId, runId⟩ : RunPosition)) = some position ↔ _
  constructor
  · intro h
    refine ⟨fun hempty => ?_, fun hempty => ?_, fun hempty => ?_⟩
    all_goals simp [textOf, hempty] at h
  · intro h
    simp [textOf, h.activity, h.projectId, h.runId]

/-- The place of a run is read as it was written, unless one of its texts is empty. -/
theorem decodeRunCursor_encodeRunCursor (hroomy : Roomy py) (position : RunPosition) :
    decodeRunCursor py (some (encodeRunCursor position)) = .ok (some position) ↔ position.IsFull := by
  rw [decodeRunCursor, encodeRunCursor, cursorFields_encodePayload hroomy (isPayload_run position)]
  show Except.ok (positionOf (runPayload position)) = Except.ok (some position) ↔ _
  rw [← positionOf_runPayload_iff]
  exact ⟨Except.ok.inj, congrArg Except.ok⟩

/-! ### The pages are the items -/

theorem safeLimit_pos (limit : ℤ) : 0 < safeLimit limit := by
  rw [safeLimit]
  omega

theorem paginateItems_of_decoded {cursor : Option String} {offset : ℕ} (h : decodeCursor py cursor = .ok offset)
    (items : List α) (limit : ℤ) : paginateItems py items limit cursor =
      .ok (pageAt items limit offset, nextCursor items (offset + (pageAt items limit offset).length)) := by
  rw [paginateItems, h]
  rfl

theorem drained_from (hroomy : Roomy py) (items : List α) (limit : ℤ) (remaining : ℕ) :
    ∀ {offset : ℕ} {cursor : Option String}, items.length - offset ≤ remaining → decodeCursor py cursor = .ok offset →
      ∃ pages, Drained py items limit cursor pages ∧ pages.flatten = items.drop offset := by
  induction remaining with
  | zero =>
    intro offset cursor hremaining hcursor
    have hdrop : items.drop offset = [] := List.drop_eq_nil_of_le (by omega)
    have hpage : pageAt items limit offset = [] := by rw [pageAt, hdrop, List.take_nil]
    have hstep := paginateItems_of_decoded hcursor items limit
    rw [hpage, nextCursor, if_neg (by rw [List.length_nil]; omega)] at hstep
    refine ⟨[[]], .last hstep, ?_⟩
    rw [hdrop]
    rfl
  | succ remaining ih =>
    intro offset cursor hremaining hcursor
    have hstep := paginateItems_of_decoded hcursor items limit
    have hsplit : pageAt items limit offset ++ items.drop (offset + safeLimit limit) = items.drop offset := by
      rw [← List.drop_drop]
      exact List.take_append_drop _ _
    have hpos := safeLimit_pos limit
    have hlength : (pageAt items limit offset).length = min (safeLimit limit) (items.length - offset) := by
      rw [pageAt, List.length_take, List.length_drop]
    by_cases hmore : offset + (pageAt items limit offset).length < items.length
    · -- A page that is not the last is as long as the limit.
      have hfull : (pageAt items limit offset).length = safeLimit limit := by omega
      rw [nextCursor, if_pos hmore, hfull] at hstep
      have hnext : decodeCursor py (some (encodeCursor ((offset + safeLimit limit : ℕ) : ℤ))) =
          .ok (offset + safeLimit limit) := decodeCursor_encodeCursor hroomy _
      obtain ⟨pages, hdrained, hflatten⟩ := ih (by omega) hnext
      refine ⟨pageAt items limit offset :: pages, .more hstep hdrained, ?_⟩
      rw [List.flatten_cons, hflatten, hsplit]
    · rw [nextCursor, if_neg hmore] at hstep
      refine ⟨[pageAt items limit offset], .last hstep, ?_⟩
      have hrest : items.drop (offset + safeLimit limit) = [] := List.drop_eq_nil_of_le (by omega)
      rw [← hsplit, hrest, List.append_nil, List.flatten_singleton]

/-! ### Total and exact -/

/-- The decoders return, the first page or what the cursor holds. -/
structure DecodesTotally (py : Interpreter) (cursor : String) : Prop where
  offset : ∃ offset, decodeCursor py (some cursor) = .ok offset ∧
    (offset ≠ 0 → ∃ fields, Holds py cursor fields ∧ offsetOf (fields.lookup "offset") = offset)
  run : ∃ position, decodeRunCursor py (some cursor) = .ok position ∧
    (position ≠ none → ∃ fields, Holds py cursor fields ∧ positionOf fields = position)

theorem decodesTotally_iff (py : Interpreter) (cursor : String) : DecodesTotally py cursor ↔ Tame py cursor := by
  constructor
  · intro h
    obtain ⟨offset, hoffset, -⟩ := h.offset
    cases hfields : cursorFields py (some cursor) with
    | error e =>
      rw [decodeCursor, hfields] at hoffset
      cases hoffset
    | ok payload => exact tame_of_cursorFields hfields
  · intro h
    rcases cursorFields_of_tame h with hfields | ⟨fields, hholds, hfields⟩
    · refine ⟨⟨0, ?_, fun hne => absurd rfl hne⟩, ⟨none, ?_, fun hne => absurd rfl hne⟩⟩
      · rw [decodeCursor, hfields]
        rfl
      · rw [decodeRunCursor, hfields]
        rfl
    · refine ⟨⟨offsetOf (fields.lookup "offset"), ?_, fun _ => ⟨fields, hholds, rfl⟩⟩,
        ⟨positionOf fields, ?_, fun _ => ⟨fields, hholds, rfl⟩⟩⟩
      · rw [decodeCursor, hfields]
        rfl
      · rw [decodeRunCursor, hfields]
        rfl

/-- An interpreter with room for five hundred brackets. -/
def shallow : Interpreter where
  float := fun _ => ⟨"0.0".toList, List.all_eq_true.1 (by decide), ⟨'.', by decide, .inl rfl⟩⟩
  deep := fun text => 500 < (text.takeWhile fun c => c = '[' || c = '\x7b').length

theorem roomy_shallow : Roomy shallow := by
  intro payload _
  have hopen : ((JsonValue.compact (.obj payload)).takeWhile fun c => c = '[' || c = '\x7b').length ≤ 1 := by
    cases payload with
    | nil => decide
    | cons field payload => rw [JsonValue.compact]; exact le_refl 1
  exact decide_eq_false (by omega)

end Phlo.Pagination
