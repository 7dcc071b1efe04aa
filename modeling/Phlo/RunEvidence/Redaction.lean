import Phlo.Library.KeyedSort
import Phlo.RunEvidence.Json
import Phlo.RunEvidence.TextRedaction

/-!
# Redaction and canonical JSON

`redactPayload` deep-redacts a value: row data and sensitive keys are replaced as a whole, text loses
its credentials.  `canonicalJson` is the redacted value with its keys sorted, `payloadChecksum` its
SHA-256 digest.

The rest of the development looks at canonical texts through these lemmas only:

* `canonicalJson_obj` — the canonical form of an object, field by field;
* `canonicalValue_plain`, `canonicalValue_rowData` — what happens to a field depends on its key: an
  ordinary key keeps its canonical value, a row-data key loses everything below it.
-/

namespace Phlo.RunEvidence

open Phlo.Library

/-! ### Keys -/

def sensitiveKeywords : List String :=
  ["password", "passwd", "token", "secret", "authorization", "api_key", "api-key", "apikey",
    "credential", "private_key", "signing_key", "encryption_key"]

def rowDataKeys : List String :=
  ["rows", "records", "row_data", "raw_rows", "sample_rows", "failure_cases", "sample",
    "sample_failures"]

/-- `token in text` -/
def isSubtext (token text : List Char) : Bool := text.tails.any token.isPrefixOf

def isSensitiveKey (key : String) : Bool :=
  sensitiveKeywords.any fun token => isSubtext token.toList (lower key.toList)

def isRowDataKey (key : String) : Bool :=
  rowDataKeys.any fun k => k.toList == lower key.toList

def isPlainKey (key : String) : Bool := !isRowDataKey key && !isSensitiveKey key

/-! ### `redact_payload` -/

namespace Json

/-- `isinstance(value, (Mapping, list, tuple, str))`; a digest is a string. -/
def isContainerOrText : Json → Bool
  | .obj _ | .arr _ | .str _ | .digest _ => true
  | _ => false

/-- `"<redacted>" if value not in (None, "") else value` -/
def redactWhole : Json → Json
  | .null => .null
  | .str s => if s = "" then .str "" else .str "<redacted>"
  | _ => .str "<redacted>"

end Json

mutual

/-- What is left of the value of a field `key`; `none` for a value that is not a field. -/
def redactPayload (key : Option String) : Json → Json
  | .arr items =>
    if key.any isRowDataKey || key.any isSensitiveKey then .str "<redacted>"
    else .arr (redactItems items)
  | .obj fields =>
    if key.any isRowDataKey || key.any isSensitiveKey then .str "<redacted>"
    else .obj (redactFields fields)
  | .str s =>
    if key.any isRowDataKey || key.any isSensitiveKey then (Json.str s).redactWhole
    else .str (redactText s)
  | v =>
    if (key.any isRowDataKey && v.isContainerOrText) || key.any isSensitiveKey then v.redactWhole
    else v

def redactItems : List Json → List Json
  | [] => []
  | v :: items => redactPayload none v :: redactItems items

def redactFields : List (String × Json) → List (String × Json)
  | [] => []
  | (k, v) :: fields => (k, redactPayload (some k) v) :: redactFields fields

end

/-- `_text` -/
def text : Option String → Option String := Option.map redactText

/-! ### `canonical_json` and `payload_checksum` -/

mutual

/-- `sort_keys=True` -/
def sortKeys : Json → Json
  | .arr items => .arr (sortItems items)
  | .obj fields => .obj (sortBy Prod.fst (sortFields fields))
  | v => v

def sortItems : List Json → List Json
  | [] => []
  | v :: items => sortKeys v :: sortItems items

def sortFields : List (String × Json) → List (String × Json)
  | [] => []
  | (k, v) :: fields => (k, sortKeys v) :: sortFields fields

end

def canonicalJson (v : Json) : Json := sortKeys (redactPayload none v)

/-- A SHA-256 digest (or its leading 32 hexadecimal digits), represented by what was hashed. -/
@[ext] structure Sha256 where
  preimage : Json
  deriving DecidableEq, Inhabited

def Sha256.json (h : Sha256) : Json := .digest h.preimage

def payloadChecksum (v : Json) : Sha256 := ⟨canonicalJson v⟩

theorem payloadChecksum_inj (v w : Json) :
    payloadChecksum v = payloadChecksum w ↔ canonicalJson v = canonicalJson w := by
  simp [payloadChecksum]

/-! ### The canonical form, field by field -/

def canonicalValue (key : String) (v : Json) : Json := sortKeys (redactPayload (some key) v)

def canonicalField (f : String × Json) : String × Json := (f.1, canonicalValue f.1 f.2)

theorem canonicalItems (items : List Json) : sortItems (redactItems items) = items.map canonicalJson := by
  induction items with
  | nil => rfl
  | cons v items ih => simp only [redactItems, sortItems, List.map_cons, ih, canonicalJson]

theorem canonicalFields (fields : Dict) : sortFields (redactFields fields) = fields.map canonicalField := by
  induction fields with
  | nil => rfl
  | cons f fields ih =>
    simp only [redactFields, sortFields, List.map_cons, ih, canonicalField, canonicalValue]

theorem canonicalJson_arr (items : List Json) : canonicalJson (.arr items) = .arr (items.map canonicalJson) := by
  simp [canonicalJson, redactPayload, sortKeys, canonicalItems]

theorem canonicalJson_obj (fields : Dict) :
    canonicalJson (.obj fields) = .obj (sortBy Prod.fst (fields.map canonicalField)) := by
  simp [canonicalJson, redactPayload, sortKeys, canonicalFields]

@[simp] theorem canonicalJson_null : canonicalJson .null = .null := rfl

@[simp] theorem canonicalJson_int (n : ℤ) : canonicalJson (.int n) = .int n := rfl

@[simp] theorem canonicalJson_digest (v : Json) : canonicalJson (.digest v) = .digest v := rfl

@[simp] theorem canonicalJson_str (s : String) : canonicalJson (.str s) = .str (redactText s) := by
  simp [canonicalJson, redactPayload, sortKeys]

@[simp] theorem canonicalJson_ofInstant (t : Option Timestamp) :
    canonicalJson (Json.ofInstant t) = Json.ofInstant t := by
  cases t <;> rfl

@[simp] theorem canonicalJson_ofInt (n : Option ℤ) : canonicalJson (Json.ofInt n) = Json.ofInt n := by
  cases n <;> rfl

@[simp] theorem canonicalJson_ofText (s : Option String) : canonicalJson (Json.ofText s) = Json.ofText (text s) := by
  cases s with
  | none => rfl
  | some s => exact canonicalJson_str s

@[simp] theorem canonicalJson_ofTexts (l : List String) :
    canonicalJson (Json.ofTexts l) = Json.ofTexts (l.map redactText) := by
  simp [Json.ofTexts, canonicalJson_arr, Function.comp_def]

theorem map_fst_canonicalField (fields : Dict) : (fields.map canonicalField).map Prod.fst = fields.map Prod.fst := by
  simp [canonicalField, Function.comp_def]

/-- Two objects with the same keys have one canonical form exactly when all their fields have. -/
theorem canonicalJson_obj_inj {fs gs : Dict} (hk : fs.map Prod.fst = gs.map Prod.fst) (hn : (fs.map Prod.fst).Nodup) :
    canonicalJson (.obj fs) = canonicalJson (.obj gs) ↔ fs.map canonicalField = gs.map canonicalField := by
  have hk' : (fs.map canonicalField).map Prod.fst = (gs.map canonicalField).map Prod.fst := by
    rw [map_fst_canonicalField, map_fst_canonicalField, hk]
  have hn' : ((fs.map canonicalField).map Prod.fst).Nodup := by
    rw [map_fst_canonicalField]
    exact hn
  rw [canonicalJson_obj, canonicalJson_obj]
  constructor
  · intro h
    exact sortBy_injective_of_keys Prod.fst hk' hn' (Json.obj.inj h)
  · intro h
    rw [h]

theorem canonicalValue_plain {key : String} (h : isPlainKey key = true) (v : Json) :
    canonicalValue key v = canonicalJson v := by
  simp only [isPlainKey, Bool.and_eq_true, Bool.not_eq_true'] at h
  cases v <;> simp [canonicalValue, canonicalJson, redactPayload, h.1, h.2]

/-- A row-data key loses an object as a whole, whatever the object holds. -/
theorem canonicalValue_rowData {key : String} (h : isRowDataKey key = true) (fields : Dict) :
    canonicalValue key (.obj fields) = .str "<redacted>" := by
  simp [canonicalValue, redactPayload, h, sortKeys]

theorem map_canonicalField_plain {fields : Dict} (h : (fields.map Prod.fst).all isPlainKey = true) :
    fields.map canonicalField = fields.map fun f => (f.1, canonicalJson f.2) := by
  apply List.map_congr_left
  intro f hf
  have hplain : isPlainKey f.1 = true := List.all_eq_true.1 h f.1 (List.mem_map_of_mem hf)
  show (f.1, canonicalValue f.1 f.2) = _
  rw [canonicalValue_plain hplain]

/-- Objects with the same ordinary keys: the canonical forms agree field by field. -/
theorem canonical_plain_iff (keys : List String) {fs gs : Dict} (hfs : fs.map Prod.fst = keys)
    (hgs : gs.map Prod.fst = keys) (hn : keys.Nodup) (hp : keys.all isPlainKey = true) :
    canonicalJson (.obj fs) = canonicalJson (.obj gs) ↔
      (fs.map fun f => (f.1, canonicalJson f.2)) = gs.map fun f => (f.1, canonicalJson f.2) := by
  rw [canonicalJson_obj_inj (hfs.trans hgs.symm) (by rw [hfs]; exact hn),
    map_canonicalField_plain (by rw [hfs]; exact hp), map_canonicalField_plain (by rw [hgs]; exact hp)]

/-! ### Checking that a key is ordinary -/

/-- The sensitive keywords as characters: a check of a key need not decode them again. -/
def keywordChars : List (List Char) :=
  [['p', 'a', 's', 's', 'w', 'o', 'r', 'd'], ['p', 'a', 's', 's', 'w', 'd'],
    ['t', 'o', 'k', 'e', 'n'], ['s', 'e', 'c', 'r', 'e', 't'],
    ['a', 'u', 't', 'h', 'o', 'r', 'i', 'z', 'a', 't', 'i', 'o', 'n'],
    ['a', 'p', 'i', '_', 'k', 'e', 'y'], ['a', 'p', 'i', '-', 'k', 'e', 'y'],
    ['a', 'p', 'i', 'k', 'e', 'y'], ['c', 'r', 'e', 'd', 'e', 'n', 't', 'i', 'a', 'l'],
    ['p', 'r', 'i', 'v', 'a', 't', 'e', '_', 'k', 'e', 'y'],
    ['s', 'i', 'g', 'n', 'i', 'n', 'g', '_', 'k', 'e', 'y'],
    ['e', 'n', 'c', 'r', 'y', 'p', 't', 'i', 'o', 'n', '_', 'k', 'e', 'y']]

def rowDataChars : List (List Char) :=
  [['r', 'o', 'w', 's'], ['r', 'e', 'c', 'o', 'r', 'd', 's'], ['r', 'o', 'w', '_', 'd', 'a', 't', 'a'],
    ['r', 'a', 'w', '_', 'r', 'o', 'w', 's'], ['s', 'a', 'm', 'p', 'l', 'e', '_', 'r', 'o', 'w', 's'],
    ['f', 'a', 'i', 'l', 'u', 'r', 'e', '_', 'c', 'a', 's', 'e', 's'], ['s', 'a', 'm', 'p', 'l', 'e'],
    ['s', 'a', 'm', 'p', 'l', 'e', '_', 'f', 'a', 'i', 'l', 'u', 'r', 'e', 's']]

/-- `isPlainKey` on the characters of a key in lower case. -/
def plainChars (key : List Char) : Bool :=
  !rowDataChars.contains key && !keywordChars.any fun token => isSubtext token key

theorem isPlainKey_eq (key : String) : isPlainKey key = plainChars (lower key.toList) := by
  have hkeywords : sensitiveKeywords.map String.toList = keywordChars := by decide +kernel
  have hrowData : rowDataKeys.map String.toList = rowDataChars := by decide +kernel
  have hsensitive : isSensitiveKey key =
      keywordChars.any fun token => isSubtext token (lower key.toList) := by
    rw [← hkeywords, List.any_map]
    rfl
  have hrows : isRowDataKey key = rowDataChars.contains (lower key.toList) := by
    rw [← hrowData, List.contains_eq_any_beq, List.any_map]
    unfold isRowDataKey
    congr 1
    funext k
    exact Bool.beq_comm
  rw [isPlainKey, plainChars, hsensitive, hrows]

theorem all_plain_of_chars {keys : List String}
    (h : (keys.all fun key => plainChars (lower key.toList)) = true) : keys.all isPlainKey = true := by
  rw [List.all_eq_true] at h ⊢
  intro key hkey
  rw [isPlainKey_eq]
  exact h key hkey

example : isPlainKey "status" = true ∧ isRowDataKey "records" = true := by decide

end Phlo.RunEvidence
