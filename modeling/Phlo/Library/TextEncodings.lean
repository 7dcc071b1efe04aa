import Phlo.Library.JsonReader

/-!
# Texts as bytes

JSON documents are stored as bytes.  `json.loads` finds out the encoding of the bytes it is given and decodes
them; what `json.dumps` writes is printable ASCII, which is decoded to itself.

* `detectEncoding`, `decode` — the encodings of JSON documents, surrogates let through;
* `decode_asciiBytes` — printable ASCII is read as it was written;
* `printable_compact` — the compact text of a value is printable ASCII.
-/

namespace Phlo.Library

abbrev Bytes := List UInt8

/-- `text.encode()` of an ASCII text. -/
def asciiBytes (text : List Char) : Bytes := text.map fun c => UInt8.ofNat c.toNat

/-! ### Decoding -/

inductive Encoding where
  | utf8 | utf8Sig | utf16 | utf16be | utf16le | utf32 | utf32be | utf32le
  deriving DecidableEq, Repr

/-- `json.detect_encoding` -/
def detectEncoding (b : Bytes) : Encoding :=
  if [0x00, 0x00, 0xfe, 0xff].isPrefixOf b || [0xff, 0xfe, 0x00, 0x00].isPrefixOf b then .utf32
  else if [0xfe, 0xff].isPrefixOf b || [0xff, 0xfe].isPrefixOf b then .utf16
  else if [0xef, 0xbb, 0xbf].isPrefixOf b then .utf8Sig
  else
    match b with
    | b0 :: b1 :: b2 :: b3 :: _ =>
      if b0 = 0 then if b1 ≠ 0 then .utf16be else .utf32be
      else if b1 = 0 then if b2 ≠ 0 ∨ b3 ≠ 0 then .utf16le else .utf32le
      else .utf8
    | [b0, b1] => if b0 = 0 then .utf16be else if b1 = 0 then .utf16le else .utf8
    | _ => .utf8

/-- The payload of a continuation byte. -/
def continuation (b : UInt8) : Option ℕ := if 0x80 ≤ b ∧ b < 0xc0 then some (b.toNat - 0x80) else none

def utf8Unit : Bytes → Option (ℕ × Bytes)
  | [] => none
  | a :: rest =>
    if a < 0x80 then some (a.toNat, rest)
    else if 0xc2 ≤ a ∧ a < 0xe0 then
      match rest with
      | b :: rest => do
        let b ← continuation b
        some ((a.toNat - 0xc0) * 64 + b, rest)
      | _ => none
    else if 0xe0 ≤ a ∧ a < 0xf0 then
      match rest with
      | b :: c :: rest => do
        let b ← continuation b
        let c ← continuation c
        let code := (a.toNat - 0xe0) * 4096 + b * 64 + c
        if 0x800 ≤ code then some (code, rest) else none
      | _ => none
    else if 0xf0 ≤ a ∧ a < 0xf5 then
      match rest with
      | b :: c :: d :: rest => do
        let b ← continuation b
        let c ← continuation c
        let d ← continuation d
        let code := (a.toNat - 0xf0) * 262144 + b * 4096 + c * 64 + d
        if 0x10000 ≤ code ∧ code < 0x110000 then some (code, rest) else none
      | _ => none
    else none

/-- A number of bytes, the most significant first. -/
def bigEndian (b : Bytes) : ℕ := b.foldl (fun n byte => n * 256 + byte.toNat) 0

def takeBytes (n : ℕ) (b : Bytes) : Option (Bytes × Bytes) := if b.length < n then none else some (b.splitAt n)

/-- The code point at the front of UTF-16 bytes, most significant byte first if `big`. -/
def utf16Unit (big : Bool) (b : Bytes) : Option (ℕ × Bytes) := do
  let (unit, rest) ← takeBytes 2 b
  let high := bigEndian (if big then unit else unit.reverse)
  match takeBytes 2 rest with
  | some (second, after) =>
    let low := bigEndian (if big then second else second.reverse)
    if 0xd800 ≤ high ∧ high < 0xdc00 ∧ 0xdc00 ≤ low ∧ low < 0xe000 then
      some (0x10000 + (high - 0xd800) * 1024 + (low - 0xdc00), after)
    else some (high, rest)
  | none => some (high, rest)

def utf32Unit (big : Bool) (b : Bytes) : Option (ℕ × Bytes) := do
  let (unit, rest) ← takeBytes 4 b
  let code := bigEndian (if big then unit else unit.reverse)
  if code < 0x110000 then some (code, rest) else none

def decodeUnits (unit : Bytes → Option (ℕ × Bytes)) : ℕ → Bytes → Option (List Char)
  | _, [] => some []
  | 0, _ => none
  | fuel + 1, b => do
    let (code, rest) ← unit b
    let chars ← decodeUnits unit fuel rest
    some (charOf code :: chars)

def decodeAll (unit : Bytes → Option (ℕ × Bytes)) (b : Bytes) : Option (List Char) := decodeUnits unit b.length b

/-- `b.decode(detect_encoding(b), "surrogatepass")` -/
def decode (b : Bytes) : Option (List Char) :=
  match detectEncoding b with
  | .utf8 => decodeAll utf8Unit b
  | .utf8Sig => decodeAll utf8Unit (b.drop 3)
  | .utf16 => decodeAll (utf16Unit ([0xfe, 0xff].isPrefixOf b)) (b.drop 2)
  | .utf16be => decodeAll (utf16Unit true) b
  | .utf16le => decodeAll (utf16Unit false) b
  | .utf32 => decodeAll (utf32Unit ([0x00, 0x00].isPrefixOf b)) (b.drop 4)
  | .utf32be => decodeAll (utf32Unit true) b
  | .utf32le => decodeAll (utf32Unit false) b

/-- `json.loads(b)` of bytes. -/
def JsonValue.loadsBytes (float : FloatReader) (b : Bytes) : Option JsonValue := (decode b).bind (loads float)

/-! ### Printable texts -/

/-- From the blank to the tilde. -/
def IsPrintable (c : Char) : Prop := 32 ≤ c.toNat ∧ c.toNat ≤ 126

instance (c : Char) : Decidable (IsPrintable c) := inferInstanceAs (Decidable (_ ∧ _))

theorem asciiByte {c : Char} (h : IsPrintable c) :
    (UInt8.ofNat c.toNat).toNat = c.toNat ∧ UInt8.ofNat c.toNat < 0x80 ∧ UInt8.ofNat c.toNat ≠ 0 := by
  have hvalue : (UInt8.ofNat c.toNat).toNat = c.toNat := by
    rw [UInt8.toNat_ofNat']
    exact Nat.mod_eq_of_lt (by have := h.2; omega)
  refine ⟨hvalue, ?_, ?_⟩
  · rw [UInt8.lt_iff_toNat_lt, hvalue]
    show c.toNat < 128
    have := h.2
    omega
  · intro hzero
    rw [hzero] at hvalue
    have h0 : (0 : UInt8).toNat = 0 := rfl
    have := h.1
    omega

theorem utf8Unit_of_low {a : UInt8} (h : a < 0x80) (rest : Bytes) : utf8Unit (a :: rest) = some (a.toNat, rest) := by
  unfold utf8Unit
  exact if_pos h

variable {text : List Char}

/-- Printable ASCII is read as it was written, whatever else the reader of code points takes. -/
theorem decodeUnits_asciiBytes {unit : Bytes → Option (ℕ × Bytes)}
    (hunit : ∀ c, IsPrintable c → ∀ rest, unit (UInt8.ofNat c.toNat :: rest) = some (c.toNat, rest))
    (h : ∀ c ∈ text, IsPrintable c) {fuel : ℕ} (hfuel : text.length ≤ fuel) :
    decodeUnits unit fuel (asciiBytes text) = some text := by
  induction text generalizing fuel with
  | nil => cases fuel <;> rfl
  | cons c text ih =>
    match fuel, hfuel with
    | fuel + 1, hfuel =>
      have hrest := ih (fun x hx => h x (List.mem_cons_of_mem _ hx)) (Nat.le_of_succ_le_succ hfuel)
      show (do
        let (code, rest) ← unit (UInt8.ofNat c.toNat :: asciiBytes text)
        let chars ← decodeUnits unit fuel rest
        some (charOf code :: chars)) = _
      rw [hunit c (h c List.mem_cons_self)]
      simp only [Option.bind_eq_bind, Option.bind_some, hrest, charOf_toNat]

theorem utf8Unit_printable (c : Char) (h : IsPrintable c) (rest : Bytes) :
    utf8Unit (UInt8.ofNat c.toNat :: rest) = some (c.toNat, rest) := by
  obtain ⟨hvalue, hlow, -⟩ := asciiByte h
  rw [utf8Unit_of_low hlow, hvalue]

theorem detectEncoding_asciiBytes (h : ∀ c ∈ text, IsPrintable c) : detectEncoding (asciiBytes text) = .utf8 := by
  have hbyte : ∀ b ∈ asciiBytes text, b < 0x80 ∧ b ≠ 0 := by
    intro b hb
    obtain ⟨c, hc, rfl⟩ := List.mem_map.1 hb
    exact (asciiByte (h c hc)).2
  generalize asciiBytes text = b at hbyte
  cases b with
  | nil => rfl
  | cons b0 b =>
    obtain ⟨hlow, hzero⟩ := hbyte b0 List.mem_cons_self
    have hmark : ∀ x : UInt8, (x = 0 ∨ 0x80 ≤ x) → ∀ rest, (x :: rest).isPrefixOf (b0 :: b) = false := by
      intro x hx rest
      have hne : (x == b0) = false := by
        rw [beq_eq_false_iff_ne]
        rintro rfl
        rcases hx with rfl | hx
        · exact hzero rfl
        · exact absurd hlow (UInt8.not_lt.2 hx)
      rw [List.isPrefixOf_cons_cons, hne, Bool.false_and]
    unfold detectEncoding
    rw [hmark 0x00 (.inl rfl), hmark 0xff (.inr (by decide)), hmark 0xfe (.inr (by decide)),
      hmark 0xff (.inr (by decide)), hmark 0xef (.inr (by decide))]
    simp only [Bool.or_false, Bool.false_eq_true, if_false]
    match b, hbyte with
    | [], _ => rfl
    | [b1], hbyte =>
      have hb1 := (hbyte b1 (by simp)).2
      simp [hzero, hb1]
    | [b1, b2], _ => rfl
    | b1 :: b2 :: b3 :: rest, hbyte =>
      have hb1 := (hbyte b1 (by simp)).2
      simp [hzero, hb1]

theorem decode_asciiBytes (h : ∀ c ∈ text, IsPrintable c) : decode (asciiBytes text) = some text := by
  rw [decode, detectEncoding_asciiBytes h]
  show decodeUnits utf8Unit (asciiBytes text).length (asciiBytes text) = _
  exact decodeUnits_asciiBytes utf8Unit_printable h (by rw [asciiBytes, List.length_map])

/-! ### What is written is printable -/

theorem printable_of_all (h : (text.all fun c => decide (IsPrintable c)) = true) : ∀ c ∈ text, IsPrintable c :=
  fun c hc => of_decide_eq_true (List.all_eq_true.1 h c hc)

theorem printable_hexDigit (n : ℕ) : IsPrintable (hexDigit n) := by
  have hall : ∀ d : Fin 16, IsPrintable (Nat.digitChar d) := by decide
  exact hall ⟨n % 16, Nat.mod_lt n (by omega)⟩

theorem printable_hex4 (n : ℕ) : ∀ c ∈ hex4 n, IsPrintable c := by
  intro c hc
  simp only [hex4, List.mem_cons, List.not_mem_nil, or_false] at hc
  rcases hc with rfl | rfl | rfl | rfl <;> exact printable_hexDigit _

theorem printable_escapeChar (c : Char) : ∀ x ∈ escapeChar c, IsPrintable x := by
  intro x hx
  have hu : IsPrintable 'u' ∧ IsPrintable '\\' := by decide
  unfold escapeChar at hx
  split_ifs at hx with h1 h2 h3 h4 h5 h6 h7 h8 h9
  case pos => exact printable_of_all (by decide) x hx
  case pos => exact printable_of_all (by decide) x hx
  case pos => exact printable_of_all (by decide) x hx
  case pos => exact printable_of_all (by decide) x hx
  case pos => exact printable_of_all (by decide) x hx
  case pos => exact printable_of_all (by decide) x hx
  case pos => exact printable_of_all (by decide) x hx
  case pos =>
    rw [List.mem_singleton.1 hx]
    exact h8
  case pos =>
    simp only [List.mem_cons] at hx
    rcases hx with rfl | rfl | hx
    · exact hu.2
    · exact hu.1
    · exact printable_hex4 _ x hx
  case neg =>
    simp only [List.mem_cons, List.mem_append] at hx
    rcases hx with (rfl | rfl | hx) | (rfl | rfl | hx)
    · exact hu.2
    · exact hu.1
    · exact printable_hex4 _ x hx
    · exact hu.2
    · exact hu.1
    · exact printable_hex4 _ x hx

theorem printable_renderChars (cs : List Char) : ∀ x ∈ renderChars cs, IsPrintable x := by
  intro x hx
  rcases List.mem_append.1 hx with hx | hx
  · obtain ⟨c, -, hx⟩ := List.mem_flatMap.1 hx
    exact printable_escapeChar c x hx
  · rw [List.mem_singleton.1 hx]
    decide

namespace JsonValue

theorem printable_numeral {c : Char} (h : isNumeral c = true) : IsPrintable c := by
  simp only [isNumeral, Bool.or_eq_true, beq_iff_eq] at h
  rcases h with (((h | rfl) | rfl) | rfl) | rfl
  · rw [Char.isDigit, Bool.and_eq_true, decide_eq_true_eq, decide_eq_true_eq] at h
    have hlow : 48 ≤ c.toNat := h.1
    have hhigh : c.toNat ≤ 57 := h.2
    exact ⟨by omega, by omega⟩
  all_goals decide

mutual

theorem printable_compact : ∀ (v : JsonValue), ∀ x ∈ compact v, IsPrintable x
  | .null, x, hx => by exact printable_of_all (by decide) x hx
  | .bool true, x, hx => by exact printable_of_all (by decide) x hx
  | .bool false, x, hx => by exact printable_of_all (by decide) x hx
  | .int n, x, hx => printable_numeral (numberText_numerals (.int n) x hx)
  | .float text, x, hx => printable_numeral (text.numerals x hx)
  | .str s, x, hx => by
    rcases List.mem_cons.1 hx with rfl | hx
    · decide
    · exact printable_renderChars s.toList x hx
  | .arr [], x, hx => by exact printable_of_all (by decide) x hx
  | .arr (item :: items), x, hx => by
    rw [compact, List.mem_cons, List.mem_append] at hx
    rcases hx with rfl | hx | hx
    · decide
    · exact printable_compact item x hx
    · exact printable_compactItems items x hx
  | .obj [], x, hx => by exact printable_of_all (by decide) x hx
  | .obj ((key, value) :: fields), x, hx => by
    rw [compact, List.mem_cons, List.mem_cons, List.mem_append, List.mem_cons, List.mem_append] at hx
    rcases hx with rfl | rfl | hx | rfl | hx | hx
    · decide
    · decide
    · exact printable_renderChars key.toList x hx
    · decide
    · exact printable_compact value x hx
    · exact printable_compactFields fields x hx

theorem printable_compactItems : ∀ (items : List JsonValue), ∀ x ∈ compactItems items, IsPrintable x
  | [], x, hx => by exact printable_of_all (by decide) x hx
  | item :: items, x, hx => by
    rw [compactItems, List.mem_cons, List.mem_append] at hx
    rcases hx with rfl | hx | hx
    · decide
    · exact printable_compact item x hx
    · exact printable_compactItems items x hx

theorem printable_compactFields :
    ∀ (fields : List (String × JsonValue)), ∀ x ∈ compactFields fields, IsPrintable x
  | [], x, hx => by exact printable_of_all (by decide) x hx
  | (key, value) :: fields, x, hx => by
    rw [compactFields, List.mem_cons, List.mem_cons, List.mem_append, List.mem_cons, List.mem_append] at hx
    rcases hx with rfl | rfl | hx | rfl | hx | hx
    · decide
    · decide
    · exact printable_renderChars key.toList x hx
    · decide
    · exact printable_compact value x hx
    · exact printable_compactFields fields x hx

end

theorem loadsBytes_compact {float : FloatReader} {v : JsonValue} (h : Readable float v) :
    loadsBytes float (asciiBytes (compact v)) = some v := by
  rw [loadsBytes, decode_asciiBytes (printable_compact v), Option.bind_some, loads_compact h]

end JsonValue

end Phlo.Library
