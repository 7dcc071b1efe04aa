import Phlo.Library.TextEncodings

/-!
# Base64

Six bits a character.  The decoder is the lenient one: characters outside the alphabet are passed over,
and a group of four that is closed by padding ends the text.

* `b2aBase64`, `a2bBase64` — the encoder and the decoder, by groups of three bytes and four characters;
* `urlsafeB64Encode`, `urlsafeB64Decode` — the alphabet with `-` and `_` for `+` and `/`;
* `urlsafeB64Decode_encode` — bytes are decoded as they were encoded;
* `decodeUtf8` — strict UTF-8, without the surrogates.
-/

namespace Phlo.Library

/-! ### The alphabet -/

/-- The character of six bits. -/
def sextetChar (n : ℕ) : Char :=
  if n < 26 then Char.ofNat (65 + n)
  else if n < 52 then Char.ofNat (71 + n)
  else if n < 62 then Char.ofNat (n - 4)
  else if n = 62 then '+' else '/'

/-- `table_a2b_base64` -/
def sextetValue (c : Char) : Option ℕ :=
  let n := c.toNat
  if 65 ≤ n ∧ n ≤ 90 then some (n - 65)
  else if 97 ≤ n ∧ n ≤ 122 then some (n - 71)
  else if 48 ≤ n ∧ n ≤ 57 then some (n + 4)
  else if c = '+' then some 62
  else if c = '/' then some 63
  else none

def urlsafeEncodeTranslation (c : Char) : Char := if c = '+' then '-' else if c = '/' then '_' else c

def urlsafeDecodeTranslation (c : Char) : Char := if c = '-' then '+' else if c = '_' then '/' else c

/-- What a character of the alphabet is for the decoder. -/
structure IsSextet (n : ℕ) (c : Char) : Prop where
  value : sextetValue c = some n
  notPad : c ≠ '='
  restored : urlsafeDecodeTranslation (urlsafeEncodeTranslation c) = c
  ascii : (urlsafeEncodeTranslation c).toNat < 128

instance (n : ℕ) (c : Char) : Decidable (IsSextet n c) :=
  decidable_of_iff (sextetValue c = some n ∧ c ≠ '=' ∧
      urlsafeDecodeTranslation (urlsafeEncodeTranslation c) = c ∧ (urlsafeEncodeTranslation c).toNat < 128)
    ⟨fun h => ⟨h.1, h.2.1, h.2.2.1, h.2.2.2⟩, fun h => ⟨h.value, h.notPad, h.restored, h.ascii⟩⟩

theorem isSextet_sextetChar {n : ℕ} (h : n < 64) : IsSextet n (sextetChar n) := by
  have hall : ∀ n : Fin 64, IsSextet n (sextetChar n) := by decide
  exact hall ⟨n, h⟩

/-! ### Encoding and decoding -/

/-- `binascii.b2a_base64` without the newline. -/
def b2aBase64 : Bytes → List Char
  | [] => []
  | [a] => [sextetChar (a.toNat / 4), sextetChar (a.toNat % 4 * 16), '=', '=']
  | [a, b] =>
    [sextetChar (a.toNat / 4), sextetChar (a.toNat % 4 * 16 + b.toNat / 16), sextetChar (b.toNat % 16 * 4), '=']
  | a :: b :: c :: rest =>
    sextetChar (a.toNat / 4) :: sextetChar (a.toNat % 4 * 16 + b.toNat / 16) ::
      sextetChar (b.toNat % 16 * 4 + c.toNat / 64) :: sextetChar (c.toNat % 64) :: b2aBase64 rest

/-- The loop of `binascii.a2b_base64`: the place in the group of four, the bits left over from the last
character, and the padding met since. -/
def a2bLoop : ℕ → ℕ → ℕ → List Char → Option Bytes
  | quadPos, _, _, [] => if quadPos = 0 then some [] else none
  | quadPos, leftchar, pads, c :: text =>
    if c = '=' then
      if 2 ≤ quadPos then
        -- A pad sequence ends the text.
        if 4 ≤ quadPos + (pads + 1) then some [] else a2bLoop quadPos leftchar (pads + 1) text
      else a2bLoop quadPos leftchar pads text
    else
      match sextetValue c with
      | none => a2bLoop quadPos leftchar pads text
      | some value =>
        match quadPos with
        | 0 => a2bLoop 1 value 0 text
        | 1 => (a2bLoop 2 (value % 16) 0 text).map (UInt8.ofNat (leftchar * 4 + value / 16) :: ·)
        | 2 => (a2bLoop 3 (value % 4) 0 text).map (UInt8.ofNat (leftchar * 16 + value / 4) :: ·)
        | _ => (a2bLoop 0 0 0 text).map (UInt8.ofNat (leftchar * 64 + value) :: ·)

/-- `binascii.a2b_base64`, not strict; `none` for a group that is not complete. -/
def a2bBase64 (text : List Char) : Option Bytes := a2bLoop 0 0 0 text

/-- `base64.urlsafe_b64encode` -/
def urlsafeB64Encode (b : Bytes) : List Char := (b2aBase64 b).map urlsafeEncodeTranslation

/-- `base64.urlsafe_b64decode` -/
def urlsafeB64Decode (text : List Char) : Option Bytes := a2bBase64 (text.map urlsafeDecodeTranslation)

/-- One code point of strict UTF-8: a surrogate is an error. -/
def strictUtf8Unit (b : Bytes) : Option (ℕ × Bytes) :=
  match utf8Unit b with
  | some (code, rest) => if 0xd800 ≤ code ∧ code < 0xe000 then none else some (code, rest)
  | none => none

/-- `b.decode("utf-8")` -/
def decodeUtf8 (b : Bytes) : Option (List Char) := decodeAll strictUtf8Unit b

/-! ### Decoding what was encoded -/

theorem mem_b2aBase64 : ∀ {b : Bytes} {c : Char}, c ∈ b2aBase64 b → c = '=' ∨ ∃ n < 64, c = sextetChar n
  | [], c, h => by cases h
  | [a], c, h => by
    have ha := a.toNat_lt
    simp only [b2aBase64, List.mem_cons, List.not_mem_nil, or_false] at h
    rcases h with rfl | rfl | rfl | rfl
    · exact .inr ⟨_, by omega, rfl⟩
    · exact .inr ⟨_, by omega, rfl⟩
    · exact .inl rfl
    · exact .inl rfl
  | [a, b], c, h => by
    have ha := a.toNat_lt
    have hb := b.toNat_lt
    simp only [b2aBase64, List.mem_cons, List.not_mem_nil, or_false] at h
    rcases h with rfl | rfl | rfl | rfl
    · exact .inr ⟨_, by omega, rfl⟩
    · exact .inr ⟨_, by omega, rfl⟩
    · exact .inr ⟨_, by omega, rfl⟩
    · exact .inl rfl
  | a :: b :: d :: rest, c, h => by
    have ha := a.toNat_lt
    have hb := b.toNat_lt
    have hd := d.toNat_lt
    simp only [b2aBase64, List.mem_cons] at h
    rcases h with rfl | rfl | rfl | rfl | h
    · exact .inr ⟨_, by omega, rfl⟩
    · exact .inr ⟨_, by omega, rfl⟩
    · exact .inr ⟨_, by omega, rfl⟩
    · exact .inr ⟨_, by omega, rfl⟩
    · exact mem_b2aBase64 h

theorem a2bLoop_sextetChar {n : ℕ} (h : n < 64) (quadPos leftchar pads : ℕ) (text : List Char) :
    a2bLoop quadPos leftchar pads (sextetChar n :: text) =
      match quadPos with
      | 0 => a2bLoop 1 n 0 text
      | 1 => (a2bLoop 2 (n % 16) 0 text).map (UInt8.ofNat (leftchar * 4 + n / 16) :: ·)
      | 2 => (a2bLoop 3 (n % 4) 0 text).map (UInt8.ofNat (leftchar * 16 + n / 4) :: ·)
      | _ => (a2bLoop 0 0 0 text).map (UInt8.ofNat (leftchar * 64 + n) :: ·) := by
  have hsextet := isSextet_sextetChar h
  rw [a2bLoop, if_neg hsextet.notPad, hsextet.value]

theorem ofNat_of_eq {n : ℕ} {a : UInt8} (h : n = a.toNat) : UInt8.ofNat n = a := by
  rw [h, UInt8.ofNat_toNat]

/-- Bytes are decoded as they were encoded. -/
theorem a2bBase64_b2aBase64 : ∀ b : Bytes, a2bBase64 (b2aBase64 b) = some b
  | [] => rfl
  | [a] => by
    have ha := a.toNat_lt
    have hbyte : UInt8.ofNat (a.toNat / 4 * 4 + a.toNat % 4 * 16 / 16) = a := ofNat_of_eq (by omega)
    show a2bLoop 0 0 0 (sextetChar _ :: sextetChar _ :: '=' :: ['=']) = _
    rw [a2bLoop_sextetChar (by omega)]
    show a2bLoop 1 _ 0 _ = _
    rw [a2bLoop_sextetChar (by omega)]
    show Option.map _ (some []) = _
    rw [Option.map_some, hbyte]
  | [a, b] => by
    have ha := a.toNat_lt
    have hb := b.toNat_lt
    have hfirst : UInt8.ofNat (a.toNat / 4 * 4 + (a.toNat % 4 * 16 + b.toNat / 16) / 16) = a :=
      ofNat_of_eq (by omega)
    have hsecond : UInt8.ofNat ((a.toNat % 4 * 16 + b.toNat / 16) % 16 * 16 + b.toNat % 16 * 4 / 4) = b :=
      ofNat_of_eq (by omega)
    show a2bLoop 0 0 0 (sextetChar _ :: sextetChar _ :: sextetChar _ :: ['=']) = _
    rw [a2bLoop_sextetChar (by omega)]
    show a2bLoop 1 _ 0 _ = _
    rw [a2bLoop_sextetChar (by omega)]
    show Option.map _ (a2bLoop 2 _ 0 _) = _
    rw [a2bLoop_sextetChar (by omega)]
    show Option.map _ (Option.map _ (some [])) = _
    rw [Option.map_some, Option.map_some, hfirst, hsecond]
  | a :: b :: c :: rest => by
    have ha := a.toNat_lt
    have hb := b.toNat_lt
    have hc := c.toNat_lt
    have hfirst : UInt8.ofNat (a.toNat / 4 * 4 + (a.toNat % 4 * 16 + b.toNat / 16) / 16) = a :=
      ofNat_of_eq (by omega)
    have hsecond : UInt8.ofNat ((a.toNat % 4 * 16 + b.toNat / 16) % 16 * 16 +
        (b.toNat % 16 * 4 + c.toNat / 64) / 4) = b := ofNat_of_eq (by omega)
    have hthird : UInt8.ofNat ((b.toNat % 16 * 4 + c.toNat / 64) % 4 * 64 + c.toNat % 64) = c :=
      ofNat_of_eq (by omega)
    have hrest : a2bLoop 0 0 0 (b2aBase64 rest) = some rest := a2bBase64_b2aBase64 rest
    show a2bLoop 0 0 0 (sextetChar _ :: sextetChar _ :: sextetChar _ :: sextetChar _ :: b2aBase64 rest) = _
    rw [a2bLoop_sextetChar (by omega)]
    show a2bLoop 1 _ 0 _ = _
    rw [a2bLoop_sextetChar (by omega)]
    show Option.map _ (a2bLoop 2 _ 0 _) = _
    rw [a2bLoop_sextetChar (by omega)]
    show Option.map _ (Option.map _ (a2bLoop 3 _ 0 _)) = _
    rw [a2bLoop_sextetChar (by omega)]
    show Option.map _ (Option.map _ (Option.map _ (a2bLoop 0 0 0 _))) = _
    rw [hrest, Option.map_some, Option.map_some, Option.map_some, hfirst, hsecond, hthird]

theorem map_translations (b : Bytes) :
    ((b2aBase64 b).map urlsafeEncodeTranslation).map urlsafeDecodeTranslation = b2aBase64 b := by
  rw [List.map_map]
  refine (List.map_congr_left fun c hc => ?_).trans (List.map_id _)
  rcases mem_b2aBase64 hc with rfl | ⟨n, hn, rfl⟩
  · rfl
  · exact (isSextet_sextetChar hn).restored

theorem urlsafeB64Decode_encode (b : Bytes) : urlsafeB64Decode (urlsafeB64Encode b) = some b := by
  rw [urlsafeB64Decode, urlsafeB64Encode, map_translations, a2bBase64_b2aBase64]

theorem ascii_urlsafeB64Encode {b : Bytes} {c : Char} (h : c ∈ urlsafeB64Encode b) : c.toNat < 128 := by
  obtain ⟨x, hx, rfl⟩ := List.mem_map.1 h
  rcases mem_b2aBase64 hx with rfl | ⟨n, hn, rfl⟩
  · decide
  · exact (isSextet_sextetChar hn).ascii

theorem urlsafeB64Encode_ne_nil {b : Bytes} (h : b ≠ []) : urlsafeB64Encode b ≠ [] := by
  intro hnil
  have hdecoded := urlsafeB64Decode_encode b
  rw [hnil] at hdecoded
  exact h (Option.some.inj hdecoded).symm

/-! ### Strict decoding -/

theorem strictUtf8Unit_printable (c : Char) (h : IsPrintable c) (rest : Bytes) :
    strictUtf8Unit (UInt8.ofNat c.toNat :: rest) = some (c.toNat, rest) := by
  rw [strictUtf8Unit, utf8Unit_printable c h rest]
  exact if_neg (by have := h.2; omega)

theorem decodeUtf8_asciiBytes {text : List Char} (h : ∀ c ∈ text, IsPrintable c) :
    decodeUtf8 (asciiBytes text) = some text :=
  decodeUnits_asciiBytes strictUtf8Unit_printable h (by rw [asciiBytes, List.length_map])

end Phlo.Library
