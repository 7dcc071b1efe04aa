import Mathlib.Data.List.Basic
import Mathlib.Data.String.Basic
import Phlo.Library.KeyedSort

/-!
# JSON values and their texts

`JsonValue.dumps` is the text `json.dumps(value, sort_keys=True)` gives: ASCII only, a blank after each
comma and colon, the members of every object in the order of their keys.

* `readChar_escapeChar` — the escaped form of a character is read back, whatever follows it;
* `dumps_eq_iff` — two values have one text exactly when they agree up to the order of members.
-/

namespace Phlo.Library

/-! ### Values -/

def isNumeral (c : Char) : Bool := c.isDigit || c == '-' || c == '+' || c == '.' || c == 'e'

/-- The text of a float; a point or an exponent sets it apart from an integer. -/
structure FloatText where
  chars : List Char
  numerals : ∀ c ∈ chars, isNumeral c = true
  fraction : ∃ c ∈ chars, c = '.' ∨ c = 'e'
  deriving DecidableEq

inductive JsonValue where
  | null
  | bool (b : Bool)
  | int (n : ℤ)
  | float (text : FloatText)
  | str (s : String)
  | arr (items : List JsonValue)
  | obj (fields : List (String × JsonValue))

/-! ### Characters -/

def hexDigit (n : ℕ) : Char := Nat.digitChar (n % 16)

/-- `format(n, '04x')` of a number below 65536. -/
def hex4 (n : ℕ) : List Char :=
  [hexDigit (n / 4096), hexDigit (n / 256), hexDigit (n / 16), hexDigit n]

/-- A character inside a string; one above the basic plane becomes a pair of surrogates. -/
def escapeChar (c : Char) : List Char :=
  if c = '"' then ['\\', '"']
  else if c = '\\' then ['\\', '\\']
  else if c = '\n' then ['\\', 'n']
  else if c = '\r' then ['\\', 'r']
  else if c = '\t' then ['\\', 't']
  else if c.toNat = 8 then ['\\', 'b']
  else if c.toNat = 12 then ['\\', 'f']
  else if 32 ≤ c.toNat ∧ c.toNat ≤ 126 then [c]
  else if c.toNat < 0x10000 then '\\' :: 'u' :: hex4 c.toNat
  else
    '\\' :: 'u' :: hex4 (0xd800 + (c.toNat - 0x10000) / 1024) ++
      '\\' :: 'u' :: hex4 (0xdc00 + (c.toNat - 0x10000) % 1024)

def hexValue (c : Char) : ℕ := if c.isDigit then c.toNat - 48 else c.toNat - 87

def hex4Value (a b c d : Char) : ℕ :=
  hexValue a * 4096 + hexValue b * 256 + hexValue c * 16 + hexValue d

/-- The second half of a pair of surrogates. -/
def readLow (high : ℕ) : List Char → Option (ℕ × List Char)
  | '\\' :: 'u' :: a :: b :: c :: d :: rest =>
    some (0x10000 + (high - 0xd800) * 1024 + (hex4Value a b c d - 0xdc00), rest)
  | _ => none

/-- The code point at the front of the inside of a string. -/
def readChar : List Char → Option (ℕ × List Char)
  | '\\' :: 'u' :: a :: b :: c :: d :: rest =>
    if 0xd800 ≤ hex4Value a b c d ∧ hex4Value a b c d < 0xdc00 then
      readLow (hex4Value a b c d) rest
    else some (hex4Value a b c d, rest)
  | '\\' :: 'n' :: rest => some (10, rest)
  | '\\' :: 'r' :: rest => some (13, rest)
  | '\\' :: 't' :: rest => some (9, rest)
  | '\\' :: 'b' :: rest => some (8, rest)
  | '\\' :: 'f' :: rest => some (12, rest)
  | '\\' :: c :: rest => some (c.toNat, rest)
  | '"' :: _ => none
  | c :: rest => some (c.toNat, rest)
  | [] => none

theorem hexValue_hexDigit (n : ℕ) : hexValue (hexDigit n) = n % 16 := by
  have hall : ∀ d : Fin 16, hexValue (Nat.digitChar d) = d := by decide
  exact hall ⟨n % 16, Nat.mod_lt n (by omega)⟩

theorem hex4Value_hex4 {n : ℕ} (h : n < 0x10000) :
    hex4Value (hexDigit (n / 4096)) (hexDigit (n / 256)) (hexDigit (n / 16)) (hexDigit n) = n := by
  simp only [hex4Value, hexValue_hexDigit]
  omega

/-- No character is a surrogate, so only a pair of surrogates starts like one. -/
theorem toNat_not_surrogate (c : Char) : ¬(0xd800 ≤ c.toNat ∧ c.toNat < 0xdc00) := by
  have hv := c.valid
  simp only [UInt32.isValidChar, Nat.isValidChar] at hv
  have htoNat : c.toNat = c.val.toNat := rfl
  omega

theorem toNat_lt (c : Char) : c.toNat < 0x110000 := by
  have hv := c.valid
  simp only [UInt32.isValidChar, Nat.isValidChar] at hv
  have htoNat : c.toNat = c.val.toNat := rfl
  omega

theorem readChar_escapeChar (c : Char) (rest : List Char) :
    readChar (escapeChar c ++ rest) = some (c.toNat, rest) := by
  have hsurrogate := toNat_not_surrogate c
  have hlt := toNat_lt c
  unfold escapeChar
  split
  · next h => subst h; rfl
  split
  · next h => subst h; rfl
  split
  · next h => subst h; rfl
  split
  · next h => subst h; rfl
  split
  · next h => subst h; rfl
  split
  · next h => rw [h]; rfl
  split
  · next h => rw [h]; rfl
  split
  · next hquote hslash _ _ _ _ _ _ =>
    show readChar (c :: rest) = _
    unfold readChar
    split <;> simp_all
  split
  · next h =>
    show readChar ('\\' :: 'u' :: _ :: _ :: _ :: _ :: rest) = _
    rw [readChar, hex4Value_hex4 h, if_neg hsurrogate]
  · next h =>
    have hvalue : 0x10000 + (0xd800 + (c.toNat - 0x10000) / 1024 - 0xd800) * 1024 +
        (0xdc00 + (c.toNat - 0x10000) % 1024 - 0xdc00) = c.toNat := by omega
    show readChar ('\\' :: 'u' :: _ :: _ :: _ :: _ :: '\\' :: 'u' :: _ :: _ :: _ :: _ :: rest) = _
    rw [readChar, hex4Value_hex4 (by omega), if_pos (by omega), readLow, hex4Value_hex4 (by omega),
      hvalue]

/-! ### Strings -/

/-- The inside of a string and the closing quote. -/
def renderChars (cs : List Char) : List Char := cs.flatMap escapeChar ++ ['"']

theorem renderChars_append : ∀ {cs ds r r' : List Char},
    renderChars cs ++ r = renderChars ds ++ r' → cs = ds ∧ r = r'
  | [], [], r, r', h => ⟨rfl, List.tail_eq_of_cons_eq h⟩
  | [], d :: ds, r, r', h => by
    have hread := congrArg readChar h
    simp only [renderChars, List.flatMap_cons, List.append_assoc, readChar_escapeChar] at hread
    cases hread
  | c :: cs, [], r, r', h => by
    have hread := congrArg readChar h
    simp only [renderChars, List.flatMap_cons, List.append_assoc, readChar_escapeChar] at hread
    cases hread
  | c :: cs, d :: ds, r, r', h => by
    have hread := congrArg readChar h
    simp only [renderChars, List.flatMap_cons, List.append_assoc, readChar_escapeChar,
      Option.some.injEq, Prod.mk.injEq] at hread
    obtain ⟨hchar, hrest⟩ := hread
    have hcons : c = d := Char.toNat_inj.1 hchar
    have htail : renderChars cs ++ r = renderChars ds ++ r' := by
      simpa only [renderChars, List.append_assoc] using hrest
    obtain ⟨hcs, hr⟩ := renderChars_append htail
    exact ⟨by rw [hcons, hcs], hr⟩

/-! ### Rendering -/

namespace JsonValue

def numberText : JsonValue → List Char
  | .int n => n.repr.toList
  | .float text => text.chars
  | _ => []

mutual

/-- `json.dumps(value)`, the members of objects in the order they are in. -/
def render : JsonValue → List Char
  | .null => "null".toList
  | .bool true => "true".toList
  | .bool false => "false".toList
  | .int n => n.repr.toList
  | .float text => text.chars
  | .str s => '"' :: renderChars s.toList
  | .arr [] => ['[', ']']
  | .arr (item :: items) => '[' :: (render item ++ renderItems items)
  | .obj [] => ['\x7b', '\x7d']
  | .obj ((key, value) :: fields) =>
    '\x7b' :: '"' :: (renderChars key.toList ++ ':' :: ' ' :: (render value ++ renderFields fields))

def renderItems : List JsonValue → List Char
  | [] => [']']
  | item :: items => ',' :: ' ' :: (render item ++ renderItems items)

/-- What follows a member of an object. -/
def renderFields : List (String × JsonValue) → List Char
  | [] => ['\x7d']
  | (key, value) :: fields =>
    ',' :: ' ' :: '"' ::
      (renderChars key.toList ++ ':' :: ' ' :: (render value ++ renderFields fields))

end

/-! ### Numbers -/

theorem numeral_of_mem_repr {n : ℤ} {c : Char} (h : c ∈ n.repr.toList) : c.isDigit = true ∨ c = '-' := by
  cases n with
  | ofNat n =>
    have hdigits : c ∈ Nat.toDigits 10 n := by
      rw [← Nat.toList_repr]
      exact h
    exact .inl (Nat.isDigit_of_mem_toDigits (by omega) (by omega) hdigits)
  | negSucc n =>
    have hcons : c ∈ '-' :: Nat.toDigits 10 (n + 1) := by
      rw [← Nat.toList_repr]
      simpa [Int.repr] using h
    obtain rfl | hdigits := List.mem_cons.1 hcons
    · exact .inr rfl
    · exact .inl (Nat.isDigit_of_mem_toDigits (by omega) (by omega) hdigits)

theorem repr_ne_nil (n : ℤ) : n.repr.toList ≠ [] := by
  intro h
  cases n with
  | ofNat n =>
    have hnil : Nat.toDigits 10 n = [] := by
      rw [← Nat.toList_repr]
      exact h
    exact Nat.toDigits_ne_nil hnil
  | negSucc n => simp [Int.repr] at h

theorem repr_toList_injective {n m : ℤ} (h : n.repr.toList = m.repr.toList) : n = m := by
  have hnat : ∀ {a b : ℕ}, Nat.toDigits 10 a = Nat.toDigits 10 b → a = b := by
    intro a b hab
    rw [← Nat.ofDigitChars_ten_toDigits (n := a), hab, Nat.ofDigitChars_ten_toDigits]
  have hneg : ∀ {a b : ℕ}, Nat.toDigits 10 a ≠ '-' :: Nat.toDigits 10 b := by
    intro a b hab
    have hmem : '-' ∈ Nat.toDigits 10 a := by
      rw [hab]
      exact List.mem_cons_self
    have hdigit := Nat.isDigit_of_mem_toDigits (by omega) (by omega) hmem
    cases hdigit
  cases n with
  | ofNat n =>
    cases m with
    | ofNat m =>
      have hdigits : Nat.toDigits 10 n = Nat.toDigits 10 m := by simpa [Int.repr] using h
      rw [hnat hdigits]
    | negSucc m => exact absurd (by simpa [Int.repr] using h) hneg
  | negSucc n =>
    cases m with
    | ofNat m => exact absurd (by simpa [Int.repr] using h.symm) hneg
    | negSucc m =>
      have hdigits : Nat.toDigits 10 (n + 1) = Nat.toDigits 10 (m + 1) := by
        simpa [Int.repr] using h
      rw [Nat.succ_injective (hnat hdigits)]

theorem numberText_numerals (v : JsonValue) : ∀ c ∈ v.numberText, isNumeral c = true := by
  intro c hc
  cases v with
  | int n =>
    obtain hdigit | rfl := numeral_of_mem_repr hc
    · simp [isNumeral, hdigit]
    · rfl
  | float text => exact text.numerals c hc
  | _ => cases hc

def EndsNumber (r : List Char) : Prop := r.takeWhile isNumeral = []

theorem endsNumber_nil : EndsNumber [] := rfl

theorem endsNumber_cons {c : Char} (hc : isNumeral c = false) (r : List Char) : EndsNumber (c :: r) := by
  simp [EndsNumber, hc]

theorem endsNumber_renderItems (items : List JsonValue) (r : List Char) : EndsNumber (renderItems items ++ r) := by
  cases items with
  | nil => exact endsNumber_cons rfl _
  | cons item items => exact endsNumber_cons rfl _

theorem endsNumber_renderFields (fields : List (String × JsonValue)) (r : List Char) :
    EndsNumber (renderFields fields ++ r) := by
  cases fields with
  | nil => exact endsNumber_cons rfl _
  | cons field fields => exact endsNumber_cons rfl _

theorem takeWhile_append_of_endsNumber {l r : List Char} (hl : ∀ c ∈ l, isNumeral c = true)
    (hr : EndsNumber r) : (l ++ r).takeWhile isNumeral = l := by
  rw [List.takeWhile_append_of_pos hl, hr, List.append_nil]

theorem takeWhile_render (v : JsonValue) {r : List Char} (hr : EndsNumber r) :
    (render v ++ r).takeWhile isNumeral = v.numberText := by
  cases v with
  | int n => exact takeWhile_append_of_endsNumber (numberText_numerals (.int n)) hr
  | float text => exact takeWhile_append_of_endsNumber text.numerals hr
  | null => rfl
  | bool b => cases b <;> rfl
  | str s => rfl
  | arr items => cases items <;> rfl
  | obj fields => cases fields <;> rfl

theorem numberText_eq {v w : JsonValue} {r r' : List Char} (hr : EndsNumber r) (hr' : EndsNumber r')
    (h : render v ++ r = render w ++ r') : v.numberText = w.numberText := by
  rw [← takeWhile_render v hr, h, takeWhile_render w hr']

/-- An integer and a float are never spelled alike. -/
theorem repr_ne_float (n : ℤ) (text : FloatText) : n.repr.toList ≠ text.chars := by
  intro h
  obtain ⟨c, hc, hpoint⟩ := text.fraction
  rw [← h] at hc
  obtain hdigit | rfl := numeral_of_mem_repr hc
  · obtain rfl | rfl := hpoint
    · cases hdigit
    · cases hdigit
  · exact absurd hpoint (by decide)

theorem float_ne_nil (text : FloatText) : text.chars ≠ [] := by
  intro h
  obtain ⟨c, hc, -⟩ := text.fraction
  rw [h] at hc
  cases hc

theorem eq_of_numberText {v w : JsonValue} (h : v.numberText = w.numberText) (hv : v.numberText ≠ []) : v = w := by
  cases v with
  | int n =>
    cases w with
    | int m =>
      rw [repr_toList_injective h]
    | float text => exact absurd h (repr_ne_float n text)
    | _ => exact absurd h hv
  | float text =>
    cases w with
    | int m => exact absurd h.symm (repr_ne_float m text)
    | float text' =>
      cases text
      cases text'
      cases h
      rfl
    | _ => exact absurd h hv
  | _ => exact absurd rfl hv

/-! ### Reading a rendered value -/

theorem close_ne_render (v : JsonValue) {l r : List Char} (hl : EndsNumber l) :
    ']' :: r ≠ render v ++ l := by
  intro h
  have hnumber : [] = v.numberText := by
    rw [← takeWhile_render v hl, ← h]
    rfl
  cases v with
  | int n => exact repr_ne_nil n hnumber.symm
  | float text => exact float_ne_nil text hnumber.symm
  | null => simp [render] at h
  | bool b => cases b <;> simp [render] at h
  | str s => simp [render] at h
  | arr items => cases items <;> simp [render] at h
  | obj fields => cases fields <;> simp [render] at h

mutual

/-- A rendered value can be read off the front of a text in one way only. -/
theorem render_append : ∀ {v w : JsonValue} {r r' : List Char}, EndsNumber r → EndsNumber r' →
    render v ++ r = render w ++ r' → v = w ∧ r = r'
  | .null, w, r, r', hr, hr', h => by
    cases w with
    | null => exact ⟨rfl, List.append_cancel_left h⟩
    | bool b => cases b <;> simp [render] at h
    | int m => exact absurd (numberText_eq hr hr' h).symm (repr_ne_nil m)
    | float text => exact absurd (numberText_eq hr hr' h).symm (float_ne_nil text)
    | str s => simp [render] at h
    | arr items => cases items <;> simp [render] at h
    | obj fields => cases fields <;> simp [render] at h
  | .bool b, w, r, r', hr, hr', h => by
    cases w with
    | null => cases b <;> simp [render] at h
    | bool b' =>
      cases b <;> cases b'
      · exact ⟨rfl, List.append_cancel_left h⟩
      · simp [render] at h
      · simp [render] at h
      · exact ⟨rfl, List.append_cancel_left h⟩
    | int m => cases b <;> exact absurd (numberText_eq hr hr' h).symm (repr_ne_nil m)
    | float text => cases b <;> exact absurd (numberText_eq hr hr' h).symm (float_ne_nil text)
    | str s => cases b <;> simp [render] at h
    | arr items => cases b <;> cases items <;> simp [render] at h
    | obj fields => cases b <;> cases fields <;> simp [render] at h
  | .int n, w, r, r', hr, hr', h => by
    obtain rfl := eq_of_numberText (numberText_eq hr hr' h) (repr_ne_nil n)
    exact ⟨rfl, List.append_cancel_left h⟩
  | .float text, w, r, r', hr, hr', h => by
    obtain rfl := eq_of_numberText (numberText_eq hr hr' h) (float_ne_nil text)
    exact ⟨rfl, List.append_cancel_left h⟩
  | .str s, w, r, r', hr, hr', h => by
    cases w with
    | null => simp [render] at h
    | bool b => cases b <;> simp [render] at h
    | int m => exact absurd (numberText_eq hr hr' h).symm (repr_ne_nil m)
    | float text => exact absurd (numberText_eq hr hr' h).symm (float_ne_nil text)
    | str t =>
      obtain ⟨hchars, hrest⟩ := renderChars_append (List.tail_eq_of_cons_eq h)
      exact ⟨by rw [String.toList_inj.1 hchars], hrest⟩
    | arr items => cases items <;> simp [render] at h
    | obj fields => cases fields <;> simp [render] at h
  | .arr [], w, r, r', hr, hr', h => by
    cases w with
    | arr items' =>
      cases items' with
      | nil => exact ⟨rfl, List.append_cancel_left h⟩
      | cons item' items' =>
        have hclose : ']' :: r = render item' ++ (renderItems items' ++ r') := by simpa [render] using h
        exact absurd hclose (close_ne_render item' (endsNumber_renderItems items' r'))
    | int m => exact absurd (numberText_eq hr hr' h).symm (repr_ne_nil m)
    | float text => exact absurd (numberText_eq hr hr' h).symm (float_ne_nil text)
    | bool b => cases b <;> simp [render] at h
    | obj fields => cases fields <;> simp [render] at h
    | _ => simp [render] at h
  | .arr (item :: items), w, r, r', hr, hr', h => by
    cases w with
    | arr items' =>
      cases items' with
      | nil =>
        have hclose : ']' :: r' = render item ++ (renderItems items ++ r) := by
          simpa [render] using h.symm
        exact absurd hclose (close_ne_render item (endsNumber_renderItems items r))
      | cons item' items' =>
        have htail : render item ++ (renderItems items ++ r) = render item' ++ (renderItems items' ++ r') := by
          simpa [render] using h
        obtain ⟨rfl, hitems⟩ := render_append (endsNumber_renderItems items r)
          (endsNumber_renderItems items' r') htail
        obtain ⟨rfl, hrest⟩ := renderItems_append hitems
        exact ⟨rfl, hrest⟩
    | int m => exact absurd (numberText_eq hr hr' h).symm (repr_ne_nil m)
    | float text => exact absurd (numberText_eq hr hr' h).symm (float_ne_nil text)
    | bool b => cases b <;> simp [render] at h
    | obj fields => cases fields <;> simp [render] at h
    | _ => simp [render] at h
  | .obj [], w, r, r', hr, hr', h => by
    cases w with
    | obj fields' =>
      cases fields' with
      | nil => exact ⟨rfl, List.append_cancel_left h⟩
      | cons field' fields' => simp [render] at h
    | int m => exact absurd (numberText_eq hr hr' h).symm (repr_ne_nil m)
    | float text => exact absurd (numberText_eq hr hr' h).symm (float_ne_nil text)
    | bool b => cases b <;> simp [render] at h
    | arr items => cases items <;> simp [render] at h
    | _ => simp [render] at h
  | .obj ((key, value) :: fields), w, r, r', hr, hr', h => by
    cases w with
    | obj fields' =>
      cases fields' with
      | nil => simp [render] at h
      | cons field' fields' =>
        have hkey : renderChars key.toList ++ (':' :: ' ' :: (render value ++ (renderFields fields ++ r)))
            = renderChars field'.1.toList ++ (':' :: ' ' :: (render field'.2 ++ (renderFields fields' ++ r'))) := by
          simpa [render] using h
        obtain ⟨hchars, hvalue⟩ := renderChars_append hkey
        obtain ⟨hval, hfields⟩ := render_append (endsNumber_renderFields fields r)
          (endsNumber_renderFields fields' r')
          (List.tail_eq_of_cons_eq (List.tail_eq_of_cons_eq hvalue))
        obtain ⟨rfl, hrest⟩ := renderFields_append hfields
        exact ⟨by rw [String.toList_inj.1 hchars, hval], hrest⟩
    | int m => exact absurd (numberText_eq hr hr' h).symm (repr_ne_nil m)
    | float text => exact absurd (numberText_eq hr hr' h).symm (float_ne_nil text)
    | bool b => cases b <;> simp [render] at h
    | arr items => cases items <;> simp [render] at h
    | _ => simp [render] at h

theorem renderItems_append : ∀ {items items' : List JsonValue} {r r' : List Char},
    renderItems items ++ r = renderItems items' ++ r' → items = items' ∧ r = r'
  | [], [], r, r', h => ⟨rfl, List.append_cancel_left h⟩
  | [], item' :: items', r, r', h => by simp [renderItems] at h
  | item :: items, [], r, r', h => by simp [renderItems] at h
  | item :: items, item' :: items', r, r', h => by
    have htail : render item ++ (renderItems items ++ r) = render item' ++ (renderItems items' ++ r') := by
      simpa [renderItems] using h
    obtain ⟨rfl, hitems⟩ := render_append (endsNumber_renderItems items r)
      (endsNumber_renderItems items' r') htail
    obtain ⟨rfl, hrest⟩ := renderItems_append hitems
    exact ⟨rfl, hrest⟩

theorem renderFields_append : ∀ {fields fields' : List (String × JsonValue)} {r r' : List Char},
    renderFields fields ++ r = renderFields fields' ++ r' → fields = fields' ∧ r = r'
  | [], [], r, r', h => ⟨rfl, List.append_cancel_left h⟩
  | [], field' :: fields', r, r', h => by simp [renderFields] at h
  | field :: fields, [], r, r', h => by simp [renderFields] at h
  | (key, value) :: fields, (key', value') :: fields', r, r', h => by
    have hkey : renderChars key.toList ++ (':' :: ' ' :: (render value ++ (renderFields fields ++ r)))
        = renderChars key'.toList ++ (':' :: ' ' :: (render value' ++ (renderFields fields' ++ r'))) := by
      simpa [renderFields] using h
    obtain ⟨hchars, hvalue⟩ := renderChars_append hkey
    obtain ⟨rfl, hfields⟩ := render_append (endsNumber_renderFields fields r)
      (endsNumber_renderFields fields' r')
      (List.tail_eq_of_cons_eq (List.tail_eq_of_cons_eq hvalue))
    obtain ⟨rfl, hrest⟩ := renderFields_append hfields
    exact ⟨by rw [String.toList_inj.1 hchars], hrest⟩

end

theorem render_injective : Function.Injective render := by
  intro v w h
  have happend : render v ++ [] = render w ++ [] := by rw [h]
  exact (render_append endsNumber_nil endsNumber_nil happend).1

/-! ### Objects in the order of their keys -/

mutual

/-- `sort_keys=True` -/
def sortKeys : JsonValue → JsonValue
  | .arr items => .arr (sortItems items)
  | .obj fields => .obj (sortBy Prod.fst (sortFields fields))
  | v => v

def sortItems : List JsonValue → List JsonValue
  | [] => []
  | item :: items => sortKeys item :: sortItems items

/-- The values of the members, with the members themselves where they are. -/
def sortFields : List (String × JsonValue) → List (String × JsonValue)
  | [] => []
  | (key, value) :: fields => (key, sortKeys value) :: sortFields fields

end

/-- `json.dumps(value, sort_keys=True)` -/
def dumps (v : JsonValue) : String := String.ofList (render (sortKeys v))

theorem dumps_eq_iff (v w : JsonValue) : v.dumps = w.dumps ↔ v.sortKeys = w.sortKeys := by
  constructor
  · intro h
    have hrender : render (sortKeys v) = render (sortKeys w) := String.ofList_injective h
    exact render_injective hrender
  · intro h
    rw [dumps, h, dumps]

end JsonValue

end Phlo.Library
