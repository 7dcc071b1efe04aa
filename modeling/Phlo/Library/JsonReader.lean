import Phlo.Library.JsonFields
import Phlo.Library.OrderedDict

/-!
# Reading JSON texts

`JsonValue.loads` is `json.loads` and `JsonValue.compact` the text that `json.dumps` writes with the
separators `","` and `":"`.  Of members with one key the last one counts.  What a float literal reads as is a
parameter; half of a pair of surrogates, which is no character, is read as U+FFFD.

* `readString_renderChars` — a string is read back from its escaped form;
* `readNumber_repr` — an integer is read back from its decimal form;
* `loads_compact` — a value whose objects have distinct keys is read back from its text;
* `readable_sortKeys` — such a value stays one when its keys are sorted.
-/

namespace Phlo.Library

/-- What a float literal, or one of the constants `NaN` and `Infinity`, is read as. -/
abbrev FloatReader := List Char → FloatText

/-! ### Strings -/

def charOf (n : ℕ) : Char := if n.isValidChar then Char.ofNat n else '\uFFFD'

def hexDigitValue (c : Char) : Option ℕ :=
  if c.isDigit then some (c.toNat - 48)
  else if 'a' ≤ c ∧ c ≤ 'f' then some (c.toNat - 87)
  else if 'A' ≤ c ∧ c ≤ 'F' then some (c.toNat - 55)
  else none

def readHex4 : List Char → Option (ℕ × List Char)
  | a :: b :: c :: d :: rest => do
    let a ← hexDigitValue a
    let b ← hexDigitValue b
    let c ← hexDigitValue c
    let d ← hexDigitValue d
    some (a * 4096 + b * 256 + c * 16 + d, rest)
  | _ => none

def readSecondHalf (high : ℕ) : List Char → Option (ℕ × List Char)
  | '\\' :: 'u' :: rest => do
    let (low, after) ← readHex4 rest
    if 0xdc00 ≤ low ∧ low < 0xe000 then some (0x10000 + (high - 0xd800) * 1024 + (low - 0xdc00), after)
    else some (high, '\\' :: 'u' :: rest)
  | rest => some (high, rest)

/-- What follows a backslash. -/
def readEscape : List Char → Option (ℕ × List Char)
  | '"' :: rest => some (34, rest)
  | '\\' :: rest => some (92, rest)
  | '/' :: rest => some (47, rest)
  | 'b' :: rest => some (8, rest)
  | 'f' :: rest => some (12, rest)
  | 'n' :: rest => some (10, rest)
  | 'r' :: rest => some (13, rest)
  | 't' :: rest => some (9, rest)
  | 'u' :: rest => do
    let (high, rest) ← readHex4 rest
    if 0xd800 ≤ high ∧ high < 0xdc00 then readSecondHalf high rest else some (high, rest)
  | _ => none

def readUnit : List Char → Option (ℕ × List Char)
  | [] => none
  | '"' :: _ => none
  | '\\' :: rest => readEscape rest
  | c :: rest => if c.toNat < 32 then none else some (c.toNat, rest)

/-- The inside of a string, up to the closing quote. -/
def readString : ℕ → List Char → Option (List Char × List Char)
  | 0, _ => none
  | _ + 1, '"' :: rest => some ([], rest)
  | fuel + 1, text => do
    let (code, rest) ← readUnit text
    let (chars, rest) ← readString fuel rest
    some (charOf code :: chars, rest)

/-! ### Numbers -/

/-- The digits before the point: a leading zero stands alone. -/
def wholeDigits (text : List Char) : List Char :=
  match text.takeWhile Char.isDigit with
  | '0' :: _ => ['0']
  | digits => digits

/-- `(\.[0-9]+)?` -/
def fractionDigits : List Char → List Char
  | '.' :: rest => if rest.takeWhile Char.isDigit = [] then [] else '.' :: rest.takeWhile Char.isDigit
  | _ => []

/-- `[-+]?` -/
def exponentSign : List Char → List Char
  | '-' :: _ => ['-']
  | '+' :: _ => ['+']
  | _ => []

/-- `([eE][-+]?[0-9]+)?` -/
def exponentDigits : List Char → List Char
  | [] => []
  | c :: rest =>
    let sign := exponentSign rest
    let digits := (rest.drop sign.length).takeWhile Char.isDigit
    if (c = 'e' ∨ c = 'E') ∧ digits ≠ [] then c :: (sign ++ digits) else []

def intOfDigits (negative : Bool) (digits : List Char) : ℤ :=
  if negative then -(Nat.ofDigitChars 10 digits 0 : ℤ) else Nat.ofDigitChars 10 digits 0

/-- A number after its sign. -/
def readUnsigned (float : FloatReader) (negative : Bool) (text : List Char) : Option (JsonValue × List Char) :=
  let whole := wholeDigits text
  if whole = [] then none
  else
    let rest := text.drop whole.length
    let fraction := fractionDigits rest
    let exponent := exponentDigits (rest.drop fraction.length)
    if fraction = [] ∧ exponent = [] then some (.int (intOfDigits negative whole), rest)
    else
      let literal := (if negative then ['-'] else []) ++ whole ++ fraction ++ exponent
      some (.float (float literal), (rest.drop fraction.length).drop exponent.length)

def readNumber (float : FloatReader) : List Char → Option (JsonValue × List Char)
  | '-' :: rest => readUnsigned float true rest
  | text => readUnsigned float false text

/-! ### Values -/

/-- `WHITESPACE` -/
def isJsonBlank (c : Char) : Bool := c = ' ' || c = '\t' || c = '\n' || c = '\r'

def skipBlanks (text : List Char) : List Char := text.dropWhile isJsonBlank

def afterLiteral (literal : List Char) (value : JsonValue) (text : List Char) : Option (JsonValue × List Char) :=
  if literal.isPrefixOf text then some (value, text.drop literal.length) else none

/-- A value that is neither a string, a list nor an object. -/
def readScalar (float : FloatReader) (text : List Char) : Option (JsonValue × List Char) :=
  (readNumber float text).orElse fun _ =>
    (afterLiteral "null".toList .null text).orElse fun _ =>
    (afterLiteral "true".toList (.bool true) text).orElse fun _ =>
    (afterLiteral "false".toList (.bool false) text).orElse fun _ =>
    (["NaN", "Infinity", "-Infinity"].findSome? fun literal =>
      afterLiteral literal.toList (.float (float literal.toList)) text)

namespace JsonValue

/-- A Python dictionary of pairs: the last pair of a key counts. -/
def ofPairs (pairs : List (String × JsonValue)) : JsonValue := .obj (OrderedDict.ofList pairs).items

mutual

/-- A value at the front of a text. -/
def readValue (float : FloatReader) : ℕ → List Char → Option (JsonValue × List Char)
  | 0, _ => none
  | fuel + 1, '"' :: rest => (readString fuel rest).map fun read => (.str (String.ofList read.1), read.2)
  | fuel + 1, '[' :: rest =>
    match skipBlanks rest with
    | ']' :: rest => some (.arr [], rest)
    | rest => do
      let (item, rest) ← readValue float fuel rest
      let (items, rest) ← readItems float fuel (skipBlanks rest)
      some (.arr (item :: items), rest)
  | fuel + 1, '\x7b' :: rest =>
    match skipBlanks rest with
    | '\x7d' :: rest => some (.obj [], rest)
    | rest => do
      let (pair, rest) ← readPair float fuel rest
      let (pairs, rest) ← readPairs float fuel (skipBlanks rest)
      some (ofPairs (pair :: pairs), rest)
  | _ + 1, text => readScalar float text

def readItems (float : FloatReader) : ℕ → List Char → Option (List JsonValue × List Char)
  | 0, _ => none
  | _ + 1, ']' :: rest => some ([], rest)
  | fuel + 1, ',' :: rest => do
    let (item, rest) ← readValue float fuel (skipBlanks rest)
    let (items, rest) ← readItems float fuel (skipBlanks rest)
    some (item :: items, rest)
  | _ + 1, _ => none

def readPair (float : FloatReader) : ℕ → List Char → Option ((String × JsonValue) × List Char)
  | 0, _ => none
  | fuel + 1, '"' :: rest => do
    let (key, rest) ← readString fuel rest
    match skipBlanks rest with
    | ':' :: rest =>
      let (value, rest) ← readValue float fuel (skipBlanks rest)
      some ((String.ofList key, value), rest)
    | _ => none
  | _ + 1, _ => none

/-- The members after the first one. -/
def readPairs (float : FloatReader) : ℕ → List Char → Option (List (String × JsonValue) × List Char)
  | 0, _ => none
  | _ + 1, '\x7d' :: rest => some ([], rest)
  | fuel + 1, ',' :: rest => do
    let (pair, rest) ← readPair float fuel (skipBlanks rest)
    let (pairs, rest) ← readPairs float fuel (skipBlanks rest)
    some (pair :: pairs, rest)
  | _ + 1, _ => none

end

/-- `json.loads(text)` -/
def loads (float : FloatReader) (text : List Char) : Option JsonValue :=
  match readValue float (text.length + 1) (skipBlanks text) with
  | some (value, rest) => if skipBlanks rest = [] then some value else none
  | none => none

/-! ### Compact texts -/

mutual

/-- `json.dumps(value, separators=(",", ":"))` -/
def compact : JsonValue → List Char
  | .arr [] => ['[', ']']
  | .arr (item :: items) => '[' :: (compact item ++ compactItems items)
  | .obj [] => ['\x7b', '\x7d']
  | .obj ((key, value) :: fields) =>
    '\x7b' :: '"' :: (renderChars key.toList ++ ':' :: (compact value ++ compactFields fields))
  | v => render v

def compactItems : List JsonValue → List Char
  | [] => [']']
  | item :: items => ',' :: (compact item ++ compactItems items)

def compactFields : List (String × JsonValue) → List Char
  | [] => ['\x7d']
  | (key, value) :: fields =>
    ',' :: '"' :: (renderChars key.toList ++ ':' :: (compact value ++ compactFields fields))

end

end JsonValue

/-! ### Strings are read back -/

theorem charOf_toNat (c : Char) : charOf c.toNat = c := by
  have hvalid : c.toNat.isValidChar := c.valid
  rw [charOf, if_pos hvalid, Char.ofNat_toNat]

theorem hexDigitValue_hexDigit (n : ℕ) : hexDigitValue (hexDigit n) = some (n % 16) := by
  have hall : ∀ d : Fin 16, hexDigitValue (Nat.digitChar d) = some d.val := by decide
  exact hall ⟨n % 16, Nat.mod_lt n (by omega)⟩

theorem readHex4_hex4 {n : ℕ} (h : n < 0x10000) (rest : List Char) : readHex4 (hex4 n ++ rest) = some (n, rest) := by
  show (do
    let a ← hexDigitValue (hexDigit (n / 4096))
    let b ← hexDigitValue (hexDigit (n / 256))
    let c ← hexDigitValue (hexDigit (n / 16))
    let d ← hexDigitValue (hexDigit n)
    some (a * 4096 + b * 256 + c * 16 + d, rest)) = some (n, rest)
  simp only [hexDigitValue_hexDigit, Option.bind_eq_bind, Option.bind_some, Option.some.injEq, Prod.mk.injEq, and_true]
  omega

theorem readEscape_hex4 {n : ℕ} (h : n < 0x10000) (rest : List Char) : readEscape ('u' :: (hex4 n ++ rest)) =
      if 0xd800 ≤ n ∧ n < 0xdc00 then readSecondHalf n rest else some (n, rest) := by
  rw [readEscape, readHex4_hex4 h]
  rfl

theorem readSecondHalf_hex4 (high : ℕ) {low : ℕ} (h : 0xdc00 ≤ low ∧ low < 0xe000) (rest : List Char) :
    readSecondHalf high ('\\' :: 'u' :: (hex4 low ++ rest)) =
      some (0x10000 + (high - 0xd800) * 1024 + (low - 0xdc00), rest) := by
  rw [readSecondHalf, readHex4_hex4 (by omega)]
  simp only [Option.bind_eq_bind, Option.bind_some]
  rw [if_pos h]

theorem readUnit_escapeChar (c : Char) (rest : List Char) :
    readUnit (escapeChar c ++ rest) = some (c.toNat, rest) := by
  have hsurrogate := toNat_not_surrogate c
  have hlt := toNat_lt c
  unfold escapeChar
  split
  · next h => subst h; rfl
  split
  · next h => subst h; rfl
  split
  · next h => subst h; rfl
  split
  · next h => subst h; rfl
  split
  · next h => subst h; rfl
  split
  · next h => rw [h]; rfl
  split
  · next h => rw [h]; rfl
  split
  · next hquote hslash _ _ _ _ _ hprint =>
    have hcontrol : ¬c.toNat < 32 := by omega
    show readUnit (c :: rest) = _
    unfold readUnit
    split <;> simp_all
  split
  · next h =>
    rw [List.cons_append, List.cons_append, readUnit, readEscape_hex4 h, if_neg hsurrogate]
  · next h =>
    have hhigh : 0xd800 ≤ 0xd800 + (c.toNat - 0x10000) / 1024 ∧ 0xd800 + (c.toNat - 0x10000) / 1024 < 0xdc00 := by
      omega
    have hlow : 0xdc00 ≤ 0xdc00 + (c.toNat - 0x10000) % 1024 ∧ 0xdc00 + (c.toNat - 0x10000) % 1024 < 0xe000 := by
      omega
    have hvalue : 0x10000 + (0xd800 + (c.toNat - 0x10000) / 1024 - 0xd800) * 1024 +
        (0xdc00 + (c.toNat - 0x10000) % 1024 - 0xdc00) = c.toNat := by omega
    rw [List.append_assoc, List.cons_append, List.cons_append, List.cons_append, List.cons_append, readUnit,
      readEscape_hex4 (by omega), if_pos hhigh, readSecondHalf_hex4 _ hlow, hvalue]

theorem escapeChar_eq_cons (c : Char) : ∃ x t, escapeChar c = x :: t ∧ x ≠ '"' := by
  unfold escapeChar
  split
  · exact ⟨_, _, rfl, by decide⟩
  next hquote =>
    split_ifs <;> first | exact ⟨_, _, rfl, by decide⟩ | exact ⟨_, _, rfl, hquote⟩

theorem readString_step {x : Char} (hx : x ≠ '"') (fuel : ℕ) (t : List Char) :
    readString (fuel + 1) (x :: t) = (readUnit (x :: t)).bind fun unit =>
      (readString fuel unit.2).map fun read => (charOf unit.1 :: read.1, read.2) := by
  rw [readString]
  · cases readUnit (x :: t) with
    | none => rfl
    | some unit => cases hread : readString fuel unit.2 <;> simp [hread]
  · intro rest h
    exact hx (List.cons.inj h).1

variable {fuel : ℕ} {r : List Char}

theorem readString_renderChars {cs : List Char} (h : (renderChars cs).length ≤ fuel) (rest : List Char) :
    readString fuel (renderChars cs ++ rest) = some (cs, rest) := by
  induction cs generalizing fuel with
  | nil =>
    cases fuel with
    | zero => exact absurd h (by decide)
    | succ fuel => rfl
  | cons c cs ih =>
    have hsplit : renderChars (c :: cs) = escapeChar c ++ renderChars cs := by
      rw [renderChars, renderChars, List.flatMap_cons, List.append_assoc]
    obtain ⟨x, t, hescape, hx⟩ := escapeChar_eq_cons c
    rw [hsplit, List.length_append] at h
    cases fuel with
    | zero =>
      rw [hescape, List.length_cons] at h
      omega
    | succ fuel =>
      have hunit := readUnit_escapeChar c (renderChars cs ++ rest)
      have hlen : (renderChars cs).length ≤ fuel := by
        rw [hescape, List.length_cons] at h
        omega
      rw [hescape, List.cons_append] at hunit
      rw [hsplit, hescape, List.append_assoc, List.cons_append, readString_step hx, hunit, Option.bind_some, ih hlen,
        charOf_toNat]
      rfl

/-! ### Numbers are read back -/

/-- Nothing, or what can follow a value inside a list or an object. -/
def Delimited (r : List Char) : Prop := ∀ c ∈ r.head?, c = ',' ∨ c = ']' ∨ c = '\x7d'

theorem delimited_nil : Delimited [] := fun _ h => (by cases h)

theorem takeWhile_digits_append {l : List Char} (hl : ∀ c ∈ l, c.isDigit = true) (hr : Delimited r) :
    (l ++ r).takeWhile Char.isDigit = l := by
  have hrest : r.takeWhile Char.isDigit = [] := by
    cases r with
    | nil => rfl
    | cons c r =>
      have hc : c.isDigit = false := by
        rcases hr c rfl with rfl | rfl | rfl <;> rfl
      rw [List.takeWhile_cons, hc]
      rfl
  rw [List.takeWhile_append_of_pos hl, hrest, List.append_nil]

/-- A number above zero has no leading zero. -/
theorem toDigits_head {n : ℕ} (h : 0 < n) : ∀ t, Nat.toDigits 10 n ≠ '0' :: t := by
  induction n using Nat.strong_induction_on with
  | _ n ih =>
    intro t ht
    by_cases hsmall : n < 10
    · rw [Nat.toDigits_of_lt_base hsmall] at ht
      have hall : ∀ d < 10, 0 < d → Nat.digitChar d ≠ '0' := by decide
      exact hall n hsmall h (List.cons.inj ht).1
    · rw [Nat.toDigits_of_base_le (by decide) (by omega)] at ht
      cases hfront : Nat.toDigits 10 (n / 10) with
      | nil => exact Nat.toDigits_ne_nil hfront
      | cons d ds =>
        rw [hfront, List.cons_append] at ht
        obtain ⟨rfl, -⟩ := List.cons.inj ht
        exact ih (n / 10) (by omega) (by omega) ds hfront

theorem wholeDigits_toDigits (n : ℕ) (hr : Delimited r) :
    wholeDigits (Nat.toDigits 10 n ++ r) = Nat.toDigits 10 n := by
  unfold wholeDigits
  rw [takeWhile_digits_append (fun c hc => Nat.isDigit_of_mem_toDigits (by decide) (by decide) hc) hr]
  split
  · next t ht =>
    rcases Nat.eq_zero_or_pos n with rfl | hpos
    · rfl
    · exact absurd ht (toDigits_head hpos t)
  · rfl

theorem readUnsigned_toDigits (float : FloatReader) (negative : Bool) (n : ℕ) (hr : Delimited r) :
    readUnsigned float negative (Nat.toDigits 10 n ++ r) = some (.int (if negative then -n else n), r) := by
  have hfraction : fractionDigits r = [] := by
    cases r with
    | nil => rfl
    | cons c r => rcases hr c rfl with rfl | rfl | rfl <;> rfl
  have hexponent : exponentDigits r = [] := by
    cases r with
    | nil => rfl
    | cons c r => rcases hr c rfl with rfl | rfl | rfl <;> rfl
  unfold readUnsigned
  dsimp only
  rw [wholeDigits_toDigits n hr, List.drop_left, hfraction, List.length_nil, List.drop_zero, hexponent,
    if_neg Nat.toDigits_ne_nil, if_pos ⟨rfl, rfl⟩, intOfDigits, Nat.ofDigitChars_ten_toDigits]

theorem readNumber_repr (float : FloatReader) (n : ℤ) (hr : Delimited r) :
    readNumber float (n.repr.toList ++ r) = some (.int n, r) := by
  cases n with
  | ofNat n =>
    have hrepr : (Int.ofNat n).repr.toList = Nat.toDigits 10 n := Nat.toList_repr
    rw [hrepr]
    have hread := readUnsigned_toDigits float false n hr
    cases hdigits : Nat.toDigits 10 n with
    | nil => exact absurd hdigits Nat.toDigits_ne_nil
    | cons d ds =>
      have hd : d ≠ '-' := by
        rintro rfl
        have hdigit := Nat.isDigit_of_mem_toDigits (b := 10) (n := n) (c := '-') (by decide) (by decide)
          (hdigits ▸ List.mem_cons_self)
        cases hdigit
      rw [hdigits] at hread
      rw [List.cons_append] at hread ⊢
      rw [readNumber]
      · exact hread
      · intro rest h
        exact hd (List.cons.inj h).1
  | negSucc n =>
    have hrepr : (Int.negSucc n).repr.toList = '-' :: Nat.toDigits 10 (n + 1) := by
      simp [Int.repr]
    rw [hrepr]
    exact readUnsigned_toDigits float true (n + 1) hr

/-! ### Values are read back -/

namespace JsonValue

def ReadsBack (float : FloatReader) (text : FloatText) : Prop :=
  ∀ r, Delimited r → readNumber float (text.chars ++ r) = some (.float text, r)

mutual

def Readable (float : FloatReader) : JsonValue → Prop
  | .float text => ReadsBack float text
  | .arr items => ReadableItems float items
  | .obj fields => (fields.map Prod.fst).Nodup ∧ ReadableFields float fields
  | _ => True

def ReadableItems (float : FloatReader) : List JsonValue → Prop
  | [] => True
  | item :: items => Readable float item ∧ ReadableItems float items

def ReadableFields (float : FloatReader) : List (String × JsonValue) → Prop
  | [] => True
  | (_, value) :: fields => Readable float value ∧ ReadableFields float fields

end

variable {pairs : List (String × JsonValue)}

theorem ofPairs_of_nodup (h : (pairs.map Prod.fst).Nodup) : ofPairs pairs = .obj pairs := by
  have hitems := OrderedDict.ofList_items (⟨pairs, h⟩ : OrderedDict String JsonValue)
  show JsonValue.obj (OrderedDict.ofList pairs).items = _
  rw [show OrderedDict.ofList pairs = ⟨pairs, h⟩ from hitems]

/-- A text starts with no blank and no closing bracket. -/
theorem compact_eq_cons (v : JsonValue) : ∃ c t, compact v = c :: t ∧ isJsonBlank c = false ∧ c ≠ ']' := by
  have hnumeral : ∀ c, isNumeral c = true → isJsonBlank c = false ∧ c ≠ ']' := by
    intro c hc
    constructor
    · by_contra hblank
      simp only [isJsonBlank, Bool.not_eq_false, Bool.or_eq_true, decide_eq_true_eq] at hblank
      rcases hblank with ((rfl | rfl) | rfl) | rfl <;> exact absurd hc (by decide)
    · rintro rfl
      exact absurd hc (by decide)
  cases v with
  | null => exact ⟨_, _, rfl, by decide, by decide⟩
  | bool b => cases b <;> exact ⟨_, _, rfl, by decide, by decide⟩
  | int n =>
    show ∃ c t, n.repr.toList = c :: t ∧ _
    cases htext : n.repr.toList with
    | nil => exact absurd htext (repr_ne_nil n)
    | cons c t => exact ⟨c, t, rfl, hnumeral c
      (numberText_numerals (.int n) c (show c ∈ n.repr.toList from htext ▸ List.mem_cons_self))⟩
  | float text =>
    show ∃ c t, text.chars = c :: t ∧ _
    cases htext : text.chars with
    | nil => exact absurd htext (float_ne_nil text)
    | cons c t => exact ⟨c, t, rfl, hnumeral c (text.numerals c (htext ▸ List.mem_cons_self))⟩
  | str s => exact ⟨_, _, rfl, by decide, by decide⟩
  | arr items => cases items <;> exact ⟨_, _, rfl, by decide, by decide⟩
  | obj fields => cases fields <;> exact ⟨_, _, rfl, by decide, by decide⟩

theorem skipBlanks_compact (v : JsonValue) (r : List Char) : skipBlanks (compact v ++ r) = compact v ++ r := by
  obtain ⟨c, t, htext, hblank, -⟩ := compact_eq_cons v
  rw [htext, List.cons_append, skipBlanks, List.dropWhile_cons, hblank]
  rfl

theorem length_compact_pos (v : JsonValue) : 0 < (compact v).length := by
  obtain ⟨c, t, htext, -, -⟩ := compact_eq_cons v
  rw [htext, List.length_cons]
  exact Nat.succ_pos _

theorem delimited_compactItems (items : List JsonValue) (r : List Char) : Delimited (compactItems items ++ r) := by
  cases items with
  | nil => intro c hc; exact .inr (.inl (Option.some.inj hc).symm)
  | cons item items => intro c hc; exact .inl (Option.some.inj hc).symm

theorem delimited_compactFields (fields : List (String × JsonValue)) (r : List Char) :
    Delimited (compactFields fields ++ r) := by
  cases fields with
  | nil => intro c hc; exact .inr (.inr (Option.some.inj hc).symm)
  | cons field fields => intro c hc; exact .inl (Option.some.inj hc).symm

theorem skipBlanks_delimited (h : Delimited r) : skipBlanks r = r := by
  cases r with
  | nil => rfl
  | cons c r =>
    have hblank : isJsonBlank c = false := by
      rcases h c rfl with rfl | rfl | rfl <;> rfl
    rw [skipBlanks, List.dropWhile_cons, hblank]
    rfl

section

variable {float : FloatReader}

variable {v : JsonValue}

theorem readValue_arr {items : List JsonValue} {t r' : List Char}
    (hv : readValue float fuel (compact v ++ t) = some (v, r)) (hr : Delimited r)
    (hitems : readItems float fuel r = some (items, r')) :
    readValue float (fuel + 1) ('[' :: (compact v ++ t)) = some (.arr (v :: items), r') := by
  obtain ⟨c, rest, htext, -, hclose⟩ := compact_eq_cons v
  rw [readValue, skipBlanks_compact]
  split
  · next after h =>
    rw [htext, List.cons_append] at h
    exact absurd (List.cons.inj h).1 hclose
  · rw [hv]
    show (do
      let read ← readItems float fuel (skipBlanks r)
      some (JsonValue.arr (v :: read.1), read.2)) = _
    rw [skipBlanks_delimited hr, hitems]
    rfl

theorem readValue_obj {pair : String × JsonValue} {t r' : List Char}
    (hpair : readPair float fuel ('"' :: t) = some (pair, r)) (hr : Delimited r)
    (hpairs : readPairs float fuel r = some (pairs, r')) :
    readValue float (fuel + 1) ('\x7b' :: '"' :: t) = some (ofPairs (pair :: pairs), r') := by
  have hskip : skipBlanks ('"' :: t) = '"' :: t := rfl
  rw [readValue, hskip]
  show (do
    let first ← readPair float fuel ('"' :: t)
    let read ← readPairs float fuel (skipBlanks first.2)
    some (ofPairs (first.1 :: read.1), read.2)) = _
  rw [hpair]
  show (do
    let read ← readPairs float fuel (skipBlanks r)
    some (ofPairs (pair :: read.1), read.2)) = _
  rw [skipBlanks_delimited hr, hpairs]
  rfl

theorem readPair_compact {key : String} {t : List Char} (hkey : (renderChars key.toList).length ≤ fuel)
    (hv : readValue float fuel (compact v ++ t) = some (v, r)) :
    readPair float (fuel + 1) ('"' :: (renderChars key.toList ++ ':' :: (compact v ++ t))) = some ((key, v), r) := by
  have hskip : skipBlanks (':' :: (compact v ++ t)) = ':' :: (compact v ++ t) := rfl
  rw [readPair, readString_renderChars hkey]
  simp only [Option.bind_eq_bind, Option.bind_some, hskip, skipBlanks_compact, hv, String.ofList_toList]

theorem readItems_cons {items : List JsonValue} {t r' : List Char}
    (hv : readValue float fuel (compact v ++ t) = some (v, r)) (hr : Delimited r)
    (hitems : readItems float fuel r = some (items, r')) :
    readItems float (fuel + 1) (',' :: (compact v ++ t)) = some (v :: items, r') := by
  rw [readItems, skipBlanks_compact, hv]
  simp only [Option.bind_eq_bind, Option.bind_some, skipBlanks_delimited hr, hitems]

theorem readPairs_cons {pair : String × JsonValue} {t r' : List Char}
    (hpair : readPair float fuel ('"' :: t) = some (pair, r)) (hr : Delimited r)
    (hpairs : readPairs float fuel r = some (pairs, r')) :
    readPairs float (fuel + 1) (',' :: '"' :: t) = some (pair :: pairs, r') := by
  have hskip : skipBlanks ('"' :: t) = '"' :: t := rfl
  rw [readPairs, hskip, hpair]
  simp only [Option.bind_eq_bind, Option.bind_some, skipBlanks_delimited hr, hpairs]

theorem readValue_number {text : List Char} (htext : text ≠ []) (hnumerals : ∀ c ∈ text, isNumeral c = true)
    (hread : readNumber float (text ++ r) = some (v, r)) : readValue float (fuel + 1) (text ++ r) = some (v, r) := by
  cases text with
  | nil => exact absurd rfl htext
  | cons c text =>
    have hc := hnumerals c List.mem_cons_self
    have hne : ∀ x : Char, isNumeral x = false → ∀ rest, c :: text ++ r = x :: rest → False := by
      intro x hx rest h
      rw [(List.cons.inj h).1, hx] at hc
      cases hc
    rw [readValue]
    · rw [readScalar, hread]
      rfl
    · exact fun rest h => hne '"' (by decide) rest h
    · exact fun rest h => hne '[' (by decide) rest h
    · exact fun rest h => hne '\x7b' (by decide) rest h

mutual

theorem readValue_compact : ∀ {v : JsonValue} {fuel : ℕ} {r : List Char}, Readable float v →
    (compact v).length ≤ fuel → Delimited r → readValue float fuel (compact v ++ r) = some (v, r)
  | v, 0, r, _, hlen, _ => by
    have hpos := length_compact_pos v
    omega
  | .null, fuel + 1, r, _, _, _ => rfl
  | .bool true, fuel + 1, r, _, _, _ => rfl
  | .bool false, fuel + 1, r, _, _, _ => rfl
  | .int n, fuel + 1, r, _, _, hr =>
    readValue_number (repr_ne_nil n) (numberText_numerals (.int n)) (readNumber_repr float n hr)
  | .float text, fuel + 1, r, hv, _, hr => readValue_number (float_ne_nil text) text.numerals (hv r hr)
  | .str s, fuel + 1, r, _, hlen, _ => by
    have hchars : (renderChars s.toList).length ≤ fuel := Nat.le_of_succ_le_succ hlen
    show (readString fuel (renderChars s.toList ++ r)).map _ = _
    rw [readString_renderChars hchars, Option.map_some, String.ofList_toList]
  | .arr [], fuel + 1, r, _, _, _ => rfl
  | .arr (item :: items), fuel + 1, r, hv, hlen, hr => by
    have hsum : (compact item).length + (compactItems items).length ≤ fuel := by
      have hlength : (compact (.arr (item :: items))).length = 1 + ((compact item).length + (compactItems items).length) := by
        rw [compact, List.length_cons, List.length_append, Nat.add_comm]
      omega
    rw [compact, List.cons_append, List.append_assoc]
    exact readValue_arr (readValue_compact hv.1 (by omega) (delimited_compactItems items r))
      (delimited_compactItems items r) (readItems_compact hv.2 (by omega))
  | .obj [], fuel + 1, r, _, _, _ => rfl
  | .obj ((key, value) :: fields), 1, r, _, hlen, _ => by
    have hlength : 2 ≤ (compact (.obj ((key, value) :: fields))).length := by
      rw [compact, List.length_cons, List.length_cons]
      omega
    omega
  | .obj ((key, value) :: fields), fuel + 2, r, hv, hlen, hr => by
    have hsum : (renderChars key.toList).length + (compact value).length + (compactFields fields).length ≤ fuel := by
      have hlength : (compact (.obj ((key, value) :: fields))).length =
          3 + ((renderChars key.toList).length + (compact value).length + (compactFields fields).length) := by
        simp only [compact, List.length_cons, List.length_append]
        omega
      omega
    rw [compact, ← ofPairs_of_nodup hv.1]
    simp only [List.cons_append, List.append_assoc]
    exact readValue_obj (readPair_compact (by omega)
      (readValue_compact hv.2.1 (by omega) (delimited_compactFields fields r)))
      (delimited_compactFields fields r) (readPairs_compact hv.2.2 (by omega))

theorem readItems_compact : ∀ {items : List JsonValue} {fuel : ℕ} {r : List Char}, ReadableItems float items →
    (compactItems items).length ≤ fuel → readItems float fuel (compactItems items ++ r) = some (items, r)
  | items, 0, r, _, hlen => by
    cases items <;> cases hlen
  | [], fuel + 1, r, _, _ => rfl
  | item :: items, fuel + 1, r, hv, hlen => by
    have hsum : (compact item).length + (compactItems items).length ≤ fuel := by
      have hlength : (compactItems (item :: items)).length = 1 + ((compact item).length + (compactItems items).length) := by
        rw [compactItems, List.length_cons, List.length_append, Nat.add_comm]
      omega
    rw [compactItems, List.cons_append, List.append_assoc]
    exact readItems_cons (readValue_compact hv.1 (by omega) (delimited_compactItems items r))
      (delimited_compactItems items r) (readItems_compact hv.2 (by omega))

theorem readPairs_compact : ∀ {fields : List (String × JsonValue)} {fuel : ℕ} {r : List Char},
    ReadableFields float fields → (compactFields fields).length ≤ fuel →
    readPairs float fuel (compactFields fields ++ r) = some (fields, r)
  | fields, 0, r, _, hlen => by
    cases fields <;> cases hlen
  | [], fuel + 1, r, _, _ => rfl
  | (key, value) :: fields, 1, r, _, hlen => by
    have hlength : 2 ≤ (compactFields ((key, value) :: fields)).length := by
      rw [compactFields, List.length_cons, List.length_cons]
      omega
    omega
  | (key, value) :: fields, fuel + 2, r, hv, hlen => by
    have hsum : (renderChars key.toList).length + (compact value).length + (compactFields fields).length ≤ fuel := by
      have hlength : (compactFields ((key, value) :: fields)).length =
          3 + ((renderChars key.toList).length + (compact value).length + (compactFields fields).length) := by
        simp only [compactFields, List.length_cons, List.length_append]
        omega
      omega
    rw [compactFields]
    simp only [List.cons_append, List.append_assoc]
    exact readPairs_cons (readPair_compact (by omega)
      (readValue_compact hv.1 (by omega) (delimited_compactFields fields r)))
      (delimited_compactFields fields r) (readPairs_compact hv.2 (by omega))

end

theorem loads_compact (h : Readable float v) : loads float (compact v) = some v := by
  have hskip := skipBlanks_compact v []
  have hread := readValue_compact h (Nat.le_succ _) delimited_nil
  rw [List.append_nil] at hskip hread
  rw [loads, hskip, hread]
  rfl

/-! ### Sorted keys -/

theorem readableFields_iff {fields : List (String × JsonValue)} :
    ReadableFields float fields ↔ ∀ field ∈ fields, Readable float field.2 := by
  induction fields with
  | nil => exact ⟨fun _ _ h => (by cases h), fun _ => trivial⟩
  | cons field fields ih =>
    obtain ⟨key, value⟩ := field
    rw [List.forall_mem_cons, ← ih]
    exact Iff.rfl

mutual

theorem readable_sortKeys : ∀ {v : JsonValue}, Readable float v → Readable float (sortKeys v)
  | .null, _ => trivial
  | .bool _, _ => trivial
  | .int _, _ => trivial
  | .float _, h => h
  | .str _, _ => trivial
  | .arr _, h => readableItems_sortItems h
  | .obj fields, h => by
    have hperm := sortBy_perm Prod.fst (sortFields fields)
    have hkeys : ((sortFields fields).map Prod.fst).Nodup := by
      rw [sortFields_eq, List.map_map]
      exact h.1
    refine ⟨(hperm.map Prod.fst).nodup_iff.2 hkeys, readableFields_iff.2 fun field hfield => ?_⟩
    exact readableFields_iff.1 (readableFields_sortFields h.2) field (hperm.mem_iff.1 hfield)

theorem readableItems_sortItems :
    ∀ {items : List JsonValue}, ReadableItems float items → ReadableItems float (sortItems items)
  | [], _ => trivial
  | _ :: _, h => ⟨readable_sortKeys h.1, readableItems_sortItems h.2⟩

theorem readableFields_sortFields : ∀ {fields : List (String × JsonValue)},
    ReadableFields float fields → ReadableFields float (sortFields fields)
  | [], _ => trivial
  | (_, _) :: _, h => ⟨readable_sortKeys h.1, readableFields_sortFields h.2⟩

end

end

end JsonValue

end Phlo.Library
