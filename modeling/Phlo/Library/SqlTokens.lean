import Mathlib
import Phlo.Library.LengthPrefix

/-!
# The tokens of SQL text

The lexical rules of a query engine: words, quoted identifiers and string literals whose quotes are doubled,
decimal and scientific numbers, comments and operators.  A text with an open quote or comment has no tokens.

* `tokens` — the tokens of a text;
* `Lexes` — a text whose tokens come first, whatever follows it behind a blank;
* `lexes_quoted`, `lexes_word`, `lexes_number`, `lexes_comparison` — the texts of single tokens;
* `Lexes.blank`, `lexes_intercalate` — texts with blanks or words between them.
-/

namespace Phlo.Library.Sql

inductive Token where
  | word (letters : List Char)
  | identifier (name : List Char)
  | string (content : List Char)
  | number (text : List Char)
  | operator (symbols : List Char)
  deriving DecidableEq

/-! ### The lexer -/

def isBlank (c : Char) : Bool := c = ' ' || c = '\t' || c = '\r' || c = '\n'

def isWordChar (c : Char) : Bool := c.isAlphanum || c = '_'

def readQuoted (q : Char) : List Char → Option (List Char × List Char)
  | [] => none
  | [c] => if c = q then some ([], []) else none
  | c :: d :: cs =>
    if c = q then
      if d = q then (readQuoted q cs).map fun read => (q :: read.1, read.2) else some ([], d :: cs)
    else (readQuoted q (d :: cs)).map fun read => (c :: read.1, read.2)

/-- The text behind the end of a block comment. -/
def afterComment : List Char → Option (List Char)
  | [] => none
  | c :: cs => if c = '*' ∧ cs.head? = some '/' then some cs.tail else afterComment cs

def readFraction : List Char → List Char × List Char
  | '.' :: cs => ('.' :: cs.takeWhile Char.isDigit, cs.dropWhile Char.isDigit)
  | cs => ([], cs)

def readSign : List Char → List Char × List Char
  | c :: cs => if c = '+' ∨ c = '-' then ([c], cs) else ([], c :: cs)
  | [] => ([], [])

def readExponent : List Char → List Char × List Char
  | c :: cs =>
    let (sign, digits) := readSign cs
    if (c = 'e' ∨ c = 'E') ∧ digits.head?.any Char.isDigit then
      (c :: sign ++ digits.takeWhile Char.isDigit, digits.dropWhile Char.isDigit)
    else ([], c :: cs)
  | [] => ([], [])

def readNumber (cs : List Char) : List Char × List Char :=
  let (fraction, rest) := readFraction (cs.dropWhile Char.isDigit)
  let (exponent, rest) := readExponent rest
  (cs.takeWhile Char.isDigit ++ fraction ++ exponent, rest)

def longOperators : List (List Char) := ["<>".toList, "<=".toList, ">=".toList, "!=".toList, "||".toList, "->".toList]

/-- What a text starts with, if it is no blank and no comment, and the text behind it. -/
def nextToken (c : Char) (cs : List Char) : Option (Option Token × List Char) :=
  if isBlank c then some (none, cs)
  else if c = '-' ∧ cs.head? = some '-' then some (none, cs.dropWhile fun d => d ≠ '\r' ∧ d ≠ '\n')
  else if c = '/' ∧ cs.head? = some '*' then (afterComment cs.tail).map fun rest => (none, rest)
  else if c = '"' then (readQuoted c cs).map fun read => (some (.identifier read.1), read.2)
  else if c = '\'' then (readQuoted c cs).map fun read => (some (.string read.1), read.2)
  else if c.isDigit then
    let (text, rest) := readNumber (c :: cs)
    some (some (.number text), rest)
  else if isWordChar c then
    some (some (.word (c :: cs.takeWhile isWordChar)), cs.dropWhile isWordChar)
  else if (c :: cs.take 1) ∈ longOperators then some (some (.operator (c :: cs.take 1)), cs.drop 1)
  else some (some (.operator [c]), cs)

def tokens : List Char → Option (List Token)
  | [] => some []
  | c :: cs =>
    match nextToken c cs with
    | none => none
    | some (token, rest) =>
      if rest.length < cs.length + 1 then (tokens rest).map (token.toList ++ ·) else none
termination_by text => text.length

variable {rest : List Char}

theorem tokens_cons {c : Char} {cs : List Char} {token : Option Token} (h : nextToken c cs = some (token, rest))
    (hrest : rest.length ≤ cs.length) : tokens (c :: cs) = (tokens rest).map (token.toList ++ ·) := by
  rw [tokens, h]
  exact if_pos (Nat.lt_succ_of_le hrest)

/-! ### Texts that start with tokens -/

/-- The text ends or goes on with a blank. -/
def Ends (rest : List Char) : Prop := ∀ c ∈ rest.head?, c = ' '

def Lexes (text : List Char) (ts : List Token) : Prop :=
  ∀ rest, Ends rest → tokens (text ++ rest) = (tokens rest).map (ts ++ ·)

theorem Lexes.tokens_eq {text : List Char} {ts : List Token} (h : Lexes text ts) : tokens text = some ts := by
  have hnil : tokens [] = some [] := by rw [tokens]
  have hend := h [] fun c hc => (by cases hc)
  rwa [List.append_nil, hnil, Option.map_some, List.append_nil] at hend

theorem tokens_blank (cs : List Char) : tokens (' ' :: cs) = tokens cs := by
  rw [tokens_cons (rfl : nextToken ' ' cs = some (none, cs)) le_rfl]
  exact Option.map_id_apply

theorem Lexes.blank {a b : List Char} {s t : List Token} (ha : Lexes a s) (hb : Lexes b t) :
    Lexes (a ++ ' ' :: b) (s ++ t) := by
  intro rest hrest
  have hends : Ends (' ' :: (b ++ rest)) := fun c hc => (Option.some.inj hc).symm
  rw [List.append_assoc, List.cons_append, ha _ hends, tokens_blank, hb rest hrest, Option.map_map]
  congr 1
  funext more
  exact (List.append_assoc s t more).symm

theorem lexes_intercalate {word : List Char} {w : Token} (hw : Lexes word [w]) {texts : List (List Char)}
    {tss : List (List Token)} (h : List.Forall₂ Lexes texts tss) (hne : texts ≠ []) :
    Lexes ((' ' :: word ++ [' ']).intercalate texts) ([w].intercalate tss) := by
  induction h with
  | nil => exact absurd rfl hne
  | @cons text ts texts tss hfirst hrest ih =>
    cases hrest with
    | nil =>
      rw [List.intercalate_singleton, List.intercalate_singleton]
      exact hfirst
    | cons hsecond hrest =>
      rw [List.intercalate_cons_cons, List.intercalate_cons_cons]
      have hall := hfirst.blank (hw.blank (ih (List.cons_ne_nil _ _)))
      simpa [List.append_assoc] using hall

def quoted (q : Char) (content : List Char) : List Char :=
  q :: (content.flatMap fun c => if c = q then [q, q] else [c]) ++ [q]

theorem readQuoted_quoted (q : Char) (content : List Char) (h : rest.head? ≠ some q) :
    readQuoted q ((content.flatMap fun c => if c = q then [q, q] else [c]) ++ q :: rest) = some (content, rest) := by
  induction content with
  | nil =>
    match rest with
    | [] => exact if_pos rfl
    | d :: rest =>
      show (if q = q then if d = q then _ else _ else _) = _
      rw [if_pos rfl, if_neg fun hd => h (congrArg some hd)]
  | cons c content ih =>
    rw [List.flatMap_cons]
    by_cases hc : c = q
    · rw [if_pos hc]
      rw [List.append_assoc, List.cons_append, List.cons_append, List.nil_append, readQuoted, if_pos rfl,
        if_pos rfl, ih, hc]
      rfl
    · rw [if_neg hc, List.append_assoc, List.singleton_append]
      generalize (content.flatMap fun c => if c = q then [q, q] else [c]) ++ q :: rest = text at ih
      match text with
      | [] => cases ih
      | d :: text =>
        rw [readQuoted, if_neg hc, ih]
        rfl

def quotedToken (q : Char) (content : List Char) : Token := if q = '"' then .identifier content else .string content

theorem lexes_quoted {q : Char} (hq : q = '"' ∨ q = '\'') (content : List Char) :
    Lexes (quoted q content) [quotedToken q content] := by
  intro rest hrest
  have h : rest.head? ≠ some q := fun hhead => by
    have hspace := hrest q hhead
    rcases hq with rfl | rfl <;> cases hspace
  have hread := readQuoted_quoted q content h
  have happend : quoted q content ++ rest =
      q :: ((content.flatMap fun c => if c = q then [q, q] else [c]) ++ q :: rest) := by
    rw [quoted, List.append_assoc]
    rfl
  have hlength : rest.length ≤ ((content.flatMap fun c => if c = q then [q, q] else [c]) ++ q :: rest).length := by
    rw [List.length_append, List.length_cons]
    omega
  rw [happend]
  have hnext : nextToken q ((content.flatMap fun c => if c = q then [q, q] else [c]) ++ q :: rest) =
      some (some (quotedToken q content), rest) := by
    rw [nextToken, hread]
    rcases hq with rfl | rfl <;> simp [isBlank, quotedToken]
  exact tokens_cons hnext hlength

theorem span_append {p : Char → Bool} {cs : List Char} (hcs : ∀ c ∈ cs, p c = true)
    (h : ∀ c ∈ rest.head?, p c = false) : (cs ++ rest).takeWhile p = cs ∧ (cs ++ rest).dropWhile p = rest := by
  have htake : (cs ++ rest).takeWhile p = cs := takeWhile_append_stop hcs h
  have happend := List.takeWhile_append_dropWhile (p := p) (l := cs ++ rest)
  rw [htake] at happend
  exact ⟨htake, List.append_cancel_left happend⟩

theorem not_special {c : Char} (h : c.isAlphanum = true) :
    isBlank c = false ∧ c ≠ '-' ∧ c ≠ '/' ∧ c ≠ '"' ∧ c ≠ '\'' := by
  have hne {d : Char} (hd : d.isAlphanum = false) : c ≠ d := by
    rintro rfl
    rw [h] at hd
    cases hd
  refine ⟨?_, hne rfl, hne rfl, hne rfl, hne rfl⟩
  rw [isBlank]
  simp [hne (d := ' ') rfl, hne (d := '\t') rfl, hne (d := '\r') rfl, hne (d := '\n') rfl]

theorem lexes_word {c : Char} {cs : List Char} (hc : c.isAlpha = true) (hcs : ∀ d ∈ cs, isWordChar d = true) :
    Lexes (c :: cs) [.word (c :: cs)] := by
  intro rest h
  have halnum : c.isAlphanum = true := by rw [Char.isAlphanum, hc, Bool.true_or]
  have hdigit : c.isDigit = false := by
    grind [Char.isAlpha, Char.isUpper, Char.isLower, Char.isDigit]
  have hword : isWordChar c = true := by rw [isWordChar, halnum, Bool.true_or]
  obtain ⟨hblank, hdash, hslash, hquote, happly⟩ := not_special halnum
  obtain ⟨htake, hdrop⟩ := span_append hcs fun d hd => (by rw [h d hd]; rfl : isWordChar d = false)
  have hnext : nextToken c (cs ++ rest) = some (some (.word (c :: cs)), rest) := by
    rw [nextToken, htake, hdrop]
    simp [hblank, hdash, hslash, hquote, happly, hdigit, hword]
  exact tokens_cons hnext (by rw [List.length_append]; omega)

/-! ### Numbers -/

/-- Digits, perhaps with a fraction and with an exponent. -/
structure NumberText where
  whole : List Char
  fraction : Option (List Char)
  exponent : Option (List Char × List Char)
  whole_ne_nil : whole ≠ []
  digits : ∀ c ∈ whole ++ fraction.getD [] ++ exponent.elim [] Prod.snd, c.isDigit = true
  signed : ∀ e ∈ exponent, e.1 ∈ [[], ['+'], ['-']] ∧ e.2 ≠ []

def fractionText (fraction : Option (List Char)) : List Char := fraction.elim [] ('.' :: ·)

def exponentText (exponent : Option (List Char × List Char)) : List Char :=
  exponent.elim [] fun e => 'e' :: e.1 ++ e.2

def NumberText.chars (n : NumberText) : List Char := n.whole ++ fractionText n.fraction ++ exponentText n.exponent

theorem readFraction_text {fraction : Option (List Char)} (hdigits : ∀ c ∈ fraction.getD [], c.isDigit = true)
    (hrest : ∀ c ∈ rest.head?, c = 'e' ∨ c = ' ') :
    readFraction (fractionText fraction ++ rest) = (fractionText fraction, rest) := by
  have hstop : ∀ c ∈ rest.head?, c.isDigit = false := by
    intro c hc
    rcases hrest c hc with rfl | rfl <;> rfl
  cases fraction with
  | some ds =>
    obtain ⟨htake, hdrop⟩ := span_append (p := Char.isDigit) hdigits hstop
    show ('.' :: (ds ++ rest).takeWhile Char.isDigit, (ds ++ rest).dropWhile Char.isDigit) = ('.' :: ds, rest)
    simp only [Option.getD_some] at htake hdrop
    rw [htake, hdrop]
  | none =>
    cases rest with
    | nil => rfl
    | cons c rest => rcases hrest c rfl with rfl | rfl <;> rfl

theorem readExponent_text {exponent : Option (List Char × List Char)}
    (hdigits : ∀ c ∈ exponent.elim [] Prod.snd, c.isDigit = true)
    (hsigned : ∀ e ∈ exponent, e.1 ∈ [[], ['+'], ['-']] ∧ e.2 ≠ []) (h : Ends rest) :
    readExponent (exponentText exponent ++ rest) = (exponentText exponent, rest) := by
  match exponent with
  | none =>
    cases rest with
    | nil => rfl
    | cons c rest =>
      obtain rfl := h c rfl
      show readExponent (' ' :: rest) = ([], ' ' :: rest)
      rw [readExponent]
      exact if_neg fun h => absurd h.1 (by decide)
  | some (sign, ds) =>
    obtain ⟨hsign, hne⟩ := hsigned _ rfl
    obtain ⟨d, ds, rfl⟩ := List.exists_cons_of_ne_nil hne
    have hd : d.isDigit = true := hdigits d List.mem_cons_self
    obtain ⟨htake, hdrop⟩ := span_append (show ∀ c ∈ d :: ds, c.isDigit = true from hdigits)
      fun c hc => (by rw [h c hc]; rfl)
    have hread : readSign (sign ++ (d :: ds ++ rest)) = (sign, d :: ds ++ rest) := by
      have hcases : sign = [] ∨ sign = ['+'] ∨ sign = ['-'] := by simpa using hsign
      rcases hcases with rfl | rfl | rfl
      · exact if_neg fun h => by rcases h with rfl | rfl <;> cases hd
      · rfl
      · rfl
    show readExponent ('e' :: (sign ++ (d :: ds)) ++ rest) = _
    rw [List.cons_append, List.append_assoc, readExponent, hread]
    have hhead : (d :: ds ++ rest).head?.any Char.isDigit = true := hd
    dsimp only
    rw [htake, hdrop, if_pos ⟨.inl rfl, hhead⟩]
    rfl

theorem readNumber_chars (n : NumberText) (h : Ends rest) : readNumber (n.chars ++ rest) = (n.chars, rest) := by
  have hdigits (c : Char) := n.digits c
  simp only [List.mem_append] at hdigits
  have hexponent : ∀ c ∈ (exponentText n.exponent ++ rest).head?, c = 'e' ∨ c = ' ' := by
    cases n.exponent with
    | none => exact fun c hc => .inr (h c hc)
    | some e => exact fun c hc => .inl (Option.some.inj hc).symm
  have hstop : ∀ c ∈ (fractionText n.fraction ++ (exponentText n.exponent ++ rest)).head?, c.isDigit = false := by
    cases n.fraction with
    | none => exact fun c hc => by rcases hexponent c hc with rfl | rfl <;> rfl
    | some ds => exact fun c hc => by cases hc; rfl
  obtain ⟨htake, hdrop⟩ := span_append (fun c hc => hdigits c (.inl (.inl hc))) hstop
  rw [NumberText.chars, List.append_assoc, List.append_assoc, readNumber, htake, hdrop,
    readFraction_text (fun c hc => hdigits c (.inl (.inr hc))) hexponent]
  dsimp only
  rw [readExponent_text (fun c hc => hdigits c (.inr hc)) n.signed h, List.append_assoc]

theorem NumberText.chars_eq_cons (n : NumberText) : ∃ d cs, n.chars = d :: cs ∧ d.isDigit = true := by
  obtain ⟨d, ds, hwhole⟩ := List.exists_cons_of_ne_nil n.whole_ne_nil
  refine ⟨d, ds ++ fractionText n.fraction ++ exponentText n.exponent, by rw [chars, hwhole]; rfl, n.digits d ?_⟩
  rw [hwhole]
  exact List.mem_append_left _ (List.mem_append_left _ List.mem_cons_self)

theorem lexes_number (n : NumberText) : Lexes n.chars [.number n.chars] := by
  intro rest h
  obtain ⟨d, cs, hchars, hd⟩ := n.chars_eq_cons
  have hread := readNumber_chars n h
  rw [hchars, List.cons_append] at hread ⊢
  obtain ⟨hblank, hdash, hslash, hquote, happly⟩ := not_special (by rw [Char.isAlphanum, hd, Bool.or_true])
  have hnext : nextToken d (cs ++ rest) = some (some (.number (d :: cs)), rest) := by
    rw [nextToken, hread]
    simp [hblank, hdash, hslash, hquote, happly, hd]
  exact tokens_cons hnext (by rw [List.length_append]; omega)

theorem lexes_minus (n : NumberText) : Lexes ('-' :: n.chars) [.operator ['-'], .number n.chars] := by
  intro rest h
  have hnumber := lexes_number n rest h
  obtain ⟨d, cs, hchars, hd⟩ := n.chars_eq_cons
  have hne {c : Char} (hc : c.isDigit = false) : d ≠ c := by
    rintro rfl
    rw [hd] at hc
    cases hc
  rw [hchars] at hnumber ⊢
  have hnext : nextToken '-' (d :: cs ++ rest) = some (some (.operator ['-']), d :: cs ++ rest) := by
    rw [nextToken]
    simp [isBlank, isWordChar, longOperators, hne (c := '-') rfl, hne (c := '>') rfl]
  rw [List.cons_append, tokens_cons hnext le_rfl, hnumber, Option.map_map]
  rfl

/-! ### Comparisons -/

theorem lexes_comparison {symbols : List Char}
    (hs : symbols ∈ ["=".toList, "<>".toList, "<".toList, "<=".toList, ">".toList, ">=".toList]) :
    Lexes symbols [.operator symbols] := by
  intro rest h
  have hnext : ∃ c cs, symbols = c :: cs ∧ nextToken c (cs ++ rest) = some (some (.operator symbols), rest) := by
    simp only [List.mem_cons, List.not_mem_nil, or_false] at hs
    match rest, h with
    | [], _ => rcases hs with rfl | rfl | rfl | rfl | rfl | rfl <;> exact ⟨_, _, rfl, rfl⟩
    | d :: rest, h =>
      obtain rfl := h d rfl
      rcases hs with rfl | rfl | rfl | rfl | rfl | rfl <;> exact ⟨_, _, rfl, rfl⟩
  obtain ⟨c, cs, rfl, hnext⟩ := hnext
  exact tokens_cons hnext (by rw [List.length_append]; omega)

end Phlo.Library.Sql
