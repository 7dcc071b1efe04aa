import Mathlib.Data.List.Defs

/-!
# A backtracking pattern matcher

Regular expressions in the style of scripting languages: alternatives are tried from left to right,
repetition is greedy or lazy, and zero-width assertions look at the neighbouring characters.  The
matcher is written in continuation style, so that a later part of a pattern can send an earlier
repetition back to a shorter or longer match.

* `Pattern` — characters, sequence, alternative, repetition, word boundary, a one-character negative
  look-behind, look-ahead, the end of the text, and one capturing group;
* `matchAt` — the match at a position, if there is one, bounded by a number of steps that
  `Pattern.bound` makes sufficient;
* `replaceAll` — every leftmost match replaced by a text computed from the match and its group;
* `occursIn` — whether there is a match anywhere, `occursIn_append` at a given place.
-/

namespace Phlo.Library

/-- Patterns over characters. -/
inductive Pattern where
  | char (p : Char → Bool)
  | empty
  | seq (a b : Pattern)
  | alt (a b : Pattern)
  | star (greedy : Bool) (a : Pattern)
  | boundary (word : Char → Bool)
  | notAfter (p : Char → Bool)
  | followedBy (a : Pattern)
  | atEnd
  | group (a : Pattern)

/-- Where the matcher stands: the character before, the text ahead, and the captured group. -/
structure Cursor where
  before : Option Char
  rest : List Char
  captured : List Char

namespace Pattern

/-- One or more repetitions. -/
def plus (greedy : Bool) (a : Pattern) : Pattern := .seq a (.star greedy a)

/-- An optional part, taken if possible. -/
def opt (a : Pattern) : Pattern := .alt a .empty

def seqs (ps : List Pattern) : Pattern := ps.foldr .seq .empty

/-- Alternatives in the order they are tried; none of them matches if there are none. -/
def alts : List Pattern → Pattern
  | [] => .char fun _ => false
  | [p] => p
  | p :: ps => .alt p (alts ps)

def size : Pattern → ℕ
  | .seq a b => a.size + b.size + 1
  | .alt a b => a.size + b.size + 1
  | .star _ a => a.size + 1
  | .followedBy a => a.size + 1
  | .group a => a.size + 1
  | _ => 1

/-- Enough nested calls for any match on a text of this length: each level of the pattern and each
round of a repetition that consumes a character costs one. -/
def bound (p : Pattern) (text : List Char) : ℕ := p.size + text.length + 1

end Pattern

def isAt (p : Char → Bool) : Option Char → Bool
  | some c => p c
  | none => false

/-- Match `p` at the cursor and go on with `k`; the first success in backtracking order is the
result.  A repetition whose body consumed nothing is not entered again. -/
def matchAt : ℕ → Pattern → Cursor → (Cursor → Option Cursor) → Option Cursor
  | 0, _, _, _ => none
  | _ + 1, .char p, c, k =>
    match c.rest with
    | [] => none
    | x :: xs => if p x then k { c with before := some x, rest := xs } else none
  | _ + 1, .empty, c, k => k c
  | n + 1, .seq a b, c, k => matchAt n a c fun c' => matchAt n b c' k
  | n + 1, .alt a b, c, k => (matchAt n a c k).orElse fun _ => matchAt n b c k
  | n + 1, .star greedy a, c, k =>
    let again := fun _ : Unit => matchAt n a c fun c' =>
      if c'.rest.length < c.rest.length then matchAt n (.star greedy a) c' k else none
    if greedy then (again ()).orElse fun _ => k c else (k c).orElse again
  | _ + 1, .boundary word, c, k =>
    if isAt word c.before != isAt word c.rest.head? then k c else none
  | _ + 1, .notAfter p, c, k => if isAt p c.before then none else k c
  | n + 1, .followedBy a, c, k => if (matchAt n a c some).isSome then k c else none
  | _ + 1, .atEnd, c, k => if c.rest == [] || c.rest == ['\n'] then k c else none
  | n + 1, .group a, c, k => matchAt n a c fun c' =>
      k { c' with captured := c.rest.take (c.rest.length - c'.rest.length) }

/-- Scan the text; at each position either replace the match found there and go on behind it, or
copy one character.  `f` gets the matched text and the captured group. -/
def replaceFrom (p : Pattern) (f : List Char → List Char → List Char) :
    ℕ → Option Char → List Char → List Char
  | 0, _, text => text
  | _ + 1, _, [] => []
  | n + 1, before, x :: xs =>
    match matchAt (p.bound (x :: xs)) p ⟨before, x :: xs, []⟩ some with
    | none => x :: replaceFrom p f n (some x) xs
    | some c =>
      let used := (x :: xs).take ((x :: xs).length - c.rest.length)
      if used.isEmpty then f used c.captured ++ x :: replaceFrom p f n (some x) xs
      else f used c.captured ++ replaceFrom p f n c.before c.rest

/-- Every leftmost match in `text` replaced by what `f` makes of it. -/
def replaceAll (p : Pattern) (f : List Char → List Char → List Char) (text : List Char) : List Char :=
  replaceFrom p f (text.length + 1) none text

/-! ### Search -/

/-- Whether there is a match at the position or further on. -/
def occursFrom (p : Pattern) : Option Char → List Char → Bool
  | before, [] => (matchAt (p.bound []) p ⟨before, [], []⟩ some).isSome
  | before, x :: xs =>
    (matchAt (p.bound (x :: xs)) p ⟨before, x :: xs, []⟩ some).isSome || occursFrom p (some x) xs

def Pattern.occursIn (p : Pattern) (text : List Char) : Bool := occursFrom p none text

theorem occursFrom_append {p : Pattern} {before : Option Char} (passed : List Char) {text : List Char}
    (h : (matchAt (p.bound text) p ⟨passed.getLast?.or before, text, []⟩ some).isSome = true) :
    occursFrom p before (passed ++ text) = true := by
  induction passed generalizing before with
  | nil =>
    cases text with
    | nil => exact h
    | cons x xs => exact Bool.or_eq_true_iff.2 (.inl h)
  | cons x passed ih =>
    refine Bool.or_eq_true_iff.2 (.inr (ih ?_))
    cases passed with
    | nil => exact h
    | cons y passed => exact h

theorem occursIn_append {p : Pattern} (passed : List Char) {text : List Char}
    (h : (matchAt (p.bound text) p ⟨passed.getLast?, text, []⟩ some).isSome = true) :
    p.occursIn (passed ++ text) = true :=
  occursFrom_append passed (by rwa [Option.or_none])

theorem matchAt_chars {tests : List (Char → Bool)} {word : List Char}
    (h : List.Forall₂ (fun test x => test x = true) tests word) (n : ℕ) (before : Option Char)
    (rest captured : List Char) (k : Cursor → Option Cursor) :
    matchAt (n + tests.length + 1) (.seqs (tests.map .char)) ⟨before, word ++ rest, captured⟩ k =
      k ⟨word.getLast?.or before, rest, captured⟩ := by
  induction h generalizing before with
  | nil => rfl
  | @cons test x tests word htest _ ih =>
    have hseqs : Pattern.seqs ((test :: tests).map .char) = .seq (.char test) (.seqs (tests.map .char)) := rfl
    rw [hseqs, List.length_cons, ← Nat.add_assoc, matchAt, List.cons_append, matchAt]
    show (if test x = true then _ else _) = _
    rw [if_pos htest, ih]
    cases word with
    | nil => rfl
    | cons y word => rw [List.getLast?_cons_cons, List.getLast?_eq_some_getLast (List.cons_ne_nil y word)]; rfl

end Phlo.Library
