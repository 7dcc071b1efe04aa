import Mathlib.Data.List.Basic

/-!
# A scanner for query text

The text of a query is cut into words, quoted pieces, brackets and symbols.  Which characters are
letters, blanks or quotes is a parameter; a quote inside a quoted piece is written twice, and a
terminator outside of one is not part of a query.

* `Scanning.advance` — one character: the tokens it finishes and where the scanner is afterwards;
* `scan` — a whole text; none if a quoted piece is left open;
* `scan_append` — a text followed by a blank or a bracket is scanned piece by piece;
* `occurs_of_mem_scan` — a word among the tokens stands in the text, with no letter next to it.
-/

namespace Phlo.Library

inductive CharKind where
  | letter | blank | quote | opened | closed | terminator | symbol
  deriving DecidableEq

/-- Kinds of characters that agree on brackets, the space and the capital letters. -/
structure Alphabet where
  kind : Char → CharKind
  opened : kind '(' = .opened
  closed : kind ')' = .closed
  space : kind ' ' = .blank
  capital : ∀ c, c.isUpper = true → kind c = .letter

inductive QueryToken where
  | word (letters : List Char)
  | quoted (quote : Char) (content : List Char)
  | opened
  | closed
  | symbol (c : Char)
  deriving DecidableEq

/-- Where the scanner is: between tokens, in a word, in a quoted piece, or behind a quote that ends
the piece unless it is written twice. -/
inductive Scanning where
  | between
  | inWord (read : List Char)
  | quoted (quote : Char) (read : List Char)
  | afterQuote (quote : Char) (read : List Char)

variable (A : Alphabet)

def Scanning.begin (c : Char) : Option (List QueryToken × Scanning) :=
  match A.kind c with
  | .letter => some ([], .inWord [c])
  | .blank => some ([], .between)
  | .quote => some ([], .quoted c [])
  | .opened => some ([.opened], .between)
  | .closed => some ([.closed], .between)
  | .terminator => none
  | .symbol => some ([.symbol c], .between)

def Scanning.pending : Scanning → Option (List QueryToken)
  | .between => some []
  | .inWord read => some [.word read]
  | .quoted _ _ => none
  | .afterQuote quote read => some [.quoted quote read]

def Scanning.advance (s : Scanning) (c : Char) : Option (List QueryToken × Scanning) :=
  match s with
  | .between => begin A c
  | .inWord read =>
    if A.kind c = .letter then some ([], .inWord (read ++ [c]))
    else (begin A c).map fun next => (.word read :: next.1, next.2)
  | .quoted quote read =>
    if A.kind c = .quote ∧ c = quote then some ([], .afterQuote quote read)
    else some ([], .quoted quote (read ++ [c]))
  | .afterQuote quote read =>
    if A.kind c = .quote ∧ c = quote then some ([], .quoted quote (read ++ [c]))
    else (begin A c).map fun next => (.quoted quote read :: next.1, next.2)

def scan : Scanning → List Char → Option (List QueryToken)
  | s, [] => s.pending
  | s, c :: text =>
    (s.advance A c).bind fun next => (scan next.2 text).map (next.1 ++ ·)

variable {A}

variable {c : Char} {s : Scanning} {tokens : List QueryToken} {text word : List Char}

theorem scan_silent {s' : Scanning} (h : s.advance A c = some ([], s')) (text : List Char) :
    scan A s (c :: text) = scan A s' text := by
  rw [scan, h]
  show (scan A s' text).map ([] ++ ·) = _
  cases scan A s' text <;> rfl

/-! ### Texts one after the other -/

/-- A blank or a bracket. -/
def Alphabet.Breaks (A : Alphabet) (c : Char) : Prop :=
  A.kind c = .blank ∨ A.kind c = .opened ∨ A.kind c = .closed

theorem Alphabet.breaks_space : A.Breaks ' ' := .inl A.space

theorem Alphabet.breaks_closed : A.Breaks ')' := .inr (.inr A.closed)

theorem Alphabet.Breaks.ne (hc : A.Breaks c) : A.kind c ≠ .letter ∧ A.kind c ≠ .quote := by
  rcases hc with h | h | h <;> rw [h] <;> exact ⟨by decide, by decide⟩

theorem advance_of_breaks (hc : A.Breaks c) (h : s.pending = some tokens) :
    s.advance A c = (Scanning.begin A c).map fun next => (tokens ++ next.1, next.2) := by
  have hletter := hc.ne.1
  have hquote := hc.ne.2
  cases s with
  | between =>
    cases h
    cases hb : Scanning.begin A c <;> simp [Scanning.advance, hb]
  | inWord read =>
    cases h
    simp [Scanning.advance, hletter]
  | quoted quote read => cases h
  | afterQuote quote read =>
    cases h
    simp [Scanning.advance, hquote]

/-- What is pending is finished by a blank or a bracket. -/
theorem scan_pending (hc : A.Breaks c) (h : s.pending = some tokens) (rest : List Char) :
    scan A s (c :: rest) = (scan A .between (c :: rest)).map (tokens ++ ·) := by
  rw [scan, advance_of_breaks hc h, scan, Scanning.advance]
  cases hb : Scanning.begin A c with
  | none => rfl
  | some next =>
    show (scan A next.2 rest).map (tokens ++ next.1 ++ ·) =
      ((scan A next.2 rest).map (next.1 ++ ·)).map (tokens ++ ·)
    cases scan A next.2 rest with
    | none => rfl
    | some more => simp [List.append_assoc]

theorem scan_append (hc : A.Breaks c) (h : scan A s text = some tokens) (rest : List Char) :
    scan A s (text ++ c :: rest) = (scan A .between (c :: rest)).map (tokens ++ ·) := by
  induction text generalizing s tokens with
  | nil => exact scan_pending hc h rest
  | cons d text ih =>
    rw [scan] at h
    rw [List.cons_append, scan]
    cases hd : s.advance A d with
    | none => rw [hd] at h; cases h
    | some next =>
      rw [hd] at h
      have ⟨more, hmore, htokens⟩ := Option.map_eq_some_iff.1 h
      show (scan A next.2 (text ++ c :: rest)).map (next.1 ++ ·) = _
      rw [ih hmore, ← htokens]
      cases scan A .between (c :: rest) with
      | none => rfl
      | some last => simp [List.append_assoc]

theorem scan_opened (rest : List Char) :
    scan A .between ('(' :: rest) = (scan A .between rest).map (.opened :: ·) := by
  rw [scan, Scanning.advance, Scanning.begin, A.opened]
  rfl

theorem scan_closed (rest : List Char) :
    scan A .between (')' :: rest) = (scan A .between rest).map (.closed :: ·) := by
  rw [scan, Scanning.advance, Scanning.begin, A.closed]
  rfl

theorem scan_blank (hc : A.kind c = .blank) (rest : List Char) : scan A .between (c :: rest) = scan A .between rest :=
  scan_silent (by rw [Scanning.advance, Scanning.begin, hc]) rest

theorem scan_capitals (read word : List Char) (hword : ∀ c ∈ word, c.isUpper = true) (rest : List Char) :
    scan A (.inWord read) (word ++ ' ' :: rest) = (scan A .between rest).map (.word (read ++ word) :: ·) := by
  induction word generalizing read with
  | nil =>
    have h := scan_pending (A := A) (s := .inWord read) Alphabet.breaks_space rfl rest
    rw [scan_blank A.space] at h
    rw [List.append_nil]
    exact h
  | cons c word ih =>
    have hc := A.capital c (hword c List.mem_cons_self)
    have hadvance : Scanning.advance A (.inWord read) c = some ([], .inWord (read ++ [c])) := if_pos hc
    rw [List.cons_append, scan_silent hadvance,
      ih (read ++ [c]) fun d hd => hword d (List.mem_cons_of_mem c hd), List.append_assoc]
    rfl

theorem scan_capital_word (hword : ∀ d ∈ c :: word, d.isUpper = true) (rest : List Char) :
    scan A .between (' ' :: (c :: word) ++ ' ' :: rest) = (scan A .between rest).map (.word (c :: word) :: ·) := by
  have hc := A.capital c (hword c List.mem_cons_self)
  rw [List.cons_append, scan_blank A.space, List.cons_append,
    scan_silent (by rw [Scanning.advance, Scanning.begin, hc]),
    scan_capitals [c] word fun d hd => hword d (List.mem_cons_of_mem c hd)]
  rfl

/-- A text between quotes, its own quotes written twice. -/
def quotedContent (quote : Char) (content : List Char) : List Char :=
  content.flatMap fun c => if c = quote then [quote, quote] else [c]

theorem scan_quotedContent {quote : Char} (hquote : A.kind quote = .quote) (read content rest : List Char) :
    scan A (.quoted quote read) (quotedContent quote content ++ quote :: rest) =
      scan A (.afterQuote quote (read ++ content)) rest := by
  induction content generalizing read with
  | nil =>
    have hend : Scanning.advance A (.quoted quote read) quote = some ([], .afterQuote quote read) :=
      if_pos ⟨hquote, rfl⟩
    rw [List.append_nil]
    exact scan_silent hend rest
  | cons c content ih =>
    rw [quotedContent, List.flatMap_cons]
    by_cases hc : c = quote
    · rw [if_pos hc, hc, List.append_assoc]
      have hfirst : Scanning.advance A (.quoted quote read) quote = some ([], .afterQuote quote read) :=
        if_pos ⟨hquote, rfl⟩
      have hsecond : Scanning.advance A (.afterQuote quote read) quote =
          some ([], .quoted quote (read ++ [quote])) := if_pos ⟨hquote, rfl⟩
      rw [List.cons_append, List.cons_append, List.nil_append, scan_silent hfirst, scan_silent hsecond]
      exact (ih (read ++ [quote])).trans (by rw [List.append_assoc]; rfl)
    · rw [if_neg hc, List.append_assoc]
      have hnext : Scanning.advance A (.quoted quote read) c = some ([], .quoted quote (read ++ [c])) :=
        if_neg fun h => hc h.2
      rw [List.cons_append, List.nil_append, scan_silent hnext]
      exact (ih (read ++ [c])).trans (by rw [List.append_assoc]; rfl)

theorem scan_quoted {quote : Char} (hquote : A.kind quote = .quote) (content : List Char) (hc : A.Breaks c)
    (rest : List Char) : scan A .between (quote :: (quotedContent quote content ++ quote :: c :: rest)) =
      (scan A .between (c :: rest)).map (.quoted quote content :: ·) := by
  rw [scan_silent (by rw [Scanning.advance, Scanning.begin, hquote]), scan_quotedContent hquote, List.nil_append,
    scan_pending hc rfl]
  rfl

/-! ### Blanks and terminators at the ends -/

variable {blanks : List Char}

theorem scan_blanks_append (hblanks : ∀ c ∈ blanks, A.kind c = .blank) (text : List Char) :
    scan A .between (blanks ++ text) = scan A .between text := by
  induction blanks with
  | nil => rfl
  | cons c blanks ih =>
    rw [List.cons_append, scan_blank (hblanks c List.mem_cons_self)]
    exact ih fun d hd => hblanks d (List.mem_cons_of_mem c hd)

theorem scan_blanks (hblanks : ∀ c ∈ blanks, A.kind c = .blank) : scan A s blanks = s.pending := by
  induction blanks generalizing s with
  | nil => rfl
  | cons c blanks ih =>
    have hc := hblanks c List.mem_cons_self
    have hrest := fun s => ih (s := s) fun d hd => hblanks d (List.mem_cons_of_mem c hd)
    cases s with
    | quoted quote read =>
      have hadvance : Scanning.advance A (.quoted quote read) c = some ([], .quoted quote (read ++ [c])) :=
        if_neg (by simp [hc])
      rw [scan_silent hadvance, hrest]
      rfl
    | between => rw [scan_blank hc, hrest]
    | inWord read =>
      have h := scan_pending (A := A) (s := .inWord read) (.inl hc) rfl blanks
      rw [scan_blank hc, hrest] at h
      exact h
    | afterQuote quote read =>
      have h := scan_pending (A := A) (s := .afterQuote quote read) (.inl hc) rfl blanks
      rw [scan_blank hc, hrest] at h
      exact h

theorem scan_append_blanks (text : List Char) (hblanks : ∀ c ∈ blanks, A.kind c = .blank) :
    scan A s (text ++ blanks) = scan A s text := by
  induction text generalizing s with
  | nil => exact scan_blanks hblanks
  | cons c text ih =>
    rw [List.cons_append, scan, scan]
    congr 1
    funext next
    rw [ih]

theorem scan_append_terminator (text : List Char) (hc : A.kind c = .terminator) : scan A s (text ++ [c]) = none := by
  induction text generalizing s with
  | nil =>
    have hbegin : Scanning.begin A c = none := by rw [Scanning.begin, hc]
    cases s with
    | between => rw [List.nil_append, scan, Scanning.advance, hbegin]; rfl
    | inWord read => simp [scan, Scanning.advance, hc, hbegin]
    | quoted quote read => simp [scan, Scanning.advance, hc, Scanning.pending]
    | afterQuote quote read => simp [scan, Scanning.advance, hc, hbegin]
  | cons d text ih =>
    rw [List.cons_append, scan]
    cases s.advance A d with
    | none => rfl
    | some next => rw [Option.bind_some, ih]; rfl

/-! ### Words in the text -/

def Alphabet.NoLetterAhead (A : Alphabet) (text : List Char) : Prop :=
  ∀ c ∈ text.head?, A.kind c ≠ .letter

/-- A piece of the text with no letter next to it. -/
def Alphabet.StandsIn (A : Alphabet) (word text : List Char) : Prop :=
  ∃ before after, text = before ++ (word ++ after) ∧ A.NoLetterAhead before.reverse ∧ A.NoLetterAhead after

/-- A piece with no letter next to it, unless it is right at the front. -/
def Alphabet.StandsFurther (A : Alphabet) (word text : List Char) : Prop :=
  ∃ c before after, text = c :: (before ++ (word ++ after)) ∧
    A.NoLetterAhead (c :: before).reverse ∧ A.NoLetterAhead after

theorem Alphabet.NoLetterAhead.append {more : List Char} (htext : text ≠ []) :
    A.NoLetterAhead (text ++ more) ↔ A.NoLetterAhead text := by
  cases text with
  | nil => exact absurd rfl htext
  | cons c text => exact Iff.rfl

theorem Alphabet.StandsFurther.cons (h : A.StandsFurther word text) (c : Char) : A.StandsFurther word (c :: text) := by
  have ⟨d, before, after, htext, hbefore, hafter⟩ := h
  refine ⟨c, d :: before, after, by rw [htext]; rfl, ?_, hafter⟩
  rw [List.reverse_cons, Alphabet.NoLetterAhead.append (by simp)]
  exact hbefore

theorem Alphabet.StandsFurther.standsIn (h : A.StandsFurther word text) : A.StandsIn word text := by
  have ⟨c, before, after, htext, hbefore, hafter⟩ := h
  exact ⟨c :: before, after, htext, hbefore, hafter⟩

theorem Alphabet.StandsIn.cons (h : A.StandsIn word text) (hc : A.kind c ≠ .letter) :
    A.StandsFurther word (c :: text) := by
  have ⟨before, after, htext, hbefore, hafter⟩ := h
  refine ⟨c, before, after, by rw [htext], ?_, hafter⟩
  rw [List.reverse_cons]
  cases hreverse : before.reverse with
  | nil => exact fun d hd => by cases hd; exact hc
  | cons d before' => rw [hreverse] at hbefore; exact hbefore

def Scanning.Occurs (A : Alphabet) (word text : List Char) : Scanning → Prop
  | .between => A.StandsIn word text
  | .inWord read =>
    (∃ tail after, word = read ++ tail ∧ text = tail ++ after ∧ A.NoLetterAhead after) ∨
      A.StandsFurther word text
  | .quoted _ _ => A.StandsFurther word text
  | .afterQuote _ _ => A.StandsIn word text

theorem occurs_begin {next : List QueryToken × Scanning} (h : Scanning.begin A c = some next) (word text : List Char) :
    (.word word ∉ next.1) ∧ (next.2.Occurs A word text →
      A.StandsIn word (c :: text) ∧ (A.kind c ≠ .letter → A.StandsFurther word (c :: text))) := by
  have hother (hne : A.kind c ≠ .letter) (hnext : A.StandsIn word text) :
      A.StandsIn word (c :: text) ∧ (A.kind c ≠ .letter → A.StandsFurther word (c :: text)) :=
    ⟨(hnext.cons hne).standsIn, fun _ => hnext.cons hne⟩
  rw [Scanning.begin] at h
  cases hc : A.kind c with
  | letter =>
    rw [hc] at h
    cases h
    refine ⟨List.not_mem_nil, fun hnext => ⟨?_, fun hne => absurd rfl hne⟩⟩
    rcases hnext with ⟨tail, after, hword, htext, hafter⟩ | hfurther
    · refine ⟨[], after, ?_, nofun, hafter⟩
      rw [hword, htext]
      rfl
    · exact (hfurther.cons c).standsIn
  | terminator => rw [hc] at h; cases h
  | quote =>
    rw [hc] at h
    cases h
    exact ⟨List.not_mem_nil, fun hnext => ⟨(hnext.cons c).standsIn, fun _ => hnext.cons c⟩⟩
  | blank => rw [hc] at h hother; cases h; exact ⟨List.not_mem_nil, hother nofun⟩
  | opened => rw [hc] at h hother; cases h; exact ⟨by simp, hother nofun⟩
  | closed => rw [hc] at h hother; cases h; exact ⟨by simp, hother nofun⟩
  | symbol => rw [hc] at h hother; cases h; exact ⟨by simp, hother nofun⟩

theorem occurs_of_mem_scan (h : scan A s text = some tokens) (hword : .word word ∈ tokens) : s.Occurs A word text := by
  induction text generalizing s tokens with
  | nil =>
    cases s with
    | inWord read =>
      cases h
      cases List.mem_singleton.1 hword
      exact .inl ⟨[], [], (List.append_nil _).symm, rfl, fun c hc => by cases hc⟩
    | between => cases h; cases hword
    | quoted quote read => cases h
    | afterQuote quote read => cases h; simp at hword
  | cons c text ih =>
    rw [scan] at h
    have ⟨next, hnext, hrest⟩ := Option.bind_eq_some_iff.1 h
    have ⟨more, hmore, htokens⟩ := Option.map_eq_some_iff.1 hrest
    have hsplit : .word word ∈ next.1 ∨ .word word ∈ more := by
      rw [← htokens] at hword
      exact List.mem_append.1 hword
    cases s with
    | between =>
      have hbegin := occurs_begin (A := A) hnext word text
      exact (hbegin.2 (ih hmore (hsplit.resolve_left hbegin.1))).1
    | inWord read =>
      rw [Scanning.advance] at hnext
      by_cases hc : A.kind c = .letter
      · rw [if_pos hc] at hnext
        cases hnext
        rcases ih hmore (hsplit.resolve_left List.not_mem_nil) with ⟨tail, after, hw, ht, ha⟩ | hfurther
        · exact .inl ⟨c :: tail, after, by rw [hw, List.append_assoc]; rfl, by rw [ht]; rfl, ha⟩
        · exact .inr (hfurther.cons c)
      · rw [if_neg hc] at hnext
        have ⟨begun, hbegun, heq⟩ := Option.map_eq_some_iff.1 hnext
        have hbegin := occurs_begin (A := A) hbegun word text
        rw [← heq] at hsplit hmore
        rcases hsplit with hfirst | hlater
        · rcases List.mem_cons.1 hfirst with hw | hw
          · cases hw
            refine .inl ⟨[], c :: text, (List.append_nil _).symm, rfl, fun d hd => ?_⟩
            cases hd
            exact hc
          · exact absurd hw hbegin.1
        · exact .inr ((hbegin.2 (ih hmore hlater)).2 hc)
    | quoted quote read =>
      rw [Scanning.advance] at hnext
      by_cases hc : A.kind c = .quote ∧ c = quote
      · rw [if_pos hc] at hnext
        cases hnext
        have hne : A.kind c ≠ .letter := by rw [hc.1]; decide
        exact (ih hmore (hsplit.resolve_left List.not_mem_nil)).cons hne
      · rw [if_neg hc] at hnext
        cases hnext
        exact (ih hmore (hsplit.resolve_left List.not_mem_nil)).cons c
    | afterQuote quote read =>
      rw [Scanning.advance] at hnext
      by_cases hc : A.kind c = .quote ∧ c = quote
      · rw [if_pos hc] at hnext
        cases hnext
        exact ((ih hmore (hsplit.resolve_left List.not_mem_nil)).cons c).standsIn
      · rw [if_neg hc] at hnext
        have ⟨begun, hbegun, heq⟩ := Option.map_eq_some_iff.1 hnext
        have hbegin := occurs_begin (A := A) hbegun word text
        rw [← heq] at hsplit hmore
        have hlater : .word word ∈ more :=
          hsplit.resolve_left fun hfirst => (List.mem_cons.1 hfirst).elim nofun hbegin.1
        exact (hbegin.2 (ih hmore hlater)).1

end Phlo.Library
