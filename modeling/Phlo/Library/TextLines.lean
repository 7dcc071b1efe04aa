import Mathlib.Data.List.Basic

/-!
# Lines of a text

`splitLines` is a language's `splitlines`, `joinLines` ends every line with a line feed.

* `splitLines_joinLines` — lines without line breaks are read back;
* `isLineBreak_of_mem_splitLines` — a line has no line break;
* `trim_of_ends`, `trim_trim` — trimming what needs no trimming;
* `occurrences_append`, `occurrences_self_append` — where a pattern can begin.
-/

namespace Phlo.Library

def isLineBreak (c : Char) : Bool :=
  let n := c.toNat
  (10 ≤ n && n ≤ 13) || (28 ≤ n && n ≤ 30) || n == 0x85 || n == 0x2028 || n == 0x2029

def consLine (c : Char) : List (List Char) → List (List Char)
  | [] => [[c]]
  | line :: lines => (c :: line) :: lines

/-- `str.splitlines` -/
def splitLines : List Char → List (List Char)
  | [] => []
  | '\r' :: '\n' :: cs => [] :: splitLines cs
  | c :: cs => if isLineBreak c then [] :: splitLines cs else consLine c (splitLines cs)

def joinLines (lines : List (List Char)) : List Char := lines.flatMap fun line => line ++ ['\n']

theorem splitLines_break (cs : List Char) : splitLines ('\n' :: cs) = [] :: splitLines cs := by
  rw [splitLines]
  · rfl
  · intro cs' h
    cases h

variable {c : Char}

theorem splitLines_cons (hc : isLineBreak c = false) (cs : List Char) :
    splitLines (c :: cs) = consLine c (splitLines cs) := by
  have hne : ∀ cs' : List Char, c = '\r' → cs = '\n' :: cs' → False := by
    intro cs' hr
    rw [hr] at hc
    exact absurd hc (by decide)
  rw [splitLines.eq_3 c cs hne, hc]
  rfl

theorem splitLines_line {line : List Char} (h : ∀ c ∈ line, isLineBreak c = false) (cs : List Char) :
    splitLines (line ++ '\n' :: cs) = line :: splitLines cs := by
  induction line with
  | nil => exact splitLines_break cs
  | cons c line ih =>
    rw [List.cons_append, splitLines_cons (h c List.mem_cons_self),
      ih fun d hd => h d (List.mem_cons_of_mem _ hd)]
    rfl

theorem splitLines_joinLines {lines : List (List Char)}
    (h : ∀ line ∈ lines, ∀ c ∈ line, isLineBreak c = false) : splitLines (joinLines lines) = lines := by
  induction lines with
  | nil => rfl
  | cons line lines ih =>
    rw [joinLines, List.flatMap_cons, List.append_assoc, List.singleton_append,
      splitLines_line (h line List.mem_cons_self)]
    exact congrArg (line :: ·) (ih fun other hother => h other (List.mem_cons_of_mem _ hother))

theorem isLineBreak_of_mem_consLine (hc : isLineBreak c = false) {lines : List (List Char)}
    (h : ∀ line ∈ lines, ∀ d ∈ line, isLineBreak d = false) :
    ∀ line ∈ consLine c lines, ∀ d ∈ line, isLineBreak d = false := by
  cases lines with
  | nil =>
    intro line hline d hd
    rw [List.mem_singleton.1 hline] at hd
    rw [List.mem_singleton.1 hd, hc]
  | cons first lines =>
    intro line hline d hd
    obtain rfl | hline := List.mem_cons.1 hline
    · obtain rfl | hd := List.mem_cons.1 hd
      · exact hc
      · exact h first List.mem_cons_self d hd
    · exact h line (List.mem_cons_of_mem _ hline) d hd

theorem isLineBreak_of_mem_splitLines (s : List Char) : ∀ line ∈ splitLines s, ∀ c ∈ line, isLineBreak c = false := by
  induction s using splitLines.induct with
  | case1 => exact fun line hline => absurd hline List.not_mem_nil
  | case2 cs ih =>
    intro line hline c hc
    rw [splitLines] at hline
    obtain rfl | hline := List.mem_cons.1 hline
    · cases hc
    · exact ih line hline c hc
  | case3 c cs hne hbreak ih =>
    intro line hline d hd
    rw [splitLines.eq_3 c cs hne, if_pos hbreak] at hline
    obtain rfl | hline := List.mem_cons.1 hline
    · cases hd
    · exact ih line hline d hd
  | case4 c cs hne hno ih =>
    have hno : isLineBreak c = false := Bool.eq_false_iff.2 hno
    rw [splitLines_cons hno]
    exact isLineBreak_of_mem_consLine hno ih

/-! ### Trimming -/

/-- Take characters away from both ends. -/
def trim (p : Char → Bool) (s : List Char) : List Char :=
  ((s.dropWhile p).reverse.dropWhile p).reverse

section

variable {p : Char → Bool} {s : List Char}

theorem mem_of_mem_trim (h : c ∈ trim p s) : c ∈ s := by
  rw [trim, List.mem_reverse] at h
  have hmem := List.mem_reverse.1 ((List.dropWhile_sublist _).subset h)
  exact (List.dropWhile_sublist _).subset hmem

theorem dropWhile_of_head (h : ∀ c ∈ s.head?, p c = false) : s.dropWhile p = s := by
  cases s with
  | nil => rfl
  | cons c s => exact List.dropWhile_cons_of_neg (by rw [h c rfl]; exact Bool.false_ne_true)

theorem trim_of_ends (hhead : ∀ c ∈ s.head?, p c = false) (hlast : ∀ c ∈ s.getLast?, p c = false) : trim p s = s := by
  rw [trim, dropWhile_of_head hhead, dropWhile_of_head (by rwa [List.head?_reverse]),
    List.reverse_reverse]

theorem head_dropWhile (h : c ∈ (s.dropWhile p).head?) : p c = false := by
  have hnot := List.head?_dropWhile_not p s
  rw [h] at hnot
  simpa using hnot

theorem last_trim (h : c ∈ (trim p s).getLast?) : p c = false := by
  rw [trim, List.getLast?_reverse] at h
  exact head_dropWhile h

theorem head_trim (h : c ∈ (trim p s).head?) : p c = false := by
  -- what is left after the second cut is a beginning of what was left after the first
  obtain ⟨l, hl⟩ : ∃ l, trim p s ++ l = s.dropWhile p := by
    have happend := List.takeWhile_append_dropWhile (p := p) (l := (s.dropWhile p).reverse)
    refine ⟨((s.dropWhile p).reverse.takeWhile p).reverse, ?_⟩
    rw [trim, ← List.reverse_append, happend, List.reverse_reverse]
  have hhead : c ∈ (s.dropWhile p).head? := by
    rw [← hl, List.head?_append, h]
    rfl
  exact head_dropWhile hhead

theorem trim_trim (p : Char → Bool) (s : List Char) : trim p (trim p s) = trim p s :=
  trim_of_ends (fun _ => head_trim) fun _ => last_trim

end

/-! ### Occurrences -/

/-- How often a pattern occurs, from left to right and without overlaps; the first `skip` characters
belong to an occurrence already. -/
def occurrencesFrom (pattern : List Char) : ℕ → List Char → ℕ
  | _, [] => 0
  | skip + 1, _ :: cs => occurrencesFrom pattern skip cs
  | 0, c :: cs =>
    if pattern.isPrefixOf (c :: cs) then occurrencesFrom pattern (pattern.length - 1) cs + 1
    else occurrencesFrom pattern 0 cs

def occurrences (pattern s : List Char) : ℕ := occurrencesFrom pattern 0 s

/-- `pattern in s` -/
def containsText (pattern s : String) : Bool := occurrences pattern.toList s.toList ≠ 0

section

variable {p : Char} {ps : List Char}

theorem occurrencesFrom_append (pattern s t : List Char) :
    occurrencesFrom pattern s.length (s ++ t) = occurrences pattern t := by
  induction s with
  | nil => rfl
  | cons c s ih => exact ih

theorem occurrences_cons_of_ne (h : c ≠ p) (cs : List Char) :
    occurrences (p :: ps) (c :: cs) = occurrences (p :: ps) cs := by
  have hno : (p :: ps).isPrefixOf (c :: cs) = false := by
    rw [List.isPrefixOf, beq_false_of_ne h.symm, Bool.false_and]
  rw [occurrences, occurrencesFrom, hno]
  rfl

theorem occurrences_cons {cs : List Char} (h : (p :: ps).isPrefixOf (c :: cs) = false) :
    occurrences (p :: ps) (c :: cs) = occurrences (p :: ps) cs := by
  rw [occurrences, occurrencesFrom, h]
  rfl

theorem occurrences_append {s : List Char} (h : p ∉ s) (t : List Char) :
    occurrences (p :: ps) (s ++ t) = occurrences (p :: ps) t := by
  induction s with
  | nil => rfl
  | cons c s ih =>
    have hne : c ≠ p := fun heq => h (by rw [heq]; exact List.mem_cons_self)
    rw [List.cons_append, occurrences_cons_of_ne hne]
    exact ih fun hmem => h (List.mem_cons_of_mem _ hmem)

theorem occurrences_self_append (t : List Char) :
    occurrences (p :: ps) ((p :: ps) ++ t) = occurrences (p :: ps) t + 1 := by
  have hyes : (p :: ps).isPrefixOf ((p :: ps) ++ t) = true :=
    List.isPrefixOf_iff_prefix.2 (List.prefix_append _ _)
  rw [occurrences, List.cons_append, occurrencesFrom, ← List.cons_append, hyes, if_pos rfl]
  exact congrArg (· + 1) (occurrencesFrom_append (p :: ps) ps t)

end

end Phlo.Library
