import Phlo.Library.Fallible
import Phlo.Library.SqlTokens

/-!
# Preview filters

`preview_where` turns typed filters into the text of a condition.  A query engine reads that text as the
conjunction of the filters, whatever the names and values are.

* `lexes_predicateText` — the tokens of one predicate.
-/

namespace Phlo.Preview

open Phlo.Library Phlo.Library.Sql

/-! ### The filters -/

inductive Operator where
  | eq | ne | lt | lte | gt | gte
  deriving DecidableEq

/-- What a filter, or a predicate that is read, says about its column. -/
inductive Test (α : Type) where
  | compare (operator : Operator) (value : α)
  | isNull
  | isNotNull

structure PreviewFilter (α : Type) where
  column : String
  test : Test α

/-- Values of a comparison; `ν` are the finite floats. -/
inductive FilterValue (ν : Type) where
  | string (text : String)
  | boolean (b : Bool)
  | integer (n : ℤ)
  | float (x : ν)

/-- `str` and `float` of finite floats: a sign, digits, and what is written is read as the number itself. -/
structure Floats (ν : Type) where
  negative : ν → Bool
  text : ν → NumberText
  read : Bool → List Char → Option ν
  read_text : ∀ x, read (negative x) (text x).chars = some x

variable {ν α β : Type} (floats : Floats ν)

/-! ### The clause -/

def Operator.symbols : Operator → List Char
  | .eq => "=".toList
  | .ne => "<>".toList
  | .lt => "<".toList
  | .lte => "<=".toList
  | .gt => ">".toList
  | .gte => ">=".toList

def wholeText (n : ℕ) : NumberText where
  whole := Nat.toDigits 10 n
  fraction := none
  exponent := none
  whole_ne_nil := Nat.toDigits_ne_nil
  digits c hc := by
    rw [Option.getD_none, Option.elim_none, List.append_nil, List.append_nil] at hc
    exact isDigit_of_mem_decimal hc
  signed _ h := by cases h

def signed (negative : Bool) (text : List Char) : List Char := if negative then '-' :: text else text

def literalText : FilterValue ν → Except String (List Char)
  | .string text =>
    if 2048 < text.toList.length ∨ '\x00' ∈ text.toList then
      .error "Filter value exceeds the supported text budget."
    else .ok (quoted '\'' text.toList)
  | .boolean b => .ok (if b then "TRUE".toList else "FALSE".toList)
  | .integer n =>
    if 4300 < (wholeText n.natAbs).chars.length then
      .error "Exceeds the limit (4300 digits) for integer string conversion"
    else .ok (signed (n < 0) (wholeText n.natAbs).chars)
  | .float x => .ok (signed (floats.negative x) (floats.text x).chars)

def predicateText (columns : List String) (filter : PreviewFilter (FilterValue ν)) : Except String (List Char) := do
  if filter.column ∉ columns ∨ '\x00' ∈ filter.column.toList then
    .error "Filter column is not in the selected table schema."
  else
    let column := quoted '"' filter.column.toList
    match filter.test with
    | .isNull => .ok (column ++ " IS NULL".toList)
    | .isNotNull => .ok (column ++ " IS NOT NULL".toList)
    | .compare operator value => do
      let literal ← literalText floats value
      .ok (column ++ ' ' :: (operator.symbols ++ ' ' :: literal))

/-- `preview_where` -/
def previewWhere (filters : List (PreviewFilter (FilterValue ν))) (columns : List String) :
    Except String (List Char) := do
  let predicates ← filters.mapM (predicateText floats columns)
  .ok (if predicates = [] then [] else " WHERE ".toList ++ " AND ".toList.intercalate predicates)

/-! ### What a query engine reads -/

inductive Literal where
  | string (content : List Char)
  | boolean (b : Bool)
  | number (negative : Bool) (text : List Char)

def keyword (letters : String) : Token := .word letters.toList

def parseLiteral : List Token → Option Literal
  | [.string content] => some (.string content)
  | [.number text] => some (.number false text)
  | [.operator symbols, .number text] => if symbols = ['-'] then some (.number true text) else none
  | [t] =>
    if t = keyword "TRUE" then some (.boolean true)
    else if t = keyword "FALSE" then some (.boolean false) else none
  | _ => none

def parseTest : List Token → Option (Test Literal)
  | .operator symbols :: literal => do
    let operator ← [Operator.eq, .ne, .lt, .lte, .gt, .gte].find? fun operator => operator.symbols = symbols
    (parseLiteral literal).map (.compare operator)
  | ts =>
    if ts = [keyword "IS", keyword "NULL"] then some .isNull
    else if ts = [keyword "IS", keyword "NOT", keyword "NULL"] then some .isNotNull
    else none

def parsePredicate : List Token → Option (PreviewFilter Literal)
  | .identifier column :: test => (parseTest test).map (⟨String.ofList column, ·⟩)
  | _ => none

/-- A condition, which may be absent: a conjunction of predicates. -/
def parseWhere : List Token → Option (List (PreviewFilter Literal))
  | [] => some []
  | t :: ts => if t = keyword "WHERE" then (ts.splitOn (keyword "AND")).mapM parsePredicate else none

def Literal.Denotes : Literal → FilterValue ν → Prop
  | .string content, .string text => content = text.toList
  | .boolean b, .boolean b' => b = b'
  | .number negative text, .integer n =>
    (∀ c ∈ text, c.isDigit = true) ∧ n = (if negative then -1 else 1) * (Nat.ofDigitChars 10 text 0 : ℤ)
  | .number negative text, .float x => floats.read negative text = some x
  | _, _ => False

def Says (filter : PreviewFilter (FilterValue ν)) (predicate : PreviewFilter Literal) : Prop :=
  predicate.column = filter.column ∧
    match filter.test, predicate.test with
    | .isNull, .isNull | .isNotNull, .isNotNull => True
    | .compare operator value, .compare operator' literal => operator' = operator ∧ literal.Denotes floats value
    | _, _ => False

/-! ### The tokens of a clause -/

def literalTokens : FilterValue ν → List Token
  | .string text => [.string text.toList]
  | .boolean b => [keyword (if b then "TRUE" else "FALSE")]
  | .integer n => (if n < 0 then [.operator ['-']] else []) ++ [.number (wholeText n.natAbs).chars]
  | .float x => (if floats.negative x then [.operator ['-']] else []) ++ [.number (floats.text x).chars]

/-- The column and the operator of a filter. -/
def PreviewFilter.frame (filter : PreviewFilter α) : PreviewFilter Unit :=
  ⟨filter.column, match filter.test with
    | .compare operator _ => .compare operator ()
    | .isNull => .isNull
    | .isNotNull => .isNotNull⟩

def PreviewFilter.literal (filter : PreviewFilter (FilterValue ν)) : List Token :=
  match filter.test with
  | .compare _ value => literalTokens floats value
  | _ => []

def predicateTokens (frame : PreviewFilter Unit) (literal : List Token) : List Token :=
  .identifier frame.column.toList ::
    match frame.test with
    | .compare operator () => .operator operator.symbols :: literal
    | .isNull => [keyword "IS", keyword "NULL"]
    | .isNotNull => [keyword "IS", keyword "NOT", keyword "NULL"]

/-- The tokens of a clause with these columns and operators and these literals. -/
def whereTokens : List (PreviewFilter Unit) → List (List Token) → List Token
  | [], _ => []
  | frames, literals => keyword "WHERE" :: [keyword "AND"].intercalate (List.zipWith predicateTokens frames literals)

variable {floats} {filter : PreviewFilter (FilterValue ν)} {value : FilterValue ν} {text : List Char}

theorem lexes_signed (negative : Bool) (n : NumberText) :
    Lexes (signed negative n.chars) ((if negative then [.operator ['-']] else []) ++ [.number n.chars]) := by
  cases negative with
  | true => exact lexes_minus n
  | false => exact lexes_number n

theorem lexes_keyword {letters : String} (h : letters ∈ ["TRUE", "FALSE", "IS", "NOT", "NULL", "AND", "WHERE"]) :
    Lexes letters.toList [keyword letters] := by
  simp only [List.mem_cons, List.not_mem_nil, or_false] at h
  rcases h with rfl | rfl | rfl | rfl | rfl | rfl | rfl <;>
    exact lexes_word rfl (List.all_eq_true.1 rfl)

theorem lexes_literalText (h : literalText floats value = .ok text) : Lexes text (literalTokens floats value) := by
  cases value with
  | string content =>
    rw [literalText] at h
    split at h
    · cases h
    · cases h
      exact lexes_quoted (.inr rfl) content.toList
  | boolean b =>
    cases h
    cases b <;> exact lexes_keyword (by simp)
  | integer n =>
    rw [literalText] at h
    split at h
    · cases h
    · cases h
      have hsigned := lexes_signed (n < 0) (wholeText n.natAbs)
      simpa [literalTokens] using hsigned
  | float x =>
    cases h
    exact lexes_signed (floats.negative x) (floats.text x)

theorem lexes_predicateText {columns : List String} (h : predicateText floats columns filter = .ok text) :
    Lexes text (predicateTokens filter.frame (filter.literal floats)) := by
  obtain ⟨column, test⟩ := filter
  rw [predicateText] at h
  split at h
  · cases h
  have hcolumn : Lexes (quoted '"' column.toList) [.identifier column.toList] :=
    lexes_quoted (.inl rfl) column.toList
  have hnull : Lexes "NULL".toList [keyword "NULL"] := lexes_keyword (by simp)
  have his : Lexes "IS".toList [keyword "IS"] := lexes_keyword (by simp)
  have hnot : Lexes "NOT".toList [keyword "NOT"] := lexes_keyword (by simp)
  cases test with
  | isNull =>
    cases h
    exact hcolumn.blank (his.blank hnull)
  | isNotNull =>
    cases h
    exact hcolumn.blank (his.blank (hnot.blank hnull))
  | compare operator value =>
    obtain ⟨literal, hliteral, h⟩ := bind_eq_ok.1 h
    cases h
    have hoperator : Lexes operator.symbols [.operator operator.symbols] :=
      lexes_comparison (by cases operator <;> simp [Operator.symbols])
    exact hcolumn.blank (hoperator.blank (lexes_literalText hliteral))

/-! ### What the tokens are read as -/

theorem parse_literalTokens (floats : Floats ν) (value : FilterValue ν) :
    ∃ literal, parseLiteral (literalTokens floats value) = some literal ∧ literal.Denotes floats value := by
  cases value with
  | string text => exact ⟨_, rfl, rfl⟩
  | boolean b => cases b <;> exact ⟨_, rfl, rfl⟩
  | integer n =>
    have hchars : (wholeText n.natAbs).chars = Nat.toDigits 10 n.natAbs :=
      (List.append_nil _).trans (List.append_nil _)
    have hdigits : ∀ c ∈ (wholeText n.natAbs).chars, c.isDigit = true := by
      rw [hchars]
      exact fun c => isDigit_of_mem_decimal
    have hvalue : Nat.ofDigitChars 10 (wholeText n.natAbs).chars 0 = n.natAbs := by
      rw [hchars, Nat.ofDigitChars_ten_toDigits]
    rw [literalTokens]
    split
    · refine ⟨_, rfl, hdigits, ?_⟩
      rw [hvalue, if_pos rfl]
      omega
    · refine ⟨_, rfl, hdigits, ?_⟩
      rw [hvalue, if_neg Bool.false_ne_true]
      omega
  | float x =>
    have hread := floats.read_text x
    rw [literalTokens]
    split
    next hnegative =>
      rw [hnegative] at hread
      exact ⟨_, rfl, hread⟩
    next hnegative =>
      rw [Bool.eq_false_iff.2 hnegative] at hread
      exact ⟨_, rfl, hread⟩

theorem parse_predicateTokens (floats : Floats ν) (filter : PreviewFilter (FilterValue ν)) :
    ∃ predicate, parsePredicate (predicateTokens filter.frame (filter.literal floats)) = some predicate ∧
      Says floats filter predicate := by
  obtain ⟨column, test⟩ := filter
  have hcolumn : String.ofList column.toList = column := String.ofList_toList
  cases test with
  | isNull => exact ⟨_, rfl, hcolumn, trivial⟩
  | isNotNull => exact ⟨_, rfl, hcolumn, trivial⟩
  | compare operator value =>
    obtain ⟨literal, hparse, hdenotes⟩ := parse_literalTokens floats value
    have htest : parseTest (.operator operator.symbols :: literalTokens floats value) =
        some (.compare operator literal) := by
      rw [parseTest, hparse]
      cases operator <;> rfl
    refine ⟨⟨_, .compare operator literal⟩, ?_, hcolumn, rfl, hdenotes⟩
    show (parseTest (.operator operator.symbols :: literalTokens floats value)).map _ = _
    rw [htest]
    rfl

theorem and_not_mem (filter : PreviewFilter (FilterValue ν)) :
    keyword "AND" ∉ predicateTokens filter.frame (filter.literal floats) := by
  obtain ⟨column, test⟩ := filter
  cases test with
  | isNull => simp [predicateTokens, PreviewFilter.frame, keyword]
  | isNotNull => simp [predicateTokens, PreviewFilter.frame, keyword]
  | compare operator value =>
    have hliteral : keyword "AND" ∉ literalTokens floats value := by
      cases value with
      | string text => simp [literalTokens, keyword]
      | boolean b => cases b <;> simp [literalTokens, keyword]
      | integer n => rw [literalTokens]; split <;> simp [keyword]
      | float x => rw [literalTokens]; split <;> simp [keyword]
    simpa [predicateTokens, PreviewFilter.frame, PreviewFilter.literal, keyword] using hliteral

def tokensOf (floats : Floats ν) (filters : List (PreviewFilter (FilterValue ν))) : List (List Token) :=
  filters.map fun filter => predicateTokens filter.frame (filter.literal floats)

theorem lexes_predicates {filters : List (PreviewFilter (FilterValue ν))} {columns : List String}
    {texts : List (List Char)} (h : filters.mapM (predicateText floats columns) = .ok texts) :
    List.Forall₂ Lexes texts (tokensOf floats filters) := by
  induction filters generalizing texts with
  | nil =>
    cases h
    exact .nil
  | cons filter filters ih =>
    rw [List.mapM_cons] at h
    obtain ⟨text, htext, h⟩ := bind_eq_ok.1 h
    obtain ⟨rest, hrest, h⟩ := bind_eq_ok.1 h
    cases h
    exact .cons (lexes_predicateText htext) (ih hrest)

theorem parse_predicates (floats : Floats ν) (filters : List (PreviewFilter (FilterValue ν))) :
    ∃ predicates, (tokensOf floats filters).mapM parsePredicate = some predicates ∧
      List.Forall₂ (Says floats) filters predicates := by
  induction filters with
  | nil => exact ⟨[], rfl, .nil⟩
  | cons filter filters ih =>
    obtain ⟨predicate, hparse, hsays⟩ := parse_predicateTokens floats filter
    obtain ⟨predicates, hparses, hall⟩ := ih
    refine ⟨predicate :: predicates, ?_, .cons hsays hall⟩
    show (predicateTokens filter.frame (filter.literal floats) :: tokensOf floats filters).mapM parsePredicate = _
    rw [List.mapM_cons, hparse, hparses]
    rfl

theorem parseWhere_tokens {tss : List (List Token)} (hne : tss ≠ []) (hand : ∀ ts ∈ tss, keyword "AND" ∉ ts) :
    parseWhere (keyword "WHERE" :: [keyword "AND"].intercalate tss) = tss.mapM parsePredicate := by
  rw [parseWhere, if_pos rfl, List.splitOn_intercalate _ hand hne]

theorem whereTokens_eq {filters : List (PreviewFilter (FilterValue ν))} (hne : filters ≠ []) :
    whereTokens (filters.map PreviewFilter.frame) (filters.map (PreviewFilter.literal floats)) =
      keyword "WHERE" :: [keyword "AND"].intercalate (tokensOf floats filters) := by
  rw [whereTokens, List.zipWith_map, List.zipWith_self, tokensOf]
  exact fun h => hne (List.map_eq_nil_iff.1 h)

/-- The clause is read as the filters' predicates in order, and with other literals only the tokens of the
literals are others. -/
theorem preview_where_reads_back {filters : List (PreviewFilter (FilterValue ν))} {columns : List String}
    {clause : List Char} (h : previewWhere floats filters columns = .ok clause) : tokens clause =
        some (whereTokens (filters.map PreviewFilter.frame) (filters.map (PreviewFilter.literal floats))) ∧
      ∃ predicates, (tokens clause).bind parseWhere = some predicates ∧
        List.Forall₂ (Says floats) filters predicates := by
  obtain ⟨texts, htexts, h⟩ := bind_eq_ok.1 h
  cases h
  have hlexes := lexes_predicates htexts
  by_cases hfilters : filters = []
  · subst hfilters
    cases hlexes
    have hnil : tokens [] = some [] := by rw [tokens]
    rw [if_pos rfl, hnil]
    exact ⟨rfl, [], rfl, .nil⟩
  · have htss : tokensOf floats filters ≠ [] := fun h => hfilters (List.map_eq_nil_iff.1 h)
    have hne : texts ≠ [] := by
      rintro rfl
      generalize tokensOf floats filters = tss at hlexes htss
      cases hlexes
      exact htss rfl
    have hkeyword : Lexes "WHERE".toList [keyword "WHERE"] := lexes_keyword (by simp)
    have hand : Lexes "AND".toList [keyword "AND"] := lexes_keyword (by simp)
    have htokens : tokens (" WHERE ".toList ++ " AND ".toList.intercalate texts) =
        some (keyword "WHERE" :: [keyword "AND"].intercalate (tokensOf floats filters)) :=
      (tokens_blank _).trans (hkeyword.blank (lexes_intercalate hand hlexes hne)).tokens_eq
    obtain ⟨predicates, hparse, hsays⟩ := parse_predicates floats filters
    rw [if_neg hne, whereTokens_eq hfilters, htokens, Option.bind_some, parseWhere_tokens htss]
    · exact ⟨rfl, predicates, hparse, hsays⟩
    · intro ts hts
      obtain ⟨f, -, rfl⟩ := List.mem_map.1 hts
      exact and_not_mem f

def oneAndHalf : Floats Unit where
  negative _ := false
  text _ := ⟨['1'], some ['5'], none, List.cons_ne_nil _ _, List.all_eq_true.1 rfl, nofun⟩
  read _ text := if text = "1.5".toList then some () else none
  read_text _ := rfl

def hostileFilters : List (PreviewFilter (FilterValue Unit)) :=
  [⟨"a\"b", .compare .eq (.string "' OR 1=1 --")⟩, ⟨"n", .compare .lt (.float ())⟩]

theorem hostile_filters_read_back : ∃ predicates,
    (tokens " WHERE \"a\"\"b\" = ''' OR 1=1 --' AND \"n\" < 1.5".toList).bind parseWhere = some predicates ∧
      List.Forall₂ (Says oneAndHalf) hostileFilters predicates :=
  (@preview_where_reads_back _ oneAndHalf hostileFilters ["n", "a\"b"] _ rfl).2

end Phlo.Preview
