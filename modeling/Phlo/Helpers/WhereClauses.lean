import Mathlib
import Phlo.Helpers.SyntheticKey
import Phlo.Library.ConditionSyntax
import Phlo.RunEvidence.TextRedaction

/-!
# Predicates behind a query

`apply_where` edits the text of a query: the predicates, each in brackets and joined by AND, are put behind
it after AND if the text has the word WHERE anywhere, and after WHERE otherwise.

* `whereAnd`, `applyWhere`, `renderPartitionPredicate` — the texts;
* `readQuery`, `readCondition` — what the texts mean as queries and conditions, for any grammar of columns,
  tables and atoms.
-/

namespace Phlo.Helpers

open Phlo.Library

/-! ### The texts -/

/-- The predicates that are neither missing nor empty. -/
def statedPredicates (predicates : List (Option (List Char))) : List (List Char) :=
  predicates.reduceOption.filter fun predicate => !predicate.isEmpty

/-- `where_and` -/
def whereAnd (predicates : List (Option (List Char))) : List Char :=
  List.intercalate " AND ".toList ((statedPredicates predicates).map fun predicate => '(' :: predicate ++ [')'])

/-- `sql.strip().rstrip(";")` -/
def withoutTerminator (sql : List Char) : List Char :=
  ((RunEvidence.strip sql).reverse.dropWhile (· == ';')).reverse

/-- `\bwhere\b`, in any case -/
def whereKeyword : Pattern :=
  .seqs [RunEvidence.wordBoundary, RunEvidence.letters "where", RunEvidence.wordBoundary]

/-- `apply_where` -/
def applyWhere (sql : List Char) (predicates : List (Option (List Char))) : List Char :=
  let predicate := whereAnd predicates
  let stripped := withoutTerminator sql
  if predicate.isEmpty then stripped
  else
    let keyword := if whereKeyword.occursIn stripped then " AND ".toList else " WHERE ".toList
    stripped ++ keyword ++ predicate

/-- `PartitionScope` -/
structure PartitionScope where
  partitionKey : Option String
  partitionColumn : String
  start : Option String
  stop : Option String
  rollingWindowDays : Option ℤ
  fullTable : Bool

/-- `table_ref_sql` of one part that is not to be quoted -/
def tableRefSql (part : String) : Except ConfigError String :=
  let segments := RunEvidence.splitOn '.' part.toList
  if part.isEmpty || segments.all fun segment => isIdentifier (String.ofList segment) then .ok part
  else .error ⟨"Unsafe SQL identifier: " ++ part, ["Pass quote_parts=True or use simple identifier names."]⟩

/-- A comparison of the column with a text, unless the text is missing or empty. -/
def comparison (column operator : String) (value : Option String) : Option (List Char) :=
  match value with
  | some value => if value.isEmpty then none else some (column ++ operator ++ literal value).toList
  | none => none

/-- `render_partition_predicate`; `daysAgo` is the ISO date of so many days before today. -/
def renderPartitionPredicate (daysAgo : ℤ → String) (scope : PartitionScope) :
    Except ConfigError (Option (List Char)) :=
  if scope.fullTable then .ok none
  else do
    let column ← tableRefSql scope.partitionColumn
    match comparison column " = " scope.partitionKey with
    | some predicate => return some predicate
    | none =>
      let window := match scope.rollingWindowDays with
        | some days => if days = 0 then none else comparison column " >= " (some (daysAgo days))
        | none => none
      let predicate := whereAnd
        [comparison column " >= " scope.start, comparison column " <= " scope.stop, window]
      return if predicate.isEmpty then none else some predicate

/-! ### What the texts mean -/

def charKind (c : Char) : CharKind :=
  if RunEvidence.isWordChar c then .letter
  else if RunEvidence.isSpace c then .blank
  else if c = '\'' || c = '"' then .quote
  else if c = '(' then .opened
  else if c = ')' then .closed
  else if c = ';' then .terminator
  else .symbol

variable {c : Char} {sql first : List Char} {tokens : List QueryToken} {predicates : List (Option (List Char))}
  {rest : List (List Char)}

theorem charKind_of_isWordChar (h : RunEvidence.isWordChar c = true) : charKind c = .letter :=
  if_pos h

theorem isWordChar_of_charKind (h : charKind c ≠ .letter) : RunEvidence.isWordChar c = false := by
  cases hc : RunEvidence.isWordChar c with
  | false => rfl
  | true => exact absurd (charKind_of_isWordChar hc) h

theorem isWordChar_of_isAlpha (h : c.isAlpha = true) : RunEvidence.isWordChar c = true := by
  simp [RunEvidence.isWordChar, Char.isAlphanum, h]

/-- The letters, blanks and quotes of the queries. -/
def queryAlphabet : Alphabet where
  kind := charKind
  opened := by decide
  closed := by decide
  space := by decide
  capital c hc := charKind_of_isWordChar (isWordChar_of_isAlpha (by simp [Char.isAlpha, hc]))

def readQuery (g : Grammar) (sql : List Char) : Option Query :=
  (scan queryAlphabet .between sql).bind (parseQuery g)

def readCondition (g : Grammar) (text : List Char) : Option Condition :=
  (scan queryAlphabet .between text).bind (parseCondition g)

/-! ### Blanks and terminators -/

theorem isWordChar_of_isSpace (h : RunEvidence.isSpace c = true) : RunEvidence.isWordChar c = false := by
  have halphanum : c.isAlphanum = false := by
    simp only [RunEvidence.isSpace, Bool.or_eq_true, Bool.and_eq_true, decide_eq_true_eq, beq_iff_eq,
      Char.toNat] at h
    simp only [Char.isAlphanum, Char.isAlpha, Char.isUpper, Char.isLower, Char.isDigit, ge_iff_le,
      UInt32.le_iff_toNat_le, Bool.or_eq_false_iff, Bool.and_eq_false_iff, decide_eq_false_iff_not,
      UInt32.reduceToNat, Char.reduceVal]
    omega
  have hunderscore : (c == '_') = false := by
    cases hc : c == '_' with
    | false => rfl
    | true => rw [beq_iff_eq.1 hc] at h; exact absurd h (by decide)
  simp [RunEvidence.isWordChar, halphanum, hunderscore, h]

theorem charKind_of_isSpace (h : RunEvidence.isSpace c = true) : charKind c = .blank := by
  rw [charKind, if_neg (by simp [isWordChar_of_isSpace h]), if_pos h]

variable {text word : List Char} {query : Query}

theorem kind_of_mem_takeWhile_isSpace (h : c ∈ text.takeWhile RunEvidence.isSpace) : queryAlphabet.kind c = .blank :=
  charKind_of_isSpace (List.mem_takeWhile_imp h)

theorem scan_strip (sql : List Char) :
    scan queryAlphabet .between (RunEvidence.strip sql) = scan queryAlphabet .between sql := by
  have hfront : scan queryAlphabet .between sql =
      scan queryAlphabet .between (sql.dropWhile RunEvidence.isSpace) := by
    conv_lhs => rw [← List.takeWhile_append_dropWhile (p := RunEvidence.isSpace) (l := sql)]
    exact scan_blanks_append (fun c hc => kind_of_mem_takeWhile_isSpace hc) _
  have hsplit : sql.dropWhile RunEvidence.isSpace = RunEvidence.strip sql ++
      ((sql.dropWhile RunEvidence.isSpace).reverse.takeWhile RunEvidence.isSpace).reverse := by
    rw [RunEvidence.strip, ← List.reverse_append, List.takeWhile_append_dropWhile, List.reverse_reverse]
  rw [hfront, hsplit]
  exact (scan_append_blanks _ fun c hc => kind_of_mem_takeWhile_isSpace (List.mem_reverse.1 hc)).symm

theorem withoutTerminator_of_scan (h : scan queryAlphabet .between sql = some tokens) :
    withoutTerminator sql = RunEvidence.strip sql := by
  rw [← scan_strip] at h
  rw [withoutTerminator]
  generalize RunEvidence.strip sql = text at h ⊢
  cases hreverse : text.reverse with
  | nil => rw [List.reverse_eq_nil_iff.1 hreverse]; rfl
  | cons c rest =>
    have htext : text = rest.reverse ++ [c] := by rw [← text.reverse_reverse, hreverse, List.reverse_cons]
    have hc : ¬(c == ';') = true := by
      intro hc
      rw [htext, beq_iff_eq.1 hc, scan_append_terminator _ (by decide)] at h
      cases h
    rw [List.dropWhile_cons_of_neg (p := (· == ';')) hc, List.reverse_cons, htext]

theorem scan_withoutTerminator (h : scan queryAlphabet .between sql = some tokens) :
    scan queryAlphabet .between (withoutTerminator sql) = some tokens := by
  rw [withoutTerminator_of_scan h, scan_strip, h]

/-! ### The predicates in the text -/

theorem intercalate_cons (separator first : List Char) (rest : List (List Char)) :
    List.intercalate separator (first :: rest) = first ++ rest.flatMap (separator ++ ·) := by
  induction rest generalizing first with
  | nil => simp [List.intercalate]
  | cons second rest ih =>
    rw [List.flatMap_cons, List.append_assoc, ← ih]
    simp [List.intercalate]

def keywordPredicate (keyword predicate : List Char) : List Char :=
  (' ' :: keyword ++ [' ']) ++ ('(' :: predicate ++ [')'])

theorem applyWhere_of_stated (h : statedPredicates predicates = first :: rest) (sql : List Char) :
    applyWhere sql predicates = withoutTerminator sql ++ (keywordPredicate
        (if whereKeyword.occursIn (withoutTerminator sql) then "AND".toList else "WHERE".toList) first ++
        rest.flatMap (keywordPredicate "AND".toList)) := by
  have hwhere : whereAnd predicates =
      ('(' :: first ++ [')']) ++ rest.flatMap (keywordPredicate "AND".toList) := by
    rw [whereAnd, h, List.map_cons, intercalate_cons, List.flatMap_map]
    rfl
  rw [applyWhere]
  simp only [hwhere, List.cons_append, List.isEmpty_cons, Bool.false_eq_true, if_false]
  split <;> simp [keywordPredicate, List.append_assoc]

theorem applyWhere_of_not_stated (h : statedPredicates predicates = []) (sql : List Char) :
    applyWhere sql predicates = withoutTerminator sql := by
  rw [applyWhere, whereAnd, h]
  rfl

def IsCapitalWord (keyword : List Char) : Prop := keyword ≠ [] ∧ ∀ c ∈ keyword, c.isUpper = true

theorem isCapitalWord_and : IsCapitalWord "AND".toList := ⟨by decide, List.all_eq_true.1 (by decide)⟩

theorem isCapitalWord_where : IsCapitalWord "WHERE".toList := ⟨by decide, List.all_eq_true.1 (by decide)⟩

theorem scan_keywordPredicate {keyword : List Char} (hkeyword : IsCapitalWord keyword) {predicate : List Char}
    (h : scan queryAlphabet .between predicate = some tokens) (rest : List Char) :
    scan queryAlphabet .between (keywordPredicate keyword predicate ++ rest) =
      (scan queryAlphabet .between rest).map (.word keyword :: bracketed tokens ++ ·) := by
  have ⟨c, keyword', hkeyword'⟩ := List.exists_cons_of_ne_nil hkeyword.1
  subst hkeyword'
  have htext : keywordPredicate (c :: keyword') predicate ++ rest =
      ' ' :: (c :: keyword') ++ ' ' :: ('(' :: (predicate ++ ')' :: rest)) := by
    simp [keywordPredicate, List.append_assoc]
  rw [htext, scan_capital_word hkeyword.2, scan_opened, scan_append Alphabet.breaks_closed h, scan_closed]
  cases scan queryAlphabet .between rest with
  | none => rfl
  | some more => simp [bracketed]

theorem scan_predicates {predicates : List (List Char)} {texts : List (List QueryToken)}
    (h : List.Forall₂ (fun predicate tokens => scan queryAlphabet .between predicate = some tokens)
      predicates texts) : scan queryAlphabet .between (predicates.flatMap (keywordPredicate "AND".toList)) =
      some (furtherFactors (.word "AND".toList) texts) := by
  induction h with
  | nil => rfl
  | @cons predicate tokens predicates texts hscan _ ih =>
    rw [List.flatMap_cons, scan_keywordPredicate isCapitalWord_and hscan, ih]
    rfl

theorem scan_append_predicates {query : List QueryToken} (hsql : scan queryAlphabet .between sql = some query)
    {keyword : List Char} (hkeyword : IsCapitalWord keyword)
    (hfirst : scan queryAlphabet .between first = some tokens) {predicates : List (List Char)}
    {texts : List (List QueryToken)}
    (h : List.Forall₂ (fun predicate tokens => scan queryAlphabet .between predicate = some tokens) predicates texts) :
    scan queryAlphabet .between (sql ++ (keywordPredicate keyword first ++
      predicates.flatMap (keywordPredicate "AND".toList))) = some (query ++ (.word keyword :: bracketed tokens ++
        furtherFactors (.word "AND".toList) texts)) := by
  have happend := scan_append Alphabet.breaks_space hsql (keyword ++ ' ' :: '(' :: first ++ [')'] ++
    predicates.flatMap (keywordPredicate "AND".toList))
  have hpredicates := scan_keywordPredicate hkeyword hfirst (predicates.flatMap (keywordPredicate "AND".toList))
  rw [scan_predicates h] at hpredicates
  have htext : ' ' :: (keyword ++ ' ' :: '(' :: first ++ [')'] ++
      predicates.flatMap (keywordPredicate "AND".toList)) =
        keywordPredicate keyword first ++ predicates.flatMap (keywordPredicate "AND".toList) := by
    simp [keywordPredicate]
  rw [htext] at happend
  rw [happend, hpredicates]
  rfl

/-! ### The word in the text -/

theorem toLower_of_not_isUpper (h : ¬c.isUpper = true) : c.toLower = c := by
  simp only [Char.isUpper, decide_eq_true_eq] at h
  rw [Char.toLower, dif_neg h]

theorem foldCase_of_toLower {d : Char} (hd : d.toNat < 128) (h : c.toLower = d) :
    (RunEvidence.foldCase c == d) = true := by
  have hlarge : ∀ n : ℕ, 128 ≤ n → (c.toNat == n) = false := by
    intro n hn
    cases hc : c.toNat == n with
    | false => rfl
    | true =>
      have hvalue : c.val.toNat = n := beq_iff_eq.1 hc
      have hupper : ¬c.isUpper = true := by
        simp only [Char.isUpper, ge_iff_le, UInt32.le_iff_toNat_le, decide_eq_true_eq,
          UInt32.reduceToNat, Char.reduceVal]
        omega
      rw [← toLower_of_not_isUpper hupper, h] at hc
      have : d.toNat = n := beq_iff_eq.1 hc
      omega
  rw [RunEvidence.foldCase, hlarge 0x17f (by decide), hlarge 0x212a (by decide), h]
  simp

theorem foldCase_of_where (h : word.map Char.toLower = "where".toList) :
    List.Forall₂ (fun (test : Char → Bool) x => test x = true)
      ("where".toList.map fun c x => RunEvidence.foldCase x == c) word := by
  have hpairs : ∀ {letters word : List Char}, (∀ c ∈ letters, c.toNat < 128) → word.map Char.toLower = letters →
      List.Forall₂ (fun (test : Char → Bool) x => test x = true)
        (letters.map fun c x => RunEvidence.foldCase x == c) word := by
    intro letters word hascii h
    subst h
    induction word with
    | nil => exact .nil
    | cons x word ih =>
      exact .cons (foldCase_of_toLower (hascii _ List.mem_cons_self) rfl)
        (ih fun c hc => hascii c (List.mem_cons_of_mem _ hc))
  have hascii : ("where".toList.all fun c => decide (c.toNat < 128)) = true := by decide
  exact hpairs (fun c hc => of_decide_eq_true (List.all_eq_true.1 hascii c hc)) h

theorem isWordChar_of_where (h : word.map Char.toLower = "where".toList) :
    ∀ c ∈ word, RunEvidence.isWordChar c = true := by
  intro c hc
  by_cases hupper : c.isUpper = true
  · exact isWordChar_of_isAlpha (by rw [Char.isAlpha, hupper]; rfl)
  · have hmem : c.toLower ∈ "where".toList := h ▸ List.mem_map_of_mem hc
    rw [toLower_of_not_isUpper hupper] at hmem
    exact isWordChar_of_isAlpha (List.all_eq_true.1 (by decide : "where".toList.all Char.isAlpha = true) c hmem)

theorem not_isAt_head? (h : queryAlphabet.NoLetterAhead text) : isAt RunEvidence.isWordChar text.head? = false := by
  cases text with
  | nil => rfl
  | cons c text => exact isWordChar_of_charKind (h c rfl)

theorem matchAt_whereKeyword {after : List Char} {before : Option Char}
    (hword : (c :: word).map Char.toLower = "where".toList) (hbefore : isAt RunEvidence.isWordChar before = false)
    (hfirst : RunEvidence.isWordChar c = true)
    (hlast : isAt RunEvidence.isWordChar ((c :: word).getLast?.or before) = true)
    (hafter : isAt RunEvidence.isWordChar after.head? = false) (n : ℕ) (captured : List Char) :
    matchAt (n + whereKeyword.size + 1) whereKeyword ⟨before, (c :: word) ++ after, captured⟩ some =
      some ⟨(c :: word).getLast?.or before, after, captured⟩ := by
  have hdef : whereKeyword = .seq RunEvidence.wordBoundary
    (.seq (.seqs (("where".toList.map fun c x => RunEvidence.foldCase x == c).map .char))
      (.seq RunEvidence.wordBoundary .empty)) := rfl
  have hsize : n + whereKeyword.size + 1 = n + 10 + 5 + 1 + 2 := rfl
  have hchars := fun k => matchAt_chars (foldCase_of_where hword) (n + 10) before after captured k
  rw [hsize, hdef, matchAt, RunEvidence.wordBoundary, matchAt]
  show (if (isAt RunEvidence.isWordChar before != isAt RunEvidence.isWordChar (some c)) = true then _ else _) = _
  rw [hbefore, if_pos (by simp [isAt, hfirst]), matchAt]
  refine (hchars _).trans ?_
  rw [matchAt, matchAt]
  show (if (isAt RunEvidence.isWordChar ((c :: word).getLast?.or before) !=
    isAt RunEvidence.isWordChar after.head?) = true then _ else _) = _
  rw [hlast, hafter, if_pos (by decide), matchAt]

theorem occursIn_of_standsIn (hword : word.map Char.toLower = "where".toList) (h : queryAlphabet.StandsIn word text) :
    whereKeyword.occursIn text = true := by
  have ⟨before, after, htext, hbefore, hafter⟩ := h
  rw [htext]
  refine occursIn_append before ?_
  have hletters := isWordChar_of_where hword
  have hfront : isAt RunEvidence.isWordChar before.getLast? = false := by
    have := not_isAt_head? hbefore
    rwa [List.head?_reverse] at this
  cases word with
  | nil => cases hword
  | cons c word =>
    have hlast : isAt RunEvidence.isWordChar ((c :: word).getLast?.or before.getLast?) = true := by
      rw [List.getLast?_eq_some_getLast (List.cons_ne_nil c word)]
      exact hletters _ (List.getLast_mem _)
    have hfound := matchAt_whereKeyword hword hfront (hletters c List.mem_cons_self) hlast
      (not_isAt_head? hafter) ((c :: word) ++ after).length []
    rw [Pattern.bound, Nat.add_comm _ ((c :: word) ++ after).length, hfound]
    rfl

theorem eq_where_of_lookup {letters : List Char} (h : keywords.lookup letters = some .WHERE) :
    letters = "where".toList := by
  have hmem : ∀ entries : List (List Char × Keyword), entries.lookup letters = some .WHERE →
      (letters, Keyword.WHERE) ∈ entries := by
    intro entries
    induction entries with
    | nil => nofun
    | cons entry entries ih =>
      intro h
      rw [List.lookup_cons] at h
      cases hkey : letters == entry.1 with
      | false => rw [hkey] at h; exact List.mem_cons_of_mem _ (ih h)
      | true =>
        rw [hkey] at h
        have hvalue : entry.2 = .WHERE := Option.some.inj h
        rw [beq_iff_eq.1 hkey, ← hvalue]
        exact List.mem_cons_self
  have hkeywords := hmem keywords h
  simp only [keywords, List.mem_cons, Prod.mk.injEq, reduceCtorEq, and_false, and_true, false_or, or_false,
    List.not_mem_nil] at hkeywords
  exact hkeywords

theorem occursIn_of_condition {g : Grammar} {condition : Condition} (h : readQuery g sql = some query)
    (hcondition : query.condition = some condition) : whereKeyword.occursIn (withoutTerminator sql) = true := by
  have ⟨tokens, htokens, hparse⟩ := Option.bind_eq_some_iff.1 h
  have ⟨t, hmem, ht⟩ := where_mem_of_parseQuery hparse hcondition
  cases t with
  | word letters =>
    exact occursIn_of_standsIn (eq_where_of_lookup ht)
      (occurs_of_mem_scan (scan_withoutTerminator htokens) hmem)
  | opened => cases ht
  | closed => cases ht
  | quoted quote content => cases ht
  | symbol c => cases ht

/-! ### Narrowed queries -/

section Narrowing

variable (g : Grammar) {L : Type*} [DistribLattice L] [OrderTop L] {Row : Type*} (neg : L → L)
  (meaning : Row → List QueryToken → L)

/-- The text that is returned is a query of the same columns and table, whose condition is worth what the
condition before and the predicates are worth together, on every row. -/
def Narrows (sql : List Char) (predicates : List (Option (List Char))) (query : Query)
    (conditions : List Condition) : Prop :=
  ∃ narrowed, readQuery g (applyWhere sql predicates) = some narrowed ∧ narrowed.columns = query.columns ∧
    narrowed.table = query.table ∧ ∀ row, narrowed.value neg (meaning row) =
      query.value neg (meaning row) ⊓ valueOfAll neg (meaning row) conditions

/-- There is nothing to add; or there is no condition, and the text has the word nowhere; or the
condition's disjuncts before the last one imply the predicates. -/
def Narrowable (sql : List Char) (predicates : List (Option (List Char))) (query : Query)
    (conditions : List Condition) : Prop :=
  statedPredicates predicates = [] ∨
    match query.condition with
    | none => whereKeyword.occursIn (withoutTerminator sql) = false
    | some condition => ∀ earlier ∈ condition.earlier?, ∀ row,
        earlier.value neg (meaning row) ≤ valueOfAll neg (meaning row) conditions

variable {g neg meaning}

variable {conditions : List Condition}

theorem forall₂_readCondition {predicates : List (List Char)}
    (h : List.Forall₂ (fun predicate c => readCondition g predicate = some c) predicates conditions) :
    ∃ texts, List.Forall₂ (fun predicate tokens => scan queryAlphabet .between predicate = some tokens)
        predicates texts ∧ List.Forall₂ (fun tokens c => parseCondition g tokens = some c) texts conditions := by
  induction h with
  | nil => exact ⟨[], .nil, .nil⟩
  | cons hfirst _ ih =>
    have ⟨tokens, htokens, hparse⟩ := Option.bind_eq_some_iff.1 hfirst
    have ⟨texts, hscan, hparses⟩ := ih
    exact ⟨tokens :: texts, .cons htokens hscan, .cons hparse hparses⟩

theorem readQuery_applyWhere_of_condition {condition : Condition} (hsql : readQuery g sql = some query)
    (hcondition : query.condition = some condition) (hstated : statedPredicates predicates = first :: rest)
    (h : List.Forall₂ (fun predicate c => readCondition g predicate = some c) (first :: rest) conditions) :
    readQuery g (applyWhere sql predicates) =
      some { query with condition := some (condition.narrowed conditions) } := by
  have ⟨tokens, htokens, hparse⟩ := Option.bind_eq_some_iff.1 hsql
  have ⟨texts, hscan, hparses⟩ := forall₂_readCondition h
  cases hscan with
  | @cons _ text _ texts hfirst hrest =>
    rw [applyWhere_of_stated hstated, if_pos (occursIn_of_condition hsql hcondition), readQuery,
      scan_append_predicates (scan_withoutTerminator htokens) isCapitalWord_and hfirst hrest]
    exact parseQuery_append_and hparse hcondition (t := .word "AND".toList) (by decide) hparses

theorem readQuery_applyWhere_of_none (hsql : readQuery g sql = some query) (hcondition : query.condition = none)
    (hstated : statedPredicates predicates = first :: rest) {c : Condition}
    (h : List.Forall₂ (fun predicate c => readCondition g predicate = some c) (first :: rest) (c :: conditions)) :
    readQuery g (applyWhere sql predicates) = if whereKeyword.occursIn (withoutTerminator sql) then none
      else some { query with condition := some (Condition.conjoined (.group c) conditions) } := by
  have ⟨tokens, htokens, hparse⟩ := Option.bind_eq_some_iff.1 hsql
  have ⟨texts, hscan, hparses⟩ := forall₂_readCondition h
  cases hscan with
  | @cons _ text _ texts hfirst hrest =>
    cases hparses with
    | cons hgroup hfactors =>
      rw [applyWhere_of_stated hstated]
      cases hfound : whereKeyword.occursIn (withoutTerminator sql) with
      | true =>
        rw [if_pos rfl, if_pos rfl, readQuery,
          scan_append_predicates (scan_withoutTerminator htokens) isCapitalWord_and hfirst hrest]
        exact parseQuery_append_and_eq_none hparse hcondition (t := .word "AND".toList) (by decide) _
      | false =>
        rw [if_neg nofun, if_neg nofun, readQuery,
          scan_append_predicates (scan_withoutTerminator htokens) isCapitalWord_where hfirst hrest]
        exact parseQuery_append_where hparse hcondition (t := .word "WHERE".toList)
          (u := .word "AND".toList) (by decide) (by decide) hgroup hfactors

/-- The predicates narrow a query, whatever its columns, its table and its atoms are and whatever they
mean, exactly if it is narrowable. -/
theorem apply_where_iff {sql : List Char} {query : Query} (hsql : readQuery g sql = some query)
    {predicates : List (Option (List Char))} {conditions : List Condition}
    (hpredicates : List.Forall₂ (fun predicate c => readCondition g predicate = some c)
      (statedPredicates predicates) conditions) : Narrows g neg meaning sql predicates query conditions ↔
      Narrowable neg meaning sql predicates query conditions := by
  cases hstated : statedPredicates predicates with
  | nil =>
    rw [hstated] at hpredicates
    cases hpredicates
    have ⟨tokens, htokens, hparse⟩ := Option.bind_eq_some_iff.1 hsql
    have hread : readQuery g (applyWhere sql predicates) = some query := by
      rw [applyWhere_of_not_stated hstated, readQuery, scan_withoutTerminator htokens]
      exact hparse
    exact ⟨fun _ => .inl hstated, fun _ => ⟨query, hread, rfl, rfl, fun row => (inf_top_eq _).symm⟩⟩
  | cons first rest =>
    rw [hstated] at hpredicates
    have hne : statedPredicates predicates ≠ [] := by rw [hstated]; exact List.cons_ne_nil first rest
    rw [Narrowable, or_iff_right hne]
    cases hcondition : query.condition with
    | none =>
      cases conditions with
      | nil => cases hpredicates
      | cons c conditions =>
        rw [Narrows, readQuery_applyWhere_of_none hsql hcondition hstated hpredicates]
        cases whereKeyword.occursIn (withoutTerminator sql) with
        | true => exact ⟨fun ⟨_, h, _⟩ => (Option.some_ne_none _ h.symm).elim, fun h => (Bool.noConfusion h)⟩
        | false =>
          refine ⟨fun _ => rfl, fun _ => ⟨_, rfl, rfl, rfl, fun row => ?_⟩⟩
          have hquery : query.value neg (meaning row) = ⊤ := by rw [Query.value, hcondition]
          rw [hquery, top_inf_eq]
          exact value_conjoined neg (meaning row) (.group c) conditions
    | some condition =>
      have hread := readQuery_applyWhere_of_condition hsql hcondition hstated hpredicates
      have hquery : ∀ row, query.value neg (meaning row) = condition.value neg (meaning row) := by
        intro row
        rw [Query.value, hcondition]
      constructor
      · rintro ⟨narrowed, hnarrowed, _, _, hvalue⟩ earlier hearlier row
        cases hread.symm.trans hnarrowed
        have hrow := hvalue row
        rw [hquery] at hrow
        exact (value_narrowed_iff neg (meaning row) condition conditions).1 hrow earlier hearlier
      · intro h
        refine ⟨_, hread, rfl, rfl, fun row => ?_⟩
        rw [hquery]
        exact (value_narrowed_iff neg (meaning row) condition conditions).2 fun earlier hearlier =>
          h earlier hearlier row

end Narrowing

/-! ### A query over events -/

section Events

def anyTokens : Grammar := ⟨(!·.isEmpty), (!·.isEmpty), (!·.isEmpty)⟩

/-- The value of `name = 'text'` on a row of texts by name; other atoms are false. -/
def equals (row : List (List Char × List Char)) : List QueryToken → Bool
  | [.word name, .symbol '=', .quoted '\'' text] => row.lookup name == some text
  | _ => false

def eventsPartition : PartitionScope :=
  ⟨some "2024-01-01", "_phlo_partition_date", none, none, none, false⟩

def partitionPredicate : List Char := "_phlo_partition_date = '2024-01-01'".toList

def eventQuery : List Char := "SELECT id FROM events WHERE kind = 'where'".toList

def eventsOfTwoKinds : List Char := "SELECT id FROM events WHERE kind = 'a' OR kind = 'b'".toList

def kindIs (kind : List Char) : Condition := .atom [.word "kind".toList, .symbol '=', .quoted '\'' kind]

def inPartition : Condition :=
  .atom [.word "_phlo_partition_date".toList, .symbol '=', .quoted '\'' "2024-01-01".toList]

theorem one_kind_narrows : Narrows anyTokens Bool.not equals eventQuery [none, some partitionPredicate]
      ⟨[.word "id".toList], [.word "events".toList], some (kindIs "where".toList)⟩ [inPartition] :=
  (apply_where_iff (by decide +kernel) (.cons (by decide +kernel) .nil)).2 (.inr nofun)

/-- The predicate of a partition behind a disjunction: the events of the other kind are read from every
partition. -/
theorem disjunction_bypasses_partition :
    renderPartitionPredicate (fun _ => "") eventsPartition = .ok (some partitionPredicate) ∧
      readQuery anyTokens eventsOfTwoKinds = some ⟨[.word "id".toList], [.word "events".toList],
        some (.or (kindIs ['a']) (kindIs ['b']))⟩ ∧ readCondition anyTokens partitionPredicate = some inPartition ∧
      ¬Narrows anyTokens Bool.not equals eventsOfTwoKinds [some partitionPredicate]
        ⟨[.word "id".toList], [.word "events".toList], some (.or (kindIs ['a']) (kindIs ['b']))⟩ [inPartition] := by
  refine ⟨by decide +kernel, by decide +kernel, by decide +kernel, ?_⟩
  rintro ⟨narrowed, hnarrowed, _, _, hvalue⟩
  have hread : readQuery anyTokens (applyWhere eventsOfTwoKinds [some partitionPredicate]) =
      some ⟨[.word "id".toList], [.word "events".toList],
        some (.or (kindIs ['a']) (.and (kindIs ['b']) (.group inPartition)))⟩ := by decide +kernel
  cases hread.symm.trans hnarrowed
  have hrow := hvalue [("kind".toList, ['a']), ("_phlo_partition_date".toList, "2023-12-31".toList)]
  exact absurd hrow (by decide)

end Events

end Phlo.Helpers
