import Mathlib.Order.ModularLattice
import Phlo.Library.TokenScanner

/-!
# Conditions of a query

A query selects columns from a table and may have a condition: atoms combined by NOT, AND and OR, with
brackets, where NOT binds closer than AND and AND closer than OR.  The reader goes through the tokens
once, with a stack of the brackets it is in.  Which token lists are columns, tables and atoms is a
parameter; an atom may have brackets of its own, and the AND of a BETWEEN belongs to its atom.

* `parseCondition`, `parseQuery` — the trees that token lists are read as;
* `foldlM_group` — a condition in brackets is read as a group, wherever a factor is expected;
* `Condition.value` — what a condition is worth, in any lattice of truth values.
-/

namespace Phlo.Library

/-! ### Syntax -/

inductive Keyword where
  | SELECT | FROM | WHERE | AND | OR | NOT | BETWEEN
  deriving DecidableEq

def keywords : List (List Char × Keyword) :=
  [("select".toList, .SELECT), ("from".toList, .FROM), ("where".toList, .WHERE), ("and".toList, .AND),
    ("or".toList, .OR), ("not".toList, .NOT), ("between".toList, .BETWEEN)]

def QueryToken.keyword? : QueryToken → Option Keyword
  | .word letters => keywords.lookup (letters.map Char.toLower)
  | _ => none

inductive Condition where
  | atom (tokens : List QueryToken)
  | not (c : Condition)
  | and (a b : Condition)
  | or (a b : Condition)
  | group (c : Condition)
  deriving DecidableEq

structure Query where
  columns : List QueryToken
  table : List QueryToken
  condition : Option Condition
  deriving DecidableEq

/-- The token lists that are columns, tables and atoms. -/
structure Grammar where
  isColumns : List QueryToken → Bool
  isTable : List QueryToken → Bool
  isAtom : List QueryToken → Bool

def QueryToken.nest (depth : ℕ) : QueryToken → Option ℕ
  | .opened => some (depth + 1)
  | .closed => if depth = 0 then none else some (depth - 1)
  | _ => some depth

/-! ### Reading a condition -/

/-- Two conditions, the first of which may be missing. -/
def joined (f : Condition → Condition → Condition) : Option Condition → Condition → Condition
  | none, c => c
  | some a, c => f a c

/-- What has been read of the condition in a bracket: the disjuncts before the current one, the
factors of the current one, and the negations in front of the next factor. -/
structure Level where
  earlier : Option Condition
  factors : Option Condition
  negations : ℕ

namespace Level

def empty : Level := ⟨none, none, 0⟩

def disjunct (l : Level) (factor : Condition) : Condition :=
  joined .and l.factors (Condition.not^[l.negations] factor)

def close (l : Level) (factor : Condition) : Condition := joined .or l.earlier (l.disjunct factor)

def conjoin (l : Level) (factor : Condition) : Level := ⟨l.earlier, some (l.disjunct factor), 0⟩

def disjoin (l : Level) (factor : Condition) : Level := ⟨some (l.close factor), none, 0⟩

end Level

/-- A factor is expected, an atom is being read, or a bracket has been closed. -/
inductive Position where
  | expected
  | inAtom (read : List QueryToken) (depth : ℕ) (between : Bool)
  | grouped (inner : Condition)

def Position.factor? (g : Grammar) : Position → Option Condition
  | .expected => none
  | .inAtom read depth between =>
    if depth = 0 ∧ between = false ∧ g.isAtom read then some (.atom read) else none
  | .grouped inner => some (.group inner)

structure ConditionReader where
  level : Level
  outer : List Level
  position : Position

namespace ConditionReader

def start : ConditionReader := ⟨.empty, [], .expected⟩

def behind (r : ConditionReader) (factor : Condition) (t : QueryToken) : Option ConditionReader :=
  match t, r.outer with
  | .closed, l :: outer => some ⟨l, outer, .grouped (r.level.close factor)⟩
  | .closed, [] => none
  | t, outer =>
    match t.keyword? with
    | some .AND => some ⟨r.level.conjoin factor, outer, .expected⟩
    | some .OR => some ⟨r.level.disjoin factor, outer, .expected⟩
    | _ => none

def before (r : ConditionReader) (t : QueryToken) : Option ConditionReader :=
  match t with
  | .opened => some ⟨.empty, r.level :: r.outer, .expected⟩
  | .closed => none
  | t =>
    match t.keyword? with
    | some .NOT => some { r with level := { r.level with negations := r.level.negations + 1 } }
    | none => some { r with position := .inAtom [t] 0 false }
    | _ => none

/-- A token in an atom outside of its brackets: AND and OR end the atom, unless a BETWEEN waits for
its AND. -/
def within (g : Grammar) (r : ConditionReader) (read : List QueryToken) (between : Bool) (t : QueryToken) :
    Option ConditionReader :=
  let ended := (r.position.factor? g).bind (r.behind · t)
  let more := fun between => some { r with position := .inAtom (read ++ [t]) 0 between }
  match t with
  | .opened => some { r with position := .inAtom (read ++ [t]) 1 between }
  | .closed => ended
  | t =>
    match t.keyword? with
    | some .AND => if between then more false else ended
    | some .OR => ended
    | some .BETWEEN => more true
    | some .NOT => more between
    | none => more between
    | _ => none

def step (g : Grammar) (r : ConditionReader) (t : QueryToken) : Option ConditionReader :=
  match r.position with
  | .expected => r.before t
  | .grouped inner => r.behind (.group inner) t
  | .inAtom read 0 between => r.within g read between t
  | .inAtom read (depth + 1) between =>
    (t.nest (depth + 1)).map fun depth => { r with position := .inAtom (read ++ [t]) depth between }

/-- The condition, if all brackets are closed and the last factor is complete. -/
def finish (g : Grammar) (r : ConditionReader) : Option Condition :=
  match r.outer with
  | [] => (r.position.factor? g).map r.level.close
  | _ :: _ => none

end ConditionReader

def parseCondition (g : Grammar) (tokens : List QueryToken) : Option Condition :=
  (tokens.foldlM (ConditionReader.step g) .start).bind (·.finish g)

/-! ### Reading a query -/

inductive QueryReader where
  | start
  | inColumns (read : List QueryToken) (depth : ℕ)
  | inTable (columns read : List QueryToken) (depth : ℕ)
  | inCondition (columns table : List QueryToken) (reader : ConditionReader)

namespace QueryReader

def step (g : Grammar) (r : QueryReader) (t : QueryToken) : Option QueryReader :=
  match r with
  | .start => if t.keyword? = some .SELECT then some (.inColumns [] 0) else none
  | .inColumns read depth =>
    let more := (t.nest depth).map (.inColumns (read ++ [t]))
    if depth = 0 then
      match t.keyword? with
      | some .FROM => if g.isColumns read then some (.inTable read [] 0) else none
      | some .SELECT | some .WHERE | some .AND | some .OR => none
      | _ => more
    else more
  | .inTable columns read depth =>
    let more := (t.nest depth).map (.inTable columns (read ++ [t]))
    if depth = 0 then
      match t.keyword? with
      | some .WHERE => if g.isTable read then some (.inCondition columns read .start) else none
      | some .SELECT | some .FROM | some .AND | some .OR => none
      | _ => more
    else more
  | .inCondition columns table reader => (reader.step g t).map (.inCondition columns table)

def finish (g : Grammar) : QueryReader → Option Query
  | .start => none
  | .inColumns _ _ => none
  | .inTable columns read depth =>
    if depth = 0 ∧ g.isTable read then some ⟨columns, read, none⟩ else none
  | .inCondition columns table reader => (reader.finish g).map fun c => ⟨columns, table, some c⟩

end QueryReader

def parseQuery (g : Grammar) (tokens : List QueryToken) : Option Query :=
  (tokens.foldlM (QueryReader.step g) .start).bind (·.finish g)

variable {g : Grammar}

/-! ### Conditions in brackets -/

namespace ConditionReader

def inside (r : ConditionReader) (more : List Level) : ConditionReader :=
  { r with outer := r.outer ++ more }

variable {r r' : ConditionReader} {t : QueryToken}

theorem behind_inside {factor : Condition} (h : r.behind factor t = some r') (more : List Level) :
    (r.inside more).behind factor t = some (r'.inside more) := by
  have ⟨level, outer, position⟩ := r
  cases t with
  | closed =>
    cases outer with
    | nil => cases h
    | cons l outer => cases h; rfl
  | opened => cases h
  | word letters =>
    simp only [behind, inside] at h ⊢
    cases hk : QueryToken.keyword? (.word letters) with
    | none => rw [hk] at h; cases h
    | some k => rw [hk] at h; cases k <;> cases h <;> rfl
  | quoted quote content => cases h
  | symbol c => cases h

theorem before_inside (h : r.before t = some r') (more : List Level) :
    (r.inside more).before t = some (r'.inside more) := by
  have ⟨level, outer, position⟩ := r
  cases t with
  | closed => cases h
  | opened => cases h; rfl
  | word letters =>
    simp only [before, inside] at h ⊢
    cases hk : QueryToken.keyword? (.word letters) with
    | none => rw [hk] at h; cases h; rfl
    | some k => rw [hk] at h; cases k <;> cases h; rfl
  | quoted quote content => cases h; rfl
  | symbol c => cases h; rfl

theorem ended_inside (h : (r.position.factor? g).bind (r.behind · t) = some r') (more : List Level) :
    ((r.inside more).position.factor? g).bind ((r.inside more).behind · t) = some (r'.inside more) := by
  have ⟨factor, hfactor, hbehind⟩ := Option.bind_eq_some_iff.1 h
  show (r.position.factor? g).bind _ = _
  rw [hfactor]
  exact behind_inside hbehind more

theorem within_inside {read : List QueryToken} {between : Bool} (h : r.within g read between t = some r')
    (more : List Level) : (r.inside more).within g read between t = some (r'.inside more) := by
  cases t with
  | closed => exact ended_inside h more
  | opened => cases h; rfl
  | word letters =>
    simp only [within] at h ⊢
    cases hk : QueryToken.keyword? (.word letters) with
    | none => rw [hk] at h; cases h; rfl
    | some k =>
      rw [hk] at h
      cases k with
      | AND =>
        cases between with
        | true => cases h; rfl
        | false => exact ended_inside h more
      | OR => exact ended_inside h more
      | BETWEEN => cases h; rfl
      | NOT => cases h; rfl
      | SELECT => cases h
      | FROM => cases h
      | WHERE => cases h
  | quoted quote content => cases h; rfl
  | symbol c => cases h; rfl

theorem step_inside (h : r.step g t = some r') (more : List Level) :
    (r.inside more).step g t = some (r'.inside more) := by
  have ⟨level, outer, position⟩ := r
  cases position with
  | expected => exact before_inside h more
  | grouped inner => exact behind_inside h more
  | inAtom read depth between =>
    cases depth with
    | zero => exact within_inside h more
    | succ depth =>
      have ⟨depth', hnest, hr'⟩ := Option.map_eq_some_iff.1 h
      show (t.nest (depth + 1)).map _ = _
      rw [hnest, ← hr']
      rfl

theorem foldlM_inside {tokens : List QueryToken} (h : tokens.foldlM (step g) r = some r') (more : List Level) :
    tokens.foldlM (step g) (r.inside more) = some (r'.inside more) := by
  induction tokens generalizing r with
  | nil => cases h; rfl
  | cons t tokens ih =>
    rw [List.foldlM_cons] at h ⊢
    have ⟨next, hnext, hrest⟩ := Option.bind_eq_some_iff.1 h
    rw [step_inside hnext more]
    exact ih hrest

/-- A complete condition: no bracket is open and the last factor is complete. -/
theorem finish_eq_some {c : Condition} (h : r.finish g = some c) :
    r.outer = [] ∧ ∃ factor, r.position.factor? g = some factor ∧ c = r.level.close factor := by
  have ⟨level, outer, position⟩ := r
  cases outer with
  | cons l outer => cases h
  | nil =>
    have ⟨factor, hfactor, hc⟩ := Option.map_eq_some_iff.1 h
    exact ⟨rfl, factor, hfactor, hc.symm⟩

theorem step_of_factor {factor : Condition} (h : r.position.factor? g = some factor)
    (ht : t = .closed ∨ t.keyword? = some .AND ∨ t.keyword? = some .OR) : r.step g t = r.behind factor t := by
  have ⟨level, outer, position⟩ := r
  cases position with
  | expected => cases h
  | grouped inner => cases h; rfl
  | inAtom read depth between =>
    have hread : depth = 0 ∧ between = false ∧ g.isAtom read = true := by
      by_contra hno
      rw [Position.factor?, if_neg hno] at h
      cases h
    have ⟨hdepth, hbetween, hatom⟩ := hread
    subst hdepth hbetween
    show ConditionReader.within g _ read false t = _
    have hended : ((Position.inAtom read 0 false).factor? g).bind
        (ConditionReader.behind ⟨level, outer, .inAtom read 0 false⟩ · t) =
          ConditionReader.behind ⟨level, outer, .inAtom read 0 false⟩ factor t := by
      rw [show (Position.inAtom read 0 false).factor? g = some factor from h]
      rfl
    cases t with
    | closed => exact hended
    | opened => rcases ht with h | h | h <;> cases h
    | quoted quote content => rcases ht with h | h | h <;> cases h
    | symbol c => rcases ht with h | h | h <;> cases h
    | word letters =>
      rcases ht with ht | ht | ht
      · cases ht
      · simp only [within, ht]
        exact hended
      · simp only [within, ht]
        exact hended

theorem step_and {c : Condition} (h : r.finish g = some c) (ht : t.keyword? = some .AND) :
    ∃ factor, r.position.factor? g = some factor ∧ c = r.level.close factor ∧
      r.step g t = some ⟨r.level.conjoin factor, [], .expected⟩ := by
  have ⟨houter, factor, hfactor, hc⟩ := finish_eq_some h
  refine ⟨factor, hfactor, hc, ?_⟩
  rw [step_of_factor hfactor (.inr (.inl ht))]
  cases t with
  | word letters => simp only [behind, ht, houter]
  | closed => cases ht
  | opened => cases ht
  | quoted quote content => cases ht
  | symbol c => cases ht

end ConditionReader

def bracketed (tokens : List QueryToken) : List QueryToken := .opened :: tokens ++ [.closed]

open ConditionReader in
theorem foldlM_group {tokens : List QueryToken} {c : Condition} (h : parseCondition g tokens = some c)
    (level : Level) (outer : List Level) : (bracketed tokens).foldlM (step g) ⟨level, outer, .expected⟩ =
      some ⟨level, outer, .grouped c⟩ := by
  have ⟨r, hr, hfinish⟩ := Option.bind_eq_some_iff.1 h
  have ⟨houter, factor, hfactor, hc⟩ := finish_eq_some hfinish
  have hinner : tokens.foldlM (step g) ⟨.empty, level :: outer, .expected⟩ = some (r.inside (level :: outer)) :=
    foldlM_inside hr (level :: outer)
  rw [bracketed, List.foldlM_append, List.foldlM_cons]
  show (tokens.foldlM (step g) ⟨.empty, level :: outer, .expected⟩ >>= fun s => [.closed].foldlM (step g) s) = _
  rw [hinner]
  show ((r.inside (level :: outer)).step g .closed >>= fun s => some s) = _
  rw [step_of_factor (r := r.inside (level :: outer)) hfactor (.inl rfl)]
  show ((⟨r.level, r.outer ++ level :: outer, r.position⟩ : ConditionReader).behind factor .closed >>=
    fun s => some s) = _
  rw [houter, hc]
  rfl

/-! ### Further factors -/

def furtherFactors (t : QueryToken) (factors : List (List QueryToken)) : List QueryToken :=
  factors.flatMap fun tokens => t :: bracketed tokens

def Condition.conjoined (c : Condition) (factors : List Condition) : Condition :=
  factors.foldl (fun c factor => .and c (.group factor)) c

/-- What further factors behind a condition are read as: they are factors of its last disjunct. -/
def Condition.narrowed (factors : List Condition) : Condition → Condition
  | .or a b => .or a (b.conjoined factors)
  | c => c.conjoined factors

/-- The disjuncts before the last one. -/
def Condition.earlier? : Condition → Option Condition
  | .or a _ => some a
  | _ => none

theorem narrowed_of_earlier?_eq_none {c : Condition} (h : c.earlier? = none) (factors : List Condition) :
    c.narrowed factors = c.conjoined factors := by
  cases c with
  | or a b => cases h
  | atom tokens => rfl
  | not c => rfl
  | and a b => rfl
  | group c => rfl

theorem earlier?_of_factor? {position : Position} {factor : Condition}
    (h : position.factor? g = some factor) : factor.earlier? = none := by
  cases position with
  | expected => cases h
  | grouped inner => cases h; rfl
  | inAtom read depth between =>
    rw [Position.factor?] at h
    split at h
    · cases h
      rfl
    · cases h

theorem earlier?_disjunct {factor : Condition} (h : factor.earlier? = none) (l : Level) :
    (l.disjunct factor).earlier? = none := by
  rw [Level.disjunct]
  cases l.factors with
  | some a => rfl
  | none =>
    cases l.negations with
    | zero => exact h
    | succ n => rw [Function.iterate_succ_apply']; rfl

theorem narrowed_close {l : Level} {factor : Condition} (h : factor.earlier? = none) (factors : List Condition) :
    (l.close factor).narrowed factors = joined .or l.earlier ((l.disjunct factor).conjoined factors) := by
  rw [Level.close]
  cases l.earlier with
  | some a => rfl
  | none => exact narrowed_of_earlier?_eq_none (earlier?_disjunct h l) factors

variable {factors : List Condition} {texts : List (List QueryToken)} {q : Query}

open ConditionReader in
theorem foldlM_furtherFactors {t : QueryToken} (ht : t.keyword? = some .AND)
    (h : List.Forall₂ (fun tokens c => parseCondition g tokens = some c) texts factors) {r : ConditionReader}
    {c : Condition} (hr : r.finish g = some c) :
    ((furtherFactors t texts).foldlM (step g) r).bind (·.finish g) = some (c.narrowed factors) := by
  induction h generalizing r c with
  | nil =>
    have ⟨_, factor, hfactor, hc⟩ := finish_eq_some hr
    show r.finish g = _
    rw [hr, hc, narrowed_close (earlier?_of_factor? hfactor)]
    rfl
  | @cons tokens c₁ texts factors hparse _ ih =>
    have ⟨factor, hfactor, hc, hstep⟩ := step_and hr ht
    have hsimple := earlier?_of_factor? hfactor
    show (((t :: bracketed tokens) ++ furtherFactors t texts).foldlM (step g) r).bind _ = _
    rw [List.foldlM_append, List.foldlM_cons, hstep]
    show (((bracketed tokens).foldlM (step g) ⟨r.level.conjoin factor, [], .expected⟩ >>=
      fun s => (furtherFactors t texts).foldlM (step g) s).bind _) = _
    rw [foldlM_group hparse]
    have hnext : finish g ⟨r.level.conjoin factor, [], .grouped c₁⟩ =
        some ((r.level.conjoin factor).close (.group c₁)) := rfl
    have hrest := ih hnext
    rw [narrowed_close rfl] at hrest
    rw [hc, narrowed_close hsimple]
    exact hrest

/-! ### Queries -/

theorem foldlM_inCondition (columns table tokens : List QueryToken) (r : ConditionReader) :
    tokens.foldlM (QueryReader.step g) (.inCondition columns table r) =
      (tokens.foldlM (ConditionReader.step g) r).map (.inCondition columns table) := by
  induction tokens generalizing r with
  | nil => rfl
  | cons t tokens ih =>
    rw [List.foldlM_cons, List.foldlM_cons]
    show ((r.step g t).map _ >>= fun s => tokens.foldlM (QueryReader.step g) s) = _
    cases r.step g t with
    | none => rfl
    | some next => exact ih next

theorem parseQuery_eq_some {tokens : List QueryToken} (h : parseQuery g tokens = some q) :
    (q.condition = none ∧ g.isTable q.table = true ∧
      tokens.foldlM (QueryReader.step g) .start = some (.inTable q.columns q.table 0)) ∨
    ∃ r c, q.condition = some c ∧ r.finish g = some c ∧
      tokens.foldlM (QueryReader.step g) .start = some (.inCondition q.columns q.table r) := by
  have ⟨s, hs, hfinish⟩ := Option.bind_eq_some_iff.1 h
  cases s with
  | start => cases hfinish
  | inColumns read depth => cases hfinish
  | inTable columns read depth =>
    rw [QueryReader.finish] at hfinish
    split at hfinish
    case isTrue hread =>
      cases hfinish
      refine .inl ⟨rfl, hread.2, ?_⟩
      rw [hs, hread.1]
    case isFalse => cases hfinish
  | inCondition columns table r =>
    have ⟨c, hc, hq⟩ := Option.map_eq_some_iff.1 hfinish
    cases hq
    exact .inr ⟨r, c, rfl, hc, hs⟩

theorem parseQuery_append_and {tokens : List QueryToken} {c : Condition} (hq : parseQuery g tokens = some q)
    (hc : q.condition = some c) {t : QueryToken} (ht : t.keyword? = some .AND)
    (h : List.Forall₂ (fun tokens c => parseCondition g tokens = some c) texts factors) :
    parseQuery g (tokens ++ furtherFactors t texts) = some { q with condition := some (c.narrowed factors) } := by
  rcases parseQuery_eq_some hq with ⟨hnone, _⟩ | ⟨r, c', hc', hr, hread⟩
  · rw [hnone] at hc
    cases hc
  · cases hc.symm.trans hc'
    have hfactors := foldlM_furtherFactors ht h hr
    have ⟨s, hs, hfinish⟩ := Option.bind_eq_some_iff.1 hfactors
    rw [parseQuery, List.foldlM_append, hread]
    show ((furtherFactors t texts).foldlM (QueryReader.step g) (.inCondition q.columns q.table r)).bind _ = _
    rw [foldlM_inCondition, hs]
    show (s.finish g).map _ = _
    rw [hfinish]
    rfl

theorem parseQuery_append_and_eq_none {tokens : List QueryToken} (hq : parseQuery g tokens = some q)
    (hc : q.condition = none) {t : QueryToken} (ht : t.keyword? = some .AND) (rest : List QueryToken) :
    parseQuery g (tokens ++ t :: rest) = none := by
  rcases parseQuery_eq_some hq with ⟨_, _, hread⟩ | ⟨r, c, hsome, _⟩
  · have hstep : QueryReader.step g (.inTable q.columns q.table 0) t = none := by
      rw [QueryReader.step, if_pos rfl, ht]
    rw [parseQuery, List.foldlM_append, hread]
    show ((QueryReader.step g (.inTable q.columns q.table 0) t >>= fun s => rest.foldlM _ s).bind _) = _
    rw [hstep]
    rfl
  · rw [hc] at hsome
    cases hsome

theorem parseQuery_append_where {tokens : List QueryToken} (hq : parseQuery g tokens = some q)
    (hc : q.condition = none) {t u : QueryToken} (ht : t.keyword? = some .WHERE) (hu : u.keyword? = some .AND)
    {first : List QueryToken} {c : Condition} (hfirst : parseCondition g first = some c)
    (h : List.Forall₂ (fun tokens c => parseCondition g tokens = some c) texts factors) :
    parseQuery g (tokens ++ (t :: bracketed first ++ furtherFactors u texts)) =
      some { q with condition := some (Condition.conjoined (.group c) factors) } := by
  rcases parseQuery_eq_some hq with ⟨_, htable, hread⟩ | ⟨r, c, hsome, _⟩
  · have hstep : QueryReader.step g (.inTable q.columns q.table 0) t =
        some (.inCondition q.columns q.table .start) := by
      rw [QueryReader.step, if_pos rfl, ht]
      simp [htable]
    have hgroup : (bracketed first).foldlM (ConditionReader.step g) .start =
        some ⟨.empty, [], .grouped c⟩ := foldlM_group hfirst .empty []
    have hfactors := foldlM_furtherFactors (r := ⟨.empty, [], .grouped c⟩) hu h rfl
    have ⟨s, hs, hfinish⟩ := Option.bind_eq_some_iff.1 hfactors
    rw [parseQuery, List.foldlM_append, hread]
    show (((t :: (bracketed first ++ furtherFactors u texts)).foldlM (QueryReader.step g)
      (.inTable q.columns q.table 0)).bind _) = _
    rw [List.foldlM_cons, hstep]
    show ((bracketed first ++ furtherFactors u texts).foldlM (QueryReader.step g)
      (.inCondition q.columns q.table .start)).bind _ = _
    rw [foldlM_inCondition, List.foldlM_append, hgroup]
    show (((furtherFactors u texts).foldlM (ConditionReader.step g) ⟨.empty, [], .grouped c⟩).map _).bind _ = _
    rw [hs]
    show (s.finish g).map _ = _
    rw [hfinish]
    rfl
  · rw [hc] at hsome
    cases hsome

def QueryReader.InCondition : QueryReader → Prop
  | .inCondition _ _ _ => True
  | _ => False

theorem inCondition_of_step {s next : QueryReader} {t : QueryToken} (ht : t.keyword? ≠ some .WHERE)
    (h : s.step g t = some next) (hnext : next.InCondition) : s.InCondition := by
  cases s with
  | inCondition columns table r => trivial
  | start =>
    rw [QueryReader.step] at h
    split at h <;> cases h
    cases hnext
  | inColumns read depth =>
    simp only [QueryReader.step] at h
    split at h
    · split at h
      · split at h <;> cases h
        cases hnext
      all_goals cases hn : t.nest depth <;> simp [hn] at h <;> subst h <;> cases hnext
    · cases hn : t.nest depth <;> simp [hn] at h
      subst h
      cases hnext
  | inTable columns read depth =>
    simp only [QueryReader.step] at h
    split at h
    · split at h
      case h_1 hw => exact absurd hw ht
      all_goals cases hn : t.nest depth <;> simp [hn] at h <;> subst h <;> cases hnext
    · cases hn : t.nest depth <;> simp [hn] at h
      subst h
      cases hnext

theorem where_mem_of_foldlM {tokens : List QueryToken} {s s' : QueryReader}
    (h : tokens.foldlM (QueryReader.step g) s = some s') (hs : ¬s.InCondition) (hs' : s'.InCondition) :
    ∃ t ∈ tokens, t.keyword? = some .WHERE := by
  induction tokens generalizing s with
  | nil =>
    cases h
    exact absurd hs' hs
  | cons t tokens ih =>
    by_cases ht : t.keyword? = some .WHERE
    · exact ⟨t, List.mem_cons_self, ht⟩
    · rw [List.foldlM_cons] at h
      have ⟨next, hnext, hrest⟩ := Option.bind_eq_some_iff.1 h
      have ⟨t', hmem, ht'⟩ := ih hrest fun hin => hs (inCondition_of_step ht hnext hin)
      exact ⟨t', List.mem_cons_of_mem t hmem, ht'⟩

theorem where_mem_of_parseQuery {tokens : List QueryToken} {c : Condition} (hq : parseQuery g tokens = some q)
    (hc : q.condition = some c) : ∃ t ∈ tokens, t.keyword? = some .WHERE := by
  rcases parseQuery_eq_some hq with ⟨hnone, _⟩ | ⟨r, c', _, _, hread⟩
  · rw [hnone] at hc
    cases hc
  · exact where_mem_of_foldlM hread (fun h => h) trivial

/-! ### Truth values -/

section Values

/-- A factor of the second of two alternatives is a factor of both exactly if the first implies it. -/
theorem sup_inf_eq_iff {L : Type*} [DistribLattice L] {a b p : L} : a ⊔ b ⊓ p = (a ⊔ b) ⊓ p ↔ a ≤ p := by
  constructor
  · intro h
    exact le_sup_left.trans (h.le.trans inf_le_right)
  · intro h
    exact (sup_inf_assoc_of_le b h).symm

variable {L : Type*} [DistribLattice L] [OrderTop L] (neg : L → L) (meaning : List QueryToken → L)

def Condition.value : Condition → L
  | .atom tokens => meaning tokens
  | .not c => neg c.value
  | .and a b => a.value ⊓ b.value
  | .or a b => a.value ⊔ b.value
  | .group c => c.value

def valueOfAll (conditions : List Condition) : L :=
  conditions.foldr (fun c rest => c.value neg meaning ⊓ rest) ⊤

def Query.value (q : Query) : L :=
  match q.condition with
  | none => ⊤
  | some c => c.value neg meaning

theorem value_conjoined (c : Condition) (factors : List Condition) :
    (c.conjoined factors).value neg meaning = c.value neg meaning ⊓ valueOfAll neg meaning factors := by
  induction factors generalizing c with
  | nil => exact (inf_top_eq _).symm
  | cons factor factors ih =>
    show ((Condition.and c (.group factor)).conjoined factors).value neg meaning = _
    rw [ih, Condition.value, Condition.value, inf_assoc]
    rfl

/-- Further factors behind a condition narrow it exactly if the disjuncts before the last one imply
them. -/
theorem value_narrowed_iff (c : Condition) (factors : List Condition) :
    (c.narrowed factors).value neg meaning = c.value neg meaning ⊓ valueOfAll neg meaning factors ↔
      ∀ earlier ∈ c.earlier?, earlier.value neg meaning ≤ valueOfAll neg meaning factors := by
  cases hc : c.earlier? with
  | none =>
    rw [narrowed_of_earlier?_eq_none hc, value_conjoined]
    exact ⟨fun _ => nofun, fun _ => rfl⟩
  | some a =>
    cases c with
    | or a' b =>
      cases hc
      rw [Condition.narrowed, Condition.value, value_conjoined, Condition.value, sup_inf_eq_iff]
      simp
    | atom tokens => cases hc
    | not c => cases hc
    | and a b => cases hc
    | group c => cases hc

end Values

/-! ### Three truth values -/

/-- The truth values of conditions on values that may be null. -/
inductive Truth where
  | false | unknown | true
  deriving DecidableEq

namespace Truth

def rank : Truth → ℕ
  | false => 0
  | unknown => 1
  | true => 2

theorem rank_injective : Function.Injective rank := by
  intro a b h
  cases a <;> cases b <;> first | rfl | cases h

instance : LinearOrder Truth := LinearOrder.lift' rank rank_injective

theorem le_true (a : Truth) : a ≤ true := by
  show a.rank ≤ 2
  cases a <;> decide

instance : OrderTop Truth where
  top := true
  le_top := le_true

def not : Truth → Truth
  | false => true
  | unknown => unknown
  | true => false

def ofBool : Bool → Truth
  | .true => true
  | .false => false

theorem ofBool_eq_true_iff {b : Bool} : ofBool b = true ↔ b = .true := by
  cases b <;> decide

theorem inf_eq_true_iff {a b : Truth} : a ⊓ b = true ↔ a = true ∧ b = true := by
  cases a <;> cases b <;> decide

theorem sup_eq_true_iff {a b : Truth} : a ⊔ b = true ↔ a = true ∨ b = true := by
  cases a <;> cases b <;> decide

end Truth

end Phlo.Library
