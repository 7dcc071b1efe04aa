import Phlo.Rbac.NessieRules

/-!
# Compiled rules fit on a line

Checked roles and patterns have letters, digits and a few signs only; the patterns of the checks let a
line feed at the end of a text pass, though.  `FitsLine` says that there is none.

* `nessieAccepts` — such a rule is kept by the backend;
* `lineFeed_mem_pathPattern` — a line feed at the end of a pattern gets into the rule.
-/

namespace Phlo.Rbac

open Phlo.Library
open Phlo.RunEvidence (isSpace strip)

/-! ### Texts that have been checked -/

def endsLine (s : String) : Bool := s.toList.getLast? = some '\n'

variable {cs : List Char} {policy : PolicyRule} {role : String}

theorem chars_of_matchesClass {first rest : Char → Bool} (h : matchesClass first rest cs = true)
    (hend : cs.getLast? ≠ some '\n') : ∀ c ∈ cs, first c = true ∨ rest c = true := by
  cases cs with
  | nil => cases h
  | cons d cs =>
    simp only [matchesClass, Bool.and_eq_true, Bool.or_eq_true, decide_eq_true_eq] at h
    obtain ⟨hfirst, hrest⟩ := h
    intro c hc
    obtain rfl | hc := List.mem_cons.1 hc
    · exact .inl hfirst
    · obtain hall | ⟨hlast, -⟩ := hrest
      · exact .inr (List.all_eq_true.1 hall c hc)
      · refine absurd ?_ hend
        cases cs with
        | nil => cases hc
        | cons e cs => rw [List.getLast?_cons_cons, hlast]

def isPlainChar (c : Char) : Bool := isPatternChar c || c == '-'

variable {c : Char}

theorem isPlainChar_code (h : isPlainChar c = true) :
    (48 ≤ c.toNat ∧ c.toNat ≤ 57) ∨ (65 ≤ c.toNat ∧ c.toNat ≤ 90) ∨ (97 ≤ c.toNat ∧ c.toNat ≤ 122) ∨
      c.toNat = 95 ∨ c.toNat = 46 ∨ c.toNat = 37 ∨ c.toNat = 42 ∨ c.toNat = 45 := by
  have halphanum : c.isAlphanum = ((decide (65 ≤ c.val ∧ c.val ≤ 90) ||
      (decide (97 ≤ c.val) && decide (c.val ≤ 122))) || (decide (48 ≤ c.val) && decide (c.val ≤ 57))) := rfl
  simp only [isPlainChar, isPatternChar, isIdentifierChar, halphanum, Bool.or_eq_true, Bool.and_eq_true,
    decide_eq_true_eq, beq_iff_eq, UInt32.le_iff_toNat_le] at h
  have hval : c.toNat = c.val.toNat := rfl
  rw [hval]
  obtain ((((((h | h) | h) | rfl) | rfl) | rfl) | rfl) | rfl := h
  · exact .inr (.inl h)
  · exact .inr (.inr (.inl h))
  · exact .inl h
  all_goals decide

theorem isPlainChar_line (h : isPlainChar c = true) : isLineBreak c = false ∧ c ≠ '=' := by
  have hcode := isPlainChar_code h
  constructor
  · simp only [isLineBreak, Bool.or_eq_false_iff, Bool.and_eq_false_iff, decide_eq_false_iff_not,
      beq_eq_false_iff_ne]
    omega
  · intro heq
    have h61 : c.toNat = 61 := by rw [heq]; rfl
    omega

theorem isPlainChar_of_isSqlIdentifier {s : String} (h : isSqlIdentifier s = true)
    (hend : endsLine s = false) : ∀ c ∈ s.toList, isPlainChar c = true := by
  have hlast : s.toList.getLast? ≠ some '\n' := of_decide_eq_false hend
  intro c hc
  obtain hfirst | hrest := chars_of_matchesClass h hlast c hc
  · rw [isLetter, Bool.or_eq_true] at hfirst
    obtain halpha | hunderscore := hfirst
    · simp [isPlainChar, isPatternChar, isIdentifierChar, Char.isAlphanum, halpha]
    · simp [isPlainChar, isPatternChar, isIdentifierChar, hunderscore]
  · simp [isPlainChar, isPatternChar, hrest]

theorem isPlainChar_of_pattern {s label : String} (h : validateSqlResourcePattern s label = .ok ())
    (hend : endsLine s = false) : ∀ c ∈ s.toList, isPlainChar c = true := by
  have hlast : s.toList.getLast? ≠ some '\n' := of_decide_eq_false hend
  rw [validateSqlResourcePattern] at h
  split at h
  next hwild =>
    obtain rfl | rfl := hwild
    · exact List.all_iff_forall_prop.1 (by decide)
    · exact List.all_iff_forall_prop.1 (by decide)
  next =>
    obtain ⟨_, hpattern, -⟩ := bind_eq_ok.1 h
    intro c hc
    obtain hfirst | hrest := chars_of_matchesClass (require_eq_ok.1 hpattern) hlast c hc
    · rw [isLetter, Bool.or_eq_true] at hfirst
      obtain halpha | hunderscore := hfirst
      · simp [isPlainChar, isPatternChar, isIdentifierChar, Char.isAlphanum, halpha]
      · simp [isPlainChar, isPatternChar, isIdentifierChar, hunderscore]
    · simp [isPlainChar, hrest]

theorem isPlainChar_slug (value : String) : ∀ c ∈ (slug value).toList, isPlainChar c = true := by
  intro c hc
  have hslug := isSlugChar_slug value c hc
  simp only [isSlugChar, Bool.or_eq_true] at hslug
  simp only [isPlainChar, isPatternChar, isIdentifierChar, Bool.or_eq_true]
  obtain (halnum | hunderscore) | hdash := hslug
  · exact .inl (.inl (.inl (.inl (.inl halnum))))
  · exact .inl (.inl (.inl (.inl (.inr hunderscore))))
  · exact .inr hdash

/-- The characters of the pattern that goes into a rule. -/
theorem mem_replaceStars (h : c ∈ replaceStars cs) : c ∈ cs ∨ c = '.' ∨ c = '*' := by
  induction cs using replaceStars.induct with
  | case1 cs ih =>
    rw [replaceStars] at h
    simp only [List.mem_cons] at h ⊢
    obtain rfl | rfl | h := h
    · exact .inr (.inl rfl)
    · exact .inr (.inr rfl)
    · obtain hmem | hnew := ih h
      · exact .inl (.inr (.inr hmem))
      · exact .inr hnew
  | case2 d cs hne ih =>
    rw [replaceStars.eq_2 d cs hne] at h
    obtain rfl | h := List.mem_cons.1 h
    · exact .inl List.mem_cons_self
    · obtain hmem | hnew := ih h
      · exact .inl (List.mem_cons_of_mem _ hmem)
      · exact .inr hnew
  | case3 => cases h

theorem mem_reEscape (h : c ∈ reEscape cs) : c ∈ cs ∨ c = '\\' := by
  obtain ⟨d, hd, hc⟩ := List.mem_flatMap.1 h
  split at hc
  · simp only [List.mem_cons, List.not_mem_nil, or_false] at hc
    obtain rfl | rfl := hc
    · exact .inr rfl
    · exact .inl hd
  · rw [List.mem_singleton.1 hc]
    exact .inl hd

theorem lineFeed_mem_replaceStars (h : '\n' ∈ cs) : '\n' ∈ replaceStars cs := by
  induction cs using replaceStars.induct with
  | case1 cs ih =>
    rw [replaceStars]
    simp only [List.mem_cons, Char.reduceEq, false_or] at h ⊢
    exact ih h
  | case2 d cs hne ih =>
    rw [replaceStars.eq_2 d cs hne]
    obtain rfl | h := List.mem_cons.1 h
    · exact List.mem_cons_self
    · exact List.mem_cons_of_mem _ (ih h)
  | case3 => cases h

theorem lineFeed_mem_pathPattern {resource : String} (h : endsLine resource = true) :
    '\n' ∈ (pathPattern resource).toList := by
  have hlast : resource.toList.getLast? = some '\n' := of_decide_eq_true h
  have hescaped : '\n' ∈ reEscape resource.toList :=
    List.mem_flatMap.2 ⟨'\n', List.mem_of_getLast? hlast, by decide⟩
  simp [pathPattern, lineFeed_mem_replaceStars hescaped]

/-! ### Rules of checked roles and patterns -/

theorem isLineBreak_of_all (h : (cs.all fun c => !isLineBreak c) = true) (hc : c ∈ cs) : isLineBreak c = false := by
  simpa using List.all_eq_true.1 h c hc

theorem opsText_chars (action : String) :
    ∀ c ∈ (",".intercalate ((nessieOps action).map fun op => "'" ++ op ++ "'")).toList, isLineBreak c = false := by
  rw [nessieOps]
  refine List.all_iff_forall_prop.1 ?_
  split
  · decide
  · split
    · decide +kernel
    · split
      · decide
      · split
        · decide
        · decide

theorem isLineBreak_pathPattern {resource label : String}
    (h : validateSqlResourcePattern resource label = .ok ()) (hend : endsLine resource = false) :
    ∀ c ∈ (pathPattern resource).toList, isLineBreak c = false := by
  intro c hc
  simp only [pathPattern, String.toList_append, String.toList_ofList, List.mem_append] at hc
  obtain (hc | hc) | hc := hc
  · exact isLineBreak_of_all (by decide) hc
  · obtain hc | rfl | rfl := mem_replaceStars hc
    · obtain hc | rfl := mem_reEscape hc
      · exact (isPlainChar_line (isPlainChar_of_pattern h hend c hc)).1
      · rfl
    · rfl
    · rfl
  · exact isLineBreak_of_all (by decide) hc

def FitsLine (role : String) (policy : PolicyRule) : Prop :=
  endsLine role = false ∧ (policy.resourceType = "dataset" → endsLine policy.resourceIdPattern = false)

theorem name_clean (hrole : isSqlIdentifier role = true) (hend : endsLine role = false) :
    ∀ c ∈ (nessieName role policy).toList, isLineBreak c = false ∧ c ≠ '=' := by
  intro c hc
  refine isPlainChar_line ?_
  simp only [nessieName, String.toList_append, List.mem_append] at hc
  obtain ((((hc | hc) | hc) | hc) | hc) | hc := hc
  · exact List.all_eq_true.1 (by decide) c hc
  · exact isPlainChar_of_isSqlIdentifier hrole hend c hc
  · exact List.all_eq_true.1 (by decide) c hc
  · exact isPlainChar_slug _ c hc
  · exact List.all_eq_true.1 (by decide) c hc
  · exact isPlainChar_slug _ c hc

def roleClauses (role : String) (policy : PolicyRule) : String :=
  "op in [" ++ ",".intercalate ((nessieOps policy.action).map fun op => "'" ++ op ++ "'") ++
    "] && role=='" ++ role ++ "'"

theorem ruleExpression_eq (role : String) (policy : PolicyRule) : ruleExpression role policy =
    if policy.resourceType = "dataset" then
      roleClauses role policy ++ " && path.matches('" ++ pathPattern policy.resourceIdPattern ++ "')"
    else roleClauses role policy := rfl

theorem roleClauses_clean (hrole : isSqlIdentifier role = true) (hend : endsLine role = false) :
    ∀ c ∈ (roleClauses role policy).toList, isLineBreak c = false := by
  intro c hc
  simp only [roleClauses, String.toList_append, List.mem_append] at hc
  obtain (((hc | hc) | hc) | hc) | hc := hc
  · exact isLineBreak_of_all (by decide) hc
  · exact opsText_chars policy.action c hc
  · exact isLineBreak_of_all (by decide) hc
  · exact (isPlainChar_line (isPlainChar_of_isSqlIdentifier hrole hend c hc)).1
  · exact isLineBreak_of_all (by decide) hc

theorem expression_clean (hrole : isSqlIdentifier role = true)
    (hpattern : policy.resourceType = "dataset" → validateSqlResourcePattern policy.resourceIdPattern "resource_id" = .ok ())
    (hfits : FitsLine role policy) : ∀ c ∈ (ruleExpression role policy).toList, isLineBreak c = false := by
  intro c hc
  rw [ruleExpression_eq] at hc
  split at hc
  next hdataset =>
    simp only [String.toList_append, List.mem_append] at hc
    obtain ((hc | hc) | hc) | hc := hc
    · exact roleClauses_clean hrole hfits.1 c hc
    · exact isLineBreak_of_all (by decide) hc
    · exact isLineBreak_pathPattern (hpattern hdataset) (hfits.2 hdataset) c hc
    · exact isLineBreak_of_all (by decide) hc
  next => exact roleClauses_clean hrole hfits.1 c hc

/-- A rule begins with `op` and ends with a quote or a bracket. -/
theorem strip_ruleExpression (role : String) (policy : PolicyRule) :
    strip (ruleExpression role policy).toList = (ruleExpression role policy).toList := by
  have hhead : ∀ l : List Char, ∀ c ∈ ((roleClauses role policy).toList ++ l).head?, isSpace c = false := by
    intro l c hc
    simp only [roleClauses, String.toList_append, List.append_assoc] at hc
    have ho : some 'o' = some c := hc
    cases ho
    rfl
  rw [ruleExpression_eq]
  split
  · refine trim_of_ends ?_ ?_
    · simp only [String.toList_append, List.append_assoc]
      exact hhead _
    · intro c hc
      rw [String.toList_append, List.getLast?_append] at hc
      have hbracket : some ')' = some c := hc
      cases hbracket
      rfl
  · refine trim_of_ends ?_ ?_
    · have hnil := hhead []
      rwa [List.append_nil] at hnil
    · intro c hc
      rw [roleClauses, String.toList_append, List.getLast?_append] at hc
      have hquote : some '\'' = some c := hc
      cases hquote
      rfl

theorem managed_append (s : String) : matchesManaged ("phlo_" ++ s) = true := by
  rw [matchesManaged, startsWith, String.toList_append]
  exact List.isPrefixOf_iff_prefix.2 (List.prefix_append _ _)

theorem nessieAccepts (hrole : isSqlIdentifier role = true)
    (hpattern : policy.resourceType = "dataset" → validateSqlResourcePattern policy.resourceIdPattern "resource_id" = .ok ())
    (hfits : FitsLine role policy) : NessieAccepts (nessieArtifact policy role) where
  statement := rfl
  managed := by
    show matchesManaged (nessieName role policy) = true
    simp only [nessieName, String.append_assoc]
    exact managed_append _
  clean := ⟨name_clean hrole hfits.1, expression_clean hrole hpattern hfits,
    strip_ruleExpression role policy⟩

end Phlo.Rbac
