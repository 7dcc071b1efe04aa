import Mathlib.Data.Bool.AllAny
import Phlo.Rbac.NessieCompiler

/-!
# The rules file is read back

A rule is clean when neither its name nor its expression has a line break, the name no `=`, and the
expression no blanks at its ends.  Whatever is read from a file is clean, and clean rules are read back
from the file they are written to.

* `nessieBackend` — Nessie as a backend of documents.
-/

namespace Phlo.Rbac

open Phlo.Library
open Phlo.RunEvidence (isSpace strip)

/-! ### Clean rules -/

/-- A rule a line of the file can hold. -/
structure CleanRule (rule : String × String) : Prop where
  name : ∀ c ∈ rule.1.toList, isLineBreak c = false ∧ c ≠ '='
  expression : ∀ c ∈ rule.2.toList, isLineBreak c = false
  trimmed : strip rule.2.toList = rule.2.toList

variable {rule : String × String} {rules : Rules}

theorem clean_of_parseRule {line : List Char} (hline : ∀ c ∈ line, isLineBreak c = false)
    (h : parseRule line = some rule) : CleanRule rule := by
  have hstrip : ∀ c ∈ strip line, isLineBreak c = false := fun c hc => hline c (mem_of_mem_trim hc)
  rw [parseRule] at h
  split at h
  · cases h
  · split at h
    · cases h
    · dsimp only at h
      split at h
      · cases h
      · cases h
        refine ⟨fun c hc => ?_, fun c hc => ?_, ?_⟩
        · rw [String.toList_ofList] at hc
          have hkey := List.mem_of_mem_drop hc
          refine ⟨hstrip c ((List.takeWhile_sublist _).subset hkey), ?_⟩
          simpa using List.all_eq_true.1 List.all_takeWhile c hkey
        · rw [String.toList_ofList] at hc
          have hvalue := List.mem_of_mem_drop (mem_of_mem_trim hc)
          exact hstrip c ((List.dropWhile_sublist _).subset hvalue)
        · rw [String.toList_ofList]
          exact trim_trim isSpace _

theorem clean_of_mem_parseRulesFile {content : List Char} (h : rule ∈ (parseRulesFile content).items) :
    CleanRule rule := by
  have hget : (parseRulesFile content).get rule.1 = some rule.2 := OrderedDict.get_eq_some_iff.2 h
  rw [parseRulesFile, OrderedDict.get_ofList] at hget
  obtain ⟨line, hline, hparse⟩ := List.mem_filterMap.1 (OrderedDict.mem_of_lastOf hget)
  exact clean_of_parseRule (isLineBreak_of_mem_splitLines content line hline) hparse

def CleanRules (rules : Rules) : Prop := ∀ rule ∈ rules.items, CleanRule rule

theorem cleanRules_iff : CleanRules rules ↔ ∀ k v, rules.get k = some v → CleanRule (k, v) := by
  constructor
  · intro h k v hget
    exact h (k, v) (OrderedDict.get_eq_some_iff.1 hget)
  · intro h rule hrule
    exact h rule.1 rule.2 (OrderedDict.get_eq_some_iff.2 hrule)

theorem cleanRules_readRules (file : RulesFile) : CleanRules (RulesFile.readRules file) := by
  cases file with
  | none => exact fun rule hrule => absurd hrule List.not_mem_nil
  | some content => exact fun rule hrule => clean_of_mem_parseRulesFile hrule

theorem CleanRules.set (h : CleanRules rules) {k v : String} (hrule : CleanRule (k, v)) :
    CleanRules (rules.set k v) := by
  rw [cleanRules_iff] at h ⊢
  intro k' v' hget
  rw [OrderedDict.get_set] at hget
  split at hget
  next hk =>
    cases hget
    rw [hk]
    exact hrule
  next => exact h k' v' hget

theorem CleanRules.erase (h : CleanRules rules) (k : String) : CleanRules (rules.erase k) := by
  rw [cleanRules_iff] at h ⊢
  intro k' v' hget
  rw [OrderedDict.get_erase] at hget
  split at hget
  · cases hget
  · exact h k' v' hget

/-! ### The round trip -/

theorem ruleKeyPrefix_chars : ∀ c ∈ RULE_KEY_PREFIX.toList, isLineBreak c = false ∧ c ≠ '=' :=
  List.all_iff_forall_prop.1 (by decide)

theorem rulesHeader_chars : ∀ line ∈ RULES_HEADER, ∀ c ∈ line, isLineBreak c = false := by
  have hall : (RULES_HEADER.all fun line => line.all fun c => !isLineBreak c) = true := by decide
  intro line hline c hc
  simpa using List.all_eq_true.1 (List.all_eq_true.1 hall line hline) c hc

theorem ruleLine_eq (rule : String × String) :
    ruleLine rule = (RULE_KEY_PREFIX.toList ++ rule.1.toList) ++ '=' :: rule.2.toList := by
  rw [ruleLine, ruleStatement, String.toList_append, String.toList_append, String.toList_append,
    List.append_assoc]
  rfl

theorem isLineBreak_ruleLine (h : CleanRule rule) : ∀ c ∈ ruleLine rule, isLineBreak c = false := by
  intro c hc
  rw [ruleLine_eq] at hc
  obtain hc | hc := List.mem_append.1 hc
  · obtain hc | hc := List.mem_append.1 hc
    · exact (ruleKeyPrefix_chars c hc).1
    · exact (h.name c hc).1
  · obtain rfl | hc := List.mem_cons.1 hc
    · rfl
    · exact h.expression c hc

theorem strip_ruleLine (h : CleanRule rule) : strip (ruleLine rule) = ruleLine rule := by
  refine trim_of_ends ?_ ?_
  · intro c hc
    rw [ruleLine_eq] at hc
    have hn : some 'n' = some c := hc
    cases hn
    rfl
  · intro c hc
    rw [ruleLine_eq, List.getLast?_append] at hc
    cases hvalue : rule.2.toList with
    | nil =>
      rw [hvalue] at hc
      have heq : some '=' = some c := hc
      cases heq
      rfl
    | cons d cs =>
      have hlast : c ∈ rule.2.toList.getLast? := by
        rw [hvalue] at hc ⊢
        rw [List.getLast?_cons_cons] at hc
        cases hget : (d :: cs).getLast? with
        | none => simp at hget
        | some e =>
          rw [hget] at hc
          exact hc
      rw [← h.trimmed] at hlast
      exact last_trim hlast

theorem parseRule_ruleLine (h : CleanRule rule) : parseRule (ruleLine rule) = some rule := by
  have hkey : ∀ c ∈ RULE_KEY_PREFIX.toList ++ rule.1.toList, decide (c ≠ '=') = true := by
    intro c hc
    obtain hc | hc := List.mem_append.1 hc
    · exact decide_eq_true (ruleKeyPrefix_chars c hc).2
    · exact decide_eq_true (h.name c hc).2
  have htake : (ruleLine rule).takeWhile (· ≠ '=') = RULE_KEY_PREFIX.toList ++ rule.1.toList := by
    rw [ruleLine_eq, List.takeWhile_append_of_pos hkey, List.takeWhile_cons_of_neg (by simp),
      List.append_nil]
  have hdrop : ((ruleLine rule).dropWhile (· ≠ '=')).drop 1 = rule.2.toList := by
    rw [ruleLine_eq, List.dropWhile_append_of_pos hkey, List.dropWhile_cons_of_neg (by simp)]
    rfl
  have hempty : ((ruleLine rule).isEmpty || (ruleLine rule).head? = some '#') = false := by
    rw [ruleLine_eq]
    rfl
  have hcontains : (ruleLine rule).contains '=' = true := by
    rw [ruleLine_eq]
    simp
  have hkeyed : RULE_KEY_PREFIX.toList.isPrefixOf (RULE_KEY_PREFIX.toList ++ rule.1.toList) = true :=
    List.isPrefixOf_iff_prefix.2 (List.prefix_append _ _)
  rw [parseRule, strip_ruleLine h]
  dsimp only
  rw [if_neg (by rw [hempty]; exact Bool.false_ne_true),
    if_neg (by rw [hcontains]; exact Bool.false_ne_true), htake, hdrop,
    if_neg (by rw [hkeyed]; exact Bool.false_ne_true), List.drop_left, h.trimmed,
    String.ofList_toList, String.ofList_toList]

theorem filterMap_parseRule {rules : List (String × String)} (h : ∀ rule ∈ rules, CleanRule rule) :
    (rules.map ruleLine).filterMap parseRule = rules := by
  induction rules with
  | nil => rfl
  | cons rule rules ih =>
    rw [List.map_cons, List.filterMap_cons_some (parseRule_ruleLine (h rule List.mem_cons_self)),
      ih fun other hother => h other (List.mem_cons_of_mem _ hother)]

/-- **The round trip**: clean rules are read back. -/
theorem get_readRules_writeRules (h : CleanRules rules) (k : String) :
    (RulesFile.readRules (writeRules rules)).get k = rules.get k := by
  have hmem : ∀ rule, rule ∈ sortBy Prod.fst rules.items ↔ rule ∈ rules.items :=
    mem_sortBy Prod.fst rules.items
  have hlines : splitLines (joinLines (RULES_HEADER ++ (sortBy Prod.fst rules.items).map ruleLine)) =
      RULES_HEADER ++ (sortBy Prod.fst rules.items).map ruleLine := by
    refine splitLines_joinLines fun line hline => ?_
    obtain hline | hline := List.mem_append.1 hline
    · exact rulesHeader_chars line hline
    · obtain ⟨rule, hrule, rfl⟩ := List.mem_map.1 hline
      exact isLineBreak_ruleLine (h rule ((hmem rule).1 hrule))
  have hheader : RULES_HEADER.filterMap parseRule = [] := by decide
  have hitems : (RulesFile.readRules (writeRules rules)).items = sortBy Prod.fst rules.items := by
    show (parseRulesFile (joinLines _)).items = _
    rw [parseRulesFile, hlines, List.filterMap_append, hheader, List.nil_append,
      filterMap_parseRule fun rule hrule => h rule ((hmem rule).1 hrule), OrderedDict.ofList,
      OrderedDict.items_setAll]
    · rfl
    · show ((sortBy Prod.fst rules.items).map Prod.fst).Nodup
      exact ((sortBy_perm Prod.fst rules.items).map Prod.fst).nodup_iff.2 rules.nodup
  ext v
  rw [OrderedDict.get_eq_some_iff, OrderedDict.get_eq_some_iff, hitems, hmem]

/-! ### Nessie as a backend of documents -/

def RulesFile.read (file : RulesFile) : List NessieArtifact :=
  nessieReadCurrentState (RulesFile.listPolicies file)

variable {b : NessieArtifact} {file : RulesFile}

theorem RulesFile.mem_read :
    b ∈ RulesFile.read file ↔ ∃ expression, (RulesFile.readRules file).get b.name = some expression ∧
      matchesManaged b.name = true ∧ b = NessieRow.artifact ⟨b.name, expression⟩ := by
  rw [RulesFile.read, nessieReadCurrentState, RulesFile.listPolicies, List.mem_map]
  constructor
  · intro h
    obtain ⟨row, hrow, rfl⟩ := h
    obtain ⟨rule, hrule, rfl⟩ := List.mem_map.1 (List.mem_filter.1 hrow).1
    obtain ⟨hmem, hmanaged⟩ := List.mem_filter.1 hrule
    rw [mem_sortBy] at hmem
    exact ⟨rule.2, OrderedDict.get_eq_some_iff.2 hmem, hmanaged, rfl⟩
  · intro h
    obtain ⟨expression, hget, hmanaged, hb⟩ := h
    refine ⟨⟨b.name, expression⟩, List.mem_filter.2 ⟨List.mem_map.2 ⟨(b.name, expression), ?_, rfl⟩, ?_⟩,
      hb.symm⟩
    · refine List.mem_filter.2 ⟨?_, hmanaged⟩
      rw [mem_sortBy]
      exact OrderedDict.get_eq_some_iff.1 hget
    · have hne : b.name ≠ "" := fun hempty => by
        rw [hempty] at hmanaged
        exact absurd hmanaged (by decide)
      simp [hmanaged, hne]

theorem RulesFile.read_unique {b' : NessieArtifact} (hb : b ∈ RulesFile.read file) (hb' : b' ∈ RulesFile.read file)
    (hname : b.name = b'.name) : b = b' := by
  obtain ⟨expression, hget, -, heq⟩ := RulesFile.mem_read.1 hb
  obtain ⟨expression', hget', -, heq'⟩ := RulesFile.mem_read.1 hb'
  rw [hname, hget'] at hget
  cases hget
  rw [heq, heq', hname]

theorem RulesFile.clean_of_mem_read (hb : b ∈ RulesFile.read file) : CleanRule (b.name, b.metadata.expression) := by
  obtain ⟨expression, hget, -, heq⟩ := RulesFile.mem_read.1 hb
  have hexpression : b.metadata.expression = expression := by rw [heq]; rfl
  rw [hexpression]
  exact cleanRules_iff.1 (cleanRules_readRules file) _ _ hget

theorem RulesFile.get_read (file : RulesFile) (k : String) :
    (byName BackendArtifact.name (RulesFile.read file)).get k =
      if matchesManaged k then
        ((RulesFile.readRules file).get k).map fun expression => NessieRow.artifact ⟨k, expression⟩
      else none := by
  ext b
  rw [byName_eq_some_iff fun b hb b' hb' => RulesFile.read_unique hb hb', RulesFile.mem_read]
  constructor
  · intro h
    obtain ⟨⟨expression, hget, hmanaged, hb⟩, rfl⟩ := h
    rw [if_pos hmanaged, hget, Option.map_some, ← hb]
  · intro h
    split at h
    next hmanaged =>
      obtain ⟨expression, hget, rfl⟩ := Option.map_eq_some_iff.1 h
      exact ⟨⟨expression, hget, hmanaged, rfl⟩, rfl⟩
    next => cases h

theorem RulesFile.get_applyPolicy (file : RulesFile) {name expression : String}
    (hmanaged : matchesManaged name = true) (hclean : CleanRule (name, expression)) (k : String) :
    (RulesFile.readRules (RulesFile.applyPolicy file name expression).1).get k =
      if k = name then some expression else (RulesFile.readRules file).get k := by
  have hne : name ≠ "" := fun hempty => by
    rw [hempty] at hmanaged
    exact absurd hmanaged (by decide)
  have hchecked : (name = "" || !startsWith name MANAGED_PREFIX) = false := by
    have hstarts : startsWith name MANAGED_PREFIX = true := hmanaged
    simp [hne, hstarts]
  rw [RulesFile.applyPolicy, if_neg (by rw [hchecked]; exact Bool.false_ne_true)]
  show (RulesFile.readRules (writeRules _)).get k = _
  rw [get_readRules_writeRules ((cleanRules_readRules file).set hclean), OrderedDict.get_set]

theorem RulesFile.get_revokePolicy (file : RulesFile) (name k : String) :
    (RulesFile.readRules (RulesFile.revokePolicy file name)).get k =
      if k = name then none else (RulesFile.readRules file).get k := by
  rw [RulesFile.revokePolicy]
  split
  · rw [get_readRules_writeRules ((cleanRules_readRules file).erase name), OrderedDict.get_erase]
  next habsent =>
    split
    next hk =>
      rw [hk]
      simpa using habsent
    next => rfl

/-- An artifact as compiled, whose rule a line can hold. -/
structure NessieAccepts (a : NessieArtifact) : Prop where
  statement : a.statement = ruleStatement a.name a.metadata.expression
  managed : matchesManaged a.name = true
  clean : CleanRule (a.name, a.metadata.expression)

def nessieBackend : DocumentBackend NessieArtifact RulesFile where
  nameOf := BackendArtifact.name
  same := nessieEquivalent
  read := RulesFile.read
  act := nessieAct
  Accepts := NessieAccepts
  shown a := NessieRow.artifact ⟨a.name, a.metadata.expression⟩
  read_create a ha file k := by
    rw [RulesFile.get_read, RulesFile.get_read, nessieAct,
      RulesFile.get_applyPolicy file ha.managed ha.clean]
    by_cases hk : k = a.name
    · rw [if_pos hk, if_pos hk, hk, if_pos ha.managed, Option.map_some]
    · rw [if_neg hk, if_neg hk]
  read_delete b file k := by
    rw [RulesFile.get_read, RulesFile.get_read, nessieAct, RulesFile.get_revokePolicy]
    by_cases hk : k = b.name
    · rw [if_pos hk, if_pos hk, Option.map_none, ite_self]
    · rw [if_neg hk, if_neg hk]
  same_shown a ha := by
    rw [nessieEquivalent, ha.statement]
    exact beq_self_eq_true _

end Phlo.Rbac
