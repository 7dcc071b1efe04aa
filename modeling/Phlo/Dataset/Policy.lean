import Phlo.Dataset.Models
import Phlo.Library.OrderedDict
import Phlo.Library.StableSort

/-!
# The Dataset policy evaluator

`evaluate_policy` judges the rules of a project's policy by the evidence at hand and lists the evidence
of kinds that no rule refers to.

Values of payloads and conditions are of any kind; `Payload` says what a condition does with them.  A
result of `none` is a raised `TypeError`.
-/

namespace Phlo.Dataset.Policy

open Phlo.Library

/-- What conditions do with values: `bool(a)`, `a == b`, and `b in a`. -/
class Payload (V : Type) where
  truthy : V → Bool
  equal : V → V → Option Bool
  contains : V → V → Option Bool

/-- `CONDITION_OPERATORS` -/
inductive Operator where
  | eq | ne | isIn | notIn | isTrue | isFalse
  deriving DecidableEq

/-- `SEVERITY_BLOCKER` and `SEVERITY_WARNING` -/
inductive Severity where
  | blocker | warning
  deriving DecidableEq

/-- `EVIDENCE_STATUS_PRESENT` and `EVIDENCE_STATUS_MISSING` -/
inductive EvidenceStatus where
  | present | missing
  deriving DecidableEq

def EvidenceStatus.value : EvidenceStatus → String
  | present => "present"
  | missing => "missing"

section

variable (V : Type)

structure EvidenceRecord where
  kind : String
  subject : String
  status : EvidenceStatus := .present
  payload : OrderedDict String V := .empty
  kind_ne : kind ≠ "" := by decide
  subject_ne : subject ≠ "" := by decide

structure EvidenceCondition where
  field : String
  operator : Operator
  value : V

structure PolicyRule where
  control : String
  evidenceKind : String
  condition : Option (EvidenceCondition V) := none
  severity : Severity := .blocker
  message : String := ""
  appliesTo : List String := []
  control_ne : control ≠ "" := by decide
  evidenceKind_ne : evidenceKind ≠ "" := by decide

structure TransitionPolicy where
  action : String
  requiredEvidence : List String := []

structure DatasetPolicy where
  policyVersion : String
  rules : List (PolicyRule V) := []
  transitions : List TransitionPolicy := []
  policyVersion_ne : policyVersion ≠ "" := by decide

end

structure MissingEvidence where
  kind : String
  control : Option String
  message : String
  blocks : Bool := true
  deriving DecidableEq

structure PolicyFinding where
  control : String
  severity : Severity
  message : String
  evidenceKind : String
  deriving DecidableEq

/-- A control as the verdict lists it. -/
structure ControlReport where
  control : Option String
  status : String
  severity : Option Severity
  evidenceKind : String
  deriving DecidableEq

structure PolicyVerdict where
  datasetId : String
  action : String
  policyVersion : String
  ready : Bool
  controls : List ControlReport
  blockers : List PolicyFinding
  warnings : List PolicyFinding
  missingEvidence : List MissingEvidence
  deriving DecidableEq

/-! ### Conditions and rules -/

section

variable {V : Type} [Payload V]

/-- `matches` -/
def EvidenceCondition.matches (condition : EvidenceCondition V) (payload : OrderedDict String V) :
    Option Bool :=
  let actual := payload.get condition.field
  match condition.operator, actual with
  | .isTrue, _ => some (actual.any Payload.truthy)
  | .isFalse, _ => some !(actual.any Payload.truthy)
  | _, none => some false
  | .eq, some actual => Payload.equal actual condition.value
  | .ne, some actual => (Payload.equal actual condition.value).map Bool.not
  | .isIn, some actual => Payload.contains condition.value actual
  | .notIn, some actual => (Payload.contains condition.value actual).map Bool.not

def PolicyRule.failedBy (rule : PolicyRule V) (record : EvidenceRecord V) : Option Bool :=
  match rule.condition with
  | some condition => (condition.matches record.payload).map Bool.not
  | none => some false

/-- `[record for record in records if test(record)]`, for a test that may raise. -/
def selectM {α : Type} (test : α → Option Bool) : List α → Option (List α)
  | [] => some []
  | a :: l => do
    let selected ← test a
    let rest ← selectM test l
    return if selected then a :: rest else rest

/-- `applies_to_action` -/
def PolicyRule.appliesToAction (rule : PolicyRule V) (action : String) : Bool :=
  rule.appliesTo.isEmpty || rule.appliesTo.contains action

/-- `for_action` -/
def DatasetPolicy.forAction (policy : DatasetPolicy V) (action : String) : TransitionPolicy :=
  (policy.transitions.find? fun transition => transition.action == action).getD { action := action }

/-- `_rule_order` -/
def ruleOrder (rule : PolicyRule V) : String ×ₗ String := toLex (rule.evidenceKind, rule.control)

/-- `_finding_order` -/
def findingOrder (finding : PolicyFinding) : String ×ₗ String := toLex (finding.evidenceKind, finding.control)

def available (evidence : List (EvidenceRecord V)) (kind : String) : List (EvidenceRecord V) :=
  evidence.filter fun record => record.status != .missing && record.kind == kind

/-! ### The evaluation -/

/-- What has been found so far. -/
structure Findings where
  missing : List MissingEvidence := []
  blockers : List PolicyFinding := []
  warnings : List PolicyFinding := []
  controls : List ControlReport := []

variable (datasetId : String) (evidence : List (EvidenceRecord V))

def requireKind (found : Findings) (kind : String) : Findings :=
  if (available evidence kind).isEmpty then
    { found with
      missing := found.missing ++
        [{ kind
           control := none
           message := "Required evidence of kind " ++ quoted kind ++ " is missing for " ++ datasetId ++ "."
           blocks := true }] }
  else found

def PolicyRule.report (rule : PolicyRule V) (status : String) : ControlReport where
  control := some rule.control
  status := status
  severity := some rule.severity
  evidenceKind := rule.evidenceKind

/-- One round of the loop over the rules. -/
def judgeRule (found : Findings) (rule : PolicyRule V) : Option Findings :=
  let records := available evidence rule.evidenceKind
  if records.isEmpty then
    some
    { found with
      missing := found.missing ++
        [{ kind := rule.evidenceKind
           control := some rule.control
           message :=
             if rule.message ≠ "" then rule.message
             else "Control " ++ quoted rule.control ++ " lacks required evidence of kind " ++
               quoted rule.evidenceKind ++ " for " ++ datasetId ++ "."
           blocks := rule.severity = .blocker }]
      controls := found.controls ++ [rule.report "missing"] }
  else do
    let failed ← selectM rule.failedBy records
    if failed.isEmpty then
      return { found with controls := found.controls ++ [rule.report "passed"] }
    let finding : PolicyFinding :=
      { control := rule.control
        severity := rule.severity
        message :=
          if rule.message ≠ "" then rule.message
          else "Control " ++ quoted rule.control ++ " failed for " ++ datasetId ++ "."
        evidenceKind := rule.evidenceKind }
    let found := { found with controls := found.controls ++ [rule.report "failed"] }
    if rule.severity = .blocker then
      return { found with blockers := found.blockers ++ [finding] }
    return { found with warnings := found.warnings ++ [finding] }

def evidenceOrder (record : EvidenceRecord V) : String ×ₗ String := toLex (record.kind, record.subject)

def EvidenceRecord.report (record : EvidenceRecord V) : ControlReport where
  control := none
  status := record.status.value
  severity := none
  evidenceKind := record.kind

def unruled (seenKinds : List String) : List ControlReport :=
  ((sortBy evidenceOrder evidence).filter fun record => !seenKinds.contains record.kind).map
    EvidenceRecord.report

def controlOrder (report : ControlReport) : String ×ₗ String :=
  toLex (report.evidenceKind, report.control.getD "")

variable (policy : DatasetPolicy V) (action : String)

def rulesFor : List (PolicyRule V) :=
  sortBy ruleOrder (policy.rules.filter fun rule => rule.appliesToAction action)

def seenKinds : List String :=
  sortBy id (policy.forAction action).requiredEvidence ++
    (rulesFor policy action).map PolicyRule.evidenceKind

def findings : Option Findings :=
  (rulesFor policy action).foldlM (judgeRule datasetId evidence)
    ((sortBy id (policy.forAction action).requiredEvidence).foldl (requireKind datasetId evidence) {})

def verdictOf (found : Findings) (others : List ControlReport) : PolicyVerdict where
  datasetId := datasetId
  action := action
  policyVersion := policy.policyVersion
  ready := found.blockers.isEmpty && !found.missing.any MissingEvidence.blocks
  controls := sortBy controlOrder (found.controls ++ others)
  blockers := sortBy findingOrder found.blockers
  warnings := sortBy findingOrder found.warnings
  missingEvidence := sortBy (fun missing => toLex (missing.kind, missing.control.getD "")) found.missing

/-- `evaluate_policy` -/
def evaluatePolicy : Option PolicyVerdict := do
  let found ← findings datasetId evidence policy action
  return verdictOf datasetId policy action found (unruled evidence (seenKinds policy action))

end

/-! ### Evidence in another order -/

section

variable {V : Type} [Payload V] {datasetId action : String} {policy : DatasetPolicy V}
  {evidence evidence' : List (EvidenceRecord V)}

theorem selectM_eq {α : Type} (test : α → Option Bool) (l : List α) :
    selectM test l = if l.all (fun a => (test a).isSome) then
      some (l.filter fun a => test a == some true) else none := by
  induction l with
  | nil => rfl
  | cons a l ih =>
    rw [selectM, ih]
    cases hall : l.all fun a => (test a).isSome with
    | false =>
      cases htest : test a with
      | none => simp [htest]
      | some b => cases b <;> simp [htest, hall]
    | true =>
      cases htest : test a with
      | none => simp [htest]
      | some b => cases b <;> simp [htest, hall]

/-- Whether a test fails, raises or holds throughout does not depend on the order. -/
theorem isEmpty_selectM_of_perm {α : Type} (test : α → Option Bool) {l l' : List α} (h : l.Perm l') :
    (selectM test l).map List.isEmpty = (selectM test l').map List.isEmpty := by
  rw [selectM_eq, selectM_eq, h.all_eq]
  split
  · rw [Option.map_some, Option.map_some, (h.filter _).isEmpty_eq]
  · rfl

omit [Payload V] in
theorem available_perm (h : evidence.Perm evidence') (kind : String) :
    (available evidence kind).Perm (available evidence' kind) := h.filter _

omit [Payload V] in
theorem requireKind_perm (h : evidence.Perm evidence') :
    requireKind datasetId evidence = requireKind datasetId evidence' := by
  funext found kind
  rw [requireKind, requireKind, (available_perm h kind).isEmpty_eq]

theorem judgeRule_perm (h : evidence.Perm evidence') :
    judgeRule datasetId evidence = judgeRule datasetId evidence' := by
  funext found rule
  have hrecords := available_perm h rule.evidenceKind
  unfold judgeRule
  dsimp only
  rw [hrecords.isEmpty_eq]
  split
  · rfl
  · have hfailed := isEmpty_selectM_of_perm rule.failedBy hrecords
    cases hleft : selectM rule.failedBy (available evidence rule.evidenceKind) with
    | none =>
      rw [hleft] at hfailed
      rw [Option.map_eq_none_iff.1 hfailed.symm]
    | some failed =>
      rw [hleft] at hfailed
      obtain ⟨failed', hright, hsame⟩ := Option.map_eq_some_iff.1 hfailed.symm
      rw [hright]
      show (if failed.isEmpty = true then _ else _) = if failed'.isEmpty = true then _ else _
      rw [hsame]

theorem findings_perm (h : evidence.Perm evidence') :
    findings datasetId evidence policy action = findings datasetId evidence' policy action := by
  rw [findings, findings, requireKind_perm h, judgeRule_perm h]

/-- Evidence that no rule refers to has one status for each kind and subject. -/
def OneStatus (policy : DatasetPolicy V) (action : String) (evidence : List (EvidenceRecord V)) : Prop :=
  ∀ r ∈ evidence, ∀ s ∈ evidence, r.kind ∉ seenKinds policy action →
    r.kind = s.kind → r.subject = s.subject → r.status = s.status

instance (policy : DatasetPolicy V) (action : String) (evidence : List (EvidenceRecord V)) :
    Decidable (OneStatus policy action evidence) :=
  inferInstanceAs (Decidable (∀ r ∈ evidence, ∀ s ∈ evidence, r.kind ∉ seenKinds policy action →
    r.kind = s.kind → r.subject = s.subject → r.status = s.status))

omit [Payload V] in
theorem unruled_eq_filterMap (evidence : List (EvidenceRecord V)) (seen : List String) :
    unruled evidence seen = ((sortBy evidenceOrder evidence).map fun record =>
      if seen.contains record.kind then none else some record.report).filterMap id := by
  rw [unruled, List.filterMap_map]
  induction sortBy evidenceOrder evidence with
  | nil => rfl
  | cons record rest ih =>
    cases hseen : seen.contains record.kind with
    | true => rw [List.filter_cons_of_neg (by simpa using hseen), ih, List.filterMap_cons_none (by simpa using hseen)]
    | false =>
      rw [List.filter_cons_of_pos (by simpa using hseen), List.map_cons, ih,
        List.filterMap_cons_some (b := record.report) (by simpa using hseen)]

omit [Payload V] in
theorem evidenceOrder_eq {r s : EvidenceRecord V} (h : evidenceOrder r = evidenceOrder s) :
    r.kind = s.kind ∧ r.subject = s.subject := by
  have hpair : (r.kind, r.subject) = (s.kind, s.subject) := toLex.injective h
  exact ⟨congrArg Prod.fst hpair, congrArg Prod.snd hpair⟩

omit [Payload V] in
theorem OneStatus.unruled_eq (h : OneStatus policy action evidence) (hperm : evidence.Perm evidence') :
    unruled evidence (seenKinds policy action) = unruled evidence' (seenKinds policy action) := by
  rw [unruled_eq_filterMap, unruled_eq_filterMap]
  refine congrArg (List.filterMap id) (map_sortBy_of_perm evidenceOrder _ hperm fun r hr s hs hkey => ?_)
  obtain ⟨hkind, hsubject⟩ := evidenceOrder_eq hkey
  cases hseen : (seenKinds policy action).contains r.kind with
  | true => rw [← hkind, hseen]; rfl
  | false =>
    have hnew : r.kind ∉ seenKinds policy action := by simpa using hseen
    rw [← hkind, hseen]
    show some r.report = some s.report
    rw [EvidenceRecord.report, EvidenceRecord.report, h r hr s hs hnew hkind hsubject, hkind]

omit [Payload V] in
theorem unruled_swap {r s : EvidenceRecord V} {seen : List String} (hseen : r.kind ∉ seen)
    (hkind : r.kind = s.kind) (hsubject : r.subject = s.subject) (rest : List (EvidenceRecord V)) :
    ∃ front back, unruled (r :: s :: rest) seen = front ++ r.report :: s.report :: back ∧
      unruled (s :: r :: rest) seen = front ++ s.report :: r.report :: back := by
  have hkey : evidenceOrder r = evidenceOrder s := by rw [evidenceOrder, evidenceOrder, hkind, hsubject]
  obtain ⟨front, back, hrs, hsr⟩ := sortBy_swap evidenceOrder hkey rest
  have hr : (!seen.contains r.kind) = true := by simpa using hseen
  have hs : (!seen.contains s.kind) = true := by rw [← hkind]; exact hr
  refine ⟨(front.filter fun record => !seen.contains record.kind).map EvidenceRecord.report,
    (back.filter fun record => !seen.contains record.kind).map EvidenceRecord.report, ?_, ?_⟩
  · rw [unruled, hrs, List.filter_append, List.filter_cons_of_pos (by exact hr),
      List.filter_cons_of_pos (by exact hs), List.map_append, List.map_cons, List.map_cons]
  · rw [unruled, hsr, List.filter_append, List.filter_cons_of_pos (by exact hs),
      List.filter_cons_of_pos (by exact hr), List.map_append, List.map_cons, List.map_cons]

theorem eq_of_sortBy_swap {a b : ControlReport} (horder : controlOrder a = controlOrder b)
    {front back : List ControlReport}
    (h : sortBy controlOrder (front ++ a :: b :: back) = sortBy controlOrder (front ++ b :: a :: back)) : a = b := by
  have hfilter := congrArg (List.filter fun report => controlOrder report = controlOrder a) h
  rw [filter_sortBy_eq, filter_sortBy_eq, List.filter_append, List.filter_append] at hfilter
  have htail := List.append_cancel_left hfilter
  rw [List.filter_cons_of_pos (by simp), List.filter_cons_of_pos (by simp [horder]),
    List.filter_cons_of_pos (by simp [horder])] at htail
  exact (List.cons.inj htail).1

/-- A verdict does not depend on the order of the evidence exactly when the evidence that no rule refers
to has one status for each kind and subject. -/
theorem evaluate_policy_perm_iff (h : (evaluatePolicy datasetId evidence policy action).isSome = true) :
    (∀ evidence', evidence'.Perm evidence →
        evaluatePolicy datasetId evidence' policy action = evaluatePolicy datasetId evidence policy action) ↔
      OneStatus policy action evidence := by
  constructor
  · intro hsame r hr s hs hseen hkind hsubject
    by_contra hstatus
    obtain ⟨rest, hrest⟩ : ∃ rest, (r :: s :: rest).Perm evidence := by
      obtain ⟨before, after, rfl⟩ := List.append_of_mem hr
      have hmem : s ∈ before ++ after := by
        rcases List.mem_append.1 hs with hs | hs
        · exact List.mem_append_left _ hs
        · rcases List.mem_cons.1 hs with rfl | hs
          · exact absurd rfl hstatus
          · exact List.mem_append_right _ hs
      obtain ⟨front, back, hsplit⟩ := List.append_of_mem hmem
      refine ⟨front ++ back, List.Perm.trans ?_ List.perm_middle.symm⟩
      rw [hsplit]
      exact List.perm_middle.symm.cons r
    have hswapped := hsame (s :: r :: rest) ((List.Perm.swap r s rest).trans hrest)
    rw [← hsame _ hrest] at hswapped
    obtain ⟨found, hfound⟩ : ∃ found, findings datasetId (r :: s :: rest) policy action = some found := by
      rw [← hsame _ hrest, evaluatePolicy] at h
      cases hfindings : findings datasetId (r :: s :: rest) policy action with
      | none => rw [hfindings] at h; cases h
      | some found => exact ⟨found, rfl⟩
    rw [evaluatePolicy, evaluatePolicy, findings_perm (List.Perm.swap r s rest), hfound] at hswapped
    have hcontrols := congrArg PolicyVerdict.controls (Option.some.inj hswapped)
    obtain ⟨front, back, hrs, hsr⟩ := unruled_swap hseen hkind hsubject rest
    rw [verdictOf, verdictOf, hrs, hsr, ← List.append_assoc, ← List.append_assoc] at hcontrols
    have hreport := eq_of_sortBy_swap (by rw [controlOrder, controlOrder, EvidenceRecord.report,
      EvidenceRecord.report, hkind]) hcontrols
    have hvalue : s.status.value = r.status.value := congrArg ControlReport.status hreport
    cases hr : r.status <;> cases hs : s.status <;> rw [hr, hs] at hvalue hstatus
    · exact hstatus rfl
    · exact absurd hvalue (by decide)
    · exact absurd hvalue (by decide)
    · exact hstatus rfl
  · intro hone evidence' hperm
    rw [evaluatePolicy, evaluatePolicy, findings_perm hperm, hone.unruled_eq hperm.symm]

end

/-! ### Two records of a kind without a rule -/

instance : Payload Bool where
  truthy := id
  equal a b := some (a == b)
  contains _ _ := none

def qualityPolicy : DatasetPolicy Bool where
  policyVersion := "1"
  rules := [{ control := "quality"
              evidenceKind := "quality_checks"
              condition := some { field := "passed", operator := .isTrue, value := true } }]

def qualityEvidence (passed : Bool) : EvidenceRecord Bool where
  kind := "quality_checks"
  subject := "orders"
  payload := .ofList [("passed", passed)]

def lineageEvidence (subject : String) (status : EvidenceStatus) (h : subject ≠ "") : EvidenceRecord Bool where
  kind := "lineage"
  subject := subject
  status := status
  subject_ne := h

theorem quality_order_irrelevant :
    evaluatePolicy "orders" [qualityEvidence false, lineageEvidence "orders" .missing (by decide),
        qualityEvidence true] qualityPolicy "publish" =
      evaluatePolicy "orders" [lineageEvidence "orders" .missing (by decide), qualityEvidence false,
        qualityEvidence true] qualityPolicy "publish" :=
  (evaluate_policy_perm_iff (by decide +kernel)).2 (by decide +kernel) _ (List.Perm.swap _ _ _)

/-- The lines of two lineage records, one present and one missing, change places. -/
theorem lineage_order_matters :
    [lineageEvidence "orders" .present (by decide), lineageEvidence "orders" .missing (by decide)].Perm
        [lineageEvidence "orders" .missing (by decide), lineageEvidence "orders" .present (by decide)] ∧
      evaluatePolicy "orders" [lineageEvidence "orders" .present (by decide),
          lineageEvidence "orders" .missing (by decide)] qualityPolicy "publish" ≠
        evaluatePolicy "orders" [lineageEvidence "orders" .missing (by decide),
          lineageEvidence "orders" .present (by decide)] qualityPolicy "publish" :=
  ⟨List.Perm.swap _ _ _, by decide +kernel⟩

end Phlo.Dataset.Policy
