import Phlo.Rbac.MinioCompiler
import Phlo.Rbac.NessieTexts

/-!
# Do document backends lose policies?

Different roles, patterns and actions can get one name: slugs replace what they do not allow by
underscores, and roles may have double underscores.  The later document of a name then takes the place of
the earlier one, and the verdict is in sync all the same.
-/

namespace Phlo.Rbac

open Phlo.Library

/-! ### MinIO -/

/-- `MinioCompiler.verify`, of the rows the backend lists. -/
def minioVerify (context : CompilerContext) (rbac : CanonicalRbac) (rows : List MinioRow) :
    Except CompileError (VerifyResult MinioArtifact) := do
  let desired ← minioCompile context rbac
  pure (verifyContentAware BackendArtifact.name minioEquivalent desired (minioReadCurrentState rows))

/-- `MinioCompiler.plan` -/
def minioPlan (context : CompilerContext) (rbac : CanonicalRbac) (rows : List MinioRow) :
    Except CompileError (List (PolicyChange MinioArtifact)) := do
  let desired ← minioCompile context rbac
  pure (planContentAware BackendArtifact.name minioEquivalent desired (minioReadCurrentState rows))

/-- A plan is made and applied. -/
def minioSync (persisted : JsonValue → JsonValue) (context : CompilerContext) (rbac : CanonicalRbac)
    (s : MinioStore) : Except CompileError MinioStore := do
  let plan ← minioPlan context rbac s.listPolicies
  pure (applyPlan (failedToApply BackendArtifact.name) (minioAct persisted) plan s).1

def MinioBinds (context : CompilerContext) (role : String) (policy : PolicyRule) (o : MinioArtifact) : Prop :=
  o.metadata.role = role ∧
    documentsEquivalent (.json (minioDocument context policy)) o.statement = true

/-- No policy is lost: a verdict in sync means that every policy has its document, a sync brings about
such a verdict, and no document takes the place of another. -/
structure MinioKeeps (persisted : JsonValue → JsonValue) (context : CompilerContext)
    (rbac : CanonicalRbac) : Prop where
  verdict : ∀ rows v, minioVerify context rbac rows = .ok v → v.inSync = true →
    ∀ role policy, Demands MINIO_POLICY_PAIRS rbac role policy →
      ∃ o ∈ minioReadCurrentState rows, MinioBinds context role policy o
  converges : ∀ s, ∃ s' v, minioSync persisted context rbac s = .ok s' ∧
    minioVerify context rbac s'.listPolicies = .ok v ∧ v.inSync = true
  kept : ∀ s s', minioSync persisted context rbac s = .ok s' →
    ∀ role policy, Demands MINIO_POLICY_PAIRS rbac role policy →
      ∃ o ∈ minioReadCurrentState s'.listPolicies,
        o.name = minioName role policy ∧ MinioBinds context role policy o

/-- Roles and policies with one name have one document. -/
def MinioNamesFaithful (context : CompilerContext) (rbac : CanonicalRbac) : Prop :=
  ∀ role policy role' policy', Demands MINIO_POLICY_PAIRS rbac role policy →
    Demands MINIO_POLICY_PAIRS rbac role' policy' → minioName role policy = minioName role' policy' →
    role = role' ∧
      documentsEquivalent (.json (minioDocument context policy)) (.json (minioDocument context policy'))
        = true

section

variable {persisted : JsonValue → JsonValue} {context : CompilerContext} {rbac : CanonicalRbac}
  {artifacts : List MinioArtifact}

theorem hasStatement_minioDocument (context : CompilerContext) (policy : PolicyRule) :
    hasStatement (minioDocument context policy) = true := by
  have hlist : "s3:ListBucket" ∈ minioActions policy.action := by
    rw [minioActions]
    split
    · decide
    · decide
  show hasStatement (policyDocument _ _ _) = true
  rw [policyDocument]
  simp only [if_pos hlist]
  rfl

theorem minioAccepts {role : String} (policy : PolicyRule) (hrole : isSqlIdentifier role = true) :
    MinioAccepts (minioArtifact context policy role) where
  statement := rfl
  complete := hasStatement_minioDocument context policy
  role hempty := by
    have hempty' : role = "" := hempty
    rw [hempty'] at hrole
    exact absurd hrole (by decide)
  managed := by
    show matchesManaged (minioName role policy) = true
    simp only [minioName, String.append_assoc]
    exact managed_append _

theorem minioAccepts_compiled (h : minioCompile context rbac = .ok artifacts) : ∀ a ∈ artifacts, MinioAccepts a := by
  obtain ⟨hto, hfrom⟩ := mem_minioCompile h
  intro a ha
  obtain ⟨role, policy, hdemands, rfl⟩ := hfrom a ha
  exact minioAccepts policy (hto role policy hdemands).2

theorem binds_of_same (hnames : MinioNamesFaithful context rbac)
    (h : minioCompile context rbac = .ok artifacts) {role : String} {policy : PolicyRule}
    (hdemands : Demands MINIO_POLICY_PAIRS rbac role policy) {a o : MinioArtifact} (ha : a ∈ artifacts)
    (hname : a.name = minioName role policy) (hsame : minioEquivalent a o = true) :
    MinioBinds context role policy o := by
  obtain ⟨role', policy', hdemands', rfl⟩ := (mem_minioCompile h).2 a ha
  obtain ⟨rfl, hdocument⟩ := hnames role policy role' policy' hdemands hdemands' hname.symm
  rw [minioEquivalent, Bool.and_eq_true, beq_iff_eq, documentsEquivalent_iff] at hsame
  rw [documentsEquivalent_iff] at hdocument
  exact ⟨hsame.2.symm, documentsEquivalent_iff.2 (hdocument.trans hsame.1)⟩

theorem minioSync_eq (hp : Persists persisted) (h : minioCompile context rbac = .ok artifacts)
    (s : MinioStore) : minioSync persisted context rbac s = .ok ((minioBackend hp).applied artifacts s) := by
  rw [minioSync, minioPlan, h]
  rfl

theorem minioVerify_eq (h : minioCompile context rbac = .ok artifacts) (rows : List MinioRow) :
    minioVerify context rbac rows = .ok (verifyContentAware BackendArtifact.name minioEquivalent
      artifacts (minioReadCurrentState rows)) := by
  rw [minioVerify, h]
  rfl

theorem minioKeeps_iff (hp : Persists persisted) (h : minioCompile context rbac = .ok artifacts) :
    MinioKeeps persisted context rbac ↔ MinioNamesFaithful context rbac := by
  have haccepts := minioAccepts_compiled h
  constructor
  · intro hkeeps role policy role' policy' hdemands hdemands' hname
    -- after a sync of an empty store both have their document under the one name
    have hsync := minioSync_eq hp h OrderedDict.empty
    obtain ⟨o, ho, honame, horole, hodocument⟩ := hkeeps.kept _ _ hsync role policy hdemands
    obtain ⟨o', ho', honame', horole', hodocument'⟩ := hkeeps.kept _ _ hsync role' policy' hdemands'
    obtain rfl := MinioStore.read_unique ho ho' (honame.trans (hname.trans honame'.symm))
    rw [documentsEquivalent_iff] at hodocument hodocument'
    exact ⟨horole.symm.trans horole', documentsEquivalent_iff.2 (hodocument.trans hodocument'.symm)⟩
  · intro hnames
    refine ⟨fun rows v hv hsync role policy hdemands => ?_, fun s => ?_, fun s s' hs' role policy hdemands => ?_⟩
    · rw [minioVerify_eq h] at hv
      cases hv
      obtain ⟨a, ha, haname, o, ho, -, hsame⟩ :=
        observed_of_inSync hsync ((mem_minioCompile h).1 role policy hdemands).1
      exact ⟨o, ho, binds_of_same hnames h hdemands ha haname hsame⟩
    · refine ⟨_, _, minioSync_eq hp h s, minioVerify_eq h _, ?_⟩
      exact DocumentBackend.inSync_applied (B := minioBackend hp) haccepts s
    · rw [minioSync_eq hp h] at hs'
      cases hs'
      obtain ⟨a, ha, haname, o, ho, honame, hsame⟩ := DocumentBackend.applied_same (B := minioBackend hp)
        haccepts s ((mem_minioCompile h).1 role policy hdemands).1
      exact ⟨o, ho, honame, binds_of_same hnames h hdemands ha haname hsame⟩

end

/-! ### Nessie -/

/-- `NessieCompiler.verify`, of the rows the backend lists. -/
def nessieVerify (rbac : CanonicalRbac) (rows : List NessieRow) :
    Except CompileError (VerifyResult NessieArtifact) := do
  let desired ← nessieCompile rbac
  pure (verifyContentAware BackendArtifact.name nessieEquivalent desired (nessieReadCurrentState rows))

/-- `NessieCompiler.plan` -/
def nessiePlan (rbac : CanonicalRbac) (rows : List NessieRow) :
    Except CompileError (List (PolicyChange NessieArtifact)) := do
  let desired ← nessieCompile rbac
  pure (planContentAware BackendArtifact.name nessieEquivalent desired (nessieReadCurrentState rows))

/-- A plan is made and applied. -/
def nessieSync (rbac : CanonicalRbac) (file : RulesFile) : Except CompileError RulesFile := do
  let plan ← nessiePlan rbac (RulesFile.listPolicies file)
  pure (applyPlan (failedToApply BackendArtifact.name) nessieAct plan file).1

/-- No policy is lost; the role a rule is bound to stands in its expression. -/
structure NessieKeeps (rbac : CanonicalRbac) : Prop where
  verdict : ∀ rows v, nessieVerify rbac rows = .ok v → v.inSync = true →
    ∀ role policy, Demands NESSIE_POLICY_PAIRS rbac role policy →
      ∃ o ∈ nessieReadCurrentState rows, o.metadata.expression = ruleExpression role policy
  converges : ∀ file, ∃ file' v, nessieSync rbac file = .ok file' ∧
    nessieVerify rbac (RulesFile.listPolicies file') = .ok v ∧ v.inSync = true
  kept : ∀ file file', nessieSync rbac file = .ok file' →
    ∀ role policy, Demands NESSIE_POLICY_PAIRS rbac role policy →
      ∃ o ∈ nessieReadCurrentState (RulesFile.listPolicies file'),
        o.name = nessieName role policy ∧ o.metadata.expression = ruleExpression role policy

/-- Roles and policies with one name have one rule, and a line can hold it. -/
structure NessieNamesFaithful (rbac : CanonicalRbac) : Prop where
  names : ∀ role policy role' policy', Demands NESSIE_POLICY_PAIRS rbac role policy →
    Demands NESSIE_POLICY_PAIRS rbac role' policy' → nessieName role policy = nessieName role' policy' →
    ruleExpression role policy = ruleExpression role' policy'
  lines : ∀ role policy, Demands NESSIE_POLICY_PAIRS rbac role policy → FitsLine role policy

section

variable {rbac : CanonicalRbac} {artifacts : List NessieArtifact}

theorem nessieSync_eq (h : nessieCompile rbac = .ok artifacts) (file : RulesFile) :
    nessieSync rbac file = .ok (nessieBackend.applied artifacts file) := by
  rw [nessieSync, nessiePlan, h]
  rfl

theorem nessieVerify_eq (h : nessieCompile rbac = .ok artifacts) (rows : List NessieRow) :
    nessieVerify rbac rows = .ok (verifyContentAware BackendArtifact.name nessieEquivalent artifacts
      (nessieReadCurrentState rows)) := by
  rw [nessieVerify, h]
  rfl

theorem nessieAccepts_compiled (hnames : NessieNamesFaithful rbac)
    (h : nessieCompile rbac = .ok artifacts) : ∀ a ∈ artifacts, NessieAccepts a := by
  obtain ⟨hto, hfrom⟩ := mem_nessieCompile h
  intro a ha
  obtain ⟨role, policy, hdemands, rfl⟩ := hfrom a ha
  obtain ⟨-, hrole, hpattern⟩ := hto role policy hdemands
  exact nessieAccepts hrole hpattern (hnames.lines role policy hdemands)

theorem ruleStatement_inj {name name' expression expression' : String} (hname : name = name')
    (h : ruleStatement name expression = ruleStatement name' expression') : expression = expression' := by
  rw [hname] at h
  have hlist := congrArg String.toList h
  simpa [ruleStatement, String.toList_append, String.toList_inj] using hlist

variable {o : NessieArtifact}

theorem expression_of_same (hnames : NessieNamesFaithful rbac) (h : nessieCompile rbac = .ok artifacts)
    {role : String} {policy : PolicyRule} (hdemands : Demands NESSIE_POLICY_PAIRS rbac role policy)
    {a : NessieArtifact} (ha : a ∈ artifacts) (hname : a.name = nessieName role policy)
    (honame : o.name = nessieName role policy)
    (hostatement : o.statement = ruleStatement o.name o.metadata.expression) (hsame : nessieEquivalent a o = true) :
    o.metadata.expression = ruleExpression role policy := by
  obtain ⟨role', policy', hdemands', rfl⟩ := (mem_nessieCompile h).2 a ha
  have hname' : nessieName role' policy' = o.name := hname.trans honame.symm
  have hstatement : ruleStatement (nessieName role' policy') (ruleExpression role' policy') =
      ruleStatement o.name o.metadata.expression := (beq_iff_eq.1 hsame).trans hostatement
  rw [← ruleStatement_inj hname' hstatement]
  exact hnames.names role' policy' role policy hdemands' hdemands hname

theorem statement_of_mem_read {rows : List NessieRow} (ho : o ∈ nessieReadCurrentState rows) :
    o.statement = ruleStatement o.name o.metadata.expression := by
  obtain ⟨row, -, rfl⟩ := List.mem_map.1 ho
  rfl

theorem fitsLine_of_read {file : RulesFile} (ho : o ∈ RulesFile.read file) {role : String} {policy : PolicyRule}
    (hname : o.name = nessieName role policy) (hexpression : o.metadata.expression = ruleExpression role policy) :
    FitsLine role policy := by
  obtain ⟨hcleanName, hcleanExpression, -⟩ := RulesFile.clean_of_mem_read ho
  dsimp only at hcleanName hcleanExpression
  rw [hname] at hcleanName
  rw [hexpression, ruleExpression_eq] at hcleanExpression
  have hbreak : isLineBreak '\n' = true := rfl
  constructor
  · by_contra hend
    have hlast : role.toList.getLast? = some '\n' := of_decide_eq_true (Bool.not_eq_false _ ▸ hend)
    have hmem : '\n' ∈ (nessieName role policy).toList := by
      simp [nessieName, List.mem_of_getLast? hlast]
    rw [(hcleanName '\n' hmem).1] at hbreak
    cases hbreak
  · intro hdataset
    by_contra hend
    have hmem : '\n' ∈ (pathPattern policy.resourceIdPattern).toList :=
      lineFeed_mem_pathPattern (Bool.not_eq_false _ ▸ hend)
    rw [if_pos hdataset] at hcleanExpression
    rw [hcleanExpression '\n' (by simp [hmem])] at hbreak
    cases hbreak

theorem nessieKeeps_iff (h : nessieCompile rbac = .ok artifacts) : NessieKeeps rbac ↔ NessieNamesFaithful rbac := by
  constructor
  · intro hkeeps
    have hsync := nessieSync_eq h none
    refine ⟨fun role policy role' policy' hdemands hdemands' hname => ?_, fun role policy hdemands => ?_⟩
    · obtain ⟨o, ho, honame, hexpression⟩ := hkeeps.kept _ _ hsync role policy hdemands
      obtain ⟨o', ho', honame', hexpression'⟩ := hkeeps.kept _ _ hsync role' policy' hdemands'
      obtain rfl := RulesFile.read_unique ho ho' (honame.trans (hname.trans honame'.symm))
      exact hexpression.symm.trans hexpression'
    · obtain ⟨o, ho, honame, hexpression⟩ := hkeeps.kept _ _ hsync role policy hdemands
      exact fitsLine_of_read ho honame hexpression
  · intro hnames
    have haccepts := nessieAccepts_compiled hnames h
    refine ⟨fun rows v hv hsync role policy hdemands => ?_, fun file => ?_,
      fun file file' hfile' role policy hdemands => ?_⟩
    · rw [nessieVerify_eq h] at hv
      cases hv
      obtain ⟨a, ha, haname, o, ho, honame, hsame⟩ :=
        observed_of_inSync hsync ((mem_nessieCompile h).1 role policy hdemands).1
      exact ⟨o, ho, expression_of_same hnames h hdemands ha haname honame (statement_of_mem_read ho) hsame⟩
    · refine ⟨_, _, nessieSync_eq h file, nessieVerify_eq h _, ?_⟩
      exact DocumentBackend.inSync_applied (B := nessieBackend) haccepts file
    · rw [nessieSync_eq h] at hfile'
      cases hfile'
      obtain ⟨a, ha, haname, o, ho, honame, hsame⟩ := DocumentBackend.applied_same (B := nessieBackend)
        haccepts file ((mem_nessieCompile h).1 role policy hdemands).1
      exact ⟨o, ho, honame,
        expression_of_same hnames h hdemands ha haname honame (statement_of_mem_read ho) hsame⟩

end

/-! ### Both -/

/-- **No policy is lost** exactly when roles and policies with one name have one document and, for Nessie,
no role and no pattern of a dataset ends in a line feed. -/
theorem documents_kept_iff (rbac : CanonicalRbac) :
    (∀ persisted, Persists persisted → ∀ context artifacts, minioCompile context rbac = .ok artifacts →
      (MinioKeeps persisted context rbac ↔ MinioNamesFaithful context rbac)) ∧
    ∀ artifacts, nessieCompile rbac = .ok artifacts → (NessieKeeps rbac ↔ NessieNamesFaithful rbac) :=
  ⟨fun _ hp _ _ h => minioKeeps_iff hp h, fun _ h => nessieKeeps_iff h⟩

def readPolicy (pattern : String) : PolicyRule where
  policyId := "read-" ++ pattern
  principalRoles := ["analyst"]
  action := "dataset.read"
  resourceType := "dataset"
  resourceIdPattern := pattern

def readPolicies (patterns : List String) : CanonicalRbac := ⟨patterns.map readPolicy⟩

theorem persists_id : Persists id := ⟨fun _ => rfl, fun _ h => h⟩

theorem demands_readPolicies {pairs : List (String × String)} {patterns : List String} {role : String}
    {policy : PolicyRule} (h : Demands pairs (readPolicies patterns) role policy) :
    role = "analyst" ∧ ∃ pattern ∈ patterns, policy = readPolicy pattern := by
  obtain ⟨hpolicy, -, hrole⟩ := h
  obtain ⟨pattern, hpattern, rfl⟩ := List.mem_map.1 hpolicy
  exact ⟨List.mem_singleton.1 hrole, pattern, hpattern, rfl⟩

theorem documents_kept_orders_events : MinioKeeps id {} (readPolicies ["raw.orders", "raw.events"]) ∧
      NessieKeeps (readPolicies ["raw.orders", "raw.events"]) := by
  have hminio : ∀ pattern ∈ ["raw.orders", "raw.events"], ∀ pattern' ∈ ["raw.orders", "raw.events"],
      minioName "analyst" (readPolicy pattern) = minioName "analyst" (readPolicy pattern') →
        pattern = pattern' := by decide
  have hnessie : ∀ pattern ∈ ["raw.orders", "raw.events"], ∀ pattern' ∈ ["raw.orders", "raw.events"],
      nessieName "analyst" (readPolicy pattern) = nessieName "analyst" (readPolicy pattern') →
        pattern = pattern' := by decide
  have hfits : ∀ pattern ∈ ["raw.orders", "raw.events"], endsLine pattern = false := by decide
  constructor
  · refine ((documents_kept_iff _).1 id persists_id {} _ rfl).2 ?_
    intro role policy role' policy' hdemands hdemands' hname
    obtain ⟨rfl, pattern, hpattern, rfl⟩ := demands_readPolicies hdemands
    obtain ⟨rfl, pattern', hpattern', rfl⟩ := demands_readPolicies hdemands'
    rw [hminio pattern hpattern pattern' hpattern' hname]
    exact ⟨rfl, documentsEquivalent_iff.2 rfl⟩
  · refine ((documents_kept_iff _).2 _ rfl).2 ⟨?_, ?_⟩
    · intro role policy role' policy' hdemands hdemands' hname
      obtain ⟨rfl, pattern, hpattern, rfl⟩ := demands_readPolicies hdemands
      obtain ⟨rfl, pattern', hpattern', rfl⟩ := demands_readPolicies hdemands'
      rw [hnessie pattern hpattern pattern' hpattern' hname]
    · intro role policy hdemands
      obtain ⟨rfl, pattern, hpattern, rfl⟩ := demands_readPolicies hdemands
      exact ⟨by decide, fun _ => hfits pattern hpattern⟩

/-- `raw.orders` and `raw_orders` have one slug: of the two documents only one is kept. -/
theorem slugs_collide : ¬MinioKeeps id {} (readPolicies ["raw.orders", "raw_orders"]) ∧
    ¬NessieKeeps (readPolicies ["raw.orders", "raw_orders"]) := by
  have hdemands : ∀ pairs, ("dataset.read", "dataset") ∈ pairs → ∀ pattern ∈ ["raw.orders", "raw_orders"],
      Demands pairs (readPolicies ["raw.orders", "raw_orders"]) "analyst" (readPolicy pattern) :=
    fun pairs hpairs pattern hpattern => ⟨List.mem_map_of_mem hpattern, hpairs, List.mem_singleton_self _⟩
  constructor
  · intro hkeeps
    have hnames := (minioKeeps_iff persists_id rfl).1 hkeeps
    have hdocument := (hnames _ _ _ _ (hdemands _ (by decide) "raw.orders" (by decide))
      (hdemands _ (by decide) "raw_orders" (by decide)) (by decide)).2
    revert hdocument
    decide +kernel
  · intro hkeeps
    have hnames := (nessieKeeps_iff rfl).1 hkeeps
    have hexpression := hnames.names _ _ _ _ (hdemands _ (by decide) "raw.orders" (by decide))
      (hdemands _ (by decide) "raw_orders" (by decide)) (by decide)
    revert hexpression
    decide +kernel

end Phlo.Rbac
