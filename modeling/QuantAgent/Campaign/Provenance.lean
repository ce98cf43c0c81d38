import QuantAgent.Campaign.Runs

namespace QuantAgent.Campaign
open QuantAgent.Features
set_option autoImplicit true

/-- The rule a backtest says it traded. -/
inductive EvaluatedRule where
  | automaticBlueprint (id : String)
  | userConditions
  | automaticProfile (profile : Profile)
  /-- A generic template; nothing where the candidate has no parameters. -/
  | template (profile : Option Profile)
deriving DecidableEq

/-- Why another rule was traded than the requested one. -/
inductive SubstitutionReason where
  | untranslatable (labels : List String)
  | scoredLower
  | notIncluded
deriving DecidableEq

structure RuleProvenance where
  evaluatedRule : EvaluatedRule
  substituted : Bool
  requestedConditions : List String
  untranslatableConditions : List String
  reason : Option SubstitutionReason

/-- `AUTOMATIC_TOURNAMENT_PROFILES` -/
def automaticTournamentProfiles : List Profile :=
  [.relativeMomentumRotation, .riskAdjustedMomentumRotation, .trendLeaderRotation]

section
variable {F : Type} [NumPy F]

/-- Whether a profile was delegated to the catalogue, as far as the result records its blueprints. -/
def intendedAutomatic (mode : SelectionMode) (blueprints : List (GeneratedStrategyBlueprint F))
    (profile : Option Profile) (blueprintId : String) : Bool :=
  let catalogProfiles := blueprints.map GeneratedStrategyBlueprint.profile
  mode == .automatic &&
    (blueprintId != "" ||
      match profile with
      | some profile => decide (profile ∈ catalogProfiles) ||
          (catalogProfiles.isEmpty && decide (profile ∈ automaticTournamentProfiles))
      | none => false)

/-- `rule_provenance` -/
def ruleProvenance (result : CandidateBacktestResult F)
    (blueprints : List (GeneratedStrategyBlueprint F))
    (entryConditions : List (DescribedCondition F)) (mode : SelectionMode) : RuleProvenance :=
  let profile := result.selected.parameters.map CandidateParameters.profile
  let blueprintId := (result.selected.parameters.bind CandidateParameters.blueprintId).getD ""
  let intended := intendedAutomatic mode blueprints profile blueprintId
  let substituted := profile != some .compiledConditions && !intended
  let untranslatable :=
    if substituted then
      (entryConditions.filter fun condition => !compiles [condition]).map fun condition => condition.left
    else []
  { evaluatedRule :=
      if intended && blueprintId != "" then .automaticBlueprint blueprintId
      else
        match profile with
        | some .compiledConditions => .userConditions
        | some profile => if intended then .automaticProfile profile else .template (some profile)
        | none => .template none
    substituted := substituted
    requestedConditions := entryConditions.map fun condition => condition.left
    untranslatableConditions := untranslatable
    reason :=
      if !substituted then none
      else if untranslatable ≠ [] then some (.untranslatable untranslatable)
      else if result.candidates.any CodeCandidate.isUserRule then some .scoredLower
      else some .notIncluded }

/-- A label of the user's conditions stands on a candidate with the profile that compiles them. -/
theorem profile_of_userConditions {result : CandidateBacktestResult F}
    {blueprints : List (GeneratedStrategyBlueprint F)}
    {entryConditions : List (DescribedCondition F)}
    (h : (ruleProvenance result blueprints entryConditions mode).evaluatedRule = .userConditions) :
    ∃ parameters, result.selected.parameters = some parameters ∧
      parameters.profile = .compiledConditions := by
  unfold ruleProvenance at h
  dsimp only at h
  split at h
  · cases h
  · split at h
    · rename_i hprofile
      exact Option.map_eq_some_iff.mp hprofile
    · split at h
      · cases h
      · cases h
    · cases h

/-- The rule of a candidate is the strategy's own entry and exit. -/
def CarriesRule (strategy : StrategySpec F) (candidate : CodeCandidate F) : Prop :=
  ∃ ir, candidate.ir = some ir ∧ ir.entryConditions = strategy.entryConditions ∧
    ir.exitConditions = strategy.exitConditions

theorem ruleFact_carriesRule (strategy : StrategySpec F) : RuleFact (CarriesRule strategy) where
  congr h := by
    rintro ⟨ir, hir, hrule⟩
    exact ⟨ir, h.ir.trans hir, hrule⟩
  structured := by
    rintro c ⟨ir, hir, -⟩
    rw [isStructured, hir]
    rfl

variable [DecidableEq κ] {shop : Workshop F κ} {strategy : StrategySpec F}

theorem carriesRule_structured {plan : CodeGenerationPlan F} (id : String)
    (parameters : CandidateParameters F) :
    CarriesRule strategy (structuredCandidate shop id (normalizedStrategyIr strategy plan) parameters) :=
  ⟨_, rfl, rfl, rfl⟩

theorem carriesRule_proposed {plan : CodeGenerationPlan F} {start iteration maxPositions : ℕ}
    {candidate : CodeCandidate F} (h : candidate ∈ generateSelfImprovementCandidates shop strategy plan
      start iteration maxPositions) : CarriesRule strategy candidate := by
  obtain ⟨⟨parameters, index⟩, -, rfl⟩ := List.mem_map.mp h
  exact carriesRule_structured _ _

/-- A strategy that delegates nothing gets no blueprint, so each of its candidates keeps its rule. -/
theorem carriesRule_generated {maxPositions : ℕ} {generated : Loop3Result F}
    (hmode : strategy.selectionMode ≠ .automatic)
    (h : generateLoop3Candidates shop strategy maxPositions = .ok generated) :
    ∀ c ∈ generated.candidates, CarriesRule strategy c := by
  obtain ⟨-, hplan, -, proposed, parameterSets, -, -, hcandidates⟩ :=
    generateLoop3Candidates_eq_ok.mp h
  have hnone : generated.codePlan.generatedStrategies = [] := by
    rw [buildCodeGenerationPlan, if_neg hmode] at hplan
    rw [← Except.ok.inj hplan, namedPlan_unplanned]
  unfold structuredCandidates at hcandidates
  dsimp only at hcandidates
  split at hcandidates
  · cases hcandidates
  · intro c hc
    rw [← Except.ok.inj hcandidates] at hc
    obtain ⟨⟨parameters, index⟩, -, rfl⟩ := List.mem_map.mp hc
    dsimp only
    rw [generatedCandidate, blueprintFor, hnone]
    exact carriesRule_structured _ _

/-- Wherever candidates are selected from, one of the user's own rule is, if it has metrics. -/
structure UserRuleFirst (session : Session F) (candidates : List (CodeCandidate F)) : Prop where
  single : ∀ evaluations result,
    candidates.mapM (evaluateCandidate session .selection) = .ok evaluations →
    runSingleSplit session candidates = .ok result →
    (∃ evaluation ∈ evaluations, evaluation.measurement.isSome ∧ evaluation.candidate.isUserRule) →
    result.selected.isUserRule
  fold : ∀ fold eligible selected,
    eligibleInFold session fold (candidates.filter CodeCandidate.validationOk) = .ok eligible →
    selectInFold eligible = some selected → (∃ c ∈ eligible, c.isUserRule) → selected.isUserRule

theorem userRuleFirst (session : Session F) (candidates : List (CodeCandidate F)) :
    UserRuleFirst session candidates where
  single := by
    rintro evaluations result hevaluations hrun ⟨evaluation, hmem, hmeasured, huser⟩
    obtain ⟨-, evaluations', hevaluations', selected, hselected, hsame⟩ := runSingleSplit_selected hrun
    cases hevaluations.symm.trans hevaluations'
    obtain ⟨c, -, heval⟩ := mem_of_mapM_ok hevaluations hmem
    obtain ⟨hvalid, hmetrics⟩ := evaluateCandidate_measured heval hmeasured
    have hcandidate : evaluation.candidate ∈ validCandidates evaluations := by
      refine List.mem_filter.mpr ⟨List.mem_map_of_mem hmem, ?_⟩
      rw [hvalid, hmetrics]
      rfl
    rw [hsame.isUserRule]
    exact preferred_holds hcandidate huser (preferred_subset hselected)
  fold := by
    rintro fold eligible selected - hselected ⟨c, hc, huser⟩
    exact preferred_holds hc huser (pyMaxBy_mem hselected)

/-- A run of the two nodes on one strategy and one set of price rows; the limits on positions are
those each node applies to these rows. -/
def analysisRun (shop : Workshop F κ) (session : Session F) (clock : Clock)
    (budget : ResearchCampaignBudget) (strategy : StrategySpec F) (codePositions nodePositions : ℕ) :
    Except PyError (CampaignRun F κ) := do
  let generated ← generateLoop3Candidates shop strategy codePositions
  pure (backtestNode shop session clock budget strategy nodePositions generated)

/-- Every session of the published performance, and who traded it. -/
structure PublishedByUserRule (strategy : StrategySpec F) (result : CandidateBacktestResult F) :
    Prop where
  traded : ∀ date ∈ result.equitySessions, ∃ c, Traded result date c
  carries : ∀ date c, Traded result date c → CarriesRule strategy c
  profile : ∃ parameters, result.selected.parameters = some parameters ∧
    parameters.profile = .compiledConditions

end

section Example

def closeAbove (level : ℕ) : DescribedCondition (Flt ℚ) where
  left := "close"
  operator := .gt
  right := .number (lit level)
  window := none
  aggregate := none
  scale := none
  consecutive := none
  universeRankPct := none
  left_ne := by decide
  right_shape := trivial
  window_pos := nofun
  consecutive_pos := nofun
  rank_pos := nofun
  description := none

/-- Buy while the close is above a level; the exits are the engine's own. -/
def levelStrategy : StrategySpec (Flt ℚ) where
  strategyId := "level"
  entryConditions := [closeAbove 1]
  exitConditions := []
  indicators := []
  riskConstraints := { }
  assumptions := []
  selectionMode := .userDefined
  entry_ne := nofun

def plainShop (templates : List (StrategyBlueprintTemplate (Flt ℚ)))
    (h : (templates.map StrategyBlueprintTemplate.catalogId).Nodup) : Workshop (Flt ℚ) String where
  catalog := ⟨"v1", "", templates, h⟩
  selectStrategyBlueprints _ := []
  descriptorOk _ _ := true
  parameterIdentity parameters := reprStr parameters.profile
  candidateIdentity ir _ := ir.strategyId
  codeIdentity code := code

/-- Rows on which no candidate has metrics. -/
def silentSession {F : Type} [NumPy F] : Session F where
  walkForwardReady := false
  folds := []
  minValidFolds := 0
  minUniqueEvaluationMonths := 0
  minUniqueEvaluationSessions := 0
  selectionDays := 0
  run _ _ := .error .failed
  foldEngine _ _ _ := .error .moduleNotFound
  aggregateMetrics _ := ⟨0, 0, 0, 0, 0, 0, none, 0, 0, none, none, none, none, none, none⟩
  expectedMaxSharpe _ _ := 0
  primaryBenchmark := none
  auxiliaryReturn := none

def freeClock : Clock := ⟨fun _ => false, fun _ => true⟩

end Example

end QuantAgent.Campaign
