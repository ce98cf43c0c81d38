import QuantAgent.Campaign.Generation
import QuantAgent.Lib.PyExcept

namespace QuantAgent.Campaign
open QuantAgent.Features
set_option autoImplicit true

/-- `BacktestMetrics`: what selection, the acceptance floor and its benchmark checks read. -/
structure BacktestMetrics (F : Type) where
  maxDrawdown : F
  totalReturn : F
  inSampleSharpe : F
  inSampleReturn : F
  inSampleMaxDrawdown : F
  inSampleObservations : ℕ
  outSampleSharpe : Option F
  candidatesEvaluated : ℕ
  selectionAdjustedSharpe : F
  inSampleBenchmarkReturn : Option F
  outSampleBenchmarkReturn : Option F
  outSampleExcessReturn : Option F
  benchmarkPeriodCount : Option ℕ
  outSampleBenchmarkPeriodCount : Option ℕ
  outSampleBenchmarkPeriodLossRate : Option F

/-- `_mask_unavailable_walk_forward_metrics`, on a sample that cannot be walked forward. -/
def BacktestMetrics.masked (metrics : BacktestMetrics F) : BacktestMetrics F :=
  { metrics with
    outSampleSharpe := none
    inSampleBenchmarkReturn := none
    outSampleBenchmarkReturn := none
    outSampleExcessReturn := none
    benchmarkPeriodCount := none
    outSampleBenchmarkPeriodCount := none
    outSampleBenchmarkPeriodLossRate := none }

/-- How a candidate is executed; `parameters` are its own where it has them. -/
inductive Representation (F : Type) [PyFloat F] where
  | structured (ir : StrategyIR F) (parameters : CandidateParameters F)
  | pythonFallback (code : String)

/-- `CodeCandidate` -/
structure CodeCandidate (F : Type) [PyFloat F] where
  candidateId : String
  representation : Representation F
  validationOk : Bool
  metrics : Option (BacktestMetrics F)

/-- `Loop3Result` -/
structure Loop3Result (F : Type) [PyFloat F] where
  candidates : List (CodeCandidate F)
  codePlan : CodeGenerationPlan F

namespace CodeCandidate
variable {F : Type} [PyFloat F]

def parameters (candidate : CodeCandidate F) : Option (CandidateParameters F) :=
  match candidate.representation with
  | .structured _ parameters => some parameters
  | .pythonFallback _ => none

def ir (candidate : CodeCandidate F) : Option (StrategyIR F) :=
  match candidate.representation with
  | .structured ir _ => some ir
  | .pythonFallback _ => none

/-- `_is_user_rule` -/
def isUserRule (candidate : CodeCandidate F) : Bool :=
  match candidate.parameters with
  | some parameters =>
    parameters.profile == .compiledConditions &&
      (match parameters.blueprintId with
        | some id => id == ""
        | none => true)
  | none => false

/-- The same rule under the same name; selection and evaluation change nothing else of it. -/
structure SameRule (c d : CodeCandidate F) : Prop where
  candidateId : c.candidateId = d.candidateId
  representation : c.representation = d.representation

theorem SameRule.refl (c : CodeCandidate F) : SameRule c c := ⟨rfl, rfl⟩

theorem SameRule.trans {c d e : CodeCandidate F} (h : SameRule c d) (h' : SameRule d e) :
    SameRule c e := ⟨h.1.trans h'.1, h.2.trans h'.2⟩

theorem SameRule.parameters {c d : CodeCandidate F} (h : SameRule c d) :
    c.parameters = d.parameters := by
  rw [CodeCandidate.parameters, h.representation]
  rfl

theorem SameRule.ir {c d : CodeCandidate F} (h : SameRule c d) : c.ir = d.ir := by
  rw [CodeCandidate.ir, h.representation]
  rfl

theorem SameRule.isUserRule {c d : CodeCandidate F} (h : SameRule c d) :
    c.isUserRule = d.isUserRule := by
  rw [CodeCandidate.isUserRule, h.parameters]
  rfl

end CodeCandidate

/-- `_candidate_identity` -/
def Workshop.identity [PyFloat F] (shop : Workshop F κ) (candidate : CodeCandidate F) : κ :=
  match candidate.representation with
  | .structured ir parameters => shop.candidateIdentity ir parameters
  | .pythonFallback code => shop.codeIdentity code

section Candidates
variable {F : Type} [NumPy F] [DecidableEq κ]

/-- The rule of a blueprint, which replaces the strategy's own. -/
def blueprintIr (blueprint : GeneratedStrategyBlueprint F) : StrategyIR F where
  strategyId := blueprint.blueprintId
  entryFeature := "catalog:" ++ blueprint.blueprintId ++ ":entry"
  exitFeature := "catalog:" ++ blueprint.blueprintId ++ ":exit"
  proxyFeature := "past_only_adjusted_ohlcv"
  entryConditions := blueprint.entryConditions
  exitConditions := blueprint.exitConditions
  rankingMetric := some blueprint.rankingMetric
  rankingDirection := blueprint.rankingDirection
  executionMode := blueprint.executionMode
  holdingDays := none

/-- `blueprint_by_id.get(parameters.blueprint_id or "")` -/
def blueprintFor (generated : List (GeneratedStrategyBlueprint F))
    (parameters : CandidateParameters F) : Option (GeneratedStrategyBlueprint F) :=
  (Dict.index GeneratedStrategyBlueprint.blueprintId generated).get? (parameters.blueprintId.getD "")

/-- A candidate with no metrics yet, checked by its audit descriptor. -/
def structuredCandidate (shop : Workshop F κ) (id : String) (ir : StrategyIR F)
    (parameters : CandidateParameters F) : CodeCandidate F where
  candidateId := id
  representation := .structured ir parameters
  validationOk := shop.descriptorOk ir parameters
  metrics := none

/-- One candidate of `_structured_candidates`, by its place in the list. -/
def generatedCandidate (shop : Workshop F κ) (strategy : StrategySpec F) (ir : StrategyIR F)
    (generated : List (GeneratedStrategyBlueprint F)) (parameters : CandidateParameters F)
    (index : ℕ) : CodeCandidate F :=
  match blueprintFor generated parameters with
  | some blueprint =>
    let id :=
      if strategy.riskConstraints.sealedCandidateIds.getD "" ≠ "" then blueprint.blueprintId
      else "A" ++ toString index
    structuredCandidate shop id (blueprintIr blueprint) parameters
  | none => structuredCandidate shop ("A" ++ toString index) ir parameters

/-- `_structured_candidates` -/
def structuredCandidates (shop : Workshop F κ) (strategy : StrategySpec F) (ir : StrategyIR F)
    (parameterSets : List (CandidateParameters F))
    (generated : List (GeneratedStrategyBlueprint F)) : Except PyError (List (CodeCandidate F)) :=
  let candidates := ((parameterSets.take generatedCandidates).zipIdx 1).map fun (parameters, index) =>
    generatedCandidate shop strategy ir generated parameters index
  if candidates.length < minimumCandidateCount strategy then
    throw (.valueError ("Loop3 requires at least " ++ toString (minimumCandidateCount strategy) ++
      " candidates"))
  else pure candidates

/-- The conditions of a researched rule that the engine cannot execute. -/
def unsupportedConditions (strategy : StrategySpec F) : List String :=
  untranslatableConditions strategy.entryConditions true ++
    untranslatableConditions strategy.exitConditions false

/-- `generate_loop3_candidates` as the node calls it, with no model's proposals. -/
def generateLoop3Candidates (shop : Workshop F κ) (strategy : StrategySpec F) (maxPositions : ℕ) :
    Except PyError (Loop3Result F) := do
  if isResearchedStrategy strategy ∧ unsupportedConditions strategy ≠ [] then
    throw (compilationError (unsupportedConditions strategy))
  let plan ← buildCodeGenerationPlan shop strategy
  let proposed ← defaultParameterSets strategy plan maxPositions
  let parameterSets ← normalizedParameterSets shop proposed strategy plan maxPositions
  let candidates ← structuredCandidates shop strategy (normalizedStrategyIr strategy plan)
    parameterSets plan.generatedStrategies
  if candidates.any CodeCandidate.validationOk then pure ⟨candidates, plan⟩
  else throw (.valueError "no safe backtest candidates")

/-- What a generation that ends well went through. -/
structure GeneratedAs (shop : Workshop F κ) (strategy : StrategySpec F) (maxPositions : ℕ)
    (generated : Loop3Result F) : Prop where
  supported : isResearchedStrategy strategy → unsupportedConditions strategy = []
  plan : buildCodeGenerationPlan shop strategy = .ok generated.codePlan
  valid : generated.candidates.any CodeCandidate.validationOk
  candidates : ∃ proposed parameterSets,
    defaultParameterSets strategy generated.codePlan maxPositions = .ok proposed ∧
      normalizedParameterSets shop proposed strategy generated.codePlan maxPositions =
        .ok parameterSets ∧
      structuredCandidates shop strategy (normalizedStrategyIr strategy generated.codePlan)
        parameterSets generated.codePlan.generatedStrategies = .ok generated.candidates

theorem generateLoop3Candidates_eq_ok {shop : Workshop F κ} {strategy : StrategySpec F}
    {maxPositions : ℕ} {generated : Loop3Result F} :
    generateLoop3Candidates shop strategy maxPositions = .ok generated ↔
      GeneratedAs shop strategy maxPositions generated := by
  unfold generateLoop3Candidates
  dsimp only
  constructor
  · intro h
    split at h
    · cases h
    · rename_i hsupported
      obtain ⟨plan, hplan, h⟩ := bind_eq_ok.mp h
      obtain ⟨proposed, hproposed, h⟩ := bind_eq_ok.mp h
      obtain ⟨parameterSets, hsets, h⟩ := bind_eq_ok.mp h
      obtain ⟨candidates, hcandidates, h⟩ := bind_eq_ok.mp h
      split at h
      · rename_i hvalid
        cases h
        exact ⟨fun hresearched => by_contra fun hne => hsupported ⟨hresearched, hne⟩, hplan, hvalid,
          proposed, parameterSets, hproposed, hsets, hcandidates⟩
      · cases h
  · rintro ⟨hsupported, hplan, hvalid, proposed, parameterSets, hproposed, hsets, hcandidates⟩
    rw [if_neg fun h => h.2 (hsupported h.1)]
    refine bind_eq_ok.mpr ⟨_, hplan, bind_eq_ok.mpr ⟨_, hproposed, bind_eq_ok.mpr ⟨_, hsets,
      bind_eq_ok.mpr ⟨_, hcandidates, ?_⟩⟩⟩⟩
    rw [if_pos hvalid]
    rfl

/-- `backtest_code_node`; `tickers` is the number of names in the price rows, if there are any. -/
def backtestCodeNode (shop : Workshop F κ) (strategy : StrategySpec F) (tickers : Option ℕ) :
    Except PyError (Loop3Result F) := do
  let maxPositions ← appliedMaxPositions strategy.riskConstraints tickers
  generateLoop3Candidates shop strategy maxPositions

/-- `_adjust_threshold` -/
def adjustThreshold (value : F) (entryFeature : String) (iteration : ℕ) : F :=
  if entryFeature = "breakout_volume" then
    pyMax (decimal 102 2) (value - decimal 1 1 * lit iteration)
  else if entryFeature = "rsi_rebound" then pyMin (lit 60) (value + lit (5 * iteration))
  else if entryFeature = "low_volatility_pullback" then
    pyMin (decimal 12 2) (value + decimal 1 2 * lit iteration)
  else pyMax (-decimal 2 2) (value - decimal 1 2 * lit iteration)

/-- `_selective_threshold` -/
def selectiveThreshold (value : F) (entryFeature : String) (iteration : ℕ) : F :=
  if entryFeature = "breakout_volume" then value + decimal 12 2 * lit iteration
  else if entryFeature = "rsi_rebound" then pyMax (lit 25) (value - lit (3 * iteration))
  else if entryFeature = "low_volatility_pullback" then
    pyMax (decimal 15 3) (value - decimal 5 3 * lit iteration)
  else value + decimal 3 2 * lit iteration

def refinedLookbacks (plan : CodeGenerationPlan F) (iteration : ℕ) : List ℕ :=
  plan.lookbacks.map (fun value => max 3 (value - iteration * 2)) ++
    plan.lookbacks.map (fun value => min 252 (value + iteration * 10))

def refinedThresholds (plan : CodeGenerationPlan F) (iteration : ℕ) : List F :=
  plan.thresholds.map (fun value => adjustThreshold value plan.entryFeature iteration) ++
    plan.thresholds.map (fun value => selectiveThreshold value plan.entryFeature iteration)

theorem refinedLookbacks_ne (plan : CodeGenerationPlan F) (iteration : ℕ) :
    refinedLookbacks plan iteration ≠ [] := by
  simp [refinedLookbacks, plan.lookbacks_ne]

theorem refinedThresholds_ne (plan : CodeGenerationPlan F) (iteration : ℕ) :
    refinedThresholds plan iteration ≠ [] := by
  simp [refinedThresholds, plan.thresholds_ne]

/-- The profiles of a refinement: two variants of the user's own rule where it compiles. -/
def refinementProfiles (strategy : StrategySpec F) (plan : CodeGenerationPlan F) : List Profile :=
  if compiles strategy.entryConditions then
    .compiledConditions :: .compiledConditions :: candidateProfiles plan
  else candidateProfiles plan

/-- The grid `generate_self_improvement_candidates` walks, nearest variants first. -/
def parameterGrid (strategy : StrategySpec F) (plan : CodeGenerationPlan F) (iteration : ℕ) :
    List (Profile × ℕ × F) :=
  let profiles := refinementProfiles strategy plan
  let lookback := cyclic (refinedLookbacks plan iteration) (refinedLookbacks_ne plan iteration)
  let threshold := cyclic (refinedThresholds plan iteration) (refinedThresholds_ne plan iteration)
  (if .compiledConditions ∈ profiles then
      (List.range 2).map fun index => (.compiledConditions, lookback index, threshold index)
    else []) ++
    (profiles.filter fun profile => profile ≠ .compiledConditions).zipIdx.map
      (fun (profile, index) =>
        (profile, lookback (index + iteration), threshold (index * 2 + iteration))) ++
    profiles.flatMap fun profile =>
      (refinedLookbacks plan iteration).flatMap fun lookback =>
        (refinedThresholds plan iteration).map fun threshold => (profile, lookback, threshold)

/-- `generate_self_improvement_candidates` -/
def generateSelfImprovementCandidates (shop : Workshop F κ) (strategy : StrategySpec F)
    (plan : CodeGenerationPlan F) (startIndex iteration maxPositions : ℕ) :
    List (CodeCandidate F) :=
  let parameterSets := takeDistinct shop.parameterIdentity maxSelfImprovementCandidates []
    ((parameterGrid strategy plan iteration).map fun (profile, lookback, threshold) =>
      gridParameters strategy plan maxPositions profile lookback threshold)
  (parameterSets.zipIdx startIndex).map fun (parameters, index) =>
    structuredCandidate shop ("A" ++ toString index) (normalizedStrategyIr strategy plan) parameters

end Candidates

end QuantAgent.Campaign
