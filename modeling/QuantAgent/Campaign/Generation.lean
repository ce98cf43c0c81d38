import QuantAgent.Campaign.Positions

namespace QuantAgent.Campaign
open QuantAgent.Features
set_option autoImplicit true

/-- `GeneratedStrategyBlueprint`, without the texts shown to the user. -/
structure GeneratedStrategyBlueprint (F : Type) [PyFloat F] where
  blueprintId : String
  profile : Profile
  entryConditions : List (DescribedCondition F)
  exitConditions : List (DescribedCondition F)
  rankingMetric : String
  rankingDirection : RankingDirection
  executionMode : ExecutionMode
  lookback : ℕ
  threshold : F
  rebalanceIntervalDays : ℕ
  stopLossPct : F
  takeProfitPct : F
  trailingStopPct : F

/-- `CodeGenerationPlan` -/
structure CodeGenerationPlan (F : Type) [PyFloat F] where
  entryFeature : String
  exitFeature : String
  proxyFeature : String
  lookbacks : List ℕ
  thresholds : List F
  stopLossPct : F
  takeProfitPct : F
  candidateProfiles : List Profile
  rebalanceIntervalDays : ℕ
  trailingStopPct : F
  mediumMomentumWeight : F
  generatedStrategies : List (GeneratedStrategyBlueprint F)
  lookbacks_ne : lookbacks ≠ []
  thresholds_ne : thresholds ≠ []

/-- What the generation of candidates calls: the catalogue, its selection for a request that names
no candidates, the check of a candidate's audit descriptor, and the digests candidates are told
apart by. -/
structure Workshop (F κ : Type) [PyFloat F] where
  catalog : BlueprintCatalog F
  selectStrategyBlueprints : StrategySpec F → List (StrategyBlueprintTemplate F)
  descriptorOk : StrategyIR F → CandidateParameters F → Bool
  parameterIdentity : CandidateParameters F → κ
  candidateIdentity : StrategyIR F → CandidateParameters F → κ
  codeIdentity : String → κ

/-- `MAX_GENERATED_CANDIDATES`, and `MIN_GENERATED_CANDIDATES` as well. -/
def generatedCandidates : ℕ := 3

/-- `MAX_SELF_IMPROVEMENT_CANDIDATES` -/
def maxSelfImprovementCandidates : ℕ := 6

/-- The first `limit` items of different identities. -/
def takeDistinct [DecidableEq κ] (identity : α → κ) : ℕ → List κ → List α → List α
  | 0, _, _ => []
  | _ + 1, _, [] => []
  | limit + 1, seen, item :: items =>
    if identity item ∈ seen then takeDistinct identity (limit + 1) seen items
    else item :: takeDistinct identity limit (identity item :: seen) items

section Distinct
variable [DecidableEq κ] {identity : α → κ} {limit : ℕ} {seen : List κ} {items : List α}

theorem mem_of_takeDistinct (h : x ∈ takeDistinct identity limit seen items) : x ∈ items := by
  induction items generalizing limit seen with
  | nil => cases limit <;> cases h
  | cons item items ih =>
    cases limit with
    | zero => cases h
    | succ limit =>
      rw [takeDistinct] at h
      split at h
      · exact List.mem_cons_of_mem _ (ih h)
      · rcases List.mem_cons.mp h with rfl | h
        · exact List.mem_cons_self
        · exact List.mem_cons_of_mem _ (ih h)

/-- Where all identities differ, nothing is passed over. -/
theorem takeDistinct_of_nodup (hnodup : (items.map identity).Nodup)
    (hseen : ∀ item ∈ items, identity item ∉ seen) :
    takeDistinct identity limit seen items = items.take limit := by
  induction items generalizing limit seen with
  | nil => cases limit <;> rfl
  | cons item items ih =>
    cases limit with
    | zero => rfl
    | succ limit =>
      obtain ⟨hitem, hnodup⟩ := List.nodup_cons.mp hnodup
      rw [takeDistinct, if_neg (hseen item List.mem_cons_self), List.take_succ_cons, ih hnodup]
      intro other hother hmem
      rcases List.mem_cons.mp hmem with heq | hmem
      · exact hitem (heq ▸ List.mem_map_of_mem hother)
      · exact hseen other (List.mem_cons_of_mem _ hother) hmem

/-- What stands early enough is taken, or another of its identity is. -/
theorem takeDistinct_covers (h : x ∈ items.take limit) :
    identity x ∈ seen ∨ ∃ y ∈ takeDistinct identity limit seen items, identity y = identity x := by
  induction items generalizing limit seen with
  | nil => simp at h
  | cons item items ih =>
    cases limit with
    | zero => simp at h
    | succ limit =>
      rw [takeDistinct]
      rw [List.take_succ_cons] at h
      split
      · rename_i hitem
        rcases List.mem_cons.mp h with rfl | h
        · exact .inl hitem
        · exact ih (List.take_subset_take_left items (Nat.le_succ limit) h)
      · rcases List.mem_cons.mp h with rfl | h
        · exact .inr ⟨x, List.mem_cons_self, rfl⟩
        · have hcovers : identity x ∈ identity item :: seen ∨ _ := ih h
          rcases hcovers with hseen | ⟨y, hy, heq⟩
          · rcases List.mem_cons.mp hseen with heq | hseen
            · exact .inr ⟨item, List.mem_cons_self, heq.symm⟩
            · exact .inl hseen
          · exact .inr ⟨y, List.mem_cons_of_mem _ hy, heq⟩

end Distinct

section Generation
variable {F : Type} [NumPy F]

/-- `_is_researched_strategy` -/
def isResearchedStrategy (strategy : StrategySpec F) : Bool :=
  match strategy.riskConstraints.researchSnapshotHash with
  | some hash => hash ≠ ""
  | none => false

/-- `_minimum_candidate_count` -/
def minimumCandidateCount (strategy : StrategySpec F) : ℕ :=
  if isResearchedStrategy strategy then 1 else generatedCandidates

/-- `bounded` of `customize_blueprint_parameters` -/
def bounded (minimum maximum value : F) : F := pyMax minimum (pyMin maximum value)

/-- One item of `_automatic_strategy_blueprints` -/
def blueprintOf (constraints : RiskConstraints F) (template : StrategyBlueprintTemplate F) :
    GeneratedStrategyBlueprint F where
  blueprintId := template.catalogId
  profile := template.profile
  entryConditions := template.entryConditions
  exitConditions := template.exitConditions
  rankingMetric := template.rankingMetric
  rankingDirection := template.rankingDirection
  executionMode := template.executionMode
  lookback := template.lookback
  threshold := template.threshold
  rebalanceIntervalDays := max 5 (min 63 (constraints.rebalanceIntervalDays.getD 21))
  stopLossPct := bounded (decimal 1 2) 1 (constraints.stopLossPct.getD (decimal 20 2))
  takeProfitPct := bounded (decimal 1 2) (lit 10) (constraints.takeProfitPct.getD (lit 10))
  trailingStopPct := bounded (decimal 1 2) (decimal 75 2) (constraints.trailingStopPct.getD (decimal 25 2))

/-- The templates of an automatic request: the sealed ones, or the catalogue's own choice. -/
def selectedTemplates (shop : Workshop F κ) (strategy : StrategySpec F) :
    Except PyError (List (StrategyBlueprintTemplate F)) :=
  let sealedIds := splitItems ',' (strategy.riskConstraints.sealedCandidateIds.getD "")
  if sealedIds = [] then pure (shop.selectStrategyBlueprints strategy)
  else do
    let templates ← sealedIds.mapM fun id =>
      match shop.catalog.get? id with
      | some template => pure template
      | none => throw (PyError.valueError "sealed exploration candidate is not in the catalog")
    let signatures := splitItems ',' (strategy.riskConstraints.sealedCandidateSignatures.getD "")
    if templates.map StrategyBlueprintTemplate.executionSignature = signatures then pure templates
    else throw (.valueError "sealed exploration candidate signature changed")

/-- The automatic branch of `build_code_generation_plan` -/
def automaticPlan (shop : Workshop F κ) (strategy : StrategySpec F) :
    Except PyError (CodeGenerationPlan F) := do
  let constraints := strategy.riskConstraints
  let templates ← selectedTemplates shop strategy
  if h : templates = [] then throw (.valueError "lookbacks")
  else
    pure
      { entryFeature := "performance_momentum_tournament"
        exitFeature := "scheduled_rank_or_emergency_stop"
        proxyFeature := "past_only_price_factors"
        lookbacks := templates.map StrategyBlueprintTemplate.lookback
        thresholds := templates.map StrategyBlueprintTemplate.threshold
        stopLossPct := constraints.stopLossPct.getD (decimal 20 2)
        takeProfitPct := lit 10
        candidateProfiles := templates.map StrategyBlueprintTemplate.profile
        rebalanceIntervalDays := constraints.rebalanceIntervalDays.getD 21
        trailingStopPct := constraints.trailingStopPct.getD (decimal 25 2)
        mediumMomentumWeight := constraints.mediumMomentumWeight.getD (decimal 60 2)
        generatedStrategies := templates.map (blueprintOf constraints)
        lookbacks_ne := fun hnil => h (List.map_eq_nil_iff.mp hnil)
        thresholds_ne := fun hnil => h (List.map_eq_nil_iff.mp hnil) }

/-- A plan with the defaults of `CodeGenerationPlan` -/
def fixedPlan (entryFeature exitFeature proxyFeature : String) (lookbacks : List ℕ)
    (thresholds : List F) (lookbacks_ne : lookbacks ≠ []) (thresholds_ne : thresholds ≠ []) :
    CodeGenerationPlan F where
  entryFeature := entryFeature
  exitFeature := exitFeature
  proxyFeature := proxyFeature
  lookbacks := lookbacks
  thresholds := thresholds
  stopLossPct := decimal 8 2
  takeProfitPct := decimal 45 2
  candidateProfiles := []
  rebalanceIntervalDays := 21
  trailingStopPct := decimal 25 2
  mediumMomentumWeight := decimal 60 2
  generatedStrategies := []
  lookbacks_ne := lookbacks_ne
  thresholds_ne := thresholds_ne

/-- The other branches: a search grid by what the strategy is named after and reads. -/
def namedPlan (strategy : StrategySpec F) : CodeGenerationPlan F :=
  let features := (strategy.entryConditions ++ strategy.exitConditions).map fun c => c.left
  let requestedText := pyLower (pyJoin ' ' (features ++ strategy.indicators))
  if "automatic_academic_momentum".toList <+: strategy.strategyId.toList then
    fixedPlan "academic_momentum_trend" "monthly_trend_or_stop" "past_only_price_factors" [252]
      [0, decimal 5 2, decimal 1 1] nofun nofun
  else if pyContains "rsi" requestedText then
    fixedPlan "rsi_rebound" "rsi_overbought_or_stop" "rsi" [5, 10, 14, 20, 30, 40]
      [lit 30, lit 35, lit 40, lit 45, lit 50, lit 55] nofun nofun
  else if pyContains "volume" requestedText ∨ pyContains "신고가" (pyJoin ' ' strategy.assumptions) then
    fixedPlan "breakout_volume" "sma_or_stop" "volume_accumulation_proxy" [10, 15, 20, 30, 40, 60]
      [decimal 11 1, decimal 12 1, decimal 135 2, decimal 15 1, decimal 175 2, lit 2] nofun nofun
  else if pyContains "dividend" strategy.strategyId ∨ pyContains "low_vol" strategy.strategyId then
    fixedPlan "low_volatility_pullback" "sma_or_stop" "low_volatility_proxy"
      [10, 15, 20, 30, 45, 60]
      [decimal 2 2, decimal 3 2, decimal 4 2, decimal 5 2, decimal 7 2, decimal 1 1] nofun nofun
  else if pyContains "value" strategy.strategyId ∨ pyContains "growth" strategy.strategyId ∨
      pyContains "earnings" strategy.strategyId then
    fixedPlan "quality_momentum_proxy" "momentum_decay_or_stop" "trend_quality_proxy"
      [10, 15, 20, 30, 45, 60]
      [0, decimal 1 2, decimal 2 2, decimal 3 2, decimal 5 2, decimal 8 2] nofun nofun
  else
    fixedPlan "adaptive_trend" "sma_or_stop" "technical_proxy" [10, 15, 20, 30, 45, 60]
      [0, decimal 1 2, decimal 2 2, decimal 3 2, decimal 5 2, decimal 8 2] nofun nofun

theorem namedPlan_unplanned (strategy : StrategySpec F) :
    (namedPlan strategy).generatedStrategies = [] := by
  unfold namedPlan
  dsimp only
  repeat' split
  all_goals rfl

/-- `build_code_generation_plan` -/
def buildCodeGenerationPlan (shop : Workshop F κ) (strategy : StrategySpec F) :
    Except PyError (CodeGenerationPlan F) :=
  if strategy.selectionMode = .automatic then automaticPlan shop strategy
  else pure (namedPlan strategy)

/-- `_candidate_profiles` -/
def candidateProfiles (plan : CodeGenerationPlan F) : List Profile :=
  if plan.generatedStrategies ≠ [] then
    plan.generatedStrategies.map GeneratedStrategyBlueprint.profile
  else if plan.candidateProfiles ≠ [] then plan.candidateProfiles
  else if plan.entryFeature = "performance_momentum_tournament" then
    [.relativeMomentumRotation, .riskAdjustedMomentumRotation, .trendLeaderRotation]
  else if plan.entryFeature = "academic_momentum_trend" then
    List.replicate generatedCandidates .academicMomentumTrend
  else if plan.entryFeature = "rsi_rebound" then
    [.rsiTrendRebound, .meanReversionBand, .qualityTrendHold, .longRegimeMomentum,
      .rollingSharpeMomentum, .dualSmaTrend, .lowVolMomentum, .returnToVolatility,
      .volatilityBreakoutHold, .cashPreservingTrend, .breakoutVolume]
  else if plan.entryFeature = "breakout_volume" then
    [.breakoutVolume, .volatilityBreakoutHold, .longRegimeMomentum, .qualityTrendHold,
      .rollingSharpeMomentum, .dualSmaTrend, .returnToVolatility, .lowVolMomentum,
      .cashPreservingTrend, .rsiTrendRebound, .meanReversionBand]
  else if plan.entryFeature = "low_volatility_pullback" then
    [.qualityTrendHold, .longRegimeMomentum, .lowVolMomentum, .cashPreservingTrend,
      .rollingSharpeMomentum, .dualSmaTrend, .volatilityBreakoutHold, .returnToVolatility,
      .meanReversionBand, .rsiTrendRebound, .breakoutVolume]
  else
    [.longRegimeMomentum, .qualityTrendHold, .volatilityBreakoutHold, .rollingSharpeMomentum,
      .dualSmaTrend, .lowVolMomentum, .breakoutVolume, .rsiTrendRebound, .returnToVolatility,
      .cashPreservingTrend]

/-- `xs[index % len(xs)]` -/
def cyclic (xs : List α) (h : xs ≠ []) (index : ℕ) : α :=
  xs.get ⟨index % xs.length, Nat.mod_lt _ (List.length_pos_iff.mpr h)⟩

/-- `_sealed_timing`: the time exit and the cadence a researched rule sealed, if any. -/
def sealedTiming (strategy : StrategySpec F) : Option ℕ × ExecutionMode :=
  if isResearchedStrategy strategy then
    (strategy.riskConstraints.holdingDays,
      if strategy.riskConstraints.rebalanceIntervalDays.isSome then .scheduledRotation
      else .eventDriven)
  else (none, .eventDriven)

/-- `_normalized_strategy_ir` on the server's own proposal -/
def normalizedStrategyIr (strategy : StrategySpec F) (plan : CodeGenerationPlan F) : StrategyIR F where
  strategyId := strategy.strategyId
  entryFeature := plan.entryFeature
  exitFeature := plan.exitFeature
  proxyFeature := plan.proxyFeature
  entryConditions := strategy.entryConditions
  exitConditions := strategy.exitConditions
  rankingMetric := none
  rankingDirection := .desc
  executionMode := (sealedTiming strategy).2
  holdingDays := (sealedTiming strategy).1

/-- The candidate of one profile, at one place of the plan's grid. -/
def gridParameters (strategy : StrategySpec F) (plan : CodeGenerationPlan F) (maxPositions : ℕ)
    (profile : Profile) (lookback : ℕ) (threshold : F) : CandidateParameters F where
  profile := profile
  blueprintId := none
  lookback := lookback
  threshold := threshold
  stopLossPct := strategy.riskConstraints.stopLossPct.getD plan.stopLossPct
  takeProfitPct := strategy.riskConstraints.takeProfitPct.getD plan.takeProfitPct
  maxPositions := maxPositions
  rebalanceIntervalDays := plan.rebalanceIntervalDays
  trailingStopPct := plan.trailingStopPct
  mediumMomentumWeight := plan.mediumMomentumWeight

def blueprintParameters (plan : CodeGenerationPlan F) (maxPositions : ℕ)
    (blueprint : GeneratedStrategyBlueprint F) : CandidateParameters F where
  profile := blueprint.profile
  blueprintId := some blueprint.blueprintId
  lookback := blueprint.lookback
  threshold := blueprint.threshold
  stopLossPct := blueprint.stopLossPct
  takeProfitPct := blueprint.takeProfitPct
  maxPositions := maxPositions
  rebalanceIntervalDays := blueprint.rebalanceIntervalDays
  trailingStopPct := blueprint.trailingStopPct
  mediumMomentumWeight := plan.mediumMomentumWeight

/-- `StrategyConditionCompilationError` -/
def compilationError (labels : List String) : PyError :=
  .valueError ("untranslatable strategy conditions: " ++ ", ".intercalate labels)

/-- The profiles `_default_parameter_sets` tries where no blueprint was generated. -/
def defaultProfiles (strategy : StrategySpec F) (plan : CodeGenerationPlan F) : List Profile :=
  let profiles := candidateProfiles plan
  if plan.entryFeature = "performance_momentum_tournament" then profiles
  else if plan.entryFeature = "academic_momentum_trend" then
    List.replicate generatedCandidates .academicMomentumTrend
  else if compiles strategy.entryConditions then .compiledConditions :: profiles.take 2
  else profiles.take generatedCandidates

/-- `_default_parameter_sets` -/
def defaultParameterSets (strategy : StrategySpec F) (plan : CodeGenerationPlan F)
    (maxPositions : ℕ) : Except PyError (List (CandidateParameters F)) :=
  let at? := fun (profile : Profile) (index : ℕ) =>
    gridParameters strategy plan maxPositions profile
      (max 3 (min 252 (cyclic plan.lookbacks plan.lookbacks_ne index)))
      (cyclic plan.thresholds plan.thresholds_ne index)
  if isResearchedStrategy strategy then
    if compiles strategy.entryConditions then pure [at? .compiledConditions 0]
    else throw (compilationError (untranslatableConditions strategy.entryConditions true))
  else if plan.generatedStrategies ≠ [] then
    pure (plan.generatedStrategies.map (blueprintParameters plan maxPositions))
  else pure ((defaultProfiles strategy plan).zipIdx.map fun (profile, index) => at? profile index)

/-- What `_normalized_parameter_sets` overwrites in every proposal. -/
def normalizeParameters (strategy : StrategySpec F) (plan : CodeGenerationPlan F)
    (maxPositions : ℕ) (item : CandidateParameters F) : CandidateParameters F :=
  let constraints := strategy.riskConstraints
  { item with
    maxPositions := maxPositions
    stopLossPct := constraints.stopLossPct.getD item.stopLossPct
    takeProfitPct := constraints.takeProfitPct.getD item.takeProfitPct
    rebalanceIntervalDays := constraints.rebalanceIntervalDays.getD plan.rebalanceIntervalDays
    trailingStopPct := constraints.trailingStopPct.getD plan.trailingStopPct
    mediumMomentumWeight := constraints.mediumMomentumWeight.getD plan.mediumMomentumWeight }

/-- A proposal of the user's own rule where that rule does not compile takes the default's profile. -/
def admittedProfile (strategy : StrategySpec F) (defaults : List (CandidateParameters F))
    (item : CandidateParameters F) (index : ℕ) : CandidateParameters F :=
  if item.profile = .compiledConditions ∧ ¬ compiles strategy.entryConditions ∧
      strategy.selectionMode ≠ .automatic then
    match defaults[min index (defaults.length - 1)]? with
    | some default => { item with profile := default.profile }
    | none => item
  else item

/-- `_normalized_parameter_sets` -/
def normalizedParameterSets [DecidableEq κ] (shop : Workshop F κ)
    (proposed : List (CandidateParameters F)) (strategy : StrategySpec F)
    (plan : CodeGenerationPlan F) (maxPositions : ℕ) :
    Except PyError (List (CandidateParameters F)) := do
  let defaults ← defaultParameterSets strategy plan maxPositions
  let pool := if strategy.selectionMode = .automatic then defaults else proposed ++ defaults
  let normalized := takeDistinct shop.parameterIdentity generatedCandidates []
    (pool.zipIdx.map fun (item, index) =>
      normalizeParameters strategy plan maxPositions (admittedProfile strategy defaults item index))
  if normalized.length < minimumCandidateCount strategy then
    throw (.valueError ("unable to create " ++ toString (minimumCandidateCount strategy) ++
      " distinct structured candidates"))
  else pure normalized

end Generation

end QuantAgent.Campaign
