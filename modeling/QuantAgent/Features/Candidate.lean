import QuantAgent.Features.Compiler

namespace QuantAgent.Features
set_option autoImplicit true

/-- `StructuredProfile` -/
inductive Profile where
  | compiledConditions
  | academicMomentumTrend
  | relativeMomentumRotation
  | riskAdjustedMomentumRotation
  | trendLeaderRotation
  | longRegimeMomentum
  | qualityTrendHold
  | volatilityBreakoutHold
  | rollingSharpeMomentum
  | dualSmaTrend
  | lowVolMomentum
  | breakoutVolume
  | rsiTrendRebound
  | meanReversionBand
  | returnToVolatility
  | cashPreservingTrend
  | adaptiveTrend
deriving DecidableEq, Repr

inductive RankingDirection where
  | desc
  | asc
deriving DecidableEq, Repr

inductive ExecutionMode where
  | eventDriven
  | scheduledRotation
deriving DecidableEq, Repr

/-- `StrategyIR` -/
structure StrategyIR (F : Type) [PyFloat F] where
  strategyId : String
  entryFeature : String
  exitFeature : String
  proxyFeature : String
  entryConditions : List (DescribedCondition F)
  exitConditions : List (DescribedCondition F)
  rankingMetric : Option String
  rankingDirection : RankingDirection
  executionMode : ExecutionMode
  holdingDays : Option ℕ

/-- `CandidateParameters` -/
structure CandidateParameters (F : Type) where
  profile : Profile
  blueprintId : Option String
  lookback : ℕ
  threshold : F
  stopLossPct : F
  takeProfitPct : F
  maxPositions : ℕ
  rebalanceIntervalDays : ℕ
  trailingStopPct : F
  mediumMomentumWeight : F

end QuantAgent.Features
