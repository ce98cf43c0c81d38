import QuantAgent.Lib.Dict
import QuantAgent.Lib.PyFloat

namespace QuantAgent
set_option autoImplicit true

abbrev Date := ℕ

abbrev Ticker := String

/-- A metric value; `none` is the NaN the engine itself produces. -/
abbrev Metric (F : Type) := Option F

/-- One row of metrics by name. -/
abbrev Metrics (F : Type) := String → Option (Metric F)

/-- Metric rows by date and ticker. -/
abbrev MetricTable (F : Type) := Date → Ticker → Option (Metrics F)

/-- `row.update(other)` -/
def Metrics.update (row other : Metrics F) : Metrics F := fun name => (other name).or (row name)

structure OhlcvBar (F : Type) where
  date : Date
  ticker : Ticker
  open_ : F
  high : F
  low : F
  close : F
  volume : F
  rawNotional : Option F
deriving DecidableEq

def OhlcvBar.metrics (bar : OhlcvBar F) : Metrics F := fun name =>
  match name with
  | "open" => some (some bar.open_)
  | "high" => some (some bar.high)
  | "low" => some (some bar.low)
  | "close" => some (some bar.close)
  | "volume" => some (some bar.volume)
  | _ => none

section Spec
variable (F : Type) [PyFloat F]

/-- A field declared `ge=0.0`. -/
abbrev NonNeg := {x : F // 0 ≤ x}

/-- A field declared `gt=0.0`. -/
abbrev Positive := {x : F // 0 < x}

/-- A field declared `gt=0.0, le=1.0`. -/
abbrev Fraction := {x : F // 0 < x ∧ x ≤ 1}

inductive RoundingMode where
  | none
  | floor
  | halfUp
deriving DecidableEq

structure CostModel where
  commissionPct : NonNeg F
  taxPct : NonNeg F
  slippagePct : NonNeg F
  policyId : Option String
  roundingMode : RoundingMode
  roundingDecimals : Fin 11

/-- The sizing method with the percentage `validate_position_sizing` asks for. -/
inductive PositionSizingMethod where
  | equalWeight
  | fixedPercent (fixedPercent : Fraction F)
  | fixedRisk (riskPerPosition : Fraction F)

structure PositionSizing where
  method : PositionSizingMethod F
  maxPositions : Option ℕ+

structure ExecutionCapacityConfig where
  enabled : Bool
  maxParticipationRate : Fraction F

structure RiskControls where
  maxGrossExposurePct : Fraction F
  stopLossPct : Option (Fraction F)
  takeProfitPct : Option (Positive F)
  maxSinglePositionPct : Fraction F

/-- The event type with the amount `validate_event` asks for. -/
inductive CorporateActionType where
  | split (splitRatio : Positive F)
  | cashDividend (cashDividendPerShare : NonNeg F)
  | delist (recoveryPrice : NonNeg F)

structure CorporateActionEvent where
  eventType : CorporateActionType F
  ticker : Ticker
  effectiveDate : Date
  sourceVerified : Bool

inductive ExecutionTiming where
  | nextOpen
  | nextClose
deriving DecidableEq

structure BacktestConfig where
  executionTiming : ExecutionTiming
  costModel : CostModel F
  executionCapacity : ExecutionCapacityConfig F
  corporateActions : List (CorporateActionEvent F)

inductive LogicMode where
  | all
  | any
deriving DecidableEq

inductive ConditionOperator where
  | lt
  | lte
  | gt
  | gte
  | eq
  | ne
  | between
  | crossAbove
  | crossBelow
deriving DecidableEq

def ConditionOperator.value : ConditionOperator → String
  | .lt => "lt"
  | .lte => "lte"
  | .gt => "gt"
  | .gte => "gte"
  | .eq => "eq"
  | .ne => "ne"
  | .between => "between"
  | .crossAbove => "cross_above"
  | .crossBelow => "cross_below"

/-- The right side of a condition. -/
inductive Operand where
  | number (x : F)
  | metric (name : String)
  | range (xs : List F)

structure Condition where
  left : String
  operator : ConditionOperator
  right : Operand F
  description : Option String
  between_range : operator = .between → ∃ low high, right = .range [low, high] ∧ ¬high < low

structure StrategySpec where
  entryRules : List (Condition F)
  entryLogic : LogicMode
  exitRules : List (Condition F)
  exitLogic : LogicMode
  positionSizing : PositionSizing F
  riskControls : RiskControls F
  backtest : BacktestConfig F
  entryRules_ne_nil : entryRules ≠ []
  stopLoss_of_fixedRisk : ∀ r, positionSizing.method = .fixedRisk r →
    riskControls.stopLossPct ≠ none

/-- The TA-Lib package: the metric rows it computes for the bars of one ticker. -/
structure Talib where
  compute : List String → List (OhlcvBar F) → Date → Option (Metrics F)

structure BacktestRunConfig where
  initialCapital : F
  maxTickers : Option ℤ
  talib : Option (Talib F)
  delistingGraceDays : ℤ
  delistingRecoveryRate : F

end Spec

structure Position (F : Type) where
  ticker : Ticker
  quantity : ℤ
  entryDate : Date
  entryPrice : F
  entryNotional : F
  entryCost : F
  lastPrice : F
  entryReason : String

inductive Side where
  | buy
  | sell
deriving DecidableEq

def Side.value : Side → String
  | .buy => "buy"
  | .sell => "sell"

structure PendingOrder (F : Type) where
  ticker : Ticker
  side : Side
  signalDate : Date
  reason : String
  priorRawNotional : Option F
  signalScore : Option F

end QuantAgent
