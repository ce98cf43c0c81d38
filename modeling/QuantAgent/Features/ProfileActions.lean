import QuantAgent.Features.CompiledActions
import QuantAgent.Features.FeatureMatrix
import QuantAgent.Features.RowMoves

namespace QuantAgent.Features
set_option autoImplicit true

/-- What the rule of a profile says of a row. -/
structure ProfileSignal (F : Type) where
  score : F
  buy : Bool
  /-- The rule's exit of a ticker in position. -/
  leave : Bool

section Rules
variable {F : Type} [NumPy F]

/-- The rule of a profile at a row that is ready. -/
def profileSignal (profile : Profile) (threshold close rsi : F) (row : FeatureRow F) : ProfileSignal F :=
  match profile with
  | .academicMomentumTrend =>
    if [row.momentum12_1, row.sma50, row.sma200, row.realizedVolatility21d].all PyFloat.isFinite then
      { score := row.momentum12_1 * lit 4 + (row.sma50 / row.sma200 - 1) * lit 2 - row.realizedVolatility21d
        buy := row.rebalanceEligible && decide (threshold < row.momentum12_1) &&
          decide (row.sma200 ≤ close) && decide (row.sma200 ≤ row.sma50) &&
          decide (row.realizedVolatility21d ≤ decimal 35 2)
        leave := decide (close < row.sma200 * decimal 95 2) ||
          row.rebalanceEligible && (decide (row.momentum12_1 ≤ 0) || decide (row.sma50 < row.sma200)) }
    else
      { score := row.rollingSharpe + row.mediumReturn * lit 4 + row.longReturn * lit 2 - row.volatility
        buy := false
        leave := false }
  | .longRegimeMomentum =>
    { score := row.rollingSharpe + row.longReturn * lit 3 + row.mediumReturn * lit 2 - row.volatility
      buy := decide (row.longAverage ≤ close) &&
        decide (row.longAverage * decimal 98 2 ≤ row.mediumAverage) && decide (0 < row.longReturn)
      leave := decide (close < row.longAverage * decimal 97 2) || decide (decimal 18 2 < row.longDrawdown) }
  | .qualityTrendHold =>
    { score := row.mediumReturn * lit 3 + row.longReturn * lit 2 + row.rollingSharpe * decimal 5 1 -
        row.volatility * decimal 5 1
      buy := decide (row.mediumAverage ≤ close) &&
        decide (row.longAverage * decimal 97 2 ≤ row.mediumAverage) &&
        decide (-decimal 2 2 ≤ row.mediumReturn) && decide (row.volatility ≤ decimal 28 2)
      leave := decide (close < row.mediumAverage * decimal 96 2) ||
        decide (row.mediumReturn < -decimal 8 2) }
  | .volatilityBreakoutHold =>
    { score := if row.longHigh != 0 then
          (close / row.longHigh - decimal 96 2) * lit 6 + row.mediumReturn * lit 3 +
            row.volumeRatio * decimal 1 1 - row.volatility
        else -lit 999
      buy := decide (0 < row.longHigh) && decide (row.longHigh * decimal 96 2 ≤ close) &&
        decide (decimal 85 2 ≤ row.volumeRatio) && decide (row.volatility ≤ decimal 32 2) &&
        decide (0 ≤ row.mediumReturn)
      leave := decide (close < row.mediumAverage * decimal 95 2) || decide (decimal 2 1 < row.longDrawdown) }
  | .rollingSharpeMomentum =>
    { score := row.rollingSharpe + row.trend * lit 2 - row.volatility
      buy := decide (threshold / lit 10 ≤ row.rollingSharpe) && decide (row.mediumAverage ≤ close) &&
        decide (0 < row.trend)
      leave := decide (row.rollingSharpe ≤ 0) || decide (close < row.mediumAverage) }
  | .dualSmaTrend =>
    { score := if row.mediumAverage != 0 then
          row.mediumReturn * lit 3 + (row.shortAverage / row.mediumAverage - 1) * lit 8
        else 0
      buy := decide (row.mediumAverage < row.shortAverage) &&
        decide (row.average * decimal 98 2 < row.mediumAverage) && decide (row.shortAverage ≤ close)
      leave := decide (row.shortAverage < row.mediumAverage) || decide (close < row.average) }
  | .lowVolMomentum =>
    { score := row.trend * lit 3 + row.mediumReturn * lit 2 - row.volatility * decimal 15 1
      buy := decide (threshold ≤ row.trend) && decide (0 ≤ row.mediumReturn) &&
        decide (row.volatility ≤ decimal 28 2) && decide (row.mediumAverage ≤ close)
      leave := decide (close < row.mediumAverage * decimal 96 2) ||
        decide (row.mediumReturn < -decimal 6 2) || decide (decimal 22 2 < row.longDrawdown) }
  | .breakoutVolume =>
    { score := if row.high != 0 then
          (close / row.high - decimal 99 2) * lit 10 + row.volumeRatio * decimal 2 1 + row.trend * lit 2
        else -lit 999
      buy := decide (0 < row.high) && decide (row.high * decimal 995 3 ≤ close) &&
        decide (threshold ≤ row.volumeRatio) && decide (0 ≤ row.trend)
      leave := decide (close < row.shortAverage) }
  | .rsiTrendRebound =>
    { score := row.mediumReturn * lit 3 + (lit 55 - NumPy.abs (rsi - lit 45)) / lit 50 - row.volatility
      buy := decide (row.mediumAverage ≤ close) && decide (0 ≤ row.trend) &&
        (decide (lit 35 ≤ rsi) && decide (rsi ≤ lit 62)) && decide (row.previous ≤ close)
      leave := decide (lit 72 ≤ rsi) || decide (close < row.mediumAverage) }
  | .meanReversionBand =>
    { score := row.pullback * lit 2 + (lit 50 - rsi) / lit 50 - row.volatility
      buy := decide (close ≤ row.average * (1 - pyMax 0 (pyMin (decimal 20 2) threshold))) &&
        decide (rsi ≤ lit 45)
      leave := decide (row.mediumAverage ≤ close) || decide (lit 60 ≤ rsi) }
  | .returnToVolatility =>
    { score := row.returnToVolatility + row.mediumReturn * lit 2
      buy := decide (threshold * lit 4 ≤ row.returnToVolatility) && decide (row.mediumAverage ≤ close)
      leave := decide (row.returnToVolatility ≤ 0) || decide (close < row.mediumAverage) }
  | .cashPreservingTrend =>
    { score := row.rollingSharpe + row.trend * lit 2 - row.volatility * lit 2
      buy := decide (threshold ≤ row.trend) && decide (decimal 5 2 < row.rollingSharpe) &&
        decide (row.volatility ≤ decimal 3 1)
      leave := decide (row.trend < decimal 1 2) || decide (row.rollingSharpe < 0) }
  | _ =>
    { score := row.trend * lit 2 + row.mediumReturn - row.volatility
      buy := decide (threshold ≤ row.trend) && decide (row.average ≤ close) && decide (row.previous ≤ close)
      leave := decide (close < row.average) }

/-- A row of a session of `_profile_actions`. -/
structure Evaluation (F : Type) where
  index : ℕ
  ticker : String
  close : F
  buy : Bool
  sell : Bool
  score : F

def evaluationPriority (evaluation : Evaluation F) : F × String :=
  slotPriority evaluation.score evaluation.ticker

end Rules

namespace PreparedFeatureStore
variable {F : Type} [NumPy F] (S : PreparedFeatureStore F) (parameters : CandidateParameters F)
  (features : List (FeatureRow F))

def rsiAt (index : ℕ) : F := ((S.column Bar.rsi)[index]?).getD NumPy.nan

/-- The signal of a row, with the trailing stop of a ticker in position. -/
def evaluateRow (states : States F) (index : ℕ) : Evaluation F :=
  let ticker := S.tickerAt index
  let close := S.closeAt index
  let row := features.getD index .zero
  if row.ready then
    let signal := profileSignal parameters.profile parameters.threshold close (S.rsiAt index) row
    let sell := match states.get? ticker with
      | none => false
      | some state => signal.leave ||
        (decide (0 < state.entryClose) && trailingStop close state.highest parameters)
    ⟨index, ticker, close, signal.buy, sell, signal.score⟩
  else ⟨index, ticker, close, false, false, -lit 999⟩

/-- The tickers that get the open slots. -/
def selectedTickers (evaluations : List (Evaluation F)) (states : States F) : List String :=
  let openSlots := parameters.maxPositions - states.size
  let ranked := pySorted (fun a b => slotBefore (evaluationPriority a) (evaluationPriority b))
    (evaluations.filter fun item => item.buy && decide (item.ticker ∉ states))
  (ranked.take openSlots).map Evaluation.ticker

/-- What a row of `_profile_actions` does, once the tickers are selected. -/
def profileMove (states : States F) (selected : List String) (index : ℕ)
    (state : Option (PositionState F)) : Move F :=
  let evaluation := S.evaluateRow parameters features states index
  if evaluation.sell && state.isSome then .sell
  else if evaluation.ticker ∈ selected then .buy evaluation.score evaluation.close
  else match state with
    | some state => .mark (state.mark evaluation.close)
    | none => .pass

/-- One session of `_profile_actions`. -/
def profileSession (indices : List ℕ) (states : States F) : List (Decision F) × States F :=
  let evaluations := indices.map (S.evaluateRow parameters features states)
  let selected := selectedTickers parameters evaluations states
  S.settleRows (S.profileMove parameters features states selected) indices states

/-- `_profile_actions`, but for the rotations. -/
def profileActions (resetIndex stopIndex : Option ℕ) : Build F (RankedActions F) :=
  let features := S.features parameters.lookback
  S.generate (fun _ indices states => pure (S.profileSession parameters features indices states))
    resetIndex stopIndex

end PreparedFeatureStore
end QuantAgent.Features
