import QuantAgent.Features.CompiledActions
import QuantAgent.Features.FeatureMatrix
import QuantAgent.Features.RowMoves

namespace QuantAgent.Features
set_option autoImplicit true

/-- A row a rotation ranks. -/
structure Observation (F : Type) where
  index : ℕ
  ticker : String
  close : F
  momentum : F
  medium : F
  volatility : F
  sma200 : F

section Ranks
variable {F : Type} [NumPy F]

/-- The ranks of the session by one measure of its rows. -/
def ranksBy (measure : Observation F → F) (observations : List (Observation F)) : Dict String F :=
  percentileRanksByName (observations.map fun item => (item.ticker, measure item))

def riskAdjusted (value : F) (item : Observation F) : F := value / pyMax item.volatility (decimal 5 2)

/-- Whether a row may enter the target, and the score it is ranked by. -/
def rotationScore (parameters : CandidateParameters F) (observations : List (Observation F))
    (item : Observation F) : Bool × F :=
  let rank := fun measure => ((ranksBy measure observations).get? item.ticker).getD 0
  match parameters.profile with
  | .relativeMomentumRotation =>
    (decide (parameters.threshold < item.momentum) && decide (item.sma200 ≤ item.close),
      rank Observation.momentum)
  | .riskAdjustedMomentumRotation =>
    (decide (parameters.threshold < item.momentum) && decide (0 < item.medium) &&
        decide (item.sma200 ≤ item.close) && decide (item.volatility ≤ decimal 65 2),
      rank (fun other => riskAdjusted other.momentum other) * decimal 50 2 +
        rank (fun other => riskAdjusted other.medium other) * decimal 50 2)
  | _ =>
    (decide (parameters.threshold < item.medium) && decide (item.sma200 ≤ item.close),
      rank Observation.medium * parameters.mediumMomentumWeight +
        rank Observation.momentum * (1 - parameters.mediumMomentumWeight))

/-- `selected`: the best of the eligible rows. -/
def selectedTargets (parameters : CandidateParameters F) (observations : List (Observation F)) :
    List (F × String) :=
  let ranked := (observations.filter fun item => (rotationScore parameters observations item).1).map
    fun item => ((rotationScore parameters observations item).2, item.ticker)
  (pySorted (fun a b => slotBefore (slotPriority a.1 a.2) (slotPriority b.1 b.2)) ranked).take
    parameters.maxPositions

/-- `target_scores`; its keys are the target. -/
def targetScores (parameters : CandidateParameters F) (observations : List (Observation F)) :
    Dict String F :=
  (selectedTargets parameters observations).foldl (fun scores item => scores.insert item.2 item.1) Dict.empty

/-- The state of a held name behind one more session. -/
def trackedState (close : F) (state : PositionState F) : PositionState F :=
  if 0 < state.entryClose then state.mark close else state

/-- `risk_exit`, from the state with this session's close. -/
def riskExit (parameters : CandidateParameters F) (close : F) (state : PositionState F) : Bool :=
  decide (0 < state.entryClose) && (fixedRiskExit close state.entryClose parameters ||
    trailingStop close state.highest parameters)

end Ranks

namespace PreparedFeatureStore
variable {F : Type} [NumPy F] (S : PreparedFeatureStore F) (parameters : CandidateParameters F)
  (features : List (FeatureRow F))

/-- A row with all the values its profile ranks by. -/
def observation (index : ℕ) : Option (Observation F) :=
  let row := features.getD index .zero
  let values := [row.momentum12_1, row.mediumReturn, row.sma200] ++
    (if parameters.profile = .riskAdjustedMomentumRotation then [row.realizedVolatility21d] else [])
  if row.ready && values.all PyFloat.isFinite then
    some ⟨index, S.tickerAt index, S.closeAt index, row.momentum12_1, row.mediumReturn,
      row.realizedVolatility21d, row.sma200⟩
  else none

/-- A day on which the portfolio is replaced. -/
def rotationDay (resetIndex : Option ℕ) (number : ℕ) : Bool :=
  resetIndex == some number ||
    decide (252 ≤ number) && (number - 252) % parameters.rebalanceIntervalDays == 0

/-- The target of a session; no names on other days. -/
def sessionTarget (resetIndex : Option ℕ) (number : ℕ) (indices : List ℕ) : Dict String F :=
  if rotationDay parameters resetIndex number then
    targetScores parameters (indices.filterMap (S.observation parameters features))
  else Dict.empty

/-- What a row of `_rotation_profile_actions` does. -/
def rotationMove (rotationDay : Bool) (target : Dict String F) (index : ℕ)
    (state : Option (PositionState F)) : Move F :=
  let ticker := S.tickerAt index
  let close := S.closeAt index
  match state with
  | some state =>
    let state := trackedState close state
    if riskExit parameters close state || (rotationDay && decide (ticker ∉ target)) then .sell
    else .mark state
  | none =>
    match target.get? ticker with
    | some score => if rotationDay then .buy score close else .pass
    | none => .pass

/-- One session of `_rotation_profile_actions`. -/
def rotationSession (resetIndex : Option ℕ) (number : ℕ) (indices : List ℕ) (states : States F) :
    List (Decision F) × States F :=
  let target := S.sessionTarget parameters features resetIndex number indices
  S.settleRows (S.rotationMove parameters (rotationDay parameters resetIndex number) target) indices states

/-- `_rotation_profile_actions` -/
def rotationProfileActions (resetIndex stopIndex : Option ℕ) : Build F (RankedActions F) :=
  let features := S.features parameters.lookback
  S.generate (fun number indices states =>
    pure (S.rotationSession parameters features resetIndex number indices states)) resetIndex stopIndex

end PreparedFeatureStore
end QuantAgent.Features
