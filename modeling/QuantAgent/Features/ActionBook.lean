import QuantAgent.Features.Candidate
import QuantAgent.Features.Metrics
import QuantAgent.Lib.Holdings

namespace QuantAgent.Features
set_option autoImplicit true
open Holdings

/-- `[True, entry_price, highest_close_since_entry, sessions_held]` -/
structure PositionState (F : Type) where
  entryClose : F
  highest : F
  sessionsHeld : ℕ

/-- `states`: a ticker in position with its state; every other has `[False, 0.0, 0.0, 0.0]`. -/
abbrev States (F : Type) := Dict String (PositionState F)

/-- What the generators write into their arrays. -/
inductive Decision (F : Type) where
  /-- `actions[index] = 1` and `scores[index] = score` -/
  | buy (index : ℕ) (score : F)
  /-- `actions[index] = -1` -/
  | sell (index : ℕ)

def Decision.index {F : Type} : Decision F → ℕ
  | .buy index _ => index
  | .sell index => index

structure RankedActions (F : Type) where
  actions : List ℤ
  scores : List F

namespace RankedActions
variable {F : Type}

def write (ranked : RankedActions F) : Decision F → RankedActions F
  | .buy index score => ⟨ranked.actions.set index 1, ranked.scores.set index score⟩
  | .sell index => ⟨ranked.actions.set index (-1), ranked.scores⟩

/-- The arrays the generators start from. -/
def blank [NumPy F] (size : ℕ) : RankedActions F :=
  ⟨List.replicate size 0, List.replicate size NumPy.nan⟩

end RankedActions

section Rules
variable {F : Type} [NumPy F]

/-- `DISABLED_TAKE_PROFIT_PCT` -/
def disabledTakeProfitPct : F := lit 10

/-- `_fixed_risk_exit` -/
def fixedRiskExit (close entryClose : F) (parameters : CandidateParameters F) : Bool :=
  if entryClose ≤ 0 then false
  else if 0 < parameters.stopLossPct ∧ close ≤ entryClose * (1 - parameters.stopLossPct) then true
  else decide (0 < parameters.takeProfitPct) &&
    decide (parameters.takeProfitPct < disabledTakeProfitPct) &&
    decide (entryClose * (1 + parameters.takeProfitPct) ≤ close)

/-- `slot_priority` -/
def slotPriority (score : F) (ticker : String) : F × String :=
  (if PyFloat.isFinite score then -score else 0, ticker)

/-- `<` of two such keys. -/
def slotBefore (a b : F × String) : Bool :=
  if a.1 == b.1 then decide (a.2 < b.2) else decide (a.1 < b.1)

/-- `close < highest * (1.0 - parameters.trailing_stop_pct)`, where there is a highest close. -/
def trailingStop (close highest : F) (parameters : CandidateParameters F) : Bool :=
  decide (0 < highest) && decide (close < highest * (1 - parameters.trailingStopPct))

end Rules

/-- One session of a generator: its number, its rows and the states it opens with. -/
abbrev SessionStep (F : Type) :=
  ℕ → List ℕ → States F → Build F (List (Decision F) × States F)

/-- The loop over the sessions that the generators share, from the session with this number on. -/
def runSessions {F : Type} (step : SessionStep F) (resetIndex stopIndex : Option ℕ) :
    ℕ → List (List ℕ) → States F → Build F (List (List (Decision F)))
  | _, [], _ => pure []
  | number, indices :: later, states =>
    if ∃ stop ∈ stopIndex, stop < number then pure []
    else do
      let states := if resetIndex = some number then Dict.empty else states
      let (decisions, states) ← step number indices states
      let rest ← runSessions step resetIndex stopIndex (number + 1) later states
      pure (decisions :: rest)

namespace PreparedFeatureStore
variable {F : Type} (S : PreparedFeatureStore F)

def tickerAt (index : ℕ) : String := (S.tickers[index]?).getD ""

/-- The date of each session. -/
def sessionDates : List String :=
  S.dateRanges.map fun indices => (indices.head?.bind (S.dates[·]?)).getD ""

/-- `_session_index`: the last session of that date. -/
def sessionIndex (session : Option String) : Option ℕ :=
  session.bind fun date => lastIndex (fun other => decide (other = date)) S.sessionDates

variable [NumPy F]

def closeAt (index : ℕ) : F := ((S.column Bar.close)[index]?).getD NumPy.nan

/-- The arrays that a generator with these sessions returns. -/
def generate (step : SessionStep F) (resetIndex stopIndex : Option ℕ) : Build F (RankedActions F) := do
  let decisions ← runSessions step resetIndex stopIndex 0 S.dateRanges Dict.empty
  pure (decisions.flatten.foldl RankedActions.write (.blank S.size))

/-- What the arrays order at the rows of a session. -/
def ordersAt (ranked : RankedActions F) (indices : List ℕ) : Orders String where
  sells := ((indices.filter fun i => ranked.actions[i]? = some (-1)).map S.tickerAt).toFinset
  buys := ((indices.filter fun i => ranked.actions[i]? = some 1).map S.tickerAt).toFinset

/-- What they order, session by session. -/
def sessionOrders (ranked : RankedActions F) : List (Orders String) :=
  S.dateRanges.map (S.ordersAt ranked)

end PreparedFeatureStore
end QuantAgent.Features
