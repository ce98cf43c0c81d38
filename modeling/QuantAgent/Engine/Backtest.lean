import QuantAgent.Engine.Signals
import Mathlib.Tactic

namespace QuantAgent
set_option autoImplicit true

structure ExcludedTicker where
  ticker : Ticker
  reason : String
  firstMissingDate : Date
  missingMetrics : List String

/-- What the day loop carries from one session to the next. -/
structure EngineState (F : Type) where
  cash : F
  positions : Dict Ticker (Position F)
  pendingOrders : List (PendingOrder F)
  previousEquity : Option F
  staleDays : Dict Ticker ℤ
  forcedExits : ℕ

structure BacktestSummary (F : Type) where
  finalEquity : F
  cash : F
  openPositionTickers : List Ticker
  tradeCount : ℕ
  signalCount : ℕ
  excludedTickers : List ExcludedTicker
  graceDays : ℤ
  recoveryRate : F
  forcedExits : ℕ
  unrealizableEquity : F

structure BacktestResult (F : Type) where
  summary : BacktestSummary F
  equityCurve : List (EquityPoint F)
  trades : List (TradeRecord F)
  signals : List SignalRecord
  orderAudit : List (OrderAuditRecord F)

section
variable {F : Type} [PyFloat F]

namespace BacktestEngine
variable (eng : BacktestEngine F)

/-- The first bar of a ticker that misses a required metric. -/
def firstMissing (metricsByKey : MetricTable F) (required : List String) (ticker : Ticker) :
    List (OhlcvBar F) → Except PyError (Option ExcludedTicker)
  | [] => pure none
  | bar :: bars => do
    let metrics ← (metricsByKey bar.date ticker).elim (throw (.keyError ticker)) pure
    let missing := required.filter fun name => !metricPresent name metrics
    if missing = [] then firstMissing metricsByKey required ticker bars
    else pure (some ⟨ticker, "missing_required_metric", bar.date, missing⟩)

def selectTicker (included : List Ticker) (e : Ticker × List (OhlcvBar F)) :
    Except PyError (List Ticker × List ExcludedTicker) := do
  match ← firstMissing eng.prepared.metricsByKey eng.requiredMetrics e.1 e.2 with
  | some excluded => pure (included, [excluded])
  | none => pure (included ++ [e.1], [])

def selectTickers : Except PyError (List Ticker × List ExcludedTicker) :=
  traceM eng.selectTicker [] eng.prepared.barsByTicker.entries

def todayBars (included : List Ticker) (date : Date) : Option (Bars F) :=
  (eng.prepared.barsByDate.get? date).map fun bars =>
    bars.filter fun ticker _ => decide (ticker ∈ included)

def sessions (included : List Ticker) : List Date :=
  eng.prepared.dates.filter fun date =>
    (eng.todayBars included date).elim false fun bars => !bars.entries.isEmpty

def initialState : EngineState F where
  cash := eng.config.initialCapital
  positions := Dict.empty
  pendingOrders := []
  previousEquity := none
  staleDays := Dict.empty
  forcedExits := 0

end BacktestEngine

def refreshLastPrices (bars : Bars F) (positions : Dict Ticker (Position F)) :
    Dict Ticker (Position F) :=
  positions.mapVal fun ticker position =>
    (bars.get? ticker).elim position fun bar => { position with lastPrice := bar.close }

def equityPoint (date : Date) (cash : F) (positions : Dict Ticker (Position F)) (bars : Bars F)
    (previousEquity : Option F) : EquityPoint F :=
  let positionsValue := markedValue bars OhlcvBar.close positions
  let total := cash + positionsValue
  { date, cash, positionsValue
    totalEquity := total
    dailyReturn := match previousEquity with
      | none => 0
      | some previous => if previous == 0 then 0 else total / previous - 1 }

/-- One round of the day loop. -/
def session (eng : BacktestEngine F) (included : List Ticker) (s : EngineState F) (date : Date) :
    Except PyError (EngineState F × List (Entry F)) := do
  let bars ← (eng.todayBars included date).elim (throw (.keyError "date")) pure
  let corporate ← applyCorporateActions eng.spec date ⟨s.cash, s.positions⟩
  let executed ← executePendingOrders eng.spec date bars corporate.1 s.pendingOrders
  let forced ← writeOffStalePositions eng.spec eng.config date bars ⟨executed.1, s.staleDays⟩
  let forcedTrades := forced.2.filterMap Entry.trade?
  -- Nothing is pending here: the pending list was consumed at the open.
  let pendingOrders := ([] : List (PendingOrder F)).filter fun order =>
    order.ticker ∉ forcedTrades.map TradeRecord.ticker
  let book := forced.1.book
  let generated ← generateSignalsForDate eng eng.prepared date bars book.positions pendingOrders
  let positions := refreshLastPrices bars book.positions
  let point := equityPoint date book.cash positions bars s.previousEquity
  pure
    ({ cash := book.cash
       positions
       pendingOrders := pendingOrders ++ generated.1
       previousEquity := some point.rounded.totalEquity
       staleDays := forced.1.staleDays
       forcedExits := s.forcedExits + forcedTrades.length },
      corporate.2 ++ executed.2 ++ forced.2 ++ generated.2 ++ [.equity point])

namespace BacktestEngine
variable (eng : BacktestEngine F)

def checkRunnable : Except PyError Unit :=
  if eng.ohlcvRows.isEmpty then throw (.valueError "No OHLCV rows supplied")
  else if eng.spec.backtest.executionTiming ≠ .nextOpen then
    throw (.valueError "BacktestEngine currently supports execution_timing='next_open' only")
  else pure ()

/-- The orders the end of the data leaves without a session. -/
def expireAtEnd (dates : List Date) (s : EngineState F) : List (Entry F) :=
  match dates.getLast? with
  | none => []
  | some finalDate =>
    s.pendingOrders.map fun order => .audit (.expiredNoNextSession finalDate order)

/-- The selected tickers, the final state and the log of a run. -/
def trace : Except PyError ((List Ticker × List ExcludedTicker) × EngineState F × List (Entry F)) := do
  eng.checkRunnable
  let selected ← eng.selectTickers
  let dates := eng.sessions selected.1
  let looped ← traceM (session eng selected.1) eng.initialState dates
  pure (selected, looped.1, looped.2 ++ expireAtEnd dates looped.1)

def summary (selected : List Ticker × List ExcludedTicker) (s : EngineState F)
    (log : List (Entry F)) : BacktestSummary F :=
  let curve := log.filterMap Entry.equity?
  let finalEquity := (curve.getLast?).elim s.cash fun point => point.rounded.totalEquity
  { finalEquity := PyFloat.round 6 finalEquity
    cash := PyFloat.round 6 s.cash
    openPositionTickers := pySorted textLT s.positions.keys
    tradeCount := (log.filterMap Entry.trade?).length
    signalCount := (log.filterMap Entry.signal?).length
    excludedTickers := selected.2
    graceDays := eng.config.delistingGraceDays
    recoveryRate := eng.config.delistingRecoveryRate
    forcedExits := s.forcedExits
    unrealizableEquity := PyFloat.round 6 (pySum
      ((s.positions.entries.filter fun e => decide (0 < (s.staleDays.get? e.1).getD 0)).map
        fun e => PyFloat.ofInt e.2.quantity * e.2.lastPrice)) }

def run : Except PyError (BacktestResult F) := do
  let r ← eng.trace
  let log := r.2.2
  pure
    { summary := eng.summary r.1 r.2.1 log
      equityCurve := (log.filterMap Entry.equity?).map EquityPoint.rounded
      trades := (log.filterMap Entry.trade?).map TradeRecord.rounded
      signals := log.filterMap Entry.signal?
      orderAudit := (log.filterMap Entry.audit?).map AuditEvent.record }

end BacktestEngine
end

def buildSampleSpec : StrategySpec ℚ where
  entryRules := [⟨"close", .gt, .metric "open", some "close > open", nofun⟩]
  entryLogic := .all
  exitRules := [⟨"close", .lt, .metric "open", some "close < open", nofun⟩]
  exitLogic := .any
  positionSizing := ⟨.equalWeight, some 5⟩
  riskControls :=
    { maxGrossExposurePct := ⟨1, by decide +kernel⟩
      stopLossPct := some ⟨2 / 25, by decide +kernel⟩
      takeProfitPct := none
      maxSinglePositionPct := ⟨1 / 5, by decide +kernel⟩ }
  backtest :=
    { executionTiming := .nextOpen
      costModel := ⟨⟨0, by decide +kernel⟩, ⟨0, by decide +kernel⟩, ⟨0, by decide +kernel⟩, none,
        .none, 6⟩
      executionCapacity := ⟨true, ⟨1 / 100, by decide +kernel⟩⟩
      corporateActions := [] }
  entryRules_ne_nil := by simp
  stopLoss_of_fixedRisk := by simp

/-- The defaults of `BacktestRunConfig`, without TA-Lib. -/
def defaultConfig : BacktestRunConfig ℚ := ⟨100000000, none, none, 20, 0⟩

end QuantAgent
