import QuantAgent.Engine.Execution
import QuantAgent.Engine.Inputs

namespace QuantAgent
set_option autoImplicit true

/-- What a signal loop carries: the `(side, ticker)` pairs pending and the orders it queued. -/
structure SignalState (F : Type) where
  pendingTickers : List (Side × Ticker)
  orders : List (PendingOrder F)

section
variable {F : Type} [PyFloat F]

def riskExitReason (spec : StrategySpec F) (position : Position F) (bar : OhlcvBar F) :
    Option String :=
  match spec.riskControls.stopLossPct.filter fun stopLoss =>
      decide (bar.close ≤ position.entryPrice * (1 - stopLoss.val)) with
  | some stopLoss => some ("daily_close_stop_loss_" ++ PyFloat.text stopLoss.val)
  | none =>
    match spec.riskControls.takeProfitPct.filter fun takeProfit =>
        decide (position.entryPrice * (1 + takeProfit.val) ≤ bar.close) with
    | some takeProfit => some ("daily_close_take_profit_" ++ PyFloat.text takeProfit.val)
    | none => none

/-- Appends an order to the queue with its `submitted` audit. -/
def SignalState.queue (s : SignalState F) (order : PendingOrder F) (detail : String) :
    SignalState F × List (Entry F) :=
  ({ s with orders := s.orders ++ [order] }, [.audit (.submitted order detail)])

/-- The exit both signal paths queue for a held name without a pending sell. -/
def queueRiskExit (spec : StrategySpec F) (date : Date) (bar : OhlcvBar F) (position : Position F)
    (s : SignalState F) (ticker : Ticker) : SignalState F × List (Entry F) :=
  match riskExitReason spec position bar with
  | none => (s, [])
  | some reason =>
    let queued := s.queue ⟨ticker, .sell, date, reason, bar.rawNotional, none⟩
      "Risk control queued the exit for the next available open."
    (queued.1, .signal ⟨date, ticker, .sell, reason, "", reason⟩ :: queued.2)

def signalRecord (date : Date) (decision : SignalDecision) : SignalRecord :=
  ⟨date, decision.ticker, decision.action, ";".intercalate decision.reasons,
    ";".intercalate decision.matchingEntryRules, ";".intercalate decision.matchingExitRules⟩

/-- One ticker of the rule path. -/
def generateTickerSignal (spec : StrategySpec F) (metricsByKey previousMetricsByKey : MetricTable F)
    (date : Date) (bars : Bars F) (positions : Dict Ticker (Position F)) (s : SignalState F)
    (ticker : Ticker) : Except PyError (SignalState F × List (Entry F)) := do
  let metrics ← (metricsByKey date ticker).elim (throw (.keyError ticker)) pure
  let bar ← (bars.get? ticker).elim (throw (.keyError ticker)) pure
  let decision ← generateSignal spec ticker metrics (previousMetricsByKey date ticker)
    (decide (ticker ∈ positions))
  let signal := Entry.signal (signalRecord date decision)
  let order := fun side =>
    PendingOrder.mk ticker side date (";".intercalate decision.reasons) bar.rawNotional none
  let queued :=
    if decision.action = .buy ∧ ticker ∉ positions ∧ (Side.buy, ticker) ∉ s.pendingTickers then
      s.queue (order .buy) "Queued for the next available open."
    else if decision.action = .sell ∧ ticker ∈ positions ∧
        (Side.sell, ticker) ∉ s.pendingTickers then
      s.queue (order .sell) "Queued for the next available open."
    else
      match positions.get? ticker with
      | some position =>
        if (Side.sell, ticker) ∉ s.pendingTickers then
          queueRiskExit spec date bar position s ticker
        else (s, [])
      | none => (s, [])
  pure (queued.1, signal :: queued.2)

def generatedScore (eng : BacktestEngine F) (rowIndex : ℕ) : Except PyError (Option F) :=
  match eng.generatedScores with
  | none => pure none
  | some scores =>
    match scores[rowIndex]? with
    | none => throw .indexError
    | some score => pure (if PyFloat.isFinite score then some score else none)

/-- The orders, the pending pairs and the audit of one generated action. -/
def queueGenerated (date : Date) (bar : OhlcvBar F) (s : SignalState F) (ticker : Ticker)
    (side : Side) (reason : String) (score : Option F) : SignalState F × List (Entry F) :=
  if (side, ticker) ∉ s.pendingTickers then
    let queued := s.queue ⟨ticker, side, date, reason, bar.rawNotional, score⟩
      "Queued for the next available open."
    ({ queued.1 with pendingTickers := (side, ticker) :: queued.1.pendingTickers }, queued.2)
  else (s, [])

/-- The branch on `action_value` and the signal it records. -/
def actOnGenerated (eng : BacktestEngine F) (date : Date) (bar : OhlcvBar F)
    (positions : Dict Ticker (Position F)) (s : SignalState F) (ticker : Ticker) (rowIndex : ℕ)
    (actionValue : ℤ) : Except PyError (SignalState F × List (Entry F)) :=
  if actionValue = 1 ∧ ticker ∉ positions then do
    let score ← generatedScore eng rowIndex
    let queued := queueGenerated date bar s ticker .buy "generated BUY signal" score
    pure (queued.1, queued.2 ++
      [.signal ⟨date, ticker, .buy, "generated BUY signal", "generated BUY signal", ""⟩])
  else if actionValue = -1 ∧ ticker ∈ positions then
    let queued := queueGenerated date bar s ticker .sell "generated SELL signal" none
    pure (queued.1, queued.2 ++
      [.signal ⟨date, ticker, .sell, "generated SELL signal", "", "generated SELL signal"⟩])
  else
    let action := if ticker ∈ positions then SignalAction.hold else .watch
    pure (s, [.signal ⟨date, ticker, action, "no actionable rule matched", "", ""⟩])

/-- `if has_position and ("sell", ticker) not in pending_tickers` -/
def addRiskExit (spec : StrategySpec F) (date : Date) (bar : OhlcvBar F)
    (positions : Dict Ticker (Position F)) (ticker : Ticker)
    (acted : SignalState F × List (Entry F)) : SignalState F × List (Entry F) :=
  match positions.get? ticker with
  | some position =>
    if (Side.sell, ticker) ∉ acted.1.pendingTickers then
      let queued := queueRiskExit spec date bar position acted.1 ticker
      (queued.1, acted.2 ++ queued.2)
    else acted
  | none => acted

/-- One ticker of the compact path. -/
def generateCompactTickerSignal (eng : BacktestEngine F) (prepared : PreparedMarketData F)
    (actions : List ℤ) (date : Date) (bars : Bars F) (positions : Dict Ticker (Position F))
    (s : SignalState F) (ticker : Ticker) : Except PyError (SignalState F × List (Entry F)) := do
  let rowIndex ← (prepared.rowIndexByKey date ticker).elim (throw (.keyError ticker)) pure
  let actionValue ← (actions[rowIndex]?).elim (throw .indexError) pure
  let bar ← (bars.get? ticker).elim (throw (.keyError ticker)) pure
  let acted ← actOnGenerated eng date bar positions s ticker rowIndex actionValue
  pure (addRiskExit eng.spec date bar positions ticker acted)

def generateCompactSignalsForDate (eng : BacktestEngine F) (prepared : PreparedMarketData F)
    (actions : List ℤ) (date : Date) (bars : Bars F) (positions : Dict Ticker (Position F))
    (s : SignalState F) : Except PyError (SignalState F × List (Entry F)) :=
  traceM (generateCompactTickerSignal eng prepared actions date bars positions) s
    (pySorted textLT bars.keys)

def generateRuleSignalsForDate (eng : BacktestEngine F) (prepared : PreparedMarketData F)
    (date : Date) (bars : Bars F) (positions : Dict Ticker (Position F)) (s : SignalState F) :
    Except PyError (SignalState F × List (Entry F)) :=
  traceM (generateTickerSignal eng.spec prepared.metricsByKey prepared.previousMetricsByKey date
    bars positions) s (pySorted textLT bars.keys)

/-- The compact path needs prepared data and actions; everything else takes the rule path. -/
def signalLoop (eng : BacktestEngine F) (prepared : PreparedMarketData F) (date : Date)
    (bars : Bars F) (positions : Dict Ticker (Position F)) (s : SignalState F) :
    Except PyError (SignalState F × List (Entry F)) :=
  match eng.preparedMarketData, eng.generatedActions with
  | some prepared, some actions =>
    generateCompactSignalsForDate eng prepared actions date bars positions s
  | _, _ => generateRuleSignalsForDate eng prepared date bars positions s

/-- The orders queued today and their log. -/
def generateSignalsForDate (eng : BacktestEngine F) (prepared : PreparedMarketData F)
    (date : Date) (bars : Bars F) (positions : Dict Ticker (Position F))
    (pendingOrders : List (PendingOrder F)) :
    Except PyError (List (PendingOrder F) × List (Entry F)) := do
  let r ← signalLoop eng prepared date bars positions
    ⟨pendingOrders.map fun order => (order.side, order.ticker), []⟩
  pure (r.1.orders, r.2)

end
end QuantAgent
