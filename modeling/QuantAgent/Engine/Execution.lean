import QuantAgent.Engine.Records

namespace QuantAgent
set_option autoImplicit true

/-- The cash and the positions an engine pass works on. -/
structure Book (F : Type) where
  cash : F
  positions : Dict Ticker (Position F)

/-- The bars of one session by ticker. -/
abbrev Bars (F : Type) := Dict Ticker (OhlcvBar F)

section
variable {F : Type} [PyFloat F]

/-- The position after a split into `newQuantity` shares. -/
def splitPosition (position : Position F) (newQuantity : ℤ) : Position F :=
  let entryPrice :=
    position.entryPrice * (PyFloat.ofInt position.quantity / PyFloat.ofInt newQuantity)
  { position with
    quantity := newQuantity
    entryPrice
    entryNotional := PyFloat.ofInt newQuantity * entryPrice }

def applyToPosition (book : Book F) (ticker : Ticker) (position : Position F) :
    CorporateActionType F → Except PyError (Book F × AppliedAction F)
  | .split splitRatio => do
    let newQuantity ← PyFloat.trunc (PyFloat.ofInt position.quantity * splitRatio.val)
    if newQuantity ≤ 0 then throw (.valueError "split ratio produced no whole shares")
    else
      pure ({ book with positions := book.positions.insert ticker (splitPosition position newQuantity) },
        .split position.quantity newQuantity)
  | .cashDividend cashDividendPerShare =>
    let amount := PyFloat.ofInt position.quantity * cashDividendPerShare.val
    pure ({ book with cash := book.cash + amount }, .cashDividend amount)
  | .delist recoveryPrice =>
    let amount := PyFloat.ofInt position.quantity * recoveryPrice.val
    pure ({ cash := book.cash + amount, positions := book.positions.erase ticker },
      .delistRecovery amount)

def applyCorporateAction (date : Date) (book : Book F) (event : CorporateActionEvent F) :
    Except PyError (Book F × List (Entry F)) :=
  if event.effectiveDate ≠ date then pure (book, [])
  else
    match book.positions.get? event.ticker with
    | none => pure (book, [])
    | some position => do
      let r ← applyToPosition book event.ticker position event.eventType
      pure (r.1, [.audit (.corporateAction date event.ticker event.sourceVerified r.2)])

def applyCorporateActions (spec : StrategySpec F) (date : Date) (book : Book F) :
    Except PyError (Book F × List (Entry F)) :=
  traceM (applyCorporateAction date) book spec.backtest.corporateActions

/-- Why an order cannot reach the open of this session, if it cannot. -/
def rejectAtOpen (date : Date) (bars : Bars F) (order : PendingOrder F) : Option (AuditEvent F) :=
  match bars.get? order.ticker with
  | none => some (.expiredNextSession date order)
  | some bar =>
    if PyFloat.isFinite bar.open_ = false ∨ bar.open_ ≤ 0 then
      some (.unfilledInvalidOpen date order
        "The next-session open was missing, non-finite, or non-positive.")
    else none

def costDecimal (cost : CostModel F) (value : F) : Except PyError F :=
  match cost.roundingMode with
  | .none => pure value
  | .floor => PyFloat.quantizeFloor cost.roundingDecimals value
  | .halfUp => PyFloat.quantizeHalfUp cost.roundingDecimals value

/-- The share capacity, `none` for `math.inf`, and the reason there is none. -/
def capacityQuantity (spec : StrategySpec F) (order : PendingOrder F) (price : F) :
    Except PyError (Option ℤ × Option String) :=
  let capacity := spec.backtest.executionCapacity
  if capacity.enabled = false then pure (none, none)
  else
    match order.priorRawNotional with
    | none => pure (some 0, some "raw_notional_unavailable")
    | some rawNotional =>
      if PyFloat.isFinite rawNotional = false then
        pure (some 0, some "raw_notional_unavailable")
      else if rawNotional ≤ 0 then pure (some 0, some "zero_raw_notional")
      else do
        let quantity ← PyFloat.floorDiv (rawNotional * capacity.maxParticipationRate.val) price
        pure (some (max 0 quantity), none)

/-- `min(quantity, capacity)` -/
def capQuantity (quantity : ℤ) : Option ℤ → ℤ
  | none => quantity
  | some capacity => min quantity capacity

/-- `(proceeds - invested) / invested if invested else 0.0` -/
def returnPct (proceeds invested : F) : F :=
  if invested != 0 then (proceeds - invested) / invested else 0

/-- The costs of one fill, rounded as the cost model asks. -/
structure FillCosts (F : Type) where
  commissionCost : F
  taxCost : F
  slippageCost : F

/-- The share of a position's entry amounts that `quantity` of its shares carry. -/
def entryShare (amount : F) (quantity held : ℤ) : F :=
  amount * PyFloat.ofInt quantity / PyFloat.ofInt held

def settleSell (costModel : CostModel F) (date : Date) (sellPrice : F) (position : Position F)
    (book : Book F) (order : PendingOrder F) (quantity : ℤ) (costs : FillCosts F) :
    Book F × List (Entry F) :=
  let gross := PyFloat.ofInt quantity * sellPrice
  let exitCost := costs.commissionCost + costs.taxCost
  let proceeds := gross - exitCost
  let entryNotional := entryShare position.entryNotional quantity position.quantity
  let entryCost := entryShare position.entryCost quantity position.quantity
  let invested := entryNotional + entryCost
  let positions :=
    if quantity = position.quantity then book.positions.erase order.ticker
    else
      book.positions.insert order.ticker
        { position with
          quantity := position.quantity - quantity
          entryNotional := position.entryNotional - entryNotional
          entryCost := position.entryCost - entryCost }
  let trade : TradeRecord F :=
    { ticker := order.ticker, entryDate := position.entryDate, exitDate := date,
      entryPrice := position.entryPrice, exitPrice := sellPrice, quantity, entryCost, exitCost,
      grossPnl := gross - entryNotional, netPnl := proceeds - invested,
      returnPct := returnPct proceeds invested, reason := order.reason }
  let fill : Fill F :=
    { price := sellPrice, quantity, requestedQuantity := position.quantity, notional := gross,
      cost := exitCost, costPolicyId := costModel.policyId, commissionCost := costs.commissionCost,
      taxCost := costs.taxCost, slippageCost := costs.slippageCost }
  ({ cash := book.cash + proceeds, positions },
    [.trade trade, .audit (.executed date order fill)])

def sellCosts (costModel : CostModel F) (bar : OhlcvBar F) (sellPrice : F) (quantity : ℤ) :
    Except PyError (FillCosts F) := do
  let gross := PyFloat.ofInt quantity * sellPrice
  let commissionCost ← costDecimal costModel (gross * costModel.commissionPct.val)
  let taxCost ← costDecimal costModel (gross * costModel.taxPct.val)
  let slippageCost ← costDecimal costModel (PyFloat.ofInt quantity * (bar.open_ - sellPrice))
  pure ⟨commissionCost, taxCost, slippageCost⟩

def executeSell (spec : StrategySpec F) (date : Date) (bars : Bars F) (book : Book F)
    (order : PendingOrder F) : Except PyError (Book F × List (Entry F)) :=
  match book.positions.get? order.ticker with
  | none => pure (book, [.audit (.ignoredMissingPosition date order)])
  | some position =>
    match bars.get? order.ticker with
    | none => throw (.keyError order.ticker)
    | some bar => do
      let sellPrice := bar.open_ * (1 - spec.backtest.costModel.slippagePct.val)
      let capacity ← capacityQuantity spec order sellPrice
      match capacity.2 with
      | some reason =>
        pure (book, [.audit (.unfilledCapacity date order reason position.quantity
          "No provable next-open execution capacity was available.")])
      | none =>
        let quantity := capQuantity position.quantity capacity.1
        if quantity ≤ 0 then
          pure (book, [.audit (.unfilledCapacity date order "zero_capacity" position.quantity
            "Previous raw notional allowed no whole-share fill.")])
        else do
          let costs ← sellCosts spec.backtest.costModel bar sellPrice quantity
          pure (settleSell spec.backtest.costModel date sellPrice position book order quantity costs)

/-- `a < b` on the sort keys of `_buy_priority`. -/
def buyPriorityLT (a b : PendingOrder F) : Bool :=
  let key := fun (order : PendingOrder F) =>
    match order.signalScore with
    | none => ((1 : ℕ), (0 : F))
    | some score => if PyFloat.isFinite score then (0, -score) else (1, 0)
  if (key a).1 ≠ (key b).1 then decide ((key a).1 < (key b).1)
  else if (key a).2 != (key b).2 then decide ((key a).2 < (key b).2)
  else decide (a.ticker < b.ticker)

/-- `sum` of the positions at today's `price`, or at the last one seen. -/
def markedValue (bars : Bars F) (price : OhlcvBar F → F) (positions : Dict Ticker (Position F)) : F :=
  pySum (positions.entries.map fun e =>
    PyFloat.ofInt e.2.quantity * (bars.get? e.1).elim e.2.lastPrice price)

def strategyBudget (spec : StrategySpec F) (currentEquity : F) (slots : ℤ) : Except PyError F :=
  match spec.positionSizing.method with
  | .equalWeight => pure (currentEquity / PyFloat.ofInt slots)
  | .fixedPercent fixedPercent => pure (currentEquity * fixedPercent.val)
  | .fixedRisk riskPerPosition =>
    match spec.riskControls.stopLossPct with
    | some stopLossPct => pure (currentEquity * riskPerPosition.val / stopLossPct.val)
    | none => throw (.typeError "unsupported operand type(s) for /: 'float' and 'NoneType'")

/-- `min` of the strategy, single-position and gross-exposure limits. -/
def buyBudget (spec : StrategySpec F) (currentEquity positionsValue strategyBudget : F) : F :=
  pyMin (pyMin strategyBudget (currentEquity * spec.riskControls.maxSinglePositionPct.val))
    (pyMax 0 (currentEquity * spec.riskControls.maxGrossExposurePct.val - positionsValue))

def settleBuy (costModel : CostModel F) (date : Date) (bar : OhlcvBar F) (buyPrice : F)
    (book : Book F) (order : PendingOrder F) (requestedQuantity quantity : ℤ) (costs : FillCosts F) :
    Book F × List (Entry F) :=
  let notional := PyFloat.ofInt quantity * buyPrice
  let entryCost := costs.commissionCost
  let positions := book.positions.insert order.ticker
    { ticker := order.ticker, quantity, entryDate := date, entryPrice := buyPrice,
      entryNotional := notional, entryCost, lastPrice := bar.close, entryReason := order.reason }
  let fill : Fill F :=
    { price := buyPrice, quantity, requestedQuantity, notional, cost := entryCost,
      costPolicyId := costModel.policyId, commissionCost := costs.commissionCost,
      taxCost := costs.taxCost, slippageCost := costs.slippageCost }
  ({ cash := book.cash - (notional + entryCost), positions },
    [.audit (.executed date order fill)])

def buyCosts (costModel : CostModel F) (bar : OhlcvBar F) (buyPrice : F) (quantity : ℤ) :
    Except PyError (FillCosts F) := do
  let notional := PyFloat.ofInt quantity * buyPrice
  let commissionCost ← costDecimal costModel (notional * costModel.commissionPct.val)
  let slippageCost ← costDecimal costModel (PyFloat.ofInt quantity * (buyPrice - bar.open_))
  pure ⟨commissionCost, 0, slippageCost⟩

/-- A buy that passed the position cap; `orderCount` is the number of buys of the session. -/
def sizeBuy (spec : StrategySpec F) (date : Date) (bars : Bars F) (orderCount : ℕ) (bar : OhlcvBar F)
    (book : Book F) (order : PendingOrder F) : Except PyError (Book F × List (Entry F)) :=
  let buyPrice := bar.open_ * (1 + spec.backtest.costModel.slippagePct.val)
  let unitCash := buyPrice * (1 + spec.backtest.costModel.commissionPct.val)
  if PyFloat.isFinite unitCash = false ∨ unitCash ≤ 0 then
    pure (book, [.audit (.unfilledInvalidOpen date order
      "The next-session open could not produce a valid unit cash requirement.")])
  else do
    let positionsValue := markedValue bars OhlcvBar.open_ book.positions
    let currentEquity := book.cash + positionsValue
    let slots := match spec.positionSizing.maxPositions with
      | some maxPositions => (maxPositions : ℤ)
      | none => max 1 ((book.positions.size : ℤ) + orderCount)
    let strategyBudget ← strategyBudget spec currentEquity slots
    let budget := buyBudget spec currentEquity positionsValue strategyBudget
    let budgetQuantity ← PyFloat.floorDiv budget unitCash
    let requestedQuantity := max 0 budgetQuantity
    let affordableQuantity ← PyFloat.floorDiv book.cash unitCash
    let cashQuantity := max 0 affordableQuantity
    let capacity ← capacityQuantity spec order buyPrice
    match capacity.2 with
    | some reason =>
      pure (book, [.audit (.unfilledCapacity date order reason requestedQuantity
        "Raw prior-session notional is required when execution capacity is enabled.")])
    | none =>
      let quantity := capQuantity (min requestedQuantity cashQuantity) capacity.1
      if quantity ≤ 0 then
        let reason :=
          if cashQuantity ≤ 0 then "insufficient_cash"
          else if capacity.1.elim false (fun c => decide (c ≤ 0)) then "zero_capacity"
          else "strategy_budget_below_one_share"
        pure (book, [.audit (.unfilled date order reason buyPrice requestedQuantity)])
      else do
        let costs ← buyCosts spec.backtest.costModel bar buyPrice quantity
        pure (settleBuy spec.backtest.costModel date bar buyPrice book order requestedQuantity
          quantity costs)

def executeBuy (spec : StrategySpec F) (date : Date) (bars : Bars F) (orderCount : ℕ)
    (book : Book F) (order : PendingOrder F) : Except PyError (Book F × List (Entry F)) :=
  if spec.positionSizing.maxPositions.elim false
      (fun maxPositions => decide ((maxPositions : ℕ) ≤ book.positions.size)) then
    pure (book, [.audit (.skippedMaxPositions date order)])
  else
    match bars.get? order.ticker with
    | none => throw (.keyError order.ticker)
    | some bar => sizeBuy spec date bars orderCount bar book order

/-- The orders of an earlier session. -/
def eligibleOrders (date : Date) (pendingOrders : List (PendingOrder F)) : List (PendingOrder F) :=
  pendingOrders.filter fun order => decide (order.signalDate < date)

def executableOrders (date : Date) (bars : Bars F) (pendingOrders : List (PendingOrder F)) :
    List (PendingOrder F) :=
  (eligibleOrders date pendingOrders).filter fun order => (rejectAtOpen date bars order).isNone

def sellOrders (executable : List (PendingOrder F)) : List (PendingOrder F) :=
  executable.filter fun order => decide (order.side = .sell)

def buyOrders (positions : Dict Ticker (Position F)) (executable : List (PendingOrder F)) :
    List (PendingOrder F) :=
  pySorted buyPriorityLT (executable.filter fun order =>
    decide (order.side = .buy) && decide (order.ticker ∉ positions))

/-- The pending list is consumed: an order waits for one session only. -/
def executePendingOrders (spec : StrategySpec F) (date : Date) (bars : Bars F) (book : Book F)
    (pendingOrders : List (PendingOrder F)) : Except PyError (Book F × List (Entry F)) := do
  let audit := ((eligibleOrders date pendingOrders).filterMap (rejectAtOpen date bars)).map Entry.audit
  let executable := executableOrders date bars pendingOrders
  let sells ← traceM (executeSell spec date bars) book (sellOrders executable)
  let buyOrders := buyOrders sells.1.positions executable
  let buys ← traceM (executeBuy spec date bars buyOrders.length) sells.1 buyOrders
  pure (buys.1, audit ++ sells.2 ++ buys.2)

structure StaleBook (F : Type) where
  book : Book F
  staleDays : Dict Ticker ℤ

def writeOff (costModel : CostModel F) (config : BacktestRunConfig F) (date : Date) (s : StaleBook F)
    (ticker : Ticker) (position : Position F) : StaleBook F × List (Entry F) :=
  let exitPrice := position.lastPrice * config.delistingRecoveryRate
  let gross := PyFloat.ofInt position.quantity * exitPrice
  let exitCost := gross * (costModel.commissionPct.val + costModel.taxPct.val)
  let proceeds := gross - exitCost
  let invested := position.entryNotional + position.entryCost
  let trade : TradeRecord F :=
    { ticker, entryDate := position.entryDate, exitDate := date,
      entryPrice := position.entryPrice, exitPrice, quantity := position.quantity,
      entryCost := position.entryCost, exitCost,
      grossPnl := gross - position.entryNotional, netPnl := proceeds - invested,
      returnPct := returnPct proceeds invested, reason := "delisted_write_off" }
  let writeOff : WriteOff F :=
    { ticker, quantity := position.quantity, exitPrice, exitCost,
      graceDays := config.delistingGraceDays, recoveryRate := config.delistingRecoveryRate }
  ({ book := ⟨s.book.cash + proceeds, s.book.positions.erase ticker⟩
     staleDays := s.staleDays.erase ticker },
    [.trade trade, .audit (.delistedWriteOff date writeOff)])

def writeOffStalePosition (spec : StrategySpec F) (config : BacktestRunConfig F) (date : Date)
    (bars : Bars F) (s : StaleBook F) (ticker : Ticker) :
    Except PyError (StaleBook F × List (Entry F)) :=
  if ticker ∈ bars then pure ({ s with staleDays := s.staleDays.insert ticker 0 }, [])
  else
    let days := (s.staleDays.get? ticker).getD 0 + 1
    if days < config.delistingGraceDays then
      pure ({ s with staleDays := s.staleDays.insert ticker days }, [])
    else
      match s.book.positions.get? ticker with
      | none => throw (.keyError ticker)
      | some position => pure (writeOff spec.backtest.costModel config date s ticker position)

def writeOffStalePositions (spec : StrategySpec F) (config : BacktestRunConfig F) (date : Date)
    (bars : Bars F) (s : StaleBook F) : Except PyError (StaleBook F × List (Entry F)) :=
  if config.delistingGraceDays ≤ 0 then pure (s, [])
  else traceM (writeOffStalePosition spec config date bars) s s.book.positions.keys

end
end QuantAgent
