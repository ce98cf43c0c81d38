import QuantAgent.Engine.Strategy

namespace QuantAgent
set_option autoImplicit true

inductive AuditStatus where
  | submitted
  | executed
  | expiredNextSession
  | unfilledInvalidOpen
  | ignoredMissingPosition
  | unfilledCapacity
  | skippedMaxPositions
  | unfilled
  | expiredNoNextSession
  | delistedWriteOff
  | appliedSplit
  | appliedCashDividend
  | appliedDelistRecovery
deriving DecidableEq

def AuditStatus.value : AuditStatus → String
  | .submitted => "submitted"
  | .executed => "executed"
  | .expiredNextSession => "expired_next_session"
  | .unfilledInvalidOpen => "unfilled_invalid_open"
  | .ignoredMissingPosition => "ignored_missing_position"
  | .unfilledCapacity => "unfilled_capacity"
  | .skippedMaxPositions => "skipped_max_positions"
  | .unfilled => "unfilled"
  | .expiredNoNextSession => "expired_no_next_session"
  | .delistedWriteOff => "delisted_write_off"
  | .appliedSplit => "applied_split"
  | .appliedCashDividend => "applied_cash_dividend"
  | .appliedDelistRecovery => "applied_delist_recovery"

structure TradeRecord (F : Type) where
  ticker : Ticker
  entryDate : Date
  exitDate : Date
  entryPrice : F
  exitPrice : F
  quantity : ℤ
  entryCost : F
  exitCost : F
  grossPnl : F
  netPnl : F
  returnPct : F
  reason : String

structure EquityPoint (F : Type) where
  date : Date
  cash : F
  positionsValue : F
  totalEquity : F
  dailyReturn : F

structure SignalRecord where
  date : Date
  ticker : Ticker
  action : SignalAction
  reasons : String
  matchingEntryRules : String
  matchingExitRules : String

structure OrderAuditRecord (F : Type) where
  date : Date
  ticker : Ticker
  side : String
  status : AuditStatus
  signalDate : Date
  reason : String
  price : Option F := none
  quantity : Option ℤ := none
  requestedQuantity : Option ℤ := none
  filledQuantity : Option ℤ := none
  fillRate : Option F := none
  notional : Option F := none
  cost : Option F := none
  costPolicyId : Option String := none
  commissionCost : Option F := none
  taxCost : Option F := none
  slippageCost : Option F := none
  commissionCostText : Option String := none
  taxCostText : Option String := none
  slippageCostText : Option String := none
  totalCostText : Option String := none
  detail : String

/-- The amounts of an executed order, before the audit rounds them. -/
structure Fill (F : Type) where
  price : F
  quantity : ℤ
  requestedQuantity : ℤ
  notional : F
  cost : F
  costPolicyId : Option String
  commissionCost : F
  taxCost : F
  slippageCost : F

inductive AppliedAction (F : Type) where
  | split (oldQuantity newQuantity : ℤ)
  | cashDividend (amount : F)
  | delistRecovery (amount : F)

structure WriteOff (F : Type) where
  ticker : Ticker
  quantity : ℤ
  exitPrice : F
  exitCost : F
  graceDays : ℤ
  recoveryRate : F

/-- What the engine puts on the order audit, with unrounded amounts. -/
inductive AuditEvent (F : Type) where
  | submitted (order : PendingOrder F) (detail : String)
  | executed (date : Date) (order : PendingOrder F) (fill : Fill F)
  | expiredNextSession (date : Date) (order : PendingOrder F)
  | unfilledInvalidOpen (date : Date) (order : PendingOrder F) (detail : String)
  | ignoredMissingPosition (date : Date) (order : PendingOrder F)
  | unfilledCapacity (date : Date) (order : PendingOrder F) (reason : String)
      (requestedQuantity : ℤ) (detail : String)
  | skippedMaxPositions (date : Date) (order : PendingOrder F)
  | unfilled (date : Date) (order : PendingOrder F) (reason : String) (price : F)
      (requestedQuantity : ℤ)
  | expiredNoNextSession (date : Date) (order : PendingOrder F)
  | delistedWriteOff (date : Date) (writeOff : WriteOff F)
  | corporateAction (date : Date) (ticker : Ticker) (sourceVerified : Bool)
      (applied : AppliedAction F)

/-- One line of the run's log; the result lists are read off it in order. -/
inductive Entry (F : Type) where
  | audit (event : AuditEvent F)
  | trade (record : TradeRecord F)
  | signal (record : SignalRecord)
  | equity (point : EquityPoint F)

def Entry.audit? : Entry F → Option (AuditEvent F)
  | .audit e => some e
  | _ => none

def Entry.trade? : Entry F → Option (TradeRecord F)
  | .trade t => some t
  | _ => none

def Entry.signal? : Entry F → Option SignalRecord
  | .signal s => some s
  | _ => none

def Entry.equity? : Entry F → Option (EquityPoint F)
  | .equity p => some p
  | _ => none

def AppliedAction.status : AppliedAction F → AuditStatus
  | .split _ _ => .appliedSplit
  | .cashDividend _ => .appliedCashDividend
  | .delistRecovery _ => .appliedDelistRecovery

def AppliedAction.quantity : AppliedAction F → Option ℤ
  | .split _ newQuantity => some newQuantity
  | _ => none

def AppliedAction.notional : AppliedAction F → Option F
  | .split _ _ => none
  | .cashDividend amount => some amount
  | .delistRecovery amount => some amount

section
variable {F : Type} [PyFloat F]

def TradeRecord.rounded (t : TradeRecord F) : TradeRecord F :=
  { t with
    entryPrice := PyFloat.round 6 t.entryPrice
    exitPrice := PyFloat.round 6 t.exitPrice
    entryCost := PyFloat.round 6 t.entryCost
    exitCost := PyFloat.round 6 t.exitCost
    grossPnl := PyFloat.round 6 t.grossPnl
    netPnl := PyFloat.round 6 t.netPnl
    returnPct := PyFloat.round 10 t.returnPct }

def EquityPoint.rounded (p : EquityPoint F) : EquityPoint F :=
  { p with
    cash := PyFloat.round 6 p.cash
    positionsValue := PyFloat.round 6 p.positionsValue
    totalEquity := PyFloat.round 6 p.totalEquity
    dailyReturn := PyFloat.round 10 p.dailyReturn }

/-- An audit record about an order, with the fields the event leaves at their defaults. -/
def PendingOrder.record (order : PendingOrder F) (date : Date) (status : AuditStatus)
    (reason detail : String) : OrderAuditRecord F :=
  { date, ticker := order.ticker, side := order.side.value, status, signalDate := order.signalDate,
    reason, detail }

def Fill.fillRate (fill : Fill F) (side : Side) : F :=
  match side with
  | .sell => PyFloat.round 10 (PyFloat.ofInt fill.quantity / PyFloat.ofInt fill.requestedQuantity)
  | .buy =>
    if fill.requestedQuantity ≠ 0 then
      PyFloat.round 10 (PyFloat.ofInt fill.quantity / PyFloat.ofInt fill.requestedQuantity)
    else 0

def Fill.record (fill : Fill F) (date : Date) (order : PendingOrder F) : OrderAuditRecord F :=
  { order.record date .executed order.reason "Filled at the eligible next-session open." with
    price := some (PyFloat.round 6 fill.price)
    quantity := some fill.quantity
    requestedQuantity := some fill.requestedQuantity
    filledQuantity := some fill.quantity
    fillRate := some (fill.fillRate order.side)
    notional := some (PyFloat.round 6 fill.notional)
    cost := some (PyFloat.round 6 fill.cost)
    costPolicyId := fill.costPolicyId
    commissionCost := some fill.commissionCost
    taxCost := some fill.taxCost
    slippageCost := some fill.slippageCost
    commissionCostText := some (PyFloat.text fill.commissionCost)
    taxCostText := some (match order.side with
      | .sell => PyFloat.text fill.taxCost
      | .buy => "0")
    slippageCostText := some (PyFloat.text fill.slippageCost)
    totalCostText := some (match order.side with
      | .sell => PyFloat.text (fill.commissionCost + fill.taxCost)
      | .buy => PyFloat.text fill.commissionCost) }

def AuditEvent.record : AuditEvent F → OrderAuditRecord F
  | .submitted order detail => order.record order.signalDate .submitted order.reason detail
  | .executed date order fill => fill.record date order
  | .expiredNextSession date order =>
    order.record date .expiredNextSession "next_session_missing_bar"
      "The ticker had no bar in the only eligible next session."
  | .unfilledInvalidOpen date order detail =>
    order.record date .unfilledInvalidOpen "invalid_open" detail
  | .ignoredMissingPosition date order =>
    order.record date .ignoredMissingPosition order.reason
      "Sell order reached the next open without an active position."
  | .unfilledCapacity date order reason requestedQuantity detail =>
    { order.record date .unfilledCapacity reason detail with
      requestedQuantity := some requestedQuantity
      filledQuantity := some 0
      fillRate := some 0 }
  | .skippedMaxPositions date order =>
    order.record date .skippedMaxPositions order.reason
      "Position cap was already full at the fill open."
  | .unfilled date order reason price requestedQuantity =>
    { order.record date .unfilled reason
        "No whole share met the strategy, cash, and capacity constraints." with
      price := some (PyFloat.round 6 price)
      requestedQuantity := some requestedQuantity
      filledQuantity := some 0
      fillRate := some 0 }
  | .expiredNoNextSession date order =>
    order.record date .expiredNoNextSession "next_session_unavailable"
      "No next market session was available to execute this next-open order."
  | .delistedWriteOff date writeOff =>
    { date
      ticker := writeOff.ticker
      side := "sell"
      status := .delistedWriteOff
      signalDate := date
      reason := "delisted_write_off"
      price := some (PyFloat.round 6 writeOff.exitPrice)
      quantity := some writeOff.quantity
      detail := "No bar for " ++ toString writeOff.graceDays ++
        " trading days; written off at " ++ PyFloat.percentText writeOff.recoveryRate ++
        " of the last close." }
  | .corporateAction date ticker sourceVerified applied =>
    { date
      ticker
      side := "corporate_action"
      status := applied.status
      signalDate := date
      reason := if sourceVerified then "verified" else "fixture_unverified"
      quantity := applied.quantity
      notional := applied.notional
      detail := "Corporate action applied only on its effective session." }

end
end QuantAgent
