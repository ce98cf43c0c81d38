import QuantAgent.Campaign.Specs

namespace QuantAgent.Campaign
set_option autoImplicit true

section
variable {F : Type} [PyFloat F]

/-- `max_position_pct_from_risk_constraints` -/
def maxPositionPct (constraints : RiskConstraints F) : Option F := do
  let pct ← constraints.maxPositionPct
  if PyFloat.isFinite pct ∧ ¬ pct ≤ 0 ∧ ¬ 1 < pct then some pct else none

/-- `required_max_position_pct` -/
def requiredMaxPositionPct (constraints : RiskConstraints F) : Except PyError F :=
  match constraints.maxPositionPct with
  | none => throw (.valueError
      "canonical analysis backtest requires strategy risk_constraints.max_position_pct")
  | some pct =>
    if PyFloat.isFinite pct ∧ ¬ pct ≤ 0 ∧ ¬ 1 < pct then pure pct
    else throw (.valueError "max_position_pct must be finite and in (0, 1]")

/-- `max(1, math.ceil(1.0 / max_position_pct))` -/
def decodeMaxPositions (pct : F) : Except PyError ℕ := do
  let names ← pyCeil (1 / pct)
  pure (max 1 names.toNat)

/-- `DEFAULT_MAX_POSITIONS` -/
def defaultMaxPositions : ℕ := 10

/-- `requested_max_positions` -/
def requestedMaxPositions (pct : Option F) : Except PyError ℕ :=
  match pct with
  | none => pure defaultMaxPositions
  | some pct => decodeMaxPositions pct

/-- The cap both `applied_max_positions` put on the request; no rows or no names means no cap. -/
def capPositions (requested : ℕ) (tickers : Option ℕ) : ℕ :=
  match tickers with
  | none | some 0 => requested
  | some count => min requested count

/-- `position_sizing.applied_max_positions` -/
def appliedMaxPositions (constraints : RiskConstraints F) (tickers : Option ℕ) : Except PyError ℕ := do
  let requested ← requestedMaxPositions (maxPositionPct constraints)
  pure (capPositions requested tickers)

/-- `_applied_max_positions` of the backtest node, which has no default. -/
def strictMaxPositions (constraints : RiskConstraints F) (tickers : Option ℕ) : Except PyError ℕ := do
  let requested ← decodeMaxPositions (← requiredMaxPositionPct constraints)
  pure (capPositions requested tickers)

end

end QuantAgent.Campaign
