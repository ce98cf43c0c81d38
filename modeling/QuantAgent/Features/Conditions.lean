import QuantAgent.Lib.NumPy
import QuantAgent.Lib.PyText
import QuantAgent.Lib.Dict

namespace QuantAgent.Features
set_option autoImplicit true

inductive ConditionOperator where
  | lt
  | lte
  | gt
  | gte
  | eq
  | ne
  | between
  | crossAbove
  | crossBelow
deriving DecidableEq, Repr

inductive Aggregate where
  | max
  | min
  | avg
  | sum
  | last
deriving DecidableEq, Repr

/-- The right-hand side of a condition: `float | str | list[float]`. -/
inductive Operand (F : Type) where
  | number (x : F)
  | metric (name : String)
  | band (values : List F)

/-- `validate_right_shape` -/
def rightShape [PyFloat F] (operator : ConditionOperator) (right : Operand F) : Prop :=
  match operator, right with
  | .between, .band [low, high] => ¬ high < low
  | .between, _ => False
  | .crossAbove, .metric _ => True
  | .crossAbove, _ => False
  | .crossBelow, .metric _ => True
  | .crossBelow, _ => False
  | _, .band _ => False
  | _, _ => True

/-- `ai_graph.schemas.Condition`; the bounds of its fields are its invariants. -/
structure Condition (F : Type) [PyFloat F] where
  left : String
  operator : ConditionOperator
  right : Operand F
  window : Option ℕ
  aggregate : Option Aggregate
  scale : Option F
  consecutive : Option ℕ
  universeRankPct : Option F
  left_ne : left ≠ ""
  right_shape : rightShape operator right
  window_pos : ∀ n ∈ window, 0 < n
  consecutive_pos : ∀ n ∈ consecutive, 0 < n
  rank_pos : ∀ x ∈ universeRankPct, 0 < x ∧ x ≤ 1

theorem pos_of_none : ∀ n ∈ (none : Option ℕ), 0 < n := by
  intro n hn
  cases hn

theorem unranked [PyFloat F] : ∀ x ∈ (none : Option F), 0 < x ∧ x ≤ 1 := by
  intro x hx
  cases hx

/-- `_ALIASES` -/
def aliases : List (String × String) :=
  [("price", "close"), ("closing_price", "close"), ("adj_close", "close"), ("rsi_14", "rsi"),
    ("rsi14", "rsi"), ("sma_20", "sma20"), ("sma_50", "sma50"), ("sma_200", "sma200"),
    ("ma20", "sma20"), ("ma50", "sma50"), ("ma200", "sma200"), ("ema_20", "ema20"),
    ("ema_50", "ema50"), ("ema_200", "ema200"), ("bollinger_upper", "bb_upper"),
    ("bollinger_lower", "bb_lower"), ("bollinger_middle", "bb_middle"), ("bb_width_pct", "bb_width"),
    ("atr_14", "atr"), ("macd_line", "macd"), ("signal_line", "macd_signal"), ("obv_line", "obv"),
    ("debt_to_equity_ratio", "debt_to_equity"), ("operating_profit", "operating_income"),
    ("sales", "revenue"), ("turnover", "revenue"), ("pe", "per"), ("pe_ratio", "per"),
    ("per_ratio", "per"), ("price_earnings_ratio", "per")]

/-- The row keys of `_PERCENT_SCALED`; every factor of that table is 0.01. -/
def percentScaled : List (String × String) :=
  [("debt_ratio", "debt_to_equity"), ("부채비율", "debt_to_equity"), ("roe_pct", "roe"),
    ("operating_margin_pct", "operating_margin")]

/-- `str(name).strip().lower()` -/
def normalName (name : String) : String := pyLower (pyStrip name)

/-- The row key a condition's metric name refers to. -/
def canonicalMetric (name : String) : String :=
  let normalized := normalName name
  match percentScaled.lookup normalized with
  | some key => key
  | none => (aliases.lookup normalized).getD normalized

def percentScale [NumPy F] (name : String) : F :=
  if (percentScaled.lookup (normalName name)).isSome then decimal 1 2 else 1

inductive Comparison where
  | above
  | below
deriving DecidableEq

/-- `_BOOLEAN_COMPARISONS` -/
def booleanComparisons : List (String × String × Comparison × String) :=
  [("close_above_sma_20", "close", .above, "sma20"), ("close_above_sma_50", "close", .above, "sma50"),
    ("close_above_sma_200", "close", .above, "sma200"), ("close_below_sma_20", "close", .below, "sma20"),
    ("close_below_sma_50", "close", .below, "sma50"), ("close_below_sma_200", "close", .below, "sma200"),
    ("close_above_bb_upper", "close", .above, "bb_upper"),
    ("close_below_bb_lower", "close", .below, "bb_lower")]

def booleanComparison (name : String) : Option (String × Comparison × String) :=
  booleanComparisons.lookup (normalName name)

/-- `_DERIVED_RATIOS` -/
def derivedRatios : List (String × String × String × ℕ) :=
  [("volume_ratio_20", "volume", "volume", 20), ("volume_ratio", "volume", "volume", 20),
    ("close_to_sma20", "close", "sma20", 0), ("close_to_sma200", "close", "sma200", 0)]

/-- Numerator, denominator and window; a window of 0 reads the denominator's current bar. -/
def derivedRatio (name : String) : Option (String × String × ℕ) := derivedRatios.lookup (normalName name)

/-- What a flag compares the close with: an aggregate over a window, times a factor. -/
structure WindowRule (F : Type) where
  metric : String
  aggregate : Aggregate
  /-- `>=`, else `<=`. -/
  atLeast : Bool
  window : ℕ
  factor : F

/-- `_BOOLEAN_WINDOW_RULES` -/
def booleanWindowRules [NumPy F] : List (String × WindowRule F) :=
  [("breakout_high", ⟨"high", .max, true, 252, decimal 995 3⟩),
    ("breakout_high_20", ⟨"high", .max, true, 20, decimal 995 3⟩),
    ("close_below_lower_band_recent", ⟨"close", .min, false, 5, 1⟩)]

def booleanWindowRule [NumPy F] (name : String) : Option (WindowRule F) :=
  booleanWindowRules.lookup (normalName name)

/-- A metric the store derives from its bars. -/
inductive DerivedSeries where
  | realizedVolatility (window : ℕ)
  | relativeStrength (window : ℕ)
  | percentile (base : String)
deriving DecidableEq

/-- `_PERCENTILE`, whose `.` matches no line break. -/
def percentileBase? (name : String) : Option String := do
  let base ← before? "_percentile" name.toList
  if base ≠ [] ∧ '\n' ∉ base then some (canonicalMetric (String.ofList base)) else none

def derivedSeriesSpec (name : String) : Option DerivedSeries :=
  let normalized := normalName name
  ((numbered? "realized_volatility_" "d" normalized).map .realizedVolatility).or
    (((numbered? "relative_strength_" "d" normalized).map .relativeStrength).or
      ((percentileBase? normalized).map .percentile))

/-- `LEVEL_METRICS` -/
def levelMetrics : List String := ["open", "high", "low", "close", "price", "volume"]

/-- `MARGIN_SIGN` -/
def marginSign [NumPy F] : ConditionOperator → Option F
  | .gt | .gte | .crossAbove => some 1
  | .lt | .lte | .crossBelow => some (-1)
  | .eq | .ne | .between => none

/-- `MARGIN_EPSILON` -/
def marginEpsilon [NumPy F] : F := decimal 1 9

end QuantAgent.Features
