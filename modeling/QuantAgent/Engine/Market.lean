import QuantAgent.Engine.Models
import QuantAgent.Lib.Causal
import Mathlib.Data.Prod.Lex
import Mathlib.Data.String.Basic

namespace QuantAgent
set_option autoImplicit true

def metricAliases : String → String
  | "rsi" => "rsi_14"
  | "RSI" => "rsi_14"
  | "MA5" => "ma_5"
  | "MA_5" => "ma_5"
  | "5ma" => "ma_5"
  | "ma5" => "ma_5"
  | "MA20" => "ma_20"
  | "MA_20" => "ma_20"
  | "ma20" => "ma_20"
  | "MA60" => "ma_60"
  | "MA_60" => "ma_60"
  | "ma60" => "ma_60"
  | "signal" => "macd_signal"
  | "price" => "close"
  | name => name

/-- Strings compare by their characters. -/
def textLT (a b : String) : Bool := decide (a.toList < b.toList)

theorem textLT_eq (a b : String) : textLT a b = decide (a < b) := rfl

/-- The sort key of the rows, `(row.date, row.ticker)`. -/
def OhlcvBar.key (bar : OhlcvBar F) : Date ×ₗ Ticker := toLex (bar.date, bar.ticker)

/-- Rows sorted by date and ticker: sorted by the engine, or promised by `inputs_normalized`. -/
structure OhlcvRows (F : Type) where
  rows : List (OhlcvBar F)
  sorted : rows.Pairwise fun a b => a.key ≤ b.key

def barsByTicker (rows : List (OhlcvBar F)) : Dict Ticker (List (OhlcvBar F)) :=
  Dict.group OhlcvBar.ticker [] (fun bars bar => bars ++ [bar]) rows

def barsByDate (rows : List (OhlcvBar F)) : Dict Date (Dict Ticker (OhlcvBar F)) :=
  Dict.group OhlcvBar.date Dict.empty (fun bars bar => bars.insert bar.ticker bar) rows

/-- `bars if inputs_normalized else sorted(bars, key=lambda item: item.date)` -/
def orderedBars (inputsNormalized : Bool) (bars : List (OhlcvBar F)) : List (OhlcvBar F) :=
  if inputsNormalized then bars else pySorted (fun a b => decide (a.date < b.date)) bars

/-- `metrics_by_key.setdefault(key, {}).update(new)` -/
def updateRow (row new : Option (Metrics F)) : Option (Metrics F) :=
  match new with
  | some m => some ((row.getD fun _ => none).update m)
  | none => row

section
variable {F : Type} [PyFloat F]

def conditionMetricNames (rule : Condition F) : List String :=
  match rule.operator, rule.right with
  | .between, _ => [rule.left]
  | _, .metric name => [rule.left, name]
  | _, _ => [rule.left]

/-- `sorted(required_metric_names(spec))` -/
def requiredMetricNames (spec : StrategySpec F) : List String :=
  pySorted textLT ((spec.entryRules ++ spec.exitRules).flatMap conditionMetricNames).dedup

def metricPresent (name : String) (metrics : Metrics F) : Bool :=
  (metrics name).isSome || (metrics (metricAliases name)).isSome

def volumeRatio20 (bars : List (OhlcvBar F)) : Metric F :=
  let window := lastN 20 (bars.map OhlcvBar.volume)
  let average := pySum window / PyFloat.ofInt window.length
  match bars.getLast? with
  | some bar =>
    if average != 0 && PyFloat.isFinite average then some (bar.volume / average) else none
  | none => none

/-- `max(closes[-period:])` -/
def rollingHigh (period : ℕ) (bars : List (OhlcvBar F)) : Metric F :=
  match lastN period (bars.map OhlcvBar.close) with
  | [] => none
  | close :: rest => some (rest.foldl pyMax close)

/-- One round of the breakout loop over `enumerate(zip(sorted_bars, highs))`. -/
def breakoutStep (s : ℕ × Option ℕ) (e : OhlcvBar F × Metric F) : (ℕ × Option ℕ) × Metric F :=
  let last := if e.2.elim false (fun high => decide (high ≤ e.1.close)) then some s.1 else s.2
  ((s.1 + 1, last), last.map fun index => PyFloat.ofInt (s.1 - index))

def daysSinceBreakout (bars : List (OhlcvBar F)) : List (Metric F) :=
  loopMap breakoutStep (0, none) (bars.zip (prefixMap (rollingHigh 252) bars))

def derivedSeries (bars : List (OhlcvBar F)) : String → Option (List (Metric F))
  | "volume_ratio_20" => some (prefixMap volumeRatio20 bars)
  | "rolling_high_60" => some (prefixMap (rollingHigh 60) bars)
  | "rolling_high_252" => some (prefixMap (rollingHigh 252) bars)
  | "days_since_breakout" => some (daysSinceBreakout bars)
  | _ => none

def computeDerivedMetricsForBars (bars : List (OhlcvBar F)) (required : List String) (date : Date) :
    Option (Metrics F) :=
  let requested := required.map fun metric => (metricAliases metric).toLower
  if requested.any (fun name => (derivedSeries bars name).isSome) &&
      bars.any (fun bar => bar.date = date) then
    some fun name =>
      if name ∈ requested then
        (derivedSeries bars name).bind fun values =>
          lastWhere (fun bar => bar.date = date) (bars.zip values)
      else none
  else none

/-- What `_prepare_market_data` reads. -/
structure MarketInputs (F : Type) [PyFloat F] where
  required : List String
  talib : Option (Talib F)
  ohlcvRows : OhlcvRows F
  metricRows : MetricTable F
  inputsNormalized : Bool

namespace MarketInputs
variable (m : MarketInputs F)

def tickerBars (ticker : Ticker) : List (OhlcvBar F) :=
  ((barsByTicker m.ohlcvRows.rows).get? ticker).getD []

/-- OHLCV first, then TA-Lib, then derived metrics; external rows override them all. -/
def metricsByKey : MetricTable F := fun date ticker =>
  let bar := ((barsByDate m.ohlcvRows.rows).get? date).bind (·.get? ticker)
  let talib := m.talib.bind fun library =>
    library.compute m.required (orderedBars false (m.tickerBars ticker)) date
  let derived := computeDerivedMetricsForBars
    (orderedBars m.inputsNormalized (m.tickerBars ticker)) m.required date
  updateRow (updateRow (updateRow (bar.map OhlcvBar.metrics) talib) derived)
    (m.metricRows date ticker)

def previousMetricsByKey : MetricTable F := fun date ticker =>
  let bars := orderedBars m.inputsNormalized (m.tickerBars ticker)
  let previous := none :: bars.map fun bar => m.metricsByKey bar.date ticker
  (lastWhere (fun bar => bar.date = date) (bars.zip previous)).join

def dates : List Date :=
  let days := ((barsByDate m.ohlcvRows.rows).filter fun _ bars => bars.entries ≠ []).keys
  if m.inputsNormalized then days else pySorted (fun a b => decide (a < b)) days

def sortedRows : List (OhlcvBar F) :=
  if m.inputsNormalized then m.ohlcvRows.rows
  else m.dates.flatMap fun day =>
    ((barsByDate m.ohlcvRows.rows).get? day).elim [] fun bars => (bars.sortKeys textLT).values

theorem barsByDate_keys_increasing : (barsByDate m.ohlcvRows.rows).keys.Pairwise (· < ·) := by
  apply Dict.keys_group_pairwise
  exact m.ohlcvRows.sorted.imp fun h => Prod.Lex.monotone_fst _ _ h

theorem dates_eq :
    m.dates = ((barsByDate m.ohlcvRows.rows).filter fun _ bars => bars.entries ≠ []).keys := by
  have h : ((barsByDate m.ohlcvRows.rows).filter fun _ bars => bars.entries ≠ []).keys.Pairwise
      (· < ·) := m.barsByDate_keys_increasing.sublist (List.filter_sublist.map Prod.fst)
  unfold dates
  split
  · rfl
  · apply pySorted_eq_self
    exact h.imp fun h => decide_eq_false h.asymm

theorem dates_increasing : m.dates.Pairwise (· < ·) := by
  rw [dates_eq]
  exact m.barsByDate_keys_increasing.sublist (List.filter_sublist.map Prod.fst)

end MarketInputs

/-- Read-only market indexes that many strategy candidates can share. -/
structure PreparedMarketData (F : Type) where
  ohlcvRows : List (OhlcvBar F)
  barsByTicker : Dict Ticker (List (OhlcvBar F))
  barsByDate : Dict Date (Dict Ticker (OhlcvBar F))
  metricsByKey : MetricTable F
  previousMetricsByKey : MetricTable F
  dates : List Date
  rowIndexByKey : Date → Ticker → Option ℕ
  dates_increasing : dates.Pairwise (· < ·)

def prepareMarketData (m : MarketInputs F) : PreparedMarketData F where
  ohlcvRows := m.sortedRows
  barsByTicker :=
    (QuantAgent.barsByTicker m.ohlcvRows.rows).mapVal fun _ bars =>
      orderedBars m.inputsNormalized bars
  barsByDate :=
    (QuantAgent.barsByDate m.ohlcvRows.rows).mapVal fun _ bars =>
      if m.inputsNormalized then bars else bars.sortKeys textLT
  metricsByKey := m.metricsByKey
  previousMetricsByKey := m.previousMetricsByKey
  dates := m.dates
  rowIndexByKey date ticker :=
    lastIndex (fun bar => bar.date = date ∧ bar.ticker = ticker) m.sortedRows
  dates_increasing := m.dates_increasing

end
end QuantAgent
