import QuantAgent.Features.Catalog
import QuantAgent.Lib.Relational

namespace QuantAgent.Features
set_option autoImplicit true

/-- The caches a store fills while it is queried. -/
structure FeatureCaches (F : Type) where
  metric : Dict String (List F)
  rolling : Dict (String × ℕ × Aggregate) (List F)
  condition : Dict (List String) (List Bool)

/-- The caches of a freshly built store. -/
def FeatureCaches.empty : FeatureCaches F := ⟨Dict.empty, Dict.empty, Dict.empty⟩

/-- A method of the store. -/
abbrev Build (F : Type) := StateE PyError (FeatureCaches F)

section Caches
variable {F : Type}

/-- `self._metric_cache.get(key)` -/
def cachedMetric (key : String) : Build F (Option (List F)) := do
  return (← get).metric.get? key

/-- `self._metric_cache[key] = series` -/
def cacheMetric (key : String) (series : List F) : Build F PUnit :=
  modify fun c => { c with metric := c.metric.insert key series }

/-- `self._metric_cache.setdefault(key, series)` -/
def defaultMetric (key : String) (series : List F) : Build F PUnit :=
  modify fun c => if key ∈ c.metric then c else { c with metric := c.metric.insert key series }

/-- A builder that keeps its series under a key of the metric cache. -/
def memoised (key : String) (build : Build F (List F)) : Build F (List F) := do
  match ← cachedMetric key with
  | some series => pure series
  | none =>
    let series ← build
    cacheMetric key series
    pure series

end Caches

namespace PreparedFeatureStore
variable {F : Type} [NumPy F] (S : PreparedFeatureStore F)

def shift (source : List F) (periods : ℕ) : List F := S.byTicker (delayed NumPy.nan periods) source

/-- `_rolling_from_array(.., prior=False)` -/
def inclusiveRolling (source : List F) (window : ℕ) (aggregate : Reduction) : List F :=
  S.byTicker (rollingWith NumPy.nan window fun values =>
    if allFinite values then aggregate.apply values else NumPy.nan) source

/-- `_rolling_from_array(.., prior=True)` -/
def priorRolling (source : List F) (window : ℕ) (aggregate : Reduction) : List F :=
  S.byTicker (fun values => rollingWith NumPy.nan window
    (fun values => if allFinite values then aggregate.apply values else NumPy.nan)
    (delayed NumPy.nan 1 values)) source

def ema (source : List F) (period : ℕ) : List F := S.byTicker (emaValues period) source

def wilder (source : List F) (period : ℕ) : List F := S.byTicker (wilderValues period) source

def closes : List F := S.column Bar.close

def periodReturn (window : ℕ) : List F :=
  List.zipWith arrayReturn S.closes (S.shift S.closes window)

def skipMonthMomentum : List F :=
  List.zipWith arrayReturn (S.shift S.closes 21) (S.shift S.closes 252)

def volumeRatio (window : ℕ) : List F :=
  List.zipWith arrayRatio (S.column Bar.volume) (S.priorRolling (S.column Bar.volume) window .avg)

/-- The line of `_macd_series`. -/
def macdLine : List F := List.zipWith (· - ·) (S.ema S.closes 12) (S.ema S.closes 26)

/-- The line of `_ppo_series`. -/
def ppoLine (source : List F) : List F :=
  List.zipWith (fun fast slow => lit 100 * arrayRatio (fast - slow) slow) (S.ema source 12)
    (S.ema source 26)

/-- The series of a crossover indicator, from its line. -/
def oscillatorPart (line : List F) : Oscillator → List F
  | .line => line
  | .signal => S.ema line 9
  | .hist => List.zipWith (· - ·) line (S.ema line 9)

def trueRangeValues : List F :=
  List.zipWith (fun (bar : Bar F) previous =>
    if PyFloat.isFinite previous then
      npMaximum (bar.high - bar.low)
        (npMaximum (NumPy.abs (bar.high - previous)) (NumPy.abs (bar.low - previous)))
    else bar.high - bar.low) S.bars (S.shift S.closes 1)

def dailyReturnValues : List F :=
  S.byTicker (fromPrevious NumPy.nan fun before after =>
    if before != 0 then after / before - 1 else NumPy.nan) S.closes

/-- The movement of `_directional_movement` that the larger side keeps. -/
def directionalMove (plus : Bool) : List F :=
  List.zipWith (fun (bar : Bar F) (previous : F × F) =>
    let up := bar.high - previous.1
    let down := previous.2 - bar.low
    if plus then if down < up ∧ 0 < up then up else 0
    else if up < down ∧ 0 < down then down else 0) S.bars
    ((S.shift (S.column Bar.high) 1).zip (S.shift (S.column Bar.low) 1))

def directionalIndex (plus : Bool) (period : ℕ) (atr : List F) : List F :=
  List.zipWith (fun move range => lit 100 * arrayRatio move range)
    (S.wilder (S.directionalMove plus) period) atr

def directionalSeries (period : ℕ) (atr : List F) : Directional → List F
  | .plusDi => S.directionalIndex true period atr
  | .minusDi => S.directionalIndex false period atr
  | .adx =>
    S.wilder (List.zipWith (fun plusDi minusDi =>
      lit 100 * arrayRatio (NumPy.abs (plusDi - minusDi)) (plusDi + minusDi))
      (S.directionalIndex true period atr) (S.directionalIndex false period atr)) period

def aroon (side : AroonSide) (window : ℕ) : List F :=
  S.byTicker (rollingWith NumPy.nan window (aroonValue side))
    (match side with
      | .up => S.column Bar.high
      | .down => S.column Bar.low)

def regression (source : List F) (window : ℕ) (kind : Regression) : List F :=
  S.byTicker (rollingWith NumPy.nan window (regressionValue kind)) source

def efficiencyRatio (window : ℕ) : List F :=
  let direction := List.zipWith (fun c before => NumPy.abs (c - before)) S.closes
    (S.shift S.closes window)
  let changes := List.zipWith (fun c before => NumPy.abs (c - before)) S.closes (S.shift S.closes 1)
  List.zipWith arrayRatio direction (S.inclusiveRolling changes window .sum)

def trix (period : ℕ) : List F :=
  let third := S.ema (S.ema (S.ema S.closes period) period) period
  List.zipWith (fun value before => lit 100 * arrayReturn value before) third (S.shift third 1)

def supertrendDirection (multiplier : F) (atr : List F) : List F :=
  S.byTicker (loopMap supertrendStep ⟨1, none⟩)
    (List.zipWith (fun (bar : Bar F) range =>
      let midpoint := (bar.high + bar.low) / lit 2
      ⟨midpoint + multiplier * range, midpoint - multiplier * range, bar.close⟩) S.bars atr)

def bollinger (window : ℕ) (part : BollingerPart) : List F :=
  let middle := S.inclusiveRolling S.closes window .avg
  let std := S.inclusiveRolling S.closes window .std
  let upper := List.zipWith (fun m s => m + lit 2 * s) middle std
  let lower := List.zipWith (fun m s => m - lit 2 * s) middle std
  match part with
  | .upper => upper
  | .lower => lower
  | .middle => middle
  | .width => List.zipWith arrayRatio (List.zipWith (· - ·) upper lower) middle
  | .pct => List.zipWith arrayRatio (List.zipWith (· - ·) S.closes lower)
      (List.zipWith (· - ·) upper lower)

def nr7Breakout : List F :=
  S.byTicker (prefixMap nr7Value)
    (S.column fun bar => (⟨bar.high - bar.low, bar.close, bar.high⟩ : RangeBar F))

def insideBarBreakout : List F := S.byTicker (prefixMap insideBarValue) S.bars

def outsideBarContinuation : List F :=
  List.zipWith (fun (bar : Bar F) (previous : F × F) =>
    flag (decide (previous.1 < bar.high) && decide (bar.low < previous.2) &&
      decide (bar.open_ < bar.close))) S.bars
    ((S.shift (S.column Bar.high) 1).zip (S.shift (S.column Bar.low) 1))

def gapPct : List F := List.zipWith arrayReturn (S.column Bar.open_) (S.shift S.closes 1)

def priceZscore (window : ℕ) : List F :=
  let mean := S.inclusiveRolling S.closes window .avg
  let std := S.inclusiveRolling S.closes window .std
  List.zipWith arrayRatio (List.zipWith (· - ·) S.closes mean) std

def stochastic (window : ℕ) : List F :=
  let high := S.inclusiveRolling (S.column Bar.high) window .max
  let low := S.inclusiveRolling (S.column Bar.low) window .min
  List.zipWith (fun position range => lit 100 * arrayRatio position range)
    (List.zipWith (· - ·) S.closes low) (List.zipWith (· - ·) high low)

def williamsR (window : ℕ) : List F :=
  let high := S.inclusiveRolling (S.column Bar.high) window .max
  let low := S.inclusiveRolling (S.column Bar.low) window .min
  List.zipWith (fun position range => -lit 100 * arrayRatio position range)
    (List.zipWith (· - ·) high S.closes) (List.zipWith (· - ·) high low)

def typicalPrice : List F := S.column fun bar => (bar.high + bar.low + bar.close) / lit 3

def cci (window : ℕ) : List F := S.byTicker (rollingWith NumPy.nan window cciValue) S.typicalPrice

def mfi (window : ℕ) : List F :=
  let money := List.zipWith (· * ·) S.typicalPrice (S.column Bar.volume)
  let typical := S.typicalPrice.zip (S.shift S.typicalPrice 1)
  let positive := List.zipWith (fun (t : F × F) m => if t.2 < t.1 then m else 0) typical money
  let negative := List.zipWith (fun (t : F × F) m => if t.1 < t.2 then m else 0) typical money
  List.zipWith (fun positiveSum negativeSum =>
    if negativeSum == 0 ∧ 0 < positiveSum then lit 100
    else lit 100 - lit 100 / (1 + arrayRatio positiveSum negativeSum))
    (S.inclusiveRolling positive window .sum) (S.inclusiveRolling negative window .sum)

def vwap (window : ℕ) : List F :=
  List.zipWith arrayRatio
    (S.inclusiveRolling (List.zipWith (· * ·) S.typicalPrice (S.column Bar.volume)) window .sum)
    (S.inclusiveRolling (S.column Bar.volume) window .sum)

def lossStreak : List F := S.byTicker (loopMap lossStreakStep (none, 0)) S.closes

def closeVolume : List (F × F) := S.column fun bar => (bar.close, bar.volume)

def obv : List F := S.byTicker (loopMap obvStep ⟨0, none⟩) S.closeVolume

def moneyFlowMultiplier : List F :=
  S.column fun bar => arrayRatio (lit 2 * bar.close - bar.high - bar.low) (bar.high - bar.low)

def cmf (window : ℕ) : List F :=
  let flow := List.zipWith (· * ·) S.moneyFlowMultiplier (S.column Bar.volume)
  List.zipWith arrayRatio (S.inclusiveRolling flow window .sum)
    (S.inclusiveRolling (S.column Bar.volume) window .sum)

def adl : List F :=
  S.byTicker npCumsum
    (List.zipWith (fun m v => nanToZero m * v) S.moneyFlowMultiplier (S.column Bar.volume))

def volumeIndex (positive : Bool) : List F :=
  S.byTicker (loopMap (volumeIndexStep positive) ⟨lit 1000, none⟩) S.closeVolume

def forceIndex (period : ℕ) : List F :=
  S.ema (List.zipWith (fun (bar : Bar F) before => (bar.close - before) * bar.volume) S.bars
    (S.shift S.closes 1)) period

def eom (window : ℕ) : List F :=
  let midpoint := S.column fun bar => (bar.high + bar.low) / lit 2
  let raw := List.zipWith (fun (bar : Bar F) (m : F × F) =>
    arrayRatio ((m.1 - m.2) * (bar.high - bar.low)) bar.volume) S.bars
    (midpoint.zip (S.shift midpoint 1))
  S.inclusiveRolling raw window .avg

def ulcerIndex (window : ℕ) : List F := S.byTicker (rollingWith NumPy.nan window ulcerValue) S.closes

def drawdown (window : ℕ) : List F :=
  List.zipWith arrayReturn S.closes (S.inclusiveRolling S.closes window .max)

def rsiSeries (period : ℕ) : List F := S.byTicker (rsiValues period) S.closes

/-- `_row_metric_series` -/
def rowMetricSeries (metric normalized : String) : List F :=
  S.column fun bar =>
    match bar.row.value metric with
    | .none => if normalized ≠ metric then (bar.row.value normalized).measured else NumPy.nan
    | cell => cell.measured

/-- What the rows carry, and the computed value where they carry none. -/
def mergedSeries (row computed : List F) : List F :=
  List.zipWith (fun r c => if PyFloat.isFinite r then r else c) row computed

def relativeStrength (window : ℕ) : List F :=
  S.bySession excessOverMean (S.byTicker (fromEarlier NumPy.nan window fun prior later =>
    if 0 < prior then later / prior - 1 else NumPy.nan) S.closes)

/-- The division of `_derived_ratio_series`. -/
def ratioSeries (numerator denominator : List F) : List F :=
  List.zipWith (fun n d => if PyFloat.isFinite d && d != 0 then n / d else NumPy.nan) numerator
    denominator

def trueRange : Build F (List F) := memoised "__true_range__" (pure S.trueRangeValues)

def dailyReturns : Build F (List F) := memoised "__daily_returns__" (pure S.dailyReturnValues)

def atr (period : ℕ) : Build F (List F) :=
  memoised ("atr_" ++ toString period) do
    return S.wilder (← S.trueRange) period

/-- `values` as `_macd_series` and `_ppo_series` leave them in the cache. -/
def oscillatorSeries (family : String) (line : List F) (part : Oscillator) : Build F (List F) := do
  defaultMetric (Oscillator.key family .line) (S.oscillatorPart line .line)
  defaultMetric (Oscillator.key family .signal) (S.oscillatorPart line .signal)
  defaultMetric (Oscillator.key family .hist) (S.oscillatorPart line .hist)
  pure (S.oscillatorPart line part)

def directionalMovement (period : ℕ) (requested : Directional) : Build F (List F) := do
  match ← cachedMetric (requested.key period) with
  | some series => pure series
  | none =>
    let atr ← S.atr period
    cacheMetric (Directional.adx.key period) (S.directionalSeries period atr .adx)
    cacheMetric (Directional.plusDi.key period) (S.directionalSeries period atr .plusDi)
    cacheMetric (Directional.minusDi.key period) (S.directionalSeries period atr .minusDi)
    pure (S.directionalSeries period atr requested)

def realizedVolatility (window : ℕ) : Build F (List F) := do
  let std := S.inclusiveRolling (← S.dailyReturns) window .std
  return std.map fun s => s * NumPy.sqrt (lit 252)

def returnRatio (window : ℕ) (downside : Bool) : Build F (List F) := do
  let returns ← S.dailyReturns
  let mean := S.inclusiveRolling returns window .avg
  let risk :=
    if downside then
      let squared := returns.map fun r => npMinimum r 0 * npMinimum r 0
      (S.inclusiveRolling squared window .avg).map NumPy.sqrt
    else S.inclusiveRolling returns window .std
  return List.zipWith (fun m r => arrayRatio m r * NumPy.sqrt (lit 252)) mean risk

section Recursion
variable (metricSeries : String → Build F (List F))

/-- `_catalog_metric_series`, once the name is matched; `metric_series` is the call back. -/
def catalogSeries : CatalogMetric → Build F (List F)
  | .periodReturn window => pure (S.periodReturn window)
  | .skipMonthMomentum => pure S.skipMonthMomentum
  | .sma window => pure (S.inclusiveRolling S.closes window .avg)
  | .ema period => pure (S.ema S.closes period)
  | .closeToHigh window =>
    pure (List.zipWith arrayRatio S.closes (S.inclusiveRolling S.closes window .max))
  | .sharpe window => S.returnRatio window false
  | .sortino window => S.returnRatio window true
  | .returnVolRatio window => do
    return List.zipWith arrayRatio (S.periodReturn window) (← S.realizedVolatility window)
  | .priceVolumeScore window =>
    pure (List.zipWith (fun r v => r * (decimal 5 1 + nanToZero v)) (S.periodReturn window)
      (S.volumeRatio 20))
  | .momentumBlend =>
    pure (List.zipWith (· + ·)
      (List.zipWith (fun a b => decimal 5 1 * a + decimal 3 1 * b) (S.periodReturn 63)
        (S.periodReturn 126))
      ((S.periodReturn 252).map fun r => decimal 2 1 * r))
  | .macd part => S.oscillatorSeries "macd" S.macdLine part
  | .ppo part => S.oscillatorSeries "ppo" (S.ppoLine S.closes) part
  | .directional kind period => S.directionalMovement period kind
  | .aroon side window => pure (S.aroon side window)
  | .regression kind window => pure (S.regression S.closes window kind)
  | .efficiencyRatio window => pure (S.efficiencyRatio window)
  | .trix period => pure (S.trix period)
  | .trixSignal => do return S.ema (← metricSeries "trix_15") 9
  | .supertrendDirection => do return S.supertrendDirection (lit 3) (← S.atr 10)
  | .donchian high window =>
    pure (if high then S.priorRolling (S.column Bar.high) window .max
      else S.priorRolling (S.column Bar.low) window .min)
  | .bollinger part window => pure (S.bollinger window part)
  | .keltner upper period => do
    let middle := S.ema S.closes period
    return List.zipWith (fun m range => if upper then m + lit 2 * range else m + -lit 2 * range)
      middle (← S.atr 10)
  | .atrExpansion period => do
    return List.zipWith arrayRatio (← S.trueRange) (← S.atr period)
  | .atrTrailingFloor window => do
    let high ← metricSeries ("donchian_high_" ++ toString window)
    return List.zipWith (fun h range => h - lit 3 * range) high (← S.atr window)
  | .squeezeBreakout => do
    let width ← metricSeries "bollinger_width_20"
    let usual := S.priorRolling width 120 .avg
    let high ← metricSeries "donchian_high_20"
    return List.zipWith (fun (w : F × F) (c : F × F) =>
      flag (decide (w.1 < decimal 6 1 * w.2) && decide (c.2 < c.1))) (width.zip usual)
      (S.closes.zip high)
  | .nr7Breakout => pure S.nr7Breakout
  | .insideBarBreakout => pure S.insideBarBreakout
  | .outsideBarContinuation => pure S.outsideBarContinuation
  | .gapPct => pure S.gapPct
  | .gapUpVolumeBreakout => do
    let gap ← metricSeries "gap_pct"
    return List.zipWith (fun (bar : Bar F) (g : F × F) =>
      flag (decide (decimal 2 2 < g.1) && decide (bar.open_ < bar.close) &&
        decide (decimal 15 1 < g.2))) S.bars (gap.zip (S.volumeRatio 20))
  | .rangeExpansionBreakout => do
    let expansion ← metricSeries "atr_expansion_20"
    let high ← metricSeries "donchian_high_20"
    return List.zipWith (fun (bar : Bar F) (e : F × F) =>
      flag (decide (decimal 15 1 < e.1) &&
        decide (decimal 8 1 < arrayRatio (bar.close - bar.low) (bar.high - bar.low)) &&
        decide (e.2 < bar.close))) S.bars (expansion.zip high)
  | .priceZscore window => pure (S.priceZscore window)
  | .stochK window => pure (S.stochastic window)
  | .stochD => do return S.inclusiveRolling (← metricSeries "stoch_k_14") 3 .avg
  | .williamsR window => pure (S.williamsR window)
  | .cci window => pure (S.cci window)
  | .mfi window => pure (S.mfi window)
  | .closeToVwap window => pure (List.zipWith arrayRatio S.closes (S.vwap window))
  | .lossStreak => pure S.lossStreak
  | .obv => pure S.obv
  | .obvSlope window => do return S.regression (← metricSeries "obv") window .slopeRaw
  | .cmf window => pure (S.cmf window)
  | .adl => pure S.adl
  | .adlSlope window => do return S.regression (← metricSeries "adl") window .slopeRaw
  | .volumeIndex positive => pure (S.volumeIndex positive)
  | .volumeIndexSma positive => do
    return S.inclusiveRolling (← metricSeries (volumeIndexName positive)) 100 .avg
  | .trendGap positive => do
    let base ← metricSeries (volumeIndexName positive)
    return List.zipWith (· - ·) base (← metricSeries (volumeIndexName positive ++ "_sma_100"))
  | .forceIndex period => pure (S.forceIndex period)
  | .eom window => pure (S.eom window)
  | .pvo part => S.oscillatorSeries "pvo" (S.ppoLine (S.column Bar.volume)) part
  | .ulcerIndex window => pure (S.ulcerIndex window)
  | .drawdown window => pure (S.drawdown window)
  | .drawdownRecovery window => do
    let drawdown := (← metricSeries ("drawdown_" ++ window)).map NumPy.abs
    return List.zipWith arrayRatio (S.periodReturn 20) drawdown

/-- `_rolling_metric`, which keeps its series under the name as it is spelled. -/
def rollingMetricWith (metric : String) (window : ℕ) (aggregate : Aggregate) : Build F (List F) := do
  let key := (normalName metric, window, aggregate)
  match (← get).rolling.get? key with
  | some series => pure series
  | none =>
    let output := S.byTicker (rollingMetricValues window aggregate) (← metricSeries metric)
    modify fun c => { c with rolling := c.rolling.insert key output }
    pure output

def derivedRatioSeries (ratio : String × String × ℕ) : Build F (List F) := do
  let numerator ← metricSeries ratio.1
  let denominator ←
    if ratio.2.2 ≠ 0 then S.rollingMetricWith metricSeries ratio.2.1 ratio.2.2 .avg
    else metricSeries ratio.2.1
  return ratioSeries numerator denominator

/-- `_derived_from_bars` -/
def derivedFromBars : DerivedSeries → Build F (List F)
  | .realizedVolatility window => do
    return S.byTicker (prefixMap (realizedVolatilityValue window)) (← S.dailyReturns)
  | .relativeStrength window =>
    if window = 0 ∧ S.bars ≠ [] then
      throw (.valueError "operands could not be broadcast together")
    else pure (S.relativeStrength window)
  | .percentile base => do return S.bySession percentileRanks (← metricSeries base)

/-- `_metric_series` behind the cache lookup. -/
def buildMetric (metric normalized : String) : Build F (List F) := do
  match derivedRatio metric, derivedSeriesSpec normalized, catalogMetric? normalized with
  | some ratio, _, _ =>
    let series ← S.derivedRatioSeries metricSeries ratio
    cacheMetric normalized series
    pure series
  | none, some spec, _ =>
    let series ← S.derivedFromBars metricSeries spec
    cacheMetric normalized series
    pure series
  | none, none, some entry =>
    if entry.window = some 0 ∧ S.bars ≠ [] then throw (.valueError "shape mismatch")
    else
      let computed ← S.catalogSeries metricSeries entry
      let series := mergedSeries (S.rowMetricSeries metric normalized) computed
      cacheMetric normalized series
      pure series
  | none, none, none =>
    let series := S.rowMetricSeries metric normalized
    cacheMetric normalized series
    pure series

/-- The arrays `_metric_series` hands out without a cache entry. -/
def priceColumn (normalized : String) : Option (List F) :=
  if normalized = "price" ∨ normalized = "close" then some S.closes
  else if normalized = "open" then some (S.column Bar.open_)
  else if normalized = "high" then some (S.column Bar.high)
  else if normalized = "low" then some (S.column Bar.low)
  else if normalized = "volume" then some (S.column Bar.volume)
  else none

def metricSeriesWith (metric : String) : Build F (List F) := do
  let normalized := canonicalMetric metric
  match ← cachedMetric normalized with
  | some series => pure series
  | none =>
    match S.priceColumn normalized with
    | some series => pure series
    | none =>
      if normalized = "rsi" then
        let series := mergedSeries (S.column Bar.rsi) (S.rsiSeries 14)
        cacheMetric normalized series
        pure series
      else S.buildMetric metricSeries metric normalized

end Recursion

/-- `_metric_series` under a bound on the depth of the calls. -/
def metricSeriesAt : ℕ → String → Build F (List F)
  | 0, _ => throw (.valueError "maximum recursion depth exceeded")
  | depth + 1, metric => S.metricSeriesWith (metricSeriesAt depth) metric

/-- More than any name needs: a name only calls for names it is longer than, but for two. -/
def callDepth (metric : String) : ℕ := metric.length + 4

def metricSeries (metric : String) : Build F (List F) := S.metricSeriesAt (callDepth metric) metric

def rollingMetric (metric : String) (window : ℕ) (aggregate : Aggregate) : Build F (List F) :=
  S.rollingMetricWith S.metricSeries metric window aggregate

end PreparedFeatureStore
end QuantAgent.Features
