import QuantAgent.Features.Metrics

namespace QuantAgent.Features
set_option autoImplicit true

namespace Shared
variable {F : Type} [NumPy F] {S T : PreparedFeatureStore F} (h : SamePast S T n)
include h

omit [NumPy F] in
theorem bars : Shared S T n S.bars T.bars := ⟨rfl, rfl, h.bars⟩

omit [NumPy F] in
theorem closes : Shared S T n S.closes T.closes := .column h Bar.close

theorem shift {x y : List F} (hx : Shared S T n x y) (periods : ℕ) :
    Shared S T n (S.shift x periods) (T.shift y periods) := hx.byTicker h (.delayed _ _)

theorem inclusiveRolling {x y : List F} (hx : Shared S T n x y) (window : ℕ) (aggregate : Reduction) :
    Shared S T n (S.inclusiveRolling x window aggregate) (T.inclusiveRolling y window aggregate) :=
  hx.byTicker h (.rollingWith _ _ _)

theorem priorRolling {x y : List F} (hx : Shared S T n x y) (window : ℕ) (aggregate : Reduction) :
    Shared S T n (S.priorRolling x window aggregate) (T.priorRolling y window aggregate) :=
  hx.byTicker h ((Causal.rollingWith _ _ _).comp (.delayed _ _))

theorem ema {x y : List F} (hx : Shared S T n x y) (period : ℕ) :
    Shared S T n (S.ema x period) (T.ema y period) := hx.byTicker h (emaValues_causal _)

theorem wilder {x y : List F} (hx : Shared S T n x y) (period : ℕ) :
    Shared S T n (S.wilder x period) (T.wilder y period) := hx.byTicker h (wilderValues_causal _)

theorem periodReturn (window : ℕ) : Shared S T n (S.periodReturn window) (T.periodReturn window) :=
  (closes h).zipWith (shift h (closes h) window) _

theorem skipMonthMomentum : Shared S T n S.skipMonthMomentum T.skipMonthMomentum :=
  (shift h (closes h) 21).zipWith (shift h (closes h) 252) _

theorem volumeRatio (window : ℕ) : Shared S T n (S.volumeRatio window) (T.volumeRatio window) :=
  (column h Bar.volume).zipWith (priorRolling h (column h Bar.volume) window .avg) _

theorem macdLine : Shared S T n S.macdLine T.macdLine :=
  (ema h (closes h) 12).zipWith (ema h (closes h) 26) _

theorem ppoLine {x y : List F} (hx : Shared S T n x y) : Shared S T n (S.ppoLine x) (T.ppoLine y) :=
  (ema h hx 12).zipWith (ema h hx 26) _

theorem oscillatorPart {x y : List F} (hx : Shared S T n x y) (part : Oscillator) :
    Shared S T n (S.oscillatorPart x part) (T.oscillatorPart y part) := by
  cases part with
  | line => exact hx
  | signal => exact ema h hx 9
  | hist => exact hx.zipWith (ema h hx 9) _

theorem trueRangeValues : Shared S T n S.trueRangeValues T.trueRangeValues :=
  (bars h).zipWith (shift h (closes h) 1) _

theorem dailyReturnValues : Shared S T n S.dailyReturnValues T.dailyReturnValues :=
  (closes h).byTicker h (.fromPrevious _ _)

theorem previousExtremes :
    Shared S T n ((S.shift (S.column Bar.high) 1).zip (S.shift (S.column Bar.low) 1))
      ((T.shift (T.column Bar.high) 1).zip (T.shift (T.column Bar.low) 1)) :=
  (shift h (column h Bar.high) 1).zip (shift h (column h Bar.low) 1)

theorem directionalMove (plus : Bool) :
    Shared S T n (S.directionalMove plus) (T.directionalMove plus) :=
  (bars h).zipWith (previousExtremes h) _

theorem directionalIndex {x y : List F} (hx : Shared S T n x y) (plus : Bool) (period : ℕ) :
    Shared S T n (S.directionalIndex plus period x) (T.directionalIndex plus period y) :=
  (wilder h (directionalMove h plus) period).zipWith hx _

theorem directionalSeries {x y : List F} (hx : Shared S T n x y) (period : ℕ) (kind : Directional) :
    Shared S T n (S.directionalSeries period x kind) (T.directionalSeries period y kind) := by
  cases kind with
  | adx =>
    have hplus := directionalIndex h hx true period
    have hminus := directionalIndex h hx false period
    exact wilder h (hplus.zipWith hminus _) period
  | plusDi => exact directionalIndex h hx true period
  | minusDi => exact directionalIndex h hx false period

theorem aroon (side : AroonSide) (window : ℕ) :
    Shared S T n (S.aroon side window) (T.aroon side window) := by
  cases side with
  | up => exact (column h Bar.high).byTicker h (.rollingWith _ _ _)
  | down => exact (column h Bar.low).byTicker h (.rollingWith _ _ _)

theorem regression {x y : List F} (hx : Shared S T n x y) (window : ℕ) (kind : Regression) :
    Shared S T n (S.regression x window kind) (T.regression y window kind) :=
  hx.byTicker h (.rollingWith _ _ _)

theorem efficiencyRatio (window : ℕ) :
    Shared S T n (S.efficiencyRatio window) (T.efficiencyRatio window) := by
  have hdirection := (closes h).zipWith (shift h (closes h) window)
    fun c before => NumPy.abs (c - before)
  have hchanges := (closes h).zipWith (shift h (closes h) 1) fun c before => NumPy.abs (c - before)
  exact hdirection.zipWith (inclusiveRolling h hchanges window .sum) _

theorem trix (period : ℕ) : Shared S T n (S.trix period) (T.trix period) := by
  have hthird := ema h (ema h (ema h (closes h) period) period) period
  exact hthird.zipWith (shift h hthird 1) _

theorem supertrendDirection (multiplier : F) {x y : List F} (hx : Shared S T n x y) :
    Shared S T n (S.supertrendDirection multiplier x) (T.supertrendDirection multiplier y) :=
  ((bars h).zipWith hx _).byTicker h (.loopMap _ _)

theorem bollinger (window : ℕ) (part : BollingerPart) :
    Shared S T n (S.bollinger window part) (T.bollinger window part) := by
  have hmiddle := inclusiveRolling h (closes h) window .avg
  have hstd := inclusiveRolling h (closes h) window .std
  have hupper := hmiddle.zipWith hstd fun m s => m + lit 2 * s
  have hlower := hmiddle.zipWith hstd fun m s => m - lit 2 * s
  have hwidth := hupper.zipWith hlower (· - ·)
  cases part with
  | upper => exact hupper
  | lower => exact hlower
  | middle => exact hmiddle
  | width => exact hwidth.zipWith hmiddle _
  | pct => exact ((closes h).zipWith hlower _).zipWith hwidth _

theorem nr7Breakout : Shared S T n S.nr7Breakout T.nr7Breakout :=
  (column h _).byTicker h (.prefixMap _)

theorem insideBarBreakout : Shared S T n S.insideBarBreakout T.insideBarBreakout :=
  (bars h).byTicker h (.prefixMap _)

theorem outsideBarContinuation : Shared S T n S.outsideBarContinuation T.outsideBarContinuation :=
  (bars h).zipWith (previousExtremes h) _

theorem gapPct : Shared S T n S.gapPct T.gapPct :=
  (column h Bar.open_).zipWith (shift h (closes h) 1) _

theorem priceZscore (window : ℕ) : Shared S T n (S.priceZscore window) (T.priceZscore window) :=
  ((closes h).zipWith (inclusiveRolling h (closes h) window .avg) _).zipWith
    (inclusiveRolling h (closes h) window .std) _

theorem stochastic (window : ℕ) : Shared S T n (S.stochastic window) (T.stochastic window) := by
  have hhigh := inclusiveRolling h (column h Bar.high) window .max
  have hlow := inclusiveRolling h (column h Bar.low) window .min
  exact ((closes h).zipWith hlow _).zipWith (hhigh.zipWith hlow _) _

theorem williamsR (window : ℕ) : Shared S T n (S.williamsR window) (T.williamsR window) := by
  have hhigh := inclusiveRolling h (column h Bar.high) window .max
  have hlow := inclusiveRolling h (column h Bar.low) window .min
  exact (hhigh.zipWith (closes h) _).zipWith (hhigh.zipWith hlow _) _

theorem typicalPrice : Shared S T n S.typicalPrice T.typicalPrice := .column h _

theorem cci (window : ℕ) : Shared S T n (S.cci window) (T.cci window) :=
  (typicalPrice h).byTicker h (.rollingWith _ _ _)

theorem mfi (window : ℕ) : Shared S T n (S.mfi window) (T.mfi window) := by
  have hmoney := (typicalPrice h).zipWith (column h Bar.volume) (· * ·)
  have htypical := (typicalPrice h).zip (shift h (typicalPrice h) 1)
  have hpositive := htypical.zipWith hmoney fun (t : F × F) m => if t.2 < t.1 then m else 0
  have hnegative := htypical.zipWith hmoney fun (t : F × F) m => if t.1 < t.2 then m else 0
  exact (inclusiveRolling h hpositive window .sum).zipWith (inclusiveRolling h hnegative window .sum) _

theorem vwap (window : ℕ) : Shared S T n (S.vwap window) (T.vwap window) := by
  have hmoney := (typicalPrice h).zipWith (column h Bar.volume) (· * ·)
  exact (inclusiveRolling h hmoney window .sum).zipWith
    (inclusiveRolling h (column h Bar.volume) window .sum) _

theorem lossStreak : Shared S T n S.lossStreak T.lossStreak := (closes h).byTicker h (.loopMap _ _)

theorem obv : Shared S T n S.obv T.obv := (column h _).byTicker h (.loopMap _ _)

theorem moneyFlowMultiplier : Shared S T n S.moneyFlowMultiplier T.moneyFlowMultiplier := .column h _

theorem cmf (window : ℕ) : Shared S T n (S.cmf window) (T.cmf window) := by
  have hflow := (moneyFlowMultiplier h).zipWith (column h Bar.volume) (· * ·)
  exact (inclusiveRolling h hflow window .sum).zipWith
    (inclusiveRolling h (column h Bar.volume) window .sum) _

theorem adl : Shared S T n S.adl T.adl :=
  ((moneyFlowMultiplier h).zipWith (column h Bar.volume) _).byTicker h (.loopMap _ _)

theorem volumeIndex (positive : Bool) :
    Shared S T n (S.volumeIndex positive) (T.volumeIndex positive) :=
  (column h _).byTicker h (.loopMap _ _)

theorem forceIndex (period : ℕ) : Shared S T n (S.forceIndex period) (T.forceIndex period) :=
  ema h ((bars h).zipWith (shift h (closes h) 1) _) period

theorem eom (window : ℕ) : Shared S T n (S.eom window) (T.eom window) := by
  have hmidpoint := column h fun bar => (bar.high + bar.low) / lit 2
  have hraw := (bars h).zipWith (hmidpoint.zip (shift h hmidpoint 1)) fun (bar : Bar F) (m : F × F) =>
    arrayRatio ((m.1 - m.2) * (bar.high - bar.low)) bar.volume
  exact inclusiveRolling h hraw window .avg

theorem ulcerIndex (window : ℕ) : Shared S T n (S.ulcerIndex window) (T.ulcerIndex window) :=
  (closes h).byTicker h (.rollingWith _ _ _)

theorem drawdown (window : ℕ) : Shared S T n (S.drawdown window) (T.drawdown window) :=
  (closes h).zipWith (inclusiveRolling h (closes h) window .max) _

theorem rsiSeries (period : ℕ) : Shared S T n (S.rsiSeries period) (T.rsiSeries period) :=
  (closes h).byTicker h (rsiValues_causal _)

theorem rowMetricSeries (metric normalized : String) :
    Shared S T n (S.rowMetricSeries metric normalized) (T.rowMetricSeries metric normalized) :=
  .column h _

theorem relativeStrength (window : ℕ) :
    Shared S T n (S.relativeStrength window) (T.relativeStrength window) :=
  ((closes h).byTicker h (.fromEarlier _ _ _)).bySession h length_excessOverMean

theorem realizedVolatility {x y : List F} (hx : Shared S T n x y) (window : ℕ) :
    Shared S T n (S.byTicker (prefixMap (realizedVolatilityValue window)) x)
      (T.byTicker (prefixMap (realizedVolatilityValue window)) y) := hx.byTicker h (.prefixMap _)

theorem percentileRanks {x y : List F} (hx : Shared S T n x y) :
    Shared S T n (S.bySession percentileRanks x) (T.bySession percentileRanks y) :=
  hx.bySession h length_percentileRanks

theorem rollingMetricValues {x y : List F} (hx : Shared S T n x y) (window : ℕ)
    (aggregate : Aggregate) :
    Shared S T n (S.byTicker (rollingMetricValues window aggregate) x)
      (T.byTicker (rollingMetricValues window aggregate) y) :=
  hx.byTicker h (rollingMetricValues_causal _ _)

theorem priceColumn (normalized : String) :
    Option.Rel (Shared S T n) (S.priceColumn normalized) (T.priceColumn normalized) := by
  unfold PreparedFeatureStore.priceColumn
  split_ifs
  · exact .some (closes h)
  · exact .some (column h Bar.open_)
  · exact .some (column h Bar.high)
  · exact .some (column h Bar.low)
  · exact .some (column h Bar.volume)
  · exact .none

end Shared
end QuantAgent.Features
