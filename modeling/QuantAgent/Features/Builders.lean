import QuantAgent.Features.SharedSeries

namespace QuantAgent.Features
set_option autoImplicit true

inductive OscillatorFamily where
  | macd
  | ppo
  | pvo
deriving DecidableEq

/-- A series whose builder keeps it in the metric cache under a key of its own. -/
inductive Kept where
  | trueRange
  | dailyReturns
  | atr (period : ℕ)
  | oscillator (family : OscillatorFamily) (part : Oscillator)
  | directional (kind : Directional) (period : ℕ)
deriving DecidableEq

def OscillatorFamily.name : OscillatorFamily → String
  | .macd => "macd"
  | .ppo => "ppo"
  | .pvo => "pvo"

def Kept.key : Kept → String
  | .trueRange => "__true_range__"
  | .dailyReturns => "__daily_returns__"
  | .atr period => "atr_" ++ toString period
  | .oscillator family part => Oscillator.key family.name part
  | .directional kind period => kind.key period

/-- The builders a catalog metric calls. -/
def CatalogMetric.builders : CatalogMetric → List Kept
  | .sharpe _ | .sortino _ | .returnVolRatio _ => [.dailyReturns]
  | .macd part => [.oscillator .macd part]
  | .ppo part => [.oscillator .ppo part]
  | .pvo part => [.oscillator .pvo part]
  | .directional kind period => [.directional kind period]
  | .supertrendDirection | .keltner _ _ => [.atr 10]
  | .atrExpansion period => [.trueRange, .atr period]
  | .atrTrailingFloor window => [.atr window]
  | _ => []

/-- The metrics a catalog metric is computed from. -/
def CatalogMetric.calls : CatalogMetric → List String
  | .trixSignal => ["trix_15"]
  | .atrTrailingFloor window => ["donchian_high_" ++ toString window]
  | .squeezeBreakout => ["bollinger_width_20", "donchian_high_20"]
  | .gapUpVolumeBreakout => ["gap_pct"]
  | .rangeExpansionBreakout => ["atr_expansion_20", "donchian_high_20"]
  | .stochD => ["stoch_k_14"]
  | .obvSlope _ => ["obv"]
  | .adlSlope _ => ["adl"]
  | .volumeIndexSma positive => [volumeIndexName positive]
  | .trendGap positive => [volumeIndexName positive, volumeIndexName positive ++ "_sma_100"]
  | .drawdownRecovery window => ["drawdown_" ++ window]
  | _ => []

def DerivedSeries.builders : DerivedSeries → List Kept
  | .realizedVolatility _ => [.dailyReturns]
  | _ => []

def DerivedSeries.calls : DerivedSeries → List String
  | .percentile base => [base]
  | _ => []

namespace PreparedFeatureStore
variable {F : Type} [NumPy F] (S : PreparedFeatureStore F)

def oscillatorLine : OscillatorFamily → List F
  | .macd => S.macdLine
  | .ppo => S.ppoLine S.closes
  | .pvo => S.ppoLine (S.column Bar.volume)

def build : Kept → Build F (List F)
  | .trueRange => S.trueRange
  | .dailyReturns => S.dailyReturns
  | .atr period => S.atr period
  | .oscillator family part => S.oscillatorSeries family.name (S.oscillatorLine family) part
  | .directional kind period => S.directionalMovement period kind

/-- The series the bars give, whatever the caches and the rows hold. -/
def keptSeries : Kept → List F
  | .trueRange => S.trueRangeValues
  | .dailyReturns => S.dailyReturnValues
  | .atr period => S.wilder S.trueRangeValues period
  | .oscillator family part => S.oscillatorPart (S.oscillatorLine family) part
  | .directional kind period => S.directionalSeries period (S.wilder S.trueRangeValues period) kind

end PreparedFeatureStore

section
variable {F : Type} [NumPy F] {S T : PreparedFeatureStore F} (h : SamePast S T n)
variable {Φ : FeatureCaches F → FeatureCaches F → Prop}
include h

theorem Shared.oscillatorLine (family : OscillatorFamily) :
    Shared S T n (S.oscillatorLine family) (T.oscillatorLine family) := by
  cases family with
  | macd => exact .macdLine h
  | ppo => exact .ppoLine h (.closes h)
  | pvo => exact .ppoLine h (.column h _)

theorem Related.realizedVolatility
    (hbuild : Related Φ (Shared S T n) S.dailyReturns T.dailyReturns) (window : ℕ) :
    Related Φ (Shared S T n) (S.realizedVolatility window) (T.realizedVolatility window) :=
  hbuild.bind fun _ _ hx => .pure ((Shared.inclusiveRolling h hx window .std).map _)

theorem Related.returnRatio (hbuild : Related Φ (Shared S T n) S.dailyReturns T.dailyReturns)
    (window : ℕ) (downside : Bool) :
    Related Φ (Shared S T n) (S.returnRatio window downside) (T.returnRatio window downside) := by
  refine hbuild.bind fun _ _ hx => .pure ?_
  have hmean := Shared.inclusiveRolling h hx window .avg
  cases downside with
  | true => exact hmean.zipWith ((Shared.inclusiveRolling h (hx.map _) window .avg).map _) _
  | false => exact hmean.zipWith (Shared.inclusiveRolling h hx window .std) _

/-- A catalog metric is as much shared as what it calls: the arithmetic around the calls is causal. -/
theorem Related.catalogSeries {ms ms' : String → Build F (List F)} (entry : CatalogMetric)
    (hcalls : ∀ name ∈ entry.calls, Related Φ (Shared S T n) (ms name) (ms' name))
    (hbuild : ∀ kept ∈ entry.builders, Related Φ (Shared S T n) (S.build kept) (T.build kept)) :
    Related Φ (Shared S T n) (S.catalogSeries ms entry) (T.catalogSeries ms' entry) := by
  cases entry with
  | periodReturn window => exact .pure (.periodReturn h window)
  | skipMonthMomentum => exact .pure (.skipMonthMomentum h)
  | sma window => exact .pure (.inclusiveRolling h (.closes h) window .avg)
  | ema period => exact .pure (.ema h (.closes h) period)
  | closeToHigh window =>
    exact .pure ((Shared.closes h).zipWith (.inclusiveRolling h (.closes h) window .max) _)
  | sharpe window => exact Related.returnRatio h (hbuild .dailyReturns (.head _)) window false
  | sortino window => exact Related.returnRatio h (hbuild .dailyReturns (.head _)) window true
  | returnVolRatio window =>
    have hvolatility := Related.realizedVolatility h (hbuild .dailyReturns (.head _)) window
    exact hvolatility.bind fun _ _ hx => .pure ((Shared.periodReturn h window).zipWith hx _)
  | priceVolumeScore window =>
    exact .pure ((Shared.periodReturn h window).zipWith (.volumeRatio h 20) _)
  | momentumBlend =>
    have hshort := (Shared.periodReturn h 63).zipWith (.periodReturn h 126)
      fun a b => decimal 5 1 * a + decimal 3 1 * b
    exact .pure (hshort.zipWith ((Shared.periodReturn h 252).map _) _)
  | macd part => exact hbuild (.oscillator .macd part) (.head _)
  | ppo part => exact hbuild (.oscillator .ppo part) (.head _)
  | directional kind period => exact hbuild (.directional kind period) (.head _)
  | aroon side window => exact .pure (.aroon h side window)
  | regression kind window => exact .pure (.regression h (.closes h) window kind)
  | efficiencyRatio window => exact .pure (.efficiencyRatio h window)
  | trix period => exact .pure (.trix h period)
  | trixSignal => exact (hcalls _ (.head _)).bind fun _ _ hx => .pure (.ema h hx 9)
  | supertrendDirection =>
    exact (hbuild (.atr 10) (.head _)).bind fun _ _ hx => .pure (.supertrendDirection h _ hx)
  | donchian high window =>
    cases high with
    | true => exact .pure (.priorRolling h (.column h _) window .max)
    | false => exact .pure (.priorRolling h (.column h _) window .min)
  | bollinger part window => exact .pure (.bollinger h window part)
  | keltner upper period =>
    exact (hbuild (.atr 10) (.head _)).bind fun _ _ hx =>
      .pure ((Shared.ema h (.closes h) period).zipWith hx _)
  | atrExpansion period =>
    refine (hbuild .trueRange (.head _)).bind fun _ _ hx => ?_
    exact (hbuild (.atr period) (.tail _ (.head _))).bind fun _ _ hy => .pure (hx.zipWith hy _)
  | atrTrailingFloor window =>
    refine (hcalls _ (.head _)).bind fun _ _ hx => ?_
    exact (hbuild (.atr window) (.head _)).bind fun _ _ hy => .pure (hx.zipWith hy _)
  | squeezeBreakout =>
    refine (hcalls "bollinger_width_20" (.head _)).bind fun _ _ hx => ?_
    refine (hcalls "donchian_high_20" (.tail _ (.head _))).bind fun _ _ hy => .pure ?_
    exact (hx.zip (.priorRolling h hx 120 .avg)).zipWith ((Shared.closes h).zip hy) _
  | nr7Breakout => exact .pure (.nr7Breakout h)
  | insideBarBreakout => exact .pure (.insideBarBreakout h)
  | outsideBarContinuation => exact .pure (.outsideBarContinuation h)
  | gapPct => exact .pure (.gapPct h)
  | gapUpVolumeBreakout =>
    exact (hcalls _ (.head _)).bind fun _ _ hx =>
      .pure ((Shared.bars h).zipWith (hx.zip (.volumeRatio h 20)) _)
  | rangeExpansionBreakout =>
    refine (hcalls "atr_expansion_20" (.head _)).bind fun _ _ hx => ?_
    exact (hcalls "donchian_high_20" (.tail _ (.head _))).bind fun _ _ hy =>
      .pure ((Shared.bars h).zipWith (hx.zip hy) _)
  | priceZscore window => exact .pure (.priceZscore h window)
  | stochK window => exact .pure (.stochastic h window)
  | stochD => exact (hcalls _ (.head _)).bind fun _ _ hx => .pure (.inclusiveRolling h hx 3 .avg)
  | williamsR window => exact .pure (.williamsR h window)
  | cci window => exact .pure (.cci h window)
  | mfi window => exact .pure (.mfi h window)
  | closeToVwap window => exact .pure ((Shared.closes h).zipWith (.vwap h window) _)
  | lossStreak => exact .pure (.lossStreak h)
  | obv => exact .pure (.obv h)
  | obvSlope window =>
    exact (hcalls _ (.head _)).bind fun _ _ hx => .pure (.regression h hx window .slopeRaw)
  | cmf window => exact .pure (.cmf h window)
  | adl => exact .pure (.adl h)
  | adlSlope window =>
    exact (hcalls _ (.head _)).bind fun _ _ hx => .pure (.regression h hx window .slopeRaw)
  | volumeIndex positive => exact .pure (.volumeIndex h positive)
  | volumeIndexSma positive =>
    exact (hcalls _ (.head _)).bind fun _ _ hx => .pure (.inclusiveRolling h hx 100 .avg)
  | trendGap positive =>
    refine (hcalls _ (.head _)).bind fun _ _ hx => ?_
    exact (hcalls _ (.tail _ (.head _))).bind fun _ _ hy => .pure (hx.zipWith hy _)
  | forceIndex period => exact .pure (.forceIndex h period)
  | eom window => exact .pure (.eom h window)
  | pvo part => exact hbuild (.oscillator .pvo part) (.head _)
  | ulcerIndex window => exact .pure (.ulcerIndex h window)
  | drawdown window => exact .pure (.drawdown h window)
  | drawdownRecovery window =>
    exact (hcalls _ (.head _)).bind fun _ _ hx =>
      .pure ((Shared.periodReturn h 20).zipWith (hx.map NumPy.abs) _)

end
end QuantAgent.Features
