import QuantAgent.Features.Series

namespace QuantAgent.Features
set_option autoImplicit true

/-- The three series one crossover indicator comes with. -/
inductive Oscillator where
  | line
  | signal
  | hist
deriving DecidableEq

inductive Directional where
  | adx
  | plusDi
  | minusDi
deriving DecidableEq

inductive BollingerPart where
  | upper
  | lower
  | middle
  | width
  | pct
deriving DecidableEq

/-- The indicators `_catalog_metric_series` derives, by the pattern of their names. -/
inductive CatalogMetric where
  | periodReturn (window : ℕ)
  | skipMonthMomentum
  | sma (window : ℕ)
  | ema (period : ℕ)
  | closeToHigh (window : ℕ)
  | sharpe (window : ℕ)
  | sortino (window : ℕ)
  | returnVolRatio (window : ℕ)
  | priceVolumeScore (window : ℕ)
  | momentumBlend
  | macd (part : Oscillator)
  | ppo (part : Oscillator)
  | directional (kind : Directional) (period : ℕ)
  | aroon (side : AroonSide) (window : ℕ)
  | regression (kind : Regression) (window : ℕ)
  | efficiencyRatio (window : ℕ)
  | trix (period : ℕ)
  | trixSignal
  | supertrendDirection
  | donchian (high : Bool) (window : ℕ)
  | bollinger (part : BollingerPart) (window : ℕ)
  | keltner (upper : Bool) (period : ℕ)
  | atrExpansion (period : ℕ)
  | atrTrailingFloor (window : ℕ)
  | squeezeBreakout
  | nr7Breakout
  | insideBarBreakout
  | outsideBarContinuation
  | gapPct
  | gapUpVolumeBreakout
  | rangeExpansionBreakout
  | priceZscore (window : ℕ)
  | stochK (window : ℕ)
  | stochD
  | williamsR (window : ℕ)
  | cci (window : ℕ)
  | mfi (window : ℕ)
  | closeToVwap (window : ℕ)
  | lossStreak
  | obv
  | obvSlope (window : ℕ)
  | cmf (window : ℕ)
  | adl
  | adlSlope (window : ℕ)
  | volumeIndex (positive : Bool)
  | volumeIndexSma (positive : Bool)
  | trendGap (positive : Bool)
  | forceIndex (period : ℕ)
  | eom (window : ℕ)
  | pvo (part : Oscillator)
  | ulcerIndex (window : ℕ)
  | drawdown (window : ℕ)
  /-- The window as the text of its group, which names the drawdown to read. -/
  | drawdownRecovery (window : String)
deriving DecidableEq

def Oscillator.key (family : String) : Oscillator → String
  | .line => family
  | .signal => family ++ "_signal"
  | .hist => family ++ "_hist"

def Directional.name : Directional → String
  | .adx => "adx"
  | .plusDi => "plus_di"
  | .minusDi => "minus_di"

def Directional.key (kind : Directional) (period : ℕ) : String :=
  kind.name ++ "_" ++ toString period

def volumeIndexName (positive : Bool) : String := if positive then "pvi" else "nvi"

/-- `re.fullmatch(prefix + r"_?(\d+)", name)` -/
def spaced? (front name : String) : Option ℕ :=
  (numbered? front "" name).or (numbered? (front ++ "_") "" name)

/-- A name without a number. -/
def exactly (text : String) (metric : CatalogMetric) (name : String) : Option CatalogMetric :=
  if name = text then some metric else none

/-- A name of a front, a number and a tail. -/
def pattern (front tail : String) (metric : ℕ → CatalogMetric) (name : String) :
    Option CatalogMetric := (numbered? front tail name).map metric

def oscillator (family : String) (metric : Oscillator → CatalogMetric) (name : String) :
    Option CatalogMetric :=
  (exactly family (metric .line) name).or
    ((exactly (family ++ "_signal") (metric .signal) name).or
      (exactly (family ++ "_hist") (metric .hist) name))

def drawdownRecovery? (name : String) : Option CatalogMetric := do
  let digits ← after? "drawdown_recovery_" name.toList
  let _ ← digits? digits
  pure (.drawdownRecovery (String.ofList digits))

/-- The tests of `_catalog_metric_series`, in its order. -/
def catalogPatterns : List (String → Option CatalogMetric) :=
  [pattern "return_" "d" .periodReturn,
    exactly "momentum_12_1" .skipMonthMomentum,
    fun name => (spaced? "sma" name).map .sma,
    fun name => (spaced? "ema" name).map .ema,
    pattern "close_to_high_" "" .closeToHigh,
    pattern "sharpe_" "" .sharpe,
    pattern "sortino_" "" .sortino,
    pattern "return_vol_ratio_" "" .returnVolRatio,
    pattern "price_volume_score_" "" .priceVolumeScore,
    exactly "momentum_blend" .momentumBlend,
    oscillator "macd" .macd,
    oscillator "ppo" .ppo,
    pattern "adx_" "" (.directional .adx),
    pattern "plus_di_" "" (.directional .plusDi),
    pattern "minus_di_" "" (.directional .minusDi),
    pattern "aroon_up_" "" (.aroon .up),
    pattern "aroon_down_" "" (.aroon .down),
    pattern "slope_" "" (.regression .slope),
    pattern "r_squared_" "" (.regression .rSquared),
    pattern "efficiency_ratio_" "" .efficiencyRatio,
    pattern "trix_" "" .trix,
    exactly "trix_signal_9" .trixSignal,
    exactly "supertrend_direction_10_3" .supertrendDirection,
    pattern "donchian_high_" "" (.donchian true),
    pattern "donchian_low_" "" (.donchian false),
    pattern "bollinger_upper_" "" (.bollinger .upper),
    pattern "bollinger_lower_" "" (.bollinger .lower),
    pattern "bollinger_middle_" "" (.bollinger .middle),
    pattern "bollinger_width_" "" (.bollinger .width),
    pattern "bollinger_pct_" "" (.bollinger .pct),
    pattern "keltner_upper_" "" (.keltner true),
    pattern "keltner_lower_" "" (.keltner false),
    pattern "atr_expansion_" "" .atrExpansion,
    pattern "atr_trailing_floor_" "" .atrTrailingFloor,
    exactly "squeeze_breakout" .squeezeBreakout,
    exactly "nr7_breakout" .nr7Breakout,
    exactly "inside_bar_breakout" .insideBarBreakout,
    exactly "outside_bar_continuation" .outsideBarContinuation,
    exactly "gap_pct" .gapPct,
    exactly "gap_up_volume_breakout" .gapUpVolumeBreakout,
    exactly "range_expansion_breakout" .rangeExpansionBreakout,
    pattern "price_zscore_" "" .priceZscore,
    pattern "stoch_k_" "" .stochK,
    exactly "stoch_d_3" .stochD,
    pattern "williams_r_" "" .williamsR,
    pattern "cci_" "" .cci,
    pattern "mfi_" "" .mfi,
    pattern "close_to_vwap_" "" .closeToVwap,
    exactly "loss_streak" .lossStreak,
    exactly "obv" .obv,
    pattern "obv_slope_" "" .obvSlope,
    pattern "cmf_" "" .cmf,
    exactly "adl" .adl,
    pattern "adl_slope_" "" .adlSlope,
    exactly "pvi" (.volumeIndex true),
    exactly "nvi" (.volumeIndex false),
    exactly "pvi_sma_100" (.volumeIndexSma true),
    exactly "nvi_sma_100" (.volumeIndexSma false),
    exactly "pvi_trend_gap" (.trendGap true),
    exactly "nvi_trend_gap" (.trendGap false),
    pattern "force_index_" "" .forceIndex,
    pattern "eom_" "" .eom,
    oscillator "pvo" .pvo,
    pattern "ulcer_index_" "" .ulcerIndex,
    pattern "drawdown_" "" .drawdown,
    drawdownRecovery?]

def catalogMetric? (name : String) : Option CatalogMetric :=
  catalogPatterns.findSome? fun test => test name

/-- The window numpy refuses when it is zero: no slice of that width lines up with the bars. -/
def CatalogMetric.window : CatalogMetric → Option ℕ
  | .periodReturn w | .sma w | .ema w | .closeToHigh w | .sharpe w | .sortino w
  | .returnVolRatio w | .priceVolumeScore w | .directional _ w | .aroon _ w | .regression _ w
  | .efficiencyRatio w | .trix w | .donchian _ w | .bollinger _ w | .keltner _ w
  | .atrExpansion w | .atrTrailingFloor w | .priceZscore w | .stochK w | .williamsR w | .cci w
  | .mfi w | .closeToVwap w | .obvSlope w | .cmf w | .adlSlope w | .forceIndex w | .eom w
  | .drawdown w => some w
  | _ => none

example : catalogMetric? "sma_20" = some (.sma 20) := by decide +kernel

end QuantAgent.Features
