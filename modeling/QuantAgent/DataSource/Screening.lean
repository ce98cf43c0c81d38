import QuantAgent.Lib.RoundedFloat
import QuantAgent.Lib.NumPy
import QuantAgent.Lib.Dict

namespace QuantAgent.DataSource
set_option autoImplicit true

open Rounded (ofRat)

/-- A value of a screening row. -/
inductive Column (r : Rounding) where
  | missing
  | flag (b : Bool)
  | number (x : Flt (Rounded r))
  | text (s : String)
  | other

abbrev ScreeningRow (r : Rounding) := Dict String (Column r)

/-- Numeric knobs the screening filter is built from. -/
structure ScreeningThresholds (r : Rounding) where
  high252Ratio : Rounded r := ofRat r 0.995
  volumeRatioMin : Rounded r := ofRat r 1.5
  requireCloseAboveSma20 : Bool := true
  relativeStrength20dMin : Rounded r := ofRat r 0
  relativeStrength60dMin : Rounded r := ofRat r 0
  rsiMax : Rounded r := ofRat r 35
  rsiCrossFloor : Rounded r := ofRat r 30
  rsiMin : Rounded r := ofRat r 70
  sma20Band : Rounded r := ofRat r 0.04
  bbWidthMax : Rounded r := ofRat r 0.18
  bbUpperRatio : Rounded r := ofRat r 0.995
  roeMin : Rounded r := ofRat r 0.08
  debtToEquityMax : Rounded r := ofRat r 2
  operatingMarginMin : Rounded r := ofRat r 0.05
  revenueGrowthMin : Rounded r := ofRat r 0.10

def rsiOverboughtMin : ℚ := 65

def maxScreeningRelaxationRounds : ℕ := 3

variable {r : Rounding}

/-- The declared bounds of a field. -/
def Within (low high : ℚ) (x : Rounded r) : Prop := ofRat r low ≤ x ∧ x ≤ ofRat r high

structure ScreeningThresholds.WithinBounds (t : ScreeningThresholds r) : Prop where
  high252Ratio : Within 0.50 1 t.high252Ratio
  volumeRatioMin : Within 0.5 10 t.volumeRatioMin
  relativeStrength20dMin : Within (-1) 1 t.relativeStrength20dMin
  relativeStrength60dMin : Within (-1) 1 t.relativeStrength60dMin
  rsiMax : Within 5 70 t.rsiMax
  rsiCrossFloor : Within 5 70 t.rsiCrossFloor
  rsiMin : Within 30 95 t.rsiMin
  sma20Band : Within 0.005 0.50 t.sma20Band
  bbWidthMax : Within 0.02 1 t.bbWidthMax
  bbUpperRatio : Within 0.50 1 t.bbUpperRatio
  roeMin : Within (-1) 1 t.roeMin
  debtToEquityMax : Within 0.1 20 t.debtToEquityMax
  operatingMarginMin : Within (-1) 1 t.operatingMarginMin
  revenueGrowthMin : Within (-1) 10 t.revenueGrowthMin

/-- `_clamped` -/
def clamped (value : Rounded r) (low high : ℚ) : Rounded r :=
  value.clamped (ofRat r low) (ofRat r high)

/-- A multiple of a step's number. -/
def stepSize (size : ℚ) (step : ℕ) : Rounded r := ofRat r size * ofRat r step

/-- `_relaxed_thresholds` -/
def relaxedThresholds (base : ScreeningThresholds r) (roundIndex : ℕ) (profile : String) :
    ScreeningThresholds r :=
  let step := roundIndex + 1
  { base with
    high252Ratio := clamped (base.high252Ratio - stepSize 0.02 step) 0.50 1
    volumeRatioMin := clamped (base.volumeRatioMin - stepSize 0.30 step) 0.5 10
    -- set from the number of the round, not from the value before
    requireCloseAboveSma20 := decide (step < 2)
    relativeStrength20dMin := clamped (base.relativeStrength20dMin - stepSize 0.05 step) (-1) 1
    relativeStrength60dMin := clamped (base.relativeStrength60dMin - stepSize 0.05 step) (-1) 1
    sma20Band := clamped (base.sma20Band + stepSize 0.02 step) 0.005 0.50
    bbWidthMax := clamped (base.bbWidthMax + stepSize 0.06 step) 0.02 1
    bbUpperRatio := clamped (base.bbUpperRatio - stepSize 0.02 step) 0.50 1
    roeMin := clamped (base.roeMin - stepSize 0.02 step) (-1) 1
    debtToEquityMax := clamped (base.debtToEquityMax + stepSize 0.5 step) 0.1 20
    operatingMarginMin := clamped (base.operatingMarginMin - stepSize 0.02 step) (-1) 1
    revenueGrowthMin := clamped (base.revenueGrowthMin - stepSize 0.03 step) (-1) 10
    rsiMin := if profile = "rsi_overbought" then
        clamped (base.rsiMin - stepSize 5 step) rsiOverboughtMin 95
      else base.rsiMin
    rsiMax := if profile = "rsi_overbought" then base.rsiMax
      else clamped (base.rsiMax + stepSize 5 step) 5 70 }

abbrev Numeric (r : Rounding) := Option (Flt (Rounded r))

/-- `left >= right`, where a missing operand is no match. -/
def atLeast (left right : Numeric r) : Bool :=
  match left, right with
  | some x, some y => decide (Flt.holds (· ≥ ·) x y)
  | _, _ => false

/-- `_above` -/
def above (left right : Numeric r) : Bool :=
  match left, right with
  | some x, some y => decide (Flt.holds (· > ·) x y)
  | _, _ => false

def scaled (value : Numeric r) (factor : Rounded r) : Numeric r :=
  value.map fun x => Flt.map₂ (· * ·) x (.num factor)

/-- A threshold as an operand. -/
def knob (x : Rounded r) : Numeric r := some (.num x)

section
variable (parseFloat : String → Option (Flt (Rounded r)))

/-- `_numeric` -/
def numeric : Column r → Numeric r
  | .missing => none
  | .flag b => knob (if b then ofRat r 1 else ofRat r 0)
  | .number x => some x
  | .text s => parseFloat s
  | .other => none

/-- `_numeric(row.get(key))` -/
def column (row : ScreeningRow r) (key : String) : Numeric r :=
  numeric parseFloat ((row.get? key).getD .missing)

variable (t : ScreeningThresholds r) (row : ScreeningRow r)

def breakoutVolume : Bool :=
  atLeast (column parseFloat row "close") (scaled (column parseFloat row "high_252") t.high252Ratio) &&
    atLeast (column parseFloat row "volume_ratio_20") (knob t.volumeRatioMin) &&
    (!t.requireCloseAboveSma20 ||
      above (column parseFloat row "close") (column parseFloat row "sma20")) &&
    atLeast (column parseFloat row "relative_strength_20d") (knob t.relativeStrength20dMin)

def rsiRebound : Bool :=
  match column parseFloat row "rsi" with
  | none => false
  | some rsi =>
    atLeast (knob t.rsiMax) (some rsi) ||
      (above (knob t.rsiCrossFloor) (column parseFloat row "prev_rsi") &&
        atLeast (some rsi) (knob t.rsiCrossFloor))

def rsiOverbought : Bool := atLeast (column parseFloat row "rsi") (knob t.rsiMin)

/-- `abs(close / sma20 - 1)` -/
def sma20Distance (close sma20 : Flt (Rounded r)) : Flt (Rounded r) :=
  Flt.map₂ (fun c s => (c / s - ofRat r 1).abs) close sma20

def pullbackTrend : Bool :=
  match column parseFloat row "close", column parseFloat row "sma20" with
  | some close, some sma20 =>
    !atLeast (knob 0) (some sma20) &&
      above (some close) (column parseFloat row "sma200") &&
      atLeast (knob t.sma20Band) (some (sma20Distance close sma20))
  | _, _ => false

def bollingerSqueeze : Bool :=
  match column parseFloat row "bb_width" with
  | none => false
  | some width =>
    !atLeast (knob 0) (some width) && !above (some width) (knob t.bbWidthMax) &&
      atLeast (column parseFloat row "close") (scaled (column parseFloat row "bb_upper") t.bbUpperRatio)

def relativeStrength : Bool :=
  atLeast (column parseFloat row "relative_strength_20d") (knob t.relativeStrength20dMin) &&
    atLeast (column parseFloat row "relative_strength_60d") (knob t.relativeStrength60dMin)

def valueQuality : Bool :=
  atLeast (column parseFloat row "roe") (knob t.roeMin) &&
    atLeast (knob t.debtToEquityMax) (column parseFloat row "debt_to_equity")

def qualityGrowth : Bool :=
  atLeast (column parseFloat row "roe") (knob t.roeMin) &&
    atLeast (column parseFloat row "operating_margin") (knob t.operatingMarginMin) &&
    atLeast (column parseFloat row "revenue_growth_yoy") (knob t.revenueGrowthMin)

def growthMomentum : Bool :=
  atLeast (column parseFloat row "revenue_growth_yoy") (knob t.revenueGrowthMin) &&
    above (column parseFloat row "close") (column parseFloat row "sma50")

/-- `_screening_matcher` -/
def screeningMatcher (profile : String) : Bool :=
  match profile with
  | "breakout_volume" => breakoutVolume parseFloat t row
  | "rsi_rebound" => rsiRebound parseFloat t row
  | "rsi_overbought" => rsiOverbought parseFloat t row
  | "pullback_trend" => pullbackTrend parseFloat t row
  | "bollinger_squeeze" => bollingerSqueeze parseFloat t row
  | "relative_strength" => relativeStrength parseFloat t row
  | "value_quality" => valueQuality parseFloat t row
  | "quality_growth" => qualityGrowth parseFloat t row
  | "growth_momentum" => growthMomentum parseFloat t row
  | _ => above (column parseFloat row "close") (knob 0)

end

/-- An entry of the trace's `rounds`. -/
structure ScreeningRound (r : Rounding) where
  round : ℕ
  relaxed : Bool
  thresholds : ScreeningThresholds r
  matchedCount : ℕ

section
variable (parseFloat : String → Option (Flt (Rounded r))) (profile : String)
  (rows : List (ScreeningRow r)) (candidate : ScreeningRow r → γ)

/-- The loop over the rounds, with the number of rounds still allowed. -/
def relaxationLoop (remaining roundIndex : ℕ) (thresholds : ScreeningThresholds r)
    (rounds : List (ScreeningRound r)) : List γ × List (ScreeningRound r) :=
  let matched := rows.filter fun row => screeningMatcher parseFloat thresholds row profile
  let rounds := rounds ++ [⟨roundIndex, decide (0 < roundIndex), thresholds, matched.length⟩]
  if matched ≠ [] then (matched.map candidate, rounds)
  else match remaining with
    | 0 => ([], rounds)
    | remaining + 1 =>
      relaxationLoop remaining (roundIndex + 1) (relaxedThresholds thresholds roundIndex profile) rounds

def maxRounds (allowScreeningRelaxation : Bool) : ℕ :=
  if allowScreeningRelaxation then maxScreeningRelaxationRounds else 0

/-- The candidates of the screening frame's rows, and the rounds tried. -/
def screenCandidates (allowScreeningRelaxation : Bool) : List γ × List (ScreeningRound r) :=
  relaxationLoop parseFloat profile rows candidate (maxRounds allowScreeningRelaxation) 0 {} []

end

end QuantAgent.DataSource
