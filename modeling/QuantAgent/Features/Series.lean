import QuantAgent.Features.Store

namespace QuantAgent.Features
set_option autoImplicit true

section Values
variable {F : Type} [NumPy F]

def allFinite (xs : List F) : Bool := xs.all PyFloat.isFinite

/-- The reductions of `_rolling_from_array`. -/
inductive Reduction where
  | avg
  | sum
  | max
  | min
  | std
deriving DecidableEq

def Reduction.apply : Reduction → List F → F
  | .avg => npMean
  | .sum => NumPy.sum
  | .max => npMax
  | .min => npMin
  | .std => npStd 0

/-- The common loop of `_ema` and `_wilder`: a seed of `period` values in a row, then a recurrence. -/
def smoothed (period : ℕ) (next : F → F → F) : List F → List F :=
  startingAt NumPy.nan (seedAt PyFloat.isFinite period)
    (fun front =>
      let seed := npMean ((front.filter PyFloat.isFinite).take period)
      (seed, seed))
    (fun average value =>
      if PyFloat.isFinite value then (next average value, next average value)
      else (average, NumPy.nan))

def emaValues (period : ℕ) : List F → List F :=
  let alpha := lit 2 / (lit period + 1)
  smoothed period fun ema value => alpha * value + (1 - alpha) * ema

def wilderValues (period : ℕ) : List F → List F :=
  smoothed period fun average value => (average * (lit period - 1) + value) / lit period

def rsiValue (averageGain averageLoss : F) : F :=
  if averageLoss == 0 then if 0 < averageGain then lit 100 else lit 50
  else lit 100 - lit 100 / (1 + averageGain / averageLoss)

/-- The averages of `_rsi_series` and the close before. -/
structure RsiState (F : Type) where
  averageGain : F
  averageLoss : F
  previous : F

def rsiStart (period : ℕ) (closes : List F) : RsiState F × F :=
  let changes := List.zipWith (fun before after => after - before) closes closes.tail
  let averageGain := npMean ((changes.map fun c => npMaximum c 0).take period)
  let averageLoss := npMean ((changes.map fun c => npMaximum (-c) 0).take period)
  (⟨averageGain, averageLoss, closes.getLast?.getD NumPy.nan⟩, rsiValue averageGain averageLoss)

def rsiStep (period : ℕ) (s : RsiState F) (close : F) : RsiState F × F :=
  let change := close - s.previous
  let averageGain := (s.averageGain * (lit period - 1) + npMaximum change 0) / lit period
  let averageLoss := (s.averageLoss * (lit period - 1) + npMaximum (-change) 0) / lit period
  (⟨averageGain, averageLoss, close⟩, rsiValue averageGain averageLoss)

def rsiValues (period : ℕ) : List F → List F :=
  startingAt NumPy.nan (fun closes => if period < closes.length then some period else none)
    (rsiStart period) (rsiStep period)

inductive AroonSide where
  | up
  | down
deriving DecidableEq

def aroonValue (side : AroonSide) (window : List F) : F :=
  let best := match side with
    | .up => npArgBest (fun a b => decide (b < a)) window.reverse
    | .down => npArgBest (fun a b => decide (a < b)) window.reverse
  lit 100 * lit (window.length - 1 - best) / lit (max 1 (window.length - 1))

inductive Regression where
  | slope
  | slopeRaw
  | rSquared
deriving DecidableEq

def regressionValue (kind : Regression) (window : List F) : F :=
  if allFinite window then
    let x := (List.range window.length).map fun i => (lit i : F)
    let centered := x.map fun a => a - npMean x
    let denominator := NumPy.sum (centered.map fun a => a * a)
    let mean := npMean window
    let slope := NumPy.sum (List.zipWith (fun w c => (w - mean) * c) window centered) / denominator
    match kind with
    | .slope => arrayRatio slope mean
    | .slopeRaw => slope
    | .rSquared =>
      let fitted := centered.map fun c => mean + slope * c
      let residual := NumPy.sum (List.zipWith (fun w f => (w - f) * (w - f)) window fitted)
      let total := NumPy.sum (window.map fun w => (w - mean) * (w - mean))
      1 - arrayRatio residual total
  else NumPy.nan

/-- One bar as `_supertrend_direction` reads it. -/
structure Band (F : Type) where
  upper : F
  lower : F
  close : F

/-- The direction so far, and the bands the bar before ended with. -/
structure TrendState (F : Type) where
  direction : F
  previous : Option (Band F)

def supertrendStep (s : TrendState F) (bar : Band F) : TrendState F × F :=
  if PyFloat.isFinite bar.upper then
    match s.previous with
    | none => (⟨s.direction, some bar⟩, s.direction)
    | some before =>
      if PyFloat.isFinite before.upper then
        let upper := if before.close ≤ before.upper then pyMin bar.upper before.upper else bar.upper
        let lower := if before.lower ≤ before.close then pyMax bar.lower before.lower else bar.lower
        let direction :=
          if s.direction < 0 ∧ before.upper < bar.close then 1
          else if 0 < s.direction ∧ bar.close < before.lower then -1
          else s.direction
        (⟨direction, some ⟨upper, lower, bar.close⟩⟩, direction)
      else (⟨s.direction, some bar⟩, s.direction)
  else (⟨s.direction, some bar⟩, NumPy.nan)

/-- `1.0` where a breakout holds. -/
def flag (b : Bool) : F := if b then 1 else 0

/-- One bar as `_nr7_breakout` reads it. -/
structure RangeBar (F : Type) where
  range : F
  close : F
  high : F

def nr7Value (front : List (RangeBar F)) : F :=
  match front.reverse with
  | current :: previous :: earlier =>
    let prior := (previous :: earlier).take 7
    flag (decide (7 ≤ (previous :: earlier).length) &&
      decide (previous.range ≤ npMin (prior.reverse.map RangeBar.range)) &&
      decide (previous.high < current.close))
  | _ => 0

def insideBarValue (front : List (Bar F)) : F :=
  match front.reverse with
  | current :: previous :: before :: _ =>
    flag (decide (previous.high < before.high) && decide (before.low < previous.low) &&
      decide (previous.high < current.close))
  | _ => 0

def cciValue (window : List F) : F :=
  let mean := npMean window
  let deviation := npMean (window.map fun v => NumPy.abs (v - mean))
  arrayRatio (window.getLast?.getD NumPy.nan - mean) (decimal 15 3 * deviation)

def lossStreakStep (s : Option F × ℕ) (close : F) : (Option F × ℕ) × F :=
  match s.1 with
  | none => ((some close, 0), 0)
  | some previous =>
    let streak := if close < previous then s.2 + 1 else 0
    ((some close, streak), lit streak)

/-- A running value beside the close and the volume of the bar before. -/
structure FlowState (F : Type) where
  value : F
  previous : Option (F × F)

def obvStep (s : FlowState F) (bar : F × F) : FlowState F × F :=
  match s.previous with
  | none => (⟨s.value, some bar⟩, s.value)
  | some previous =>
    let value := s.value + npSign (bar.1 - previous.1) * bar.2
    (⟨value, some bar⟩, value)

def volumeIndexStep (positive : Bool) (s : FlowState F) (bar : F × F) : FlowState F × F :=
  match s.previous with
  | none => (⟨s.value, some bar⟩, s.value)
  | some previous =>
    let matches_ := if positive then decide (previous.2 < bar.2) else decide (bar.2 < previous.2)
    let value := if matches_ && previous.1 != 0 then s.value * (bar.1 / previous.1) else s.value
    (⟨value, some bar⟩, value)

def ulcerValue (sample : List F) : F :=
  let drawdowns := List.zipWith (fun v peak => lit 100 * (v / peak - 1)) sample
    (npMaximumAccumulate sample)
  NumPy.sqrt (npMean (drawdowns.map fun d => d * d))

/-- The annualised deviation of the returns of a window that starts after the first bar. -/
def realizedVolatilityValue (window : ℕ) (returns : List F) : F :=
  let sample := (lastN window returns).filter PyFloat.isFinite
  if window < returns.length ∧ 2 ≤ sample.length then npStd 1 sample * NumPy.sqrt (lit 252)
  else NumPy.nan

/-- What a value has over the mean of its session. -/
def excessOverMean (day : List F) : List F :=
  let finite := day.filter PyFloat.isFinite
  if finite = [] then day.map fun _ => NumPy.nan else day.map fun x => x - npMean finite

/-- `filled[finite_mask] = ranks` -/
def fillFinite : List F → List F → List F
  | [], _ => []
  | x :: day, ranks =>
    if PyFloat.isFinite x then ranks.headD NumPy.nan :: fillFinite day ranks.tail
    else NumPy.nan :: fillFinite day ranks

def percentileRanks (day : List F) : List F :=
  let finite := day.filter PyFloat.isFinite
  if finite.length < 2 then day.map fun _ => NumPy.nan
  else
    let order := NumPy.argsort ((NumPy.argsort finite).map fun i => (lit i : F))
    fillFinite day (order.map fun i => lit i / lit (finite.length - 1))

@[simp] theorem length_excessOverMean (day : List F) : (excessOverMean day).length = day.length := by
  by_cases h : day.filter PyFloat.isFinite = [] <;> simp [excessOverMean, h]

@[simp] theorem length_fillFinite (day ranks : List F) :
    (fillFinite day ranks).length = day.length := by
  induction day generalizing ranks with
  | nil => rfl
  | cons x day ih =>
    unfold fillFinite
    split <;> simp [ih]

@[simp] theorem length_percentileRanks (day : List F) : (percentileRanks day).length = day.length := by
  by_cases h : (day.filter PyFloat.isFinite).length < 2 <;> simp [percentileRanks, h]

/-- The sum and mean branch of `_rolling_metric` at the last bar of `front`. -/
def windowTotal (average : Bool) (window : ℕ) (front : List F) : F :=
  let values := front.map fun v => if PyFloat.isFinite v then v else 0
  let totals := 0 :: npCumsum values
  let counts := fun k => ((front.take k).filter PyFloat.isFinite).length
  let last := front.length - 1
  let begin := last - window
  let count := counts last - counts begin
  if window ≤ last ∧ count ≠ 0 then
    let total := totals.getD last 0 - totals.getD begin 0
    if average then total / lit count else total
  else NumPy.nan

/-- The candidates of the deque with their places, oldest first, and where the loop stands. -/
structure DequeState (F : Type) where
  candidates : List (ℕ × F)
  previous : Option F
  place : ℕ

/-- `while candidates and values[candidates[-1]] <= v: candidates.pop()`, for either order. -/
def popBack (drop : F → Bool) (candidates : List (ℕ × F)) : List (ℕ × F) :=
  (candidates.reverse.dropWhile fun c => drop c.2).reverse

def pushPrevious (aggregate : Aggregate) (s : DequeState F) : List (ℕ × F) :=
  match s.previous with
  | none => s.candidates
  | some v =>
    if PyFloat.isFinite v then
      let kept := match aggregate with
        | .max => popBack (fun x => decide (x ≤ v)) s.candidates
        | .min => popBack (fun x => decide (v ≤ x)) s.candidates
        | _ => s.candidates
      kept ++ [(s.place - 1, v)]
    else s.candidates

def windowExtremeStep (aggregate : Aggregate) (window : ℕ) (s : DequeState F) (value : F) :
    DequeState F × F :=
  let candidates := (pushPrevious aggregate s).dropWhile fun c => decide (c.1 + window < s.place)
  let selected := if aggregate = .last then candidates.getLast? else candidates.head?
  (⟨candidates, some value, s.place + 1⟩,
    match selected with
    | none => NumPy.nan
    | some c => if aggregate ≠ .last ∧ s.place < window then NumPy.nan else c.2)

/-- `_rolling_metric` over the values of one ticker: only bars before the current one. -/
def rollingMetricValues (window : ℕ) : Aggregate → List F → List F
  | .avg => prefixMap (windowTotal true window)
  | .sum => prefixMap (windowTotal false window)
  | aggregate => loopMap (windowExtremeStep aggregate window) ⟨[], none, 0⟩

theorem rollingMetricValues_causal (window : ℕ) (aggregate : Aggregate) :
    Causal (rollingMetricValues (F := F) window aggregate) := by
  cases aggregate with
  | avg => exact .prefixMap _
  | sum => exact .prefixMap _
  | max => exact .loopMap _ _
  | min => exact .loopMap _ _
  | last => exact .loopMap _ _

theorem smoothed_causal (period : ℕ) (next : F → F → F) : Causal (smoothed period next) :=
  .startingAt (.seedAt _ _) _ _ _

theorem emaValues_causal (period : ℕ) : Causal (emaValues (F := F) period) := smoothed_causal _ _

theorem wilderValues_causal (period : ℕ) : Causal (wilderValues (F := F) period) :=
  smoothed_causal _ _

theorem rsiValues_causal (period : ℕ) : Causal (rsiValues (F := F) period) :=
  .startingAt (.fixed _) _ _ _

end Values

end QuantAgent.Features
