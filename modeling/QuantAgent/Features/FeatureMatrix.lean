import QuantAgent.Features.SharedConditions
import QuantAgent.Features.PriorExtremes

namespace QuantAgent.Features
set_option autoImplicit true

/-- A row of the feature matrix, by the names of its columns. -/
structure FeatureRow (F : Type) where
  ready : Bool
  average : F
  shortAverage : F
  mediumAverage : F
  high : F
  low : F
  previous : F
  trend : F
  mediumReturn : F
  volatility : F
  longAverage : F
  longHigh : F
  longReturn : F
  longDrawdown : F
  rollingSharpe : F
  volumeRatio : F
  returnToVolatility : F
  pullback : F
  momentum12_1 : F
  sma50 : F
  sma200 : F
  realizedVolatility21d : F
  rebalanceEligible : Bool

section Columns
variable {F : Type} [NumPy F]

/-- A row that is not ready: all of it is zero. -/
def FeatureRow.zero : FeatureRow F :=
  ⟨false, 0, 0, 0, 0, 0, 0, 0, 0, 0, 0, 0, 0, 0, 0, 0, 0, 0, 0, 0, 0, 0, false⟩

/-- `np.concatenate(([0.0], np.cumsum(xs)))` -/
def cumulative (xs : List F) : List F := 0 :: npCumsum xs

/-- `np.concatenate(([0], np.cumsum(flags)))` -/
def cumulativeCount (flags : List Bool) : List ℕ :=
  0 :: loopMap (fun s b => (s + Bool.toNat b, s + Bool.toNat b)) 0 flags

/-- `np.isfinite(value) & (value > 0.0)` -/
def usableClose (x : F) : Bool := PyFloat.isFinite x && decide (0 < x)

/-- `_safe_return`, for one value. -/
def safeReturn (value base : F) : F := if base != 0 then value / base - 1 else 0

/-- `_safe_ratio`, for one value. -/
def safeRatio (positive : Bool) (numerator denominator : F) : F :=
  if (if positive then decide (0 < denominator) else denominator != 0) then numerator / denominator else 0

/-- What the cumulative array gains over the `window` entries up to the one at `index`. -/
def gained (cumulated : List F) (window index : ℕ) : F :=
  cumulated.getD (index + 1) 0 - cumulated.getD (index + 1 - window) 0

/-- All of those entries count. -/
def windowFull (counts : List ℕ) (window index : ℕ) : Bool :=
  decide (window ≤ index + 1) &&
    decide (counts.getD (index + 1) 0 - counts.getD (index + 1 - window) 0 = window)

/-- `_rolling_mean`, at one place. -/
def rollingMeanAt (window : ℕ) (closes : List F) (index : ℕ) : F :=
  if windowFull (cumulativeCount (closes.map usableClose)) window index then
    gained (cumulative (closes.map fun x => if usableClose x then x else 0)) window index / lit window
  else NumPy.nan

/-- `momentum_12_1`, at one place. -/
def momentumValue (closes : List F) (index : ℕ) : F :=
  let recent := closes.getD (index - 21) NumPy.nan
  let base := closes.getD (index - 252) NumPy.nan
  if 252 ≤ index ∧ usableClose recent ∧ usableClose base then recent / base - 1 else NumPy.nan

/-- `daily_returns` -/
def usableReturns : List F → List F :=
  fromPrevious NumPy.nan fun before after =>
    if usableClose before && usableClose after then after / before - 1 else NumPy.nan

/-- `realized_volatility_21d`, at one place. -/
def realizedVolatilityAt (closes : List F) (index : ℕ) : F :=
  let dailyReturns := usableReturns closes
  let safeReturns := dailyReturns.map fun x => if PyFloat.isFinite x then x else 0
  if 21 ≤ index ∧ windowFull (cumulativeCount (dailyReturns.map PyFloat.isFinite)) 21 index then
    let mean := gained (cumulative safeReturns) 21 index / lit 21
    let square := gained (cumulative (safeReturns.map fun x => x * x)) 21 index
    NumPy.sqrt (npMaximum 0 (square / lit 21 - mean * mean)) * NumPy.sqrt (lit 252)
  else NumPy.nan

/-- `rebalance_eligible`, at one place. -/
def rebalanceEligibleAt (index : ℕ) : Bool := decide (252 ≤ index ∧ (index - 252) % 21 = 0)

/-- `returns` of `features` -/
def plainReturns : List F → List F := fromPrevious 0 fun before after => safeReturn after before

/-- The rows of a stock that are ready, at one place. -/
def featureRow (lookback : ℕ) (closes volumes : List F) (index : ℕ) : FeatureRow F :=
  let closePrefix := cumulative closes
  let volumePrefix := cumulative volumes
  let returnPrefix := cumulative (plainReturns closes)
  let returnSquarePrefix := cumulative ((plainReturns closes).map fun x => x * x)
  let longLimit := max 60 lookback
  let close := closes.getD index 0
  let mainHigh := (priorRollingExtreme closes lookback true).getD index 0
  let mainLow := (priorRollingExtreme closes lookback false).getD index 0
  let longHigh := (priorRollingExtreme closes longLimit true).getD index 0
  let window := min lookback index
  let start := index - window
  let shortWindow := min (max 3 (window / 4)) index
  let mediumWindow := min (max 5 (window / 2)) index
  let longWindow := min longLimit index
  let sumBefore := fun (sums : List F) (count : ℕ) => sums.getD index 0 - sums.getD (index - count) 0
  let average := sumBefore closePrefix window / lit window
  let trend := safeReturn close (closes.getD start 0)
  let volatility := safeRatio false (mainHigh - mainLow) average
  let returnCount := window - 1
  let meanReturn := if 0 < returnCount then
    (returnPrefix.getD index 0 - returnPrefix.getD (start + 1) 0) / lit returnCount else 0
  let variance := if 0 < returnCount then
    npMaximum 0 ((returnSquarePrefix.getD index 0 - returnSquarePrefix.getD (start + 1) 0) /
      lit returnCount - meanReturn * meanReturn) else 0
  let averageVolume := sumBefore volumePrefix window / lit window
  { ready := true
    average := average
    shortAverage := sumBefore closePrefix shortWindow / lit shortWindow
    mediumAverage := sumBefore closePrefix mediumWindow / lit mediumWindow
    high := mainHigh
    low := mainLow
    previous := closes.getD (index - 1) 0
    trend := trend
    mediumReturn := safeReturn close (closes.getD (index - mediumWindow) 0)
    volatility := volatility
    longAverage := sumBefore closePrefix longWindow / lit longWindow
    longHigh := longHigh
    longReturn := safeReturn close (closes.getD (index - longWindow) 0)
    longDrawdown := safeRatio true (longHigh - close) longHigh
    rollingSharpe := if 0 < variance then meanReturn / NumPy.sqrt variance else 0
    volumeRatio := if 0 < averageVolume then volumes.getD index 0 / averageVolume else 1
    returnToVolatility := safeRatio true trend volatility
    pullback := safeRatio true (mainHigh - close) mainHigh
    momentum12_1 := momentumValue closes index
    sma50 := rollingMeanAt 50 closes index
    sma200 := rollingMeanAt 200 closes index
    realizedVolatility21d := realizedVolatilityAt closes index
    rebalanceEligible := rebalanceEligibleAt index }

/-- The rows of one stock: ready once `lookback` bars lie before them. -/
def featureRows (lookback : ℕ) (bars : List (F × F)) : List (FeatureRow F) :=
  (List.range bars.length).map fun index =>
    if bars.length ≤ 1 ∨ index < lookback then .zero
    else featureRow lookback (bars.map Prod.fst) (bars.map Prod.snd) index

/-- `features` -/
def PreparedFeatureStore.features (S : PreparedFeatureStore F) (lookback : ℕ) : List (FeatureRow F) :=
  scatter .zero S.tickers (featureRows lookback) (S.column fun bar => (bar.close, bar.volume))

end Columns

section Causality

theorem getD_take {g : List α → List β} (hg : Causal g) (l : List α) (fill : β) (hj : j < n) :
    (g (l.take n)).getD j fill = (g l).getD j fill := by
  rw [List.getD_eq_getElem?_getD, List.getD_eq_getElem?_getD, hg.take, List.getElem?_take_of_lt hj]

theorem cons_getD_take {g : List α → List β} (hg : Causal g) (first : β) (l : List α) (fill : β)
    (hj : j ≤ n) : (first :: g (l.take n)).getD j fill = (first :: g l).getD j fill := by
  cases j with
  | zero => rfl
  | succ j => exact getD_take hg l fill hj

variable {F : Type} [NumPy F]

theorem cumulative_take {g : List F → List F} (hg : Causal g) (l : List F) (hj : j ≤ n) :
    (cumulative (g (l.take n))).getD j 0 = (cumulative (g l)).getD j 0 :=
  cons_getD_take ((Causal.loopMap _ _).comp hg) 0 l 0 hj

omit [NumPy F] in
theorem cumulativeCount_take {g : List F → List Bool} (hg : Causal g) (l : List F) (hj : j ≤ n) :
    (cumulativeCount (g (l.take n))).getD j 0 = (cumulativeCount (g l)).getD j 0 :=
  cons_getD_take ((Causal.loopMap _ _).comp hg) 0 l 0 hj

theorem gained_take {g : List F → List F} (hg : Causal g) (l : List F) (window : ℕ) (hi : i < n) :
    gained (cumulative (g (l.take n))) window i = gained (cumulative (g l)) window i := by
  unfold gained
  rw [cumulative_take hg l hi, cumulative_take hg l (by omega)]

omit [NumPy F] in
theorem windowFull_take {g : List F → List Bool} (hg : Causal g) (l : List F) (window : ℕ) (hi : i < n) :
    windowFull (cumulativeCount (g (l.take n))) window i = windowFull (cumulativeCount (g l)) window i := by
  unfold windowFull
  rw [cumulativeCount_take hg l hi, cumulativeCount_take hg l (by omega)]

theorem rollingMeanAt_take (window : ℕ) (closes : List F) (hi : i < n) :
    rollingMeanAt window (closes.take n) i = rollingMeanAt window closes i := by
  unfold rollingMeanAt
  rw [windowFull_take (.map usableClose) closes window hi, gained_take (.map _) closes window hi]

theorem momentumValue_take (closes : List F) (hi : i < n) :
    momentumValue (closes.take n) i = momentumValue closes i := by
  unfold momentumValue
  rw [getD_take Causal.id closes _ (by omega), getD_take Causal.id closes _ (by omega)]

theorem usableReturns_causal : Causal (usableReturns (F := F)) := .fromPrevious _ _

theorem realizedVolatilityAt_take (closes : List F) (hi : i < n) :
    realizedVolatilityAt (closes.take n) i = realizedVolatilityAt closes i := by
  have hsafe : Causal fun closes : List F =>
      (usableReturns closes).map fun x => if PyFloat.isFinite x then x else 0 :=
    (Causal.map _).comp usableReturns_causal
  have hfull := windowFull_take ((Causal.map PyFloat.isFinite).comp usableReturns_causal) closes 21 hi
  have htotal := gained_take hsafe closes 21 hi
  have hsquare := gained_take ((Causal.map fun x => x * x).comp hsafe) closes 21 hi
  unfold realizedVolatilityAt
  dsimp only at hfull htotal hsquare ⊢
  rw [hfull, htotal, hsquare]

theorem plainReturns_causal : Causal (plainReturns (F := F)) := .fromPrevious _ _

theorem priorExtreme_take (maximum : Bool) (closes : List F) {window : ℕ} (hwindow : 0 < window)
    (hi : i < n) (hlength : i < closes.length) :
    (priorRollingExtreme (closes.take n) window maximum).getD i 0 =
      (priorRollingExtreme closes window maximum).getD i 0 := by
  have hshort : i < (closes.take n).length := by
    rw [List.length_take]
    exact lt_min hi hlength
  have hwindow : (0 : ℤ) < window := by exact_mod_cast hwindow
  rw [List.getD_eq_getElem?_getD, List.getD_eq_getElem?_getD]
  cases i with
  | zero =>
    rw [priorRollingExtreme_zero maximum (List.ne_nil_of_length_pos hshort),
      priorRollingExtreme_zero maximum (List.ne_nil_of_length_pos hlength)]
  | succ i =>
    rw [priorRollingExtreme_getElem? maximum hwindow (Nat.succ_pos i) hshort,
      priorRollingExtreme_getElem? maximum hwindow (Nat.succ_pos i) hlength, List.take_take,
      min_eq_left (Nat.le_of_lt hi)]

/-- A ready row is computed from the bars up to its own. -/
theorem featureRow_take {lookback : ℕ} (hlookback : 0 < lookback) (closes volumes : List F) (hi : i < n)
    (hlength : i < closes.length) :
    featureRow lookback (closes.take n) (volumes.take n) i = featureRow lookback closes volumes i := by
  have hid : ∀ (l : List F) {j}, j < n → (l.take n).getD j 0 = l.getD j 0 :=
    fun l _ hj => getD_take Causal.id l 0 hj
  have hsum : ∀ (l : List F) {j}, j ≤ n → (cumulative (l.take n)).getD j 0 = (cumulative l).getD j 0 :=
    fun l _ hj => cumulative_take Causal.id l hj
  have hreturn : ∀ {j}, j ≤ n → (cumulative (plainReturns (closes.take n))).getD j 0 =
      (cumulative (plainReturns closes)).getD j 0 := fun hj => cumulative_take plainReturns_causal closes hj
  have hsquare : ∀ {j}, j ≤ n →
      (cumulative ((plainReturns (closes.take n)).map fun x => x * x)).getD j 0 =
        (cumulative ((plainReturns closes).map fun x => x * x)).getD j 0 :=
    fun hj => cumulative_take ((Causal.map _).comp plainReturns_causal) closes hj
  have hhigh := priorExtreme_take true closes hlookback hi hlength
  have hlow := priorExtreme_take false closes hlookback hi hlength
  have hlong := priorExtreme_take true closes (lt_max_of_lt_right hlookback : 0 < max 60 lookback) hi hlength
  unfold featureRow
  simp (disch := omega) only [hid, hsum, hreturn, hsquare, hhigh, hlow, hlong, momentumValue_take _ hi,
    rollingMeanAt_take _ _ hi, realizedVolatilityAt_take _ hi]

/-- The rows of a stock do not look ahead. -/
theorem featureRows_causal {lookback : ℕ} (hlookback : 0 < lookback) :
    Causal (featureRows (F := F) lookback) where
  length bars := by rw [featureRows, List.length_map, List.length_range]
  take bars n := by
    unfold featureRows
    rw [← List.map_take, List.take_range, List.length_take]
    apply List.map_congr_left
    intro i hi
    have hi : i < min n bars.length := List.mem_range.mp hi
    have hin : i < n := hi.trans_le (min_le_left _ _)
    have hlength : i < bars.length := hi.trans_le (min_le_right _ _)
    have hready : (min n bars.length ≤ 1 ∨ i < lookback) ↔ (bars.length ≤ 1 ∨ i < lookback) := by omega
    by_cases h : bars.length ≤ 1 ∨ i < lookback
    · rw [if_pos h, if_pos (hready.mpr h)]
    · rw [if_neg h, if_neg (hready.not.mpr h), List.map_take, List.map_take,
        featureRow_take hlookback _ _ hin (by rwa [List.length_map])]

theorem Shared.features {S T : PreparedFeatureStore F} (h : SamePast S T n) {lookback : ℕ}
    (hlookback : 0 < lookback) : Shared S T n (S.features lookback) (T.features lookback) :=
  (Shared.column h _).scatter h _ (featureRows_causal hlookback)

end Causality
end QuantAgent.Features
