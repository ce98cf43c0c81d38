import QuantAgent.WalkForward.Metrics
import QuantAgent.Lib.Drawdown
import QuantAgent.Lib.ExactFloat
import QuantAgent.Lib.PyDate

namespace QuantAgent.WalkForward
set_option autoImplicit true

/-- `date.toordinal` -/
def toOrdinal (d : PyDate) : ℕ :=
  let before := d.year - 1
  before * 365 + before / 4 - before / 100 + before / 400 +
    ((List.range (d.month - 1)).map fun month => daysInMonth d.year (month + 1)).sum + d.day

/-- A point of the engine's own equity curve. -/
structure EnginePoint (F : Type) where
  date : String
  cash : F
  positionsValue : F
  totalEquity : F
  dailyReturn : F

/-- The metrics of one run in selection mode; an empty run has no volatility. -/
structure SelectionMetrics (F : Type) where
  totalReturn : F
  cagr : F
  sharpe : F
  sharpeRatio : F
  maxDrawdown : F
  winRate : F
  profitFactor : F
  volatility : Option F
  metricWarnings : List String

section
variable {F : Type} [NumPy F]

/-- `np.divide(equity, peaks, out=np.ones_like(equity), where=peaks != 0) - 1.0` -/
def drawdownSeries (equity : List F) : List F :=
  List.zipWith (fun level peak => (if peak != 0 then level / peak else 1) - 1) equity
    (npMaximumAccumulate equity)

/-- The largest drawdown of a run, before it is rounded. -/
def selectionMaxDrawdown (equityCurve : List (EnginePoint F)) : F :=
  npMin (drawdownSeries (equityCurve.map (·.totalEquity)))

/-- `np.var(values, ddof=1)` -/
def npVar (values : List F) : F :=
  let mean := npMean values
  NumPy.sum (values.map fun x => (x - mean) * (x - mean)) / lit (values.length - 1)

/-- The metrics that only need the returns after the first point. -/
structure ReturnStatistics (F : Type) where
  volatility : F
  sharpe : F
  profitFactor : F
  winRate : F

def returnStatistics (usable : List F) : ReturnStatistics F :=
  let meanReturn := if usable.isEmpty then 0 else npMean usable
  let variance := if 1 < usable.length then npVar usable else 0
  let volatility := NumPy.sqrt variance
  let positive := if usable.isEmpty then 0 else NumPy.sum (usable.filter fun x => 0 < x)
  let negative := if usable.isEmpty then 0 else -NumPy.sum (usable.filter fun x => x < 0)
  { volatility
    sharpe := if 0 < volatility then meanReturn / volatility * NumPy.sqrt (lit 252) else 0
    profitFactor := if 0 < negative then positive / negative else if 0 < positive then 1 else 0
    winRate := if usable.isEmpty then 0
      else lit (usable.countP fun x => 0 < x) / lit usable.length }

variable (pow : F → F → Except PyError F)

/-- The `cagr` of a run, before it is rounded. -/
def compoundGrowth (initial final : F) (elapsedDays : ℤ) : Except PyError F :=
  if 0 < initial ∧ 0 < final then
    (· - 1) <$> pow (final / initial) (lit 365 / PyFloat.ofInt elapsedDays)
  else .ok 0

/-- `_calculate_selection_metrics` -/
def calculateSelectionMetrics (equityCurve : List (EnginePoint F)) :
    Except PyError (SelectionMetrics F) :=
  match equityCurve with
  | [] => .ok ⟨0, 0, 0, 0, 0, 0, 0, none, []⟩
  | first :: later => do
    let last := later.getLast?.getD first
    let initial := first.totalEquity
    let final := last.totalEquity
    let totalReturn := if initial != 0 then final / initial - 1 else 0
    let statistics := returnStatistics (later.map (·.dailyReturn))
    let maxDrawdown := selectionMaxDrawdown (first :: later)
    let lastDate ← PyDate.fromIsoFormat last.date
    let firstDate ← PyDate.fromIsoFormat first.date
    let elapsedDays := max 1 ((toOrdinal lastDate : ℤ) - toOrdinal firstDate)
    let cagr ← compoundGrowth pow initial final elapsedDays
    return {
      totalReturn := PyFloat.round 10 totalReturn
      cagr := PyFloat.round 10 cagr
      sharpe := PyFloat.round 10 statistics.sharpe
      sharpeRatio := PyFloat.round 10 statistics.sharpe
      maxDrawdown := PyFloat.round 10 maxDrawdown
      winRate := PyFloat.round 10 statistics.winRate
      profitFactor := PyFloat.round 10 statistics.profitFactor
      volatility := some (PyFloat.round 10 (statistics.volatility * NumPy.sqrt (lit 252)))
      metricWarnings := [] }

theorem calculateSelectionMetrics_maxDrawdown {equityCurve : List (EnginePoint F)} {metrics : SelectionMetrics F} (hne : equityCurve ≠ [])
    (h : calculateSelectionMetrics pow equityCurve = .ok metrics) :
    metrics.maxDrawdown = PyFloat.round 10 (selectionMaxDrawdown equityCurve) := by
  cases equityCurve with
  | nil => cases hne rfl
  | cons first later =>
    rw [calculateSelectionMetrics] at h
    obtain ⟨lastDate, _, h⟩ := bind_ok_iff.mp h
    obtain ⟨firstDate, _, h⟩ := bind_ok_iff.mp h
    obtain ⟨cagr, _, h⟩ := bind_ok_iff.mp h
    cases h
    rfl

end

section Exact
variable [PySqrt ℚ] {seen levels : List ℚ} {peak deepest a x : ℚ}

/-- What the running peak makes of the levels still to come. -/
theorem drawdownSeries_from (levels : List ℚ) (h : DeepestFall seen peak deepest)
    (hpos : ∀ y ∈ seen ++ levels, 0 < y) :
    ∃ peak' deepest', DeepestFall (seen ++ levels) peak' deepest' ∧
      (List.zipWith (fun level peak => (if peak != 0 then level / peak else 1) - 1)
        (levels.map (Flt.num (K := ℚ)))
        (loopMap (fun s y => (npMaximum s y, npMaximum s y)) (.num peak) (levels.map .num))).foldl
          npMinimum (.num deepest) = .num deepest' := by
  induction levels generalizing seen peak deepest with
  | nil =>
    rw [List.append_nil]
    exact ⟨peak, deepest, h, rfl⟩
  | cons x levels ih =>
    rw [List.append_cons] at hpos ⊢
    have hstep := h.concat fun y hy => hpos y (List.mem_append_left _ hy)
    obtain ⟨peak', deepest', hdeepest, hfold⟩ := ih hstep hpos
    refine ⟨peak', deepest', hdeepest, ?_⟩
    have hpeak : max peak x ≠ 0 := by
      have hmem := hstep.peak.1
      exact (hpos _ (List.mem_append_left _ hmem)).ne'
    have hfall : ((if (Flt.num (max peak x) : Flt ℚ) != 0 then .num x / .num (max peak x) else 1) - 1 :
        Flt ℚ) = .num (x / max peak x - 1) := by
      rw [num_bne_zero hpeak, if_pos rfl, num_div _ hpeak]
      rfl
    rw [List.map_cons, loopMap, List.zipWith_cons_cons, List.foldl_cons]
    simp only [npMaximum_num, hfall, npMinimum_num]
    exact hfold

theorem drawdownSeries_min (hpos : ∀ y ∈ a :: levels, 0 < y) :
    ∃ peak deepest, DeepestFall (a :: levels) peak deepest ∧
      npMin (drawdownSeries ((a :: levels).map (Flt.num (K := ℚ)))) = .num deepest := by
  have ha : 0 < a := hpos a (List.mem_cons_self ..)
  obtain ⟨peak, deepest, hdeepest, hfold⟩ :=
    drawdownSeries_from levels (DeepestFall.singleton ha) hpos
  refine ⟨peak, deepest, hdeepest, ?_⟩
  have hfirst : ((if (Flt.num a : Flt ℚ) != 0 then .num a / .num a else 1) - 1 : Flt ℚ) = .num 0 := by
    rw [num_bne_zero ha.ne', if_pos rfl, num_div _ ha.ne', div_self ha.ne']
    exact congrArg Flt.num (sub_self 1)
  rw [drawdownSeries, List.map_cons, npMaximumAccumulate, List.zipWith_cons_cons, npMin, hfirst]
  exact hfold

/-- The returns loop sees the levels divided by the first of them. -/
theorem maxDrawdownFromReturns_from (levels : List ℚ) {base : ℚ} (hbase : 0 < base)
    (h : DeepestFall seen peak deepest) (hpos : ∀ y ∈ seen ++ levels, 0 < y) (ha : 0 < a) :
    ∃ peak' deepest', DeepestFall (seen ++ levels) peak' deepest' ∧
      ((nativeReturnsFromEquityCurve ((a :: levels).map (Flt.num (K := ℚ)))).foldl
        (fun (equity, peak, maxDrawdown) dailyReturn =>
          let equity := equity * (1 + dailyReturn)
          let peak := pyMax peak equity
          (equity, peak, if 0 < peak then pyMin maxDrawdown (equity / peak - 1) else maxDrawdown))
        (.num (a / base), .num (peak / base), .num deepest)).2.2 = .num deepest' := by
  induction levels generalizing seen peak deepest a with
  | nil =>
    rw [List.append_nil]
    exact ⟨peak, deepest, h, rfl⟩
  | cons x levels ih =>
    rw [List.append_cons] at hpos ⊢
    have hx : 0 < x := hpos x (by simp)
    have hstep := h.concat fun y hy => hpos y (List.mem_append_left _ hy)
    obtain ⟨peak', deepest', hdeepest, hfold⟩ := ih hstep hpos hx
    refine ⟨peak', deepest', hdeepest, ?_⟩
    have hpeak : 0 < max peak x := hx.trans_le (le_max_right _ _)
    have hreturns : nativeReturnsFromEquityCurve ((a :: x :: levels).map (Flt.num (K := ℚ))) =
        .num (x / a - 1) :: nativeReturnsFromEquityCurve ((x :: levels).map .num) := by
      have hreturn : (Flt.num x / Flt.num a - 1 : Flt ℚ) = .num (x / a - 1) := by
        rw [num_div _ ha.ne']
        rfl
      simp only [nativeReturnsFromEquityCurve, List.map_cons, List.tail_cons, List.zip_cons_cons,
        List.filterMap_cons, num_bne_zero ha.ne', if_true, hreturn]
    have hequity : (Flt.num (a / base) * (1 + Flt.num (x / a - 1)) : Flt ℚ) = .num (x / base) := by
      change Flt.num (a / base * (1 + (x / a - 1))) = _
      congr 1
      field_simp
      ring
    have hscaled : max (peak / base) (x / base) = max peak x / base :=
      (max_div_div_right hbase.le peak x)
    have hratio : x / base / (max peak x / base) = x / max peak x :=
      div_div_div_cancel_right₀ hbase.ne' _ _
    have hpositive : (0 : Flt ℚ) < .num (max peak x / base) := div_pos hpeak hbase
    have hfall : (Flt.num (x / base) / Flt.num (max peak x / base) - 1 : Flt ℚ) =
        .num (x / max peak x - 1) := by
      rw [num_div _ (div_pos hpeak hbase).ne', hratio]
      rfl
    rw [hreturns, List.foldl_cons]
    simp only [hequity, pyMax_num, hscaled, if_pos hpositive, hfall, pyMin_num]
    exact hfold

theorem maxDrawdownFromReturns_min (hpos : ∀ y ∈ a :: levels, 0 < y) :
    ∃ peak deepest, DeepestFall (a :: levels) peak deepest ∧
      maxDrawdownFromReturns (nativeReturnsFromEquityCurve ((a :: levels).map (Flt.num (K := ℚ)))) =
        .num deepest := by
  have ha : 0 < a := hpos a (List.mem_cons_self ..)
  obtain ⟨peak, deepest, hdeepest, hfold⟩ :=
    maxDrawdownFromReturns_from levels ha (DeepestFall.singleton ha) hpos ha
  rw [div_self ha.ne'] at hfold
  exact ⟨peak, deepest, hdeepest, hfold⟩

/-- The running peak, the compounded returns and the definition by pairs give one drawdown. -/
theorem maxDrawdown_eq_pairs (pow : Flt ℚ → Flt ℚ → Except PyError (Flt ℚ))
    {equityCurve : List (EnginePoint (Flt ℚ))} {equity : List ℚ} (hne : equity ≠ [])
    (hpos : ∀ x ∈ equity, 0 < x)
    (hequity : equityCurve.map (·.totalEquity) = equity.map (Flt.num (K := ℚ))) :
    ∃ m : ℚ, IsLeast (drawdowns equity) m ∧ m ≤ 0 ∧
      selectionMaxDrawdown equityCurve = .num m ∧
      (∀ metrics, calculateSelectionMetrics pow equityCurve = .ok metrics →
        metrics.maxDrawdown = PyFloat.round 10 (.num m)) ∧
      maxDrawdownFromReturns (nativeReturnsFromEquityCurve (equity.map (Flt.num (K := ℚ)))) =
        .num m := by
  cases equity with
  | nil => cases hne rfl
  | cons a levels =>
    obtain ⟨peak, m, hdeepest, hseries⟩ := drawdownSeries_min hpos
    obtain ⟨peak', m', hdeepest', hreturns⟩ := maxDrawdownFromReturns_min hpos
    have hsame : m' = m := hdeepest'.least.unique hdeepest.least
    have hselection : selectionMaxDrawdown equityCurve = .num m := by
      rw [selectionMaxDrawdown, hequity, hseries]
    have hcurve : equityCurve ≠ [] := by
      rintro rfl
      cases hequity
    refine ⟨m, hdeepest.least, hdeepest.nonpos hpos, hselection, ?_, hsame ▸ hreturns⟩
    intro metrics hmetrics
    rw [calculateSelectionMetrics_maxDrawdown pow hcurve hmetrics, hselection]

end Exact

/-- A fall from 120 to 90, after which the curve recovers. -/
theorem maxDrawdown_eq_pairs_recovered :
    ∃ m : ℚ, IsLeast (drawdowns [100, 120, 90, 130]) m ∧ m ≤ 0 ∧
      selectionMaxDrawdown ([("2024-01-02", 100), ("2024-01-03", 120), ("2024-01-04", 90),
        ("2024-01-05", 130)].map fun (date, level) =>
          (⟨date, 0, .num level, .num level, 0⟩ : EnginePoint (Flt ℚ))) = .num m ∧
      (∀ metrics, calculateSelectionMetrics (fun base _ => .ok base)
        ([("2024-01-02", 100), ("2024-01-03", 120), ("2024-01-04", 90),
          ("2024-01-05", 130)].map fun (date, level) =>
            (⟨date, 0, .num level, .num level, 0⟩ : EnginePoint (Flt ℚ))) = .ok metrics →
        metrics.maxDrawdown = PyFloat.round 10 (.num m)) ∧
      maxDrawdownFromReturns (nativeReturnsFromEquityCurve
        ([100, 120, 90, 130].map (Flt.num (K := ℚ)))) = .num m :=
  maxDrawdown_eq_pairs (fun base _ => .ok base) (by simp) (by simp) rfl

end QuantAgent.WalkForward
