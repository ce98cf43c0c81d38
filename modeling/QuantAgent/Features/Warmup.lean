import QuantAgent.Features.Template
import QuantAgent.Features.MetricCalls
import QuantAgent.Lib.StripLower

namespace QuantAgent.Features
set_option autoImplicit true

theorem normalName_normalName (name : String) : normalName (normalName name) = normalName name := by
  rw [normalName, normalName, pyStrip_pyLower, pyStrip_pyStrip, pyLower_pyLower]

/-- A row key names itself. -/
theorem canonicalMetric_canonicalMetric (name : String) :
    canonicalMetric (canonicalMetric name) = canonicalMetric name := by
  have htables : ∀ e ∈ percentScaled ++ aliases, canonicalMetric e.2 = e.2 := by decide +kernel
  rcases canonicalMetric_cases name with h | h
  · have hself : canonicalMetric (normalName name) = canonicalMetric name := by
      unfold canonicalMetric
      rw [normalName_normalName]
    rw [h, hself, h]
  · unfold StandsFor at h
    generalize canonicalMetric name = key at h ⊢
    generalize percentScaled ++ aliases = tables at h htables
    exact htables (normalName name, key) h

theorem movingAverageSpec_canonicalMetric (name : String) :
    movingAverageSpec (canonicalMetric name) = movingAverageSpec name := by
  rw [movingAverageSpec, movingAverageSpec, canonicalMetric_canonicalMetric]

/-- The bars a catalog metric looks back over that its name does not say. -/
def CatalogMetric.fixedLookbacks : CatalogMetric → List ℕ
  | .skipMonthMomentum => [252]
  | .priceVolumeScore _ => [20]
  | .momentumBlend => [63, 126, 252]
  | .macd _ | .ppo _ | .pvo _ => [12, 26]
  | .trixSignal => [15]
  | .supertrendDirection | .keltner _ _ => [10]
  | .squeezeBreakout => [20, 120]
  | .nr7Breakout => [7]
  | .insideBarBreakout => [2]
  | .outsideBarContinuation | .gapPct => [1]
  | .gapUpVolumeBreakout | .rangeExpansionBreakout | .drawdownRecovery _ => [20]
  | .stochD => [14]
  | .volumeIndexSma _ | .trendGap _ => [100]
  | .ulcerIndex window => [window]
  | _ => []

def CatalogMetric.lookbacks (metric : CatalogMetric) : List ℕ :=
  metric.window.toList ++ metric.fixedLookbacks

/-- The windows of the expressions of `_DERIVED`. -/
def derivedLookbacks (metric : String) : List ℕ :=
  if metric = "high_252" ∨ metric = "low_252" then [252]
  else if metric = "close_to_sma20" ∨ metric = "close_to_sma200" then []
  else [20]

def averageLookbacks (metric : String) : List ℕ := ((movingAverageSpec metric).map Prod.snd).toList

/-- The windows a series of the feature store looks back over, under a bound on nested names. -/
def seriesLookbacks : ℕ → String → List ℕ
  | 0, _ => []
  | depth + 1, metric =>
    match derivedSeriesSpec metric with
    | some (.realizedVolatility window) => [window]
    | some (.relativeStrength window) => [window]
    | some (.percentile base) => seriesLookbacks depth base
    | none => (if metric ∈ derivedMetrics then derivedLookbacks metric else []) ++
        averageLookbacks metric ++ ((catalogMetric? metric).map CatalogMetric.lookbacks).getD []

/-- The windows of a name that `derived_series_spec` knows. -/
def storeLookbacks (metric : String) : List ℕ := seriesLookbacks (metric.length + 1) metric

/-- The windows of the expressions of `_BOOLEAN_EXPRESSIONS`. -/
def flagLookback (name : String) : ℕ :=
  if name = "breakout_high" then 252
  else if name = "breakout_high_20" then 20
  else if name = "close_below_lower_band_recent" then 5
  else 2

/-- The history windows an expression reads. -/
def SeriesExpr.lookbacks : SeriesExpr → List ℕ
  | .current _ | .filed _ | .missing => []
  | .derived metric => derivedLookbacks metric
  | .unbound metric => storeLookbacks metric
  | .average _ window | .reduce _ _ window | .closes window | .closesBefore window => [window]
  | .previous _ => [1]
  | .indicator metric => averageLookbacks metric

def ValueExpr.lookbacks {F : Type} : ValueExpr F → List ℕ
  | .series expr => expr.lookbacks
  | .literal _ => []
  | .scaled expr _ => expr.lookbacks

def TestExpr.lookbacks {F : Type} : TestExpr F → List ℕ
  | .flag name _ => [flagLookback name]
  | .levels _ _ _ => []
  | .streak _ count => [count]
  | .between _ value _ => value.lookbacks
  | .compare left _ right => left.lookbacks ++ right.lookbacks
  | .cross _ left right previousLeft previousRight =>
    left.lookbacks ++ right.lookbacks ++ previousLeft.lookbacks ++ previousRight.lookbacks

def RankFilter.lookbacks {F : Type} (cut : RankFilter F) : List ℕ :=
  if (derivedSeriesSpec cut.metric).isSome then storeLookbacks cut.metric
  else averageLookbacks cut.metric

def CompiledConditions.lookbacks {F : Type} (compiled : CompiledConditions F) : List ℕ :=
  compiled.perStock.flatMap TestExpr.lookbacks ++ compiled.rankFilters.flatMap RankFilter.lookbacks

section Declared
variable {F : Type} [NumPy F]

/-- The bars a condition asks for by its fields and by the averages it names. -/
def declaredBars (condition : Condition F) : ℕ :=
  max (condition.window.getD 1) (max (condition.consecutive.getD 1) (movingAverageWarmup condition))

/-- The windows of an operand that come from the tables of derived metrics. -/
def operandLookbacks (metric : String) (window : Option ℕ) (aggregate : Option Aggregate) : List ℕ :=
  if window.isSome ∧ aggregate.isSome then []
  else
    let metric := canonicalMetric metric
    if metric ∈ financialMetrics then []
    else if metric ∈ derivedMetrics then derivedLookbacks metric
    else if (derivedSeriesSpec metric).isSome then storeLookbacks metric
    else []

/-- The windows of a condition that its fields do not say. -/
def tableLookbacks (condition : Condition F) : List ℕ :=
  match rankFilter condition with
  | some cut => if (derivedSeriesSpec cut.metric).isSome then storeLookbacks cut.metric else []
  | none =>
    if normalName condition.left ∈ booleanExpressions then [flagLookback (normalName condition.left)]
    else if (booleanComparison condition.left).isSome ∨ condition.consecutive.isSome then []
    else
      match condition.right with
      | .metric right => operandLookbacks condition.left none none ++
          operandLookbacks right condition.window condition.aggregate
      | _ => operandLookbacks condition.left condition.window condition.aggregate

/-- The windows the compiled form of one condition reads. -/
def conditionLookbacks (condition : Condition F) : List ℕ :=
  match rankFilter condition with
  | some cut => cut.lookbacks
  | none => ((compileOne condition).map TestExpr.lookbacks).getD []

theorem averageLookbacks_le {condition : Condition F} {metric : String}
    (h : metric = condition.left ∨ condition.right = .metric metric)
    (hn : n ∈ averageLookbacks (canonicalMetric metric)) : n ≤ declaredBars condition := by
  rw [averageLookbacks, movingAverageSpec_canonicalMetric] at hn
  have hwarmup : n ≤ movingAverageWarmup condition := by
    unfold movingAverageWarmup
    cases hspec : movingAverageSpec metric with
    | none =>
      rw [hspec] at hn
      cases hn
    | some spec =>
      obtain ⟨kind, window⟩ := spec
      rw [hspec] at hn
      obtain rfl := List.mem_singleton.mp hn
      rcases h with rfl | hright
      · cases condition.right <;> simp [hspec]
      · rw [hright]
        simp [hspec]
  exact hwarmup.trans ((le_max_right _ _).trans (le_max_right _ _))

theorem window_le {condition : Condition F} (h : condition.window = some n) :
    n ≤ declaredBars condition := by
  rw [declaredBars, h]
  exact le_max_left _ _

/-- What an operand without a window compiles to. -/
inductive BareSeries (metric : String) : SeriesExpr → Prop where
  | filed (h : metric ∈ financialMetrics) : BareSeries metric (.filed metric)
  | derived (hfiled : metric ∉ financialMetrics) (h : metric ∈ derivedMetrics) :
    BareSeries metric (.derived metric)
  | unbound (hfiled : metric ∉ financialMetrics) (hderived : metric ∉ derivedMetrics)
    (h : (derivedSeriesSpec metric).isSome = true) : BareSeries metric (.unbound metric)
  | current (hfiled : metric ∉ financialMetrics) (hderived : metric ∉ derivedMetrics)
    (hspec : ¬ (derivedSeriesSpec metric).isSome = true) (h : metric ∈ currentMetrics) :
    BareSeries metric (.current metric)
  | closes (hfiled : metric ∉ financialMetrics) (hderived : metric ∉ derivedMetrics)
    (hspec : ¬ (derivedSeriesSpec metric).isSome = true)
    (h : movingAverageSpec metric = some (.sma, window)) : BareSeries metric (.closes window)
  | indicator (hfiled : metric ∉ financialMetrics) (hderived : metric ∉ derivedMetrics)
    (hspec : ¬ (derivedSeriesSpec metric).isSome = true)
    (h : movingAverageSpec metric = some (.ema, window)) : BareSeries metric (.indicator metric)

theorem seriesValue_bare {metric : String} {window : Option ℕ} {aggregate : Option Aggregate}
    {expr : SeriesExpr} (hbare : ¬ (window.isSome = true ∧ aggregate.isSome = true))
    (h : seriesValue metric window aggregate = some expr) :
    BareSeries (canonicalMetric metric) expr := by
  have hform : seriesValue metric window aggregate = seriesValue metric none none := by
    cases window with
    | none => rfl
    | some w =>
      cases aggregate with
      | none => rfl
      | some a => exact absurd ⟨rfl, rfl⟩ hbare
  rw [hform] at h
  unfold seriesValue at h
  generalize canonicalMetric metric = metric at h ⊢
  dsimp only at h
  by_cases hfiled : metric ∈ financialMetrics
  · rw [if_pos hfiled] at h
    cases h
    exact .filed hfiled
  by_cases hderived : metric ∈ derivedMetrics
  · rw [if_neg hfiled, if_pos hderived] at h
    cases h
    exact .derived hfiled hderived
  by_cases hspec : (derivedSeriesSpec metric).isSome = true
  · rw [if_neg hfiled, if_neg hderived, if_pos hspec] at h
    cases h
    exact .unbound hfiled hderived hspec
  by_cases hcurrent : metric ∈ currentMetrics
  · rw [if_neg hfiled, if_neg hderived, if_neg hspec, if_pos hcurrent] at h
    cases h
    exact .current hfiled hderived hspec hcurrent
  rw [if_neg hfiled, if_neg hderived, if_neg hspec, if_neg hcurrent] at h
  cases haverage : movingAverageSpec metric with
  | none =>
    rw [haverage] at h
    cases h
  | some spec =>
    obtain ⟨kind, window⟩ := spec
    rw [haverage] at h
    cases kind with
    | sma =>
      cases h
      exact .closes hfiled hderived hspec haverage
    | ema =>
      cases h
      exact .indicator hfiled hderived hspec haverage

theorem seriesValue_windowed {metric : String} {window : ℕ} {aggregate : Aggregate} {expr : SeriesExpr}
    (h : seriesValue metric (some window) (some aggregate) = some expr) :
    expr.lookbacks = [window] ∨ expr.lookbacks = [1] := by
  unfold seriesValue at h
  dsimp only at h
  by_cases hmem : canonicalMetric metric ∈ historyMetrics
  · rw [if_pos hmem] at h
    cases aggregate with
    | avg | max | min | sum =>
      cases h
      exact .inl rfl
    | last =>
      cases h
      exact .inr rfl
  · rw [if_neg hmem] at h
    cases h

/-- What an operand reads is declared, or comes from the tables. -/
theorem seriesValue_lookbacks {condition : Condition F} {metric : String} {window : Option ℕ}
    {aggregate : Option Aggregate} {expr : SeriesExpr}
    (hname : metric = condition.left ∨ condition.right = .metric metric)
    (hwindow : ∀ w ∈ window, condition.window = some w)
    (h : seriesValue metric window aggregate = some expr) :
    (∀ n ∈ expr.lookbacks, n ≤ declaredBars condition ∨ n ∈ operandLookbacks metric window aggregate) ∧
      ∀ n ∈ operandLookbacks metric window aggregate, n ∈ expr.lookbacks := by
  by_cases hbare : window.isSome = true ∧ aggregate.isSome = true
  · have htable : operandLookbacks metric window aggregate = [] := if_pos hbare
    rw [htable]
    obtain ⟨w, rfl⟩ := Option.isSome_iff_exists.mp hbare.1
    obtain ⟨a, rfl⟩ := Option.isSome_iff_exists.mp hbare.2
    have hw := window_le (hwindow w rfl)
    have hpos := condition.window_pos w (hwindow w rfl)
    refine ⟨fun n hn => .inl ?_, nofun⟩
    rcases seriesValue_windowed h with hlook | hlook
    · rw [hlook, List.mem_singleton] at hn
      rwa [hn]
    · rw [hlook, List.mem_singleton] at hn
      rw [hn]
      exact hpos.trans_le hw
  · have hexpr := seriesValue_bare hbare h
    have haverage := fun n => averageLookbacks_le (n := n) hname
    unfold operandLookbacks
    rw [if_neg hbare]
    generalize canonicalMetric metric = metric at hexpr haverage ⊢
    dsimp only
    cases hexpr with
    | filed hfiled =>
      rw [if_pos hfiled]
      exact ⟨nofun, nofun⟩
    | derived hfiled hderived =>
      rw [if_neg hfiled, if_pos hderived]
      exact ⟨fun n hn => .inr hn, fun n hn => hn⟩
    | unbound hfiled hderived hspec =>
      rw [if_neg hfiled, if_neg hderived, if_pos hspec]
      exact ⟨fun n hn => .inr hn, fun n hn => hn⟩
    | current hfiled hderived hspec =>
      rw [if_neg hfiled, if_neg hderived, if_neg hspec]
      exact ⟨nofun, nofun⟩
    | closes hfiled hderived hspec hwindow =>
      rw [if_neg hfiled, if_neg hderived, if_neg hspec]
      refine ⟨fun n hn => .inl (haverage n ?_), nofun⟩
      rw [averageLookbacks, hwindow]
      exact hn
    | indicator hfiled hderived hspec hwindow =>
      rw [if_neg hfiled, if_neg hderived, if_neg hspec]
      exact ⟨fun n hn => .inl (haverage n hn), nofun⟩

theorem one_le_declaredBars (condition : Condition F) : 1 ≤ declaredBars condition := by
  unfold declaredBars
  cases hwindow : condition.window with
  | none => exact le_max_left _ _
  | some w => exact (condition.window_pos w hwindow).trans_le (le_max_left _ _)

theorem previousSeriesValue_lookbacks {condition : Condition F} {metric : String}
    (hname : metric = condition.left ∨ condition.right = .metric metric) :
    ∀ n ∈ (previousSeriesValue metric).lookbacks, n ≤ declaredBars condition := by
  intro n hn
  have haverage := averageLookbacks_le (n := n) hname
  unfold previousSeriesValue at hn
  generalize canonicalMetric metric = metric at hn haverage
  dsimp only at hn
  by_cases hhistory : metric ∈ historyMetrics
  · rw [if_pos hhistory] at hn
    obtain rfl := List.mem_singleton.mp hn
    exact one_le_declaredBars condition
  · rw [if_neg hhistory] at hn
    cases hspec : movingAverageSpec metric with
    | none =>
      rw [hspec] at hn
      cases hn
    | some spec =>
      obtain ⟨kind, window⟩ := spec
      rw [hspec] at hn
      cases kind with
      | ema => cases hn
      | sma =>
        apply haverage
        rw [averageLookbacks, hspec]
        exact hn

omit [NumPy F] in
@[simp] theorem ValueExpr.lookbacks_scale (factor : Option F) (expr : SeriesExpr) :
    (ValueExpr.scale factor (.series expr)).lookbacks = expr.lookbacks := by
  cases factor <;> rfl

/-- What a condition reads is declared, or comes from the tables; and all of the tables is read. -/
structure ReadsDeclared (condition : Condition F) (reads : List ℕ) : Prop where
  declared : ∀ n ∈ reads, n ≤ declaredBars condition ∨ n ∈ tableLookbacks condition
  tables : ∀ n ∈ tableLookbacks condition, n ∈ reads

theorem rankFilter_metric {condition : Condition F} {cut : RankFilter F}
    (h : rankFilter condition = some cut) : cut.metric = canonicalMetric condition.left := by
  unfold rankFilter at h
  obtain ⟨pct, -, h⟩ := Option.bind_eq_some_iff.mp h
  generalize canonicalMetric condition.left = metric at h ⊢
  dsimp only at h
  by_cases hknown : metric ∈ currentMetrics ∨ (derivedSeriesSpec metric).isSome = true ∨
      (movingAverageSpec metric).isSome = true
  · rw [if_pos hknown] at h
    cases h
    rfl
  · rw [if_neg hknown] at h
    cases h

theorem readsDeclared_rank {condition : Condition F} {cut : RankFilter F}
    (h : rankFilter condition = some cut) : ReadsDeclared condition cut.lookbacks := by
  have htables : tableLookbacks condition =
      if (derivedSeriesSpec cut.metric).isSome then storeLookbacks cut.metric else [] := by
    unfold tableLookbacks
    rw [h]
  unfold RankFilter.lookbacks
  by_cases hspec : (derivedSeriesSpec cut.metric).isSome = true
  · rw [if_pos hspec] at htables ⊢
    exact ⟨fun n hn => .inr (htables ▸ hn), fun n hn => htables ▸ hn⟩
  · rw [if_neg hspec] at htables ⊢
    rw [rankFilter_metric h]
    exact ⟨fun n hn => .inl (averageLookbacks_le (.inl rfl) hn), fun n hn => by
      rw [htables] at hn
      cases hn⟩

/-- The tables of a condition that is neither a cut, nor a flag, nor a streak. -/
theorem tableLookbacks_plain {condition : Condition F} (hrank : rankFilter condition = none)
    (hflag : normalName condition.left ∉ booleanExpressions)
    (hlevels : booleanComparison condition.left = none) (hstreak : condition.consecutive = none) :
    tableLookbacks condition =
      match condition.right with
      | .metric right => operandLookbacks condition.left none none ++
          operandLookbacks right condition.window condition.aggregate
      | _ => operandLookbacks condition.left condition.window condition.aggregate := by
  unfold tableLookbacks
  rw [hrank]
  dsimp only
  rw [if_neg hflag, if_neg (by rw [hlevels, hstreak]; exact not_or_intro Bool.false_ne_true Bool.false_ne_true)]

section Plain
variable {condition : Condition F} (htables : tableLookbacks condition =
  match condition.right with
  | .metric right => operandLookbacks condition.left none none ++
      operandLookbacks right condition.window condition.aggregate
  | _ => operandLookbacks condition.left condition.window condition.aggregate)
include htables

/-- A comparison with another metric, or with what it was a bar before. -/
theorem readsDeclared_metric {right : String} {left' right' : SeriesExpr} {m : List ℕ}
    (hright : condition.right = .metric right)
    (hl : seriesValue condition.left none none = some left')
    (hr : seriesValue right condition.window condition.aggregate = some right')
    (hmore : ∀ n ∈ m, n ≤ declaredBars condition) :
    ReadsDeclared condition (left'.lookbacks ++ right'.lookbacks ++ m) := by
  have hleft := seriesValue_lookbacks (.inl rfl) (fun _ hw => by cases hw) hl
  have hother := seriesValue_lookbacks (.inr hright) (fun _ hw => hw) hr
  rw [hright] at htables
  dsimp only at htables
  constructor
  · intro n hn
    rw [htables, List.mem_append]
    rcases List.mem_append.mp hn with hn | hn
    · rcases List.mem_append.mp hn with hn | hn
      · exact (hleft.1 n hn).imp_right .inl
      · exact (hother.1 n hn).imp_right .inr
    · exact .inl (hmore n hn)
  · intro n hn
    rw [htables, List.mem_append] at hn
    apply List.mem_append_left
    rcases hn with hn | hn
    · exact List.mem_append_left _ (hleft.2 n hn)
    · exact List.mem_append_right _ (hother.2 n hn)

/-- A comparison with a number or with a band. -/
theorem readsDeclared_number {left' : SeriesExpr} (hright : ∀ right, condition.right ≠ .metric right)
    (hl : seriesValue condition.left condition.window condition.aggregate = some left') :
    ReadsDeclared condition left'.lookbacks := by
  have hleft := seriesValue_lookbacks (.inl rfl) (fun _ hw => hw) hl
  have hform : tableLookbacks condition =
      operandLookbacks condition.left condition.window condition.aggregate := by
    rw [htables]
    cases hcase : condition.right with
    | metric right => exact absurd hcase (hright right)
    | number x => rfl
    | band values => rfl
  exact ⟨fun n hn => hform ▸ hleft.1 n hn, fun n hn => hleft.2 n (hform ▸ hn)⟩

theorem readsDeclared_cross {test : TestExpr F} (h : compileCross condition = some test) :
    ReadsDeclared condition test.lookbacks := by
  unfold compileCross at h
  cases hright : condition.right with
  | number x =>
    rw [hright] at h
    cases h
  | band values =>
    rw [hright] at h
    cases h
  | metric right =>
    rw [hright] at h
    dsimp only at h
    obtain ⟨left', hl, h⟩ := Option.bind_eq_some_iff.mp h
    obtain ⟨right', hr, h⟩ := Option.bind_eq_some_iff.mp h
    cases h
    rw [TestExpr.lookbacks, ValueExpr.lookbacks_scale, ValueExpr.lookbacks_scale, List.append_assoc]
    apply readsDeclared_metric htables hright hl hr
    intro n hn
    rcases List.mem_append.mp hn with hn | hn
    · exact previousSeriesValue_lookbacks (.inl rfl) n hn
    · exact previousSeriesValue_lookbacks (.inr hright) n hn

theorem readsDeclared_compare {left right : ValueExpr F} {operator : ConditionOperator}
    (h : comparisonOperands condition = some (left, right)) :
    ReadsDeclared condition
      (TestExpr.compare left operator (ValueExpr.scale condition.scale right)).lookbacks := by
  unfold comparisonOperands at h
  cases hright : condition.right with
  | band values =>
    rw [hright] at h
    cases h
  | number x =>
    rw [hright] at h
    dsimp only at h
    obtain ⟨left', hl, h⟩ := Option.bind_eq_some_iff.mp h
    cases h
    have hreads := readsDeclared_number htables (fun right heq => by rw [hright] at heq; cases heq) hl
    have hliteral : ∀ factor : Option F, (ValueExpr.scale factor
        (ValueExpr.literal (x * percentScale condition.left))).lookbacks = [] ∨
        (ValueExpr.scale factor (ValueExpr.literal (x * percentScale condition.left))).lookbacks = [] := by
      intro factor
      cases factor <;> exact .inl rfl
    rw [TestExpr.lookbacks, ((or_self_iff).mp (hliteral _)), List.append_nil]
    exact hreads
  | metric right =>
    rw [hright] at h
    dsimp only at h
    obtain ⟨left', hl, h⟩ := Option.bind_eq_some_iff.mp h
    obtain ⟨right', hr, h⟩ := Option.bind_eq_some_iff.mp h
    cases h
    have hreads := readsDeclared_metric (m := []) htables hright hl hr nofun
    rw [List.append_nil] at hreads
    rw [TestExpr.lookbacks, ValueExpr.lookbacks_scale]
    exact hreads

end Plain

theorem readsDeclared_test {condition : Condition F} {test : TestExpr F}
    (hrank : rankFilter condition = none) (h : compileOne condition = some test) :
    ReadsDeclared condition test.lookbacks := by
  unfold compileOne at h
  dsimp only at h
  by_cases hflag : normalName condition.left ∈ booleanExpressions
  · rw [if_pos hflag] at h
    obtain ⟨asserted, -, rfl⟩ := Option.map_eq_some_iff.mp h
    have htables : tableLookbacks condition = [flagLookback (normalName condition.left)] := by
      unfold tableLookbacks
      rw [hrank]
      exact if_pos hflag
    constructor
    · intro n hn
      rw [htables]
      exact .inr hn
    · intro n hn
      rwa [htables] at hn
  rw [if_neg hflag] at h
  cases hlevels : booleanComparison condition.left with
  | some rule =>
    obtain ⟨left, comparison, right⟩ := rule
    rw [hlevels] at h
    dsimp only at h
    obtain ⟨asserted, -, h⟩ := Option.bind_eq_some_iff.mp h
    have htables : tableLookbacks condition = [] := by
      unfold tableLookbacks
      rw [hrank]
      dsimp only
      rw [if_neg hflag, if_pos (.inl (by rw [hlevels]; rfl))]
    by_cases hmem : left ∈ currentMetrics ∧ right ∈ currentMetrics
    · rw [if_pos hmem] at h
      cases h
      exact ⟨nofun, fun n hn => by rw [htables] at hn; cases hn⟩
    · rw [if_neg hmem] at h
      cases h
  | none =>
    rw [hlevels] at h
    dsimp only at h
    cases hstreak : condition.consecutive with
    | some count =>
      rw [hstreak] at h
      dsimp only at h
      have htables : tableLookbacks condition = [] := by
        unfold tableLookbacks
        rw [hrank]
        dsimp only
        rw [if_neg hflag, if_pos (.inr (by rw [hstreak]; rfl))]
      have hcount : count ≤ declaredBars condition := by
        rw [declaredBars, hstreak]
        exact (le_max_left _ _).trans (le_max_right _ _)
      have hform : ∀ metric, test = .streak metric count → ReadsDeclared condition test.lookbacks := by
        rintro metric rfl
        refine ⟨fun n hn => .inl ?_, fun n hn => by rw [htables] at hn; cases hn⟩
        rwa [List.mem_singleton.mp hn]
      generalize canonicalMetric condition.left = metric at h
      by_cases hmem : metric ∈ streakMetrics
      · rw [if_pos hmem] at h
        cases hoperator : condition.operator with
        | gt | gte =>
          rw [hoperator] at h
          exact hform metric (Option.some.inj h).symm
        | lt | lte | eq | ne | between | crossAbove | crossBelow =>
          rw [hoperator] at h
          cases h
      · rw [if_neg hmem] at h
        cases h
    | none =>
      rw [hstreak] at h
      dsimp only at h
      have htables := tableLookbacks_plain hrank hflag hlevels hstreak
      by_cases hpct : condition.universeRankPct.isSome = true
      · rw [if_pos hpct] at h
        cases h
      rw [if_neg hpct] at h
      cases hoperator : condition.operator with
      | between =>
        rw [hoperator] at h
        dsimp only at h
        obtain ⟨value, hl, h⟩ := Option.bind_eq_some_iff.mp h
        obtain ⟨bounds, -, h⟩ := Option.bind_eq_some_iff.mp h
        cases h
        apply readsDeclared_number htables _ hl
        intro right hright
        have hshape := condition.right_shape
        rw [hoperator, hright] at hshape
        exact hshape
      | crossAbove | crossBelow =>
        rw [hoperator] at h
        exact readsDeclared_cross htables h
      | lt | lte | gt | gte | eq | ne =>
        rw [hoperator] at h
        dsimp only at h
        obtain ⟨⟨left, right⟩, hsides, h⟩ := Option.bind_eq_some_iff.mp h
        cases h
        exact readsDeclared_compare htables hsides

theorem conditionLookbacks_declared {condition : Condition F} (h : Translatable condition) :
    ReadsDeclared condition (conditionLookbacks condition) := by
  unfold conditionLookbacks
  cases hrank : rankFilter condition with
  | some cut => exact readsDeclared_rank hrank
  | none =>
    rw [Translatable, hrank] at h
    obtain ⟨test, htest⟩ := Option.isSome_iff_exists.mp (h.resolve_left Bool.false_ne_true)
    rw [htest]
    exact readsDeclared_test hrank htest

end Declared

section Recent
variable {F : Type}

theorem lastN_lastN (h : k ≤ n) (l : List F) : lastN k (lastN n l) = lastN k l := by
  rw [lastN, lastN, lastN, List.drop_drop, List.length_drop]
  congr 1
  omega

theorem fromEnd_lastN (h : k ≤ n) (hk : 0 < k) (l : List F) : fromEnd (lastN n l) k = fromEnd l k := by
  have hreverse : (lastN n l).reverse = l.reverse.take n := by
    rw [lastN, List.reverse_drop]
    rcases le_total n l.length with hn | hn
    · rw [Nat.sub_sub_self hn]
    · rw [Nat.sub_eq_zero_of_le hn, Nat.sub_zero, List.take_of_length_le (List.length_reverse.le),
        List.take_of_length_le (List.length_reverse.le.trans hn)]
  rw [fromEnd, fromEnd, hreverse, List.getElem?_take_of_lt (by omega)]

variable [NumPy F] (bar : SignalBar F)

/-- The bar with no more than the last `n` bars before it. -/
def SignalBar.recent (n : ℕ) : SignalBar F :=
  { bar with
    hist := ⟨lastN n bar.hist.opens, lastN n bar.hist.highs, lastN n bar.hist.lows,
      lastN n bar.hist.closes, lastN n bar.hist.volumes⟩ }

omit [NumPy F] in
theorem SignalBar.history_recent (n : ℕ) (metric : String) :
    (bar.recent n).history metric = lastN n (bar.history metric) := by
  unfold SignalBar.history
  split_ifs <;> rfl

theorem SignalBar.derived_recent {metric : String} (h : ∀ k ∈ derivedLookbacks metric, k ≤ n) :
    (bar.recent n).derived metric = bar.derived metric := by
  have hhighs : lastN n bar.hist.highs = (bar.recent n).hist.highs := rfl
  have hlows : lastN n bar.hist.lows = (bar.recent n).hist.lows := rfl
  have hvolumes : lastN n bar.hist.volumes = (bar.recent n).hist.volumes := rfl
  unfold derivedLookbacks at h
  unfold SignalBar.derived
  rw [← hhighs, ← hlows, ← hvolumes]
  by_cases hhigh : metric = "high_252"
  · rw [if_pos hhigh, if_pos hhigh]
    rw [if_pos (.inl hhigh)] at h
    rw [lastN_lastN (h 252 (List.mem_singleton_self _))]
  by_cases hlow : metric = "low_252"
  · rw [if_neg hhigh, if_neg hhigh, if_pos hlow, if_pos hlow]
    rw [if_pos (.inr hlow)] at h
    rw [lastN_lastN (h 252 (List.mem_singleton_self _))]
  rw [if_neg hhigh, if_neg hhigh, if_neg hlow, if_neg hlow]
  by_cases hsma20 : metric = "close_to_sma20"
  · rw [if_pos hsma20, if_pos hsma20]
    rfl
  by_cases hsma200 : metric = "close_to_sma200"
  · rw [if_neg hsma20, if_neg hsma20, if_pos hsma200, if_pos hsma200]
    rfl
  rw [if_neg hsma20, if_neg hsma20, if_neg hsma200, if_neg hsma200]
  rw [if_neg (not_or_intro hhigh hlow), if_neg (not_or_intro hsma20 hsma200)] at h
  rw [lastN_lastN (h 20 (List.mem_singleton_self _))]
  rfl

/-- An expression reads no more bars than its windows say. -/
theorem SignalBar.series_recent {expr : SeriesExpr} (h : ∀ k ∈ expr.lookbacks, k ≤ n) :
    (bar.recent n).series expr = bar.series expr := by
  have hcloses : (bar.recent n).hist.closes = lastN n bar.hist.closes := rfl
  cases expr with
  | current metric => rfl
  | filed metric => rfl
  | unbound metric => rfl
  | indicator metric => rfl
  | missing => rfl
  | derived metric => rw [SignalBar.series, SignalBar.series, bar.derived_recent h]
  | average metric window =>
    rw [SignalBar.series, SignalBar.series, bar.history_recent,
      lastN_lastN (h window (List.mem_singleton_self _))]
  | previous metric =>
    rw [SignalBar.series, SignalBar.series, bar.history_recent,
      fromEnd_lastN (h 1 (List.mem_singleton_self _)) one_pos]
  | reduce aggregate metric window =>
    have hwindow := lastN_lastN (h window (List.mem_singleton_self _)) (bar.history metric)
    cases aggregate <;> simp only [SignalBar.series, bar.history_recent, hwindow]
  | closes window =>
    have hwindow := h window (List.mem_singleton_self _)
    rw [SignalBar.series, SignalBar.series, hcloses,
      lastN_lastN ((Nat.sub_le window 1).trans hwindow)]
    rfl
  | closesBefore window =>
    rw [SignalBar.series, SignalBar.series, hcloses, lastN_lastN (h window (List.mem_singleton_self _))]

theorem SignalBar.value_recent {expr : ValueExpr F} (h : ∀ k ∈ expr.lookbacks, k ≤ n) :
    (bar.recent n).value expr = bar.value expr := by
  induction expr with
  | series expr => exact bar.series_recent h
  | literal x => rfl
  | scaled expr factor ih =>
    rw [SignalBar.value, SignalBar.value, ih h]

theorem SignalBar.flag_recent {name : String} (h : flagLookback name ≤ n) :
    (bar.recent n).flag name = bar.flag name := by
  have hbreakout : ∀ window ≤ n,
      SignalBar.flag.breakout (bar.recent n) window = SignalBar.flag.breakout bar window := by
    intro window hwindow
    have hhighs : (bar.recent n).hist.highs = lastN n bar.hist.highs := rfl
    rw [SignalBar.flag.breakout, SignalBar.flag.breakout, hhighs, lastN_lastN hwindow]
    rfl
  have hcrossed : 2 ≤ n → ∀ above level, (bar.recent n).crossed above level = bar.crossed above level := by
    intro hn above level
    have hcloses : (bar.recent n).hist.closes = lastN n bar.hist.closes := rfl
    rw [SignalBar.crossed, SignalBar.crossed, hcloses, fromEnd_lastN hn two_pos]
    rfl
  unfold flagLookback at h
  unfold SignalBar.flag
  by_cases hyear : name = "breakout_high"
  · rw [if_pos hyear, if_pos hyear]
    rw [if_pos hyear] at h
    exact hbreakout 252 h
  rw [if_neg hyear, if_neg hyear]
  rw [if_neg hyear] at h
  by_cases hmonth : name = "breakout_high_20"
  · rw [if_pos hmonth, if_pos hmonth]
    rw [if_pos hmonth] at h
    exact hbreakout 20 h
  rw [if_neg hmonth, if_neg hmonth]
  rw [if_neg hmonth] at h
  by_cases hband : name = "close_below_lower_band_recent"
  · rw [if_pos hband, if_pos hband]
    rw [if_pos hband] at h
    have hcloses : (bar.recent n).hist.closes = lastN n bar.hist.closes := rfl
    rw [hcloses, lastN_lastN h]
    rfl
  rw [if_neg hband, if_neg hband]
  rw [if_neg hband] at h
  split_ifs <;> exact hcrossed h _ _

/-- A test reads no more bars than its windows say. -/
theorem SignalBar.test_recent {test : TestExpr F} (h : ∀ k ∈ test.lookbacks, k ≤ n) :
    (bar.recent n).test test = bar.test test := by
  cases test with
  | flag name asserted =>
    rw [SignalBar.test, SignalBar.test, bar.flag_recent (h _ (List.mem_singleton_self _))]
  | levels left operator right => rfl
  | streak metric count => rfl
  | between low value high => rw [SignalBar.test, SignalBar.test, bar.series_recent h]
  | compare left operator right =>
    simp only [TestExpr.lookbacks, List.mem_append] at h
    rw [SignalBar.test, SignalBar.test, bar.value_recent fun k hk => h k (.inl hk),
      bar.value_recent fun k hk => h k (.inr hk)]
  | cross above left right previousLeft previousRight =>
    simp only [TestExpr.lookbacks, List.mem_append] at h
    rw [SignalBar.test, SignalBar.test, bar.value_recent fun k hk => h k (.inl (.inl (.inl hk))),
      bar.value_recent fun k hk => h k (.inl (.inl (.inr hk))),
      bar.value_recent fun k hk => h k (.inl (.inr hk)), bar.value_recent fun k hk => h k (.inr hk)]

theorem SignalBar.tests_recent {tests : List (TestExpr F)}
    (h : ∀ k ∈ tests.flatMap TestExpr.lookbacks, k ≤ n) :
    (bar.recent n).tests tests = bar.tests tests := by
  induction tests with
  | nil => rfl
  | cons test tests ih =>
    simp only [List.flatMap_cons, List.mem_append] at h
    rw [SignalBar.tests, SignalBar.tests, bar.test_recent fun k hk => h k (.inl hk),
      ih fun k hk => h k (.inr hk)]

end Recent

section Covered
variable {F : Type} [NumPy F]

/-- The largest window that the conditions of a rule declare. -/
def ruleBars (conditions : List (Condition F)) : ℕ :=
  conditions.foldl (fun bars condition => max bars (declaredBars condition)) 1

theorem CompiledConditions.add_reads {compiled compiled' : CompiledConditions F} {condition : Condition F}
    (h : compiled.add condition = some compiled') :
    compiled'.warmupBars = max compiled.warmupBars (declaredBars condition) ∧
      ∀ n, n ∈ compiled'.lookbacks ↔ n ∈ compiled.lookbacks ∨ n ∈ conditionLookbacks condition := by
  unfold CompiledConditions.add at h
  unfold conditionLookbacks
  dsimp only at h
  cases hrank : rankFilter condition with
  | some cut =>
    rw [hrank] at h
    obtain rfl := Option.some.inj h
    refine ⟨rfl, fun n => ?_⟩
    simp only [CompiledConditions.lookbacks, List.flatMap_append, List.mem_append, List.flatMap_cons,
      List.flatMap_nil, List.append_nil, or_assoc]
  | none =>
    rw [hrank] at h
    obtain ⟨test, htest, rfl⟩ := Option.map_eq_some_iff.mp h
    refine ⟨rfl, fun n => ?_⟩
    simp only [CompiledConditions.lookbacks, List.flatMap_append, List.mem_append, List.flatMap_cons,
      List.flatMap_nil, List.append_nil, htest, Option.map_some, Option.getD_some]
    exact or_right_comm

theorem foldlM_add_reads {conditions : List (Condition F)} {compiled compiled' : CompiledConditions F}
    (h : conditions.foldlM CompiledConditions.add compiled = some compiled') :
    compiled'.warmupBars =
        conditions.foldl (fun bars condition => max bars (declaredBars condition)) compiled.warmupBars ∧
      ∀ n, n ∈ compiled'.lookbacks ↔
        n ∈ compiled.lookbacks ∨ ∃ condition ∈ conditions, n ∈ conditionLookbacks condition := by
  induction conditions generalizing compiled with
  | nil =>
    cases h
    exact ⟨rfl, fun n => by simp⟩
  | cons condition conditions ih =>
    rw [List.foldlM_cons] at h
    obtain ⟨next, hadd, hrest⟩ := Option.bind_eq_some_iff.mp h
    obtain ⟨hbars, hreads⟩ := CompiledConditions.add_reads hadd
    obtain ⟨hbars', hreads'⟩ := ih hrest
    refine ⟨by rw [hbars', hbars, List.foldl_cons], fun n => ?_⟩
    rw [hreads' n, hreads n, List.exists_mem_cons_iff, or_assoc]

theorem le_foldl_max (f : α → ℕ) (l : List α) (start : ℕ) :
    start ≤ l.foldl (fun bars a => max bars (f a)) start ∧
      ∀ a ∈ l, f a ≤ l.foldl (fun bars a => max bars (f a)) start := by
  induction l generalizing start with
  | nil => exact ⟨le_refl _, nofun⟩
  | cons a l ih =>
    rw [List.foldl_cons]
    obtain ⟨hstart, hrest⟩ := ih (max start (f a))
    refine ⟨(le_max_left _ _).trans hstart, ?_⟩
    rw [List.forall_mem_cons]
    exact ⟨(le_max_right _ _).trans hstart, hrest⟩

theorem declaredBars_le_foldl {conditions : List (Condition F)} (bars : ℕ) :
    bars ≤ conditions.foldl (fun bars condition => max bars (declaredBars condition)) bars ∧
      ∀ condition ∈ conditions, declaredBars condition ≤
        conditions.foldl (fun bars condition => max bars (declaredBars condition)) bars :=
  le_foldl_max declaredBars conditions bars

/-- The warm-up of a compiled rule reaches over every window the rule reads: the rule is not evaluated
on less, and nothing older decides it. -/
structure WarmedUp (compiled : CompiledConditions F) : Prop where
  windows : ∀ n ∈ compiled.lookbacks, n ≤ compiled.warmupBars
  short : ∀ bar : SignalBar F, (∃ n ∈ compiled.lookbacks, bar.hist.closes.length < n) →
    bar.entryOk compiled = .ok false
  enough : ∀ bar : SignalBar F,
    (bar.recent compiled.warmupBars).tests compiled.perStock = bar.tests compiled.perStock

theorem WarmedUp.of_windows {compiled : CompiledConditions F}
    (h : ∀ n ∈ compiled.lookbacks, n ≤ compiled.warmupBars) : WarmedUp compiled where
  windows := h
  short := by
    rintro bar ⟨n, hn, hshort⟩
    exact if_pos (hshort.trans_le (h n hn))
  enough bar := bar.tests_recent fun n hn => h n (List.mem_append_left _ hn)

end Covered

theorem bareCondition_unranked : ∀ x ∈ (none : Option (Flt ℚ)), 0 < x ∧ x ≤ 1 := unranked

/-- A plain comparison, with nothing else said. -/
def bareCondition (left : String) (operator : ConditionOperator) (right : Operand (Flt ℚ))
    (hleft : left ≠ "") (hright : rightShape operator right) : Condition (Flt ℚ) where
  left
  operator
  right
  window := none
  aggregate := none
  scale := none
  consecutive := none
  universeRankPct := none
  left_ne := hleft
  right_shape := hright
  window_pos := pos_of_none
  consecutive_pos := pos_of_none
  rank_pos := bareCondition_unranked

/-- `sma20 cross_above sma60` -/
def goldenCross : Condition (Flt ℚ) :=
  bareCondition "sma20" .crossAbove (.metric "sma60") (by decide) trivial

/-- `breakout_high == 1` -/
def breakoutHigh : Condition (Flt ℚ) :=
  bareCondition "breakout_high" .eq (.number 1) (by decide) trivial

/-- The third bar of a stock, at its third day's high. -/
def thirdBar : SignalBar (Flt ℚ) :=
  ⟨Dict.empty, .num 100, .num 102, .num 99, .num 102, .num 1000,
    ⟨[.num 100, .num 100], [.num 101, .num 101], [.num 99, .num 99], [.num 100, .num 100],
      [.num 1000, .num 1000]⟩⟩

end QuantAgent.Features
