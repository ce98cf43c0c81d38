import QuantAgent.Features.Conditions

namespace QuantAgent.Features
set_option autoImplicit true

/-- `_HISTORY` -/
def historyMetrics : List String := ["open", "high", "low", "close", "volume"]

/-- `_FINANCIAL_METRICS` -/
def financialMetrics : List String :=
  ["roe", "debt_to_equity", "operating_margin", "operating_income", "revenue", "per"]

/-- `_CURRENT` -/
def currentMetrics : List String :=
  historyMetrics ++
    ["rsi", "sma20", "sma50", "sma200", "ema20", "ema50", "ema200", "macd", "macd_signal",
      "macd_hist", "adx", "bb_upper", "bb_lower", "bb_middle", "bb_width", "bb_pct", "atr", "natr",
      "mfi", "cci", "willr", "roc", "stoch_k", "stoch_d", "obv", "cmf"] ++
    financialMetrics

/-- `_DERIVED` -/
def derivedMetrics : List String :=
  ["volume_ratio_20", "volume_ratio", "close_to_sma20", "close_to_sma200", "high_252", "low_252"]

/-- `_BOOLEAN_EXPRESSIONS` -/
def booleanExpressions : List String :=
  ["breakout_high", "breakout_high_20", "close_below_lower_band_recent",
    "close_cross_above_lower_band", "close_cross_above_sma20", "close_cross_below_sma20"]

/-- `_STREAK_METRICS` -/
def streakMetrics : List String := ["revenue", "operating_income", "operating_margin", "roe"]

inductive Average where
  | sma
  | ema
deriving DecidableEq, Repr

/-- `front + r"_?(\d{1,3})"` -/
def shortNumber? (front name : String) : Option ℕ := do
  let rest ← after? front name.toList
  let number := (after? "_" rest).getD rest
  if number.length ≤ 3 then digits? number else none

def movingAverageSpec (name : String) : Option (Average × ℕ) := do
  let metric := canonicalMetric name
  let (kind, window) ← ((shortNumber? "sma" metric).map fun n => (Average.sma, n)).or
    ((shortNumber? "ema" metric).map fun n => (Average.ema, n))
  if 2 ≤ window ∧ window ≤ 250 then some (kind, window) else none

/-- The expressions `_series_value` writes; each stands for one source text. -/
inductive SeriesExpr where
  /-- A variable of the template. -/
  | current (metric : String)
  | filed (metric : String)
  | derived (metric : String)
  /-- A series of the feature store, which the template does not bind. -/
  | unbound (metric : String)
  | average (history : String) (window : ℕ)
  | previous (history : String)
  | reduce (aggregate : Aggregate) (history : String) (window : ℕ)
  /-- The mean of the last closes, the current bar's included. -/
  | closes (window : ℕ)
  /-- The mean of the closes before the current bar. -/
  | closesBefore (window : ℕ)
  | indicator (metric : String)
  | missing
deriving DecidableEq

/-- `_series_value` -/
def seriesValue (metric : String) (window : Option ℕ) (aggregate : Option Aggregate) :
    Option SeriesExpr :=
  let metric := canonicalMetric metric
  match window, aggregate with
  | some window, some aggregate =>
    if metric ∈ historyMetrics then
      match aggregate with
      | .avg => some (.average metric window)
      | .last => some (.previous metric)
      | aggregate => some (.reduce aggregate metric window)
    else none
  | _, _ =>
    if metric ∈ financialMetrics then some (.filed metric)
    else if metric ∈ derivedMetrics then some (.derived metric)
    else if (derivedSeriesSpec metric).isSome then some (.unbound metric)
    else if metric ∈ currentMetrics then some (.current metric)
    else
      (movingAverageSpec metric).map fun
        | (.sma, window) => .closes window
        | (.ema, _) => .indicator metric

/-- `_previous_series_value` -/
def previousSeriesValue (metric : String) : SeriesExpr :=
  let metric := canonicalMetric metric
  if metric ∈ historyMetrics then .previous metric
  else
    match movingAverageSpec metric with
    | some (.sma, window) => .closesBefore window
    | _ => .missing

inductive ValueExpr (F : Type) where
  | series (expr : SeriesExpr)
  | literal (x : F)
  | scaled (expr : ValueExpr F) (factor : F)
deriving DecidableEq

/-- The tests `_compile_one` writes. -/
inductive TestExpr (F : Type) where
  | flag (name : String) (asserted : Bool)
  | levels (left : String) (operator : ConditionOperator) (right : String)
  | streak (metric : String) (count : ℕ)
  | between (low : F) (value : SeriesExpr) (high : F)
  | compare (left : ValueExpr F) (operator : ConditionOperator) (right : ValueExpr F)
  | cross (above : Bool) (left right previousLeft previousRight : ValueExpr F)

section Compile
variable {F : Type} [NumPy F]

/-- `_boolean_is_asserted` -/
def booleanIsAsserted (condition : Condition F) : Option Bool :=
  match condition.right with
  | .number x =>
    match condition.operator with
    | .eq | .gte | .gt => some (x != 0)
    | .ne | .lt | .lte => some (!(x != 0))
    | _ => none
  | _ => none

def ValueExpr.scale (factor : Option F) (expr : ValueExpr F) : ValueExpr F :=
  match factor with
  | some factor => .scaled expr factor
  | none => expr

/-- The operands of a plain comparison: `window` and `aggregate` belong to the side that is a series. -/
def comparisonOperands (condition : Condition F) : Option (ValueExpr F × ValueExpr F) :=
  match condition.right with
  | .metric right => do
    let left ← seriesValue condition.left none none
    let right ← seriesValue right condition.window condition.aggregate
    pure (.series left, .series right)
  | .number right => do
    let left ← seriesValue condition.left condition.window condition.aggregate
    pure (.series left, .literal (right * percentScale condition.left))
  | .band _ => none

/-- `_compile_cross` -/
def compileCross (condition : Condition F) : Option (TestExpr F) :=
  match condition.right with
  | .metric metric => do
    let left ← seriesValue condition.left none none
    let right ← seriesValue metric condition.window condition.aggregate
    pure (.cross (condition.operator == .crossAbove) (.series left)
      (ValueExpr.scale condition.scale (.series right))
      (.series (previousSeriesValue condition.left))
      (ValueExpr.scale condition.scale (.series (previousSeriesValue metric))))
  | _ => none

/-- The bounds of a `between`, in the unit of the row. -/
def betweenBounds (condition : Condition F) : Option (F × F) :=
  match condition.right with
  | .band [low, high] =>
    let scaled := fun x =>
      match condition.scale with
      | some scale => x * percentScale condition.left * scale
      | none => x * percentScale condition.left
    if scaled high < scaled low then none else some (scaled low, scaled high)
  | _ => none

/-- `_compile_one` -/
def compileOne (condition : Condition F) : Option (TestExpr F) :=
  let flag := normalName condition.left
  if flag ∈ booleanExpressions then (booleanIsAsserted condition).map (.flag flag)
  else
    match booleanComparison condition.left with
    | some (left, comparison, right) => do
      let asserted ← booleanIsAsserted condition
      if left ∈ currentMetrics ∧ right ∈ currentMetrics then
        pure (.levels left
          (match comparison, asserted with
            | .above, true => .gt
            | .above, false => .lte
            | .below, true => .lt
            | .below, false => .gte) right)
      else none
    | none =>
      match condition.consecutive with
      | some count =>
        let metric := canonicalMetric condition.left
        if metric ∈ streakMetrics then
          match condition.operator with
          | .gt | .gte => some (.streak metric count)
          | _ => none
        else none
      | none =>
        if condition.universeRankPct.isSome then none
        else
          match condition.operator with
          | .between => do
            let value ← seriesValue condition.left condition.window condition.aggregate
            let (low, high) ← betweenBounds condition
            pure (.between low value high)
          | .crossAbove | .crossBelow => compileCross condition
          | operator => do
            let (left, right) ← comparisonOperands condition
            pure (.compare left operator (ValueExpr.scale condition.scale right))

/-- A cross-sectional cut: the metric, the share, and whether the top is wanted. -/
structure RankFilter (F : Type) where
  metric : String
  pct : F
  top : Bool

/-- `_rank_filter` -/
def rankFilter (condition : Condition F) : Option (RankFilter F) := do
  let pct ← condition.universeRankPct
  let metric := canonicalMetric condition.left
  if metric ∈ currentMetrics ∨ (derivedSeriesSpec metric).isSome ∨ (movingAverageSpec metric).isSome
  then pure ⟨metric, pct, condition.operator == .gt || condition.operator == .gte⟩
  else none

/-- `_moving_average_warmup` -/
def movingAverageWarmup (condition : Condition F) : ℕ :=
  let window := fun name =>
    match movingAverageSpec name with
    | some (_, window) => window
    | none => 1
  match condition.right with
  | .metric right => max (window condition.left) (window right)
  | _ => window condition.left

/-- `CompiledConditions` -/
structure CompiledConditions (F : Type) where
  perStock : List (TestExpr F)
  rankFilters : List (RankFilter F)
  warmupBars : ℕ

/-- One condition's part, or `none` where the whole rule is refused. -/
def CompiledConditions.add (compiled : CompiledConditions F) (condition : Condition F) :
    Option (CompiledConditions F) :=
  let warmupBars := max compiled.warmupBars (max (condition.window.getD 1)
    (max (condition.consecutive.getD 1) (movingAverageWarmup condition)))
  match rankFilter condition with
  | some cut => some { compiled with rankFilters := compiled.rankFilters ++ [cut], warmupBars }
  | none =>
    (compileOne condition).map fun test =>
      { compiled with perStock := compiled.perStock ++ [test], warmupBars }

/-- `compile_conditions` -/
def compileConditions (conditions : List (Condition F)) : Option (CompiledConditions F) :=
  if conditions = [] then none
  else conditions.foldlM CompiledConditions.add ⟨[], [], 1⟩

/-- A condition the evaluator can execute faithfully. -/
def Translatable (condition : Condition F) : Prop :=
  (rankFilter condition).isSome ∨ (compileOne condition).isSome

instance (condition : Condition F) : Decidable (Translatable condition) :=
  inferInstanceAs (Decidable (_ ∨ _))

theorem CompiledConditions.isSome_add (compiled : CompiledConditions F) (condition : Condition F) :
    (compiled.add condition).isSome ↔ Translatable condition := by
  rw [Translatable, CompiledConditions.add]
  cases rankFilter condition with
  | some cut => simp
  | none => simp

/-- All or nothing: a rule compiles exactly when every condition of it does. -/
theorem isSome_compileConditions (conditions : List (Condition F)) :
    (compileConditions conditions).isSome ↔
      conditions ≠ [] ∧ ∀ condition ∈ conditions, Translatable condition := by
  have hfold : ∀ (conditions : List (Condition F)) (compiled : CompiledConditions F),
      (conditions.foldlM CompiledConditions.add compiled).isSome ↔
        ∀ condition ∈ conditions, Translatable condition := by
    intro conditions
    induction conditions with
    | nil => simp
    | cons condition conditions ih =>
      intro compiled
      rw [List.foldlM_cons, List.forall_mem_cons, ← compiled.isSome_add condition]
      cases compiled.add condition with
      | none => simp
      | some compiled' => simpa using ih compiled'
  unfold compileConditions
  split
  · rename_i h
    simp [h]
  · rename_i h
    rw [hfold]
    exact (and_iff_right h).symm

end Compile

/-- A condition with the text its author gave it. -/
structure DescribedCondition (F : Type) [PyFloat F] extends Condition F where
  description : Option String

section Labels
variable {F : Type} [NumPy F]

/-- `(condition.description or condition.left).strip()` -/
def DescribedCondition.label (condition : DescribedCondition F) : String :=
  match condition.description with
  | some description => pyStrip (if description = "" then condition.left else description)
  | none => pyStrip condition.left

/-- `untranslatable_conditions` -/
def untranslatableConditions (conditions : List (DescribedCondition F)) (allowRankFilters : Bool) :
    List String :=
  conditions.foldl (fun unsupported condition =>
    if (rankFilter condition.toCondition).isSome ∧ allowRankFilters then unsupported
    else if (compileOne condition.toCondition).isSome then unsupported
    else if condition.label ≠ "" ∧ condition.label ∉ unsupported then unsupported ++ [condition.label]
    else unsupported) []

/-- `compile_conditions(conditions) is not None` -/
def compiles (conditions : List (DescribedCondition F)) : Bool :=
  (compileConditions (conditions.map DescribedCondition.toCondition)).isSome

end Labels

end QuantAgent.Features
