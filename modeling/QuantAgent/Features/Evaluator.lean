import QuantAgent.Features.Simulation
import QuantAgent.Features.Candidate

namespace QuantAgent.Features
set_option autoImplicit true

/-- `series[index]`, if it is a number. -/
def finiteAt {F : Type} [NumPy F] (series : List F) (index : ℕ) : Option F :=
  series[index]?.filter PyFloat.isFinite

/-- One side of a comparison, before an index is looked up. -/
inductive Side (F : Type) where
  | series (values : List F)
  | number (x : F)
  | absent

def Side.at {F : Type} [NumPy F] : Side F → ℕ → Option F
  | .series values, index => finiteAt values index
  | .number x, _ => some x
  | .absent, _ => none

/-- The arrays one condition reads, whatever the index. -/
inductive ConditionArrays (F : Type) where
  /-- A flag that is neither asserted nor negated. -/
  | unread
  | flag (asserted : Bool) (comparison : Comparison) (left right : List F)
  | window (asserted : Bool) (rule : WindowRule F) (close extreme : List F)
  | sides (left : List F) (right : Side F)

def ConditionOperator.name : ConditionOperator → String
  | .lt => "lt"
  | .lte => "lte"
  | .gt => "gt"
  | .gte => "gte"
  | .eq => "eq"
  | .ne => "ne"
  | .between => "between"
  | .crossAbove => "cross_above"
  | .crossBelow => "cross_below"

def Aggregate.name : Aggregate → String
  | .max => "max"
  | .min => "min"
  | .avg => "avg"
  | .sum => "sum"
  | .last => "last"

def jsonPart (text : α → String) : Option α → String
  | some x => text x
  | none => "null"

def Operand.jsonParts [PyFloat F] : Operand F → List String
  | .number x => ["number", PyFloat.text x]
  | .metric name => ["metric", name]
  | .band values => "band" :: values.map PyFloat.text

/-- `condition.model_dump_json()`, field by field. -/
def DescribedCondition.dumpJson [PyFloat F] (condition : DescribedCondition F) : List String :=
  [condition.left, condition.operator.name, jsonPart toString condition.window,
    jsonPart Aggregate.name condition.aggregate, jsonPart PyFloat.text condition.scale,
    jsonPart toString condition.consecutive, jsonPart PyFloat.text condition.universeRankPct,
    jsonPart String.quote condition.description] ++ condition.right.jsonParts

section Tests
variable {F : Type} [NumPy F]

/-- The scaled operands of `_comparison_operands`. -/
def comparisonValues (condition : Condition F) (left : List F) (right : Side F) (index : ℕ) :
    Option F × Option F :=
  (finiteAt left index,
    (right.at index).map fun value =>
      match condition.scale with
      | some scale => value * scale
      | none => value)

def betweenMatches (condition : Condition F) (value : F) : Bool :=
  match condition.right with
  | .band [low, high] =>
    let scaled := fun x =>
      match condition.scale with
      | some scale => x * percentScale condition.left * scale
      | none => x * percentScale condition.left
    decide (scaled low ≤ value) && decide (value ≤ scaled high)
  | _ => false

def crossMatches (above : Bool) (now before : F × F) : Bool :=
  if above then decide (now.2 < now.1) && decide (before.1 ≤ before.2)
  else decide (now.1 < now.2) && decide (before.2 ≤ before.1)

def operatorMatches (left right : F) : ConditionOperator → Bool
  | .lt => decide (left < right)
  | .lte => decide (left ≤ right)
  | .gt => decide (right < left)
  | .gte => decide (right ≤ left)
  | .eq => left == right
  | .ne => left != right
  | .between | .crossAbove | .crossBelow => false

/-- The tests of `_base_condition_matches` on two operands, and on those of the ticker's bar before. -/
def sidesMatch (condition : Condition F) (now : Option F × Option F)
    (before : Option (Option F × Option F)) : Bool :=
  match now with
  | (none, _) => false
  | (some value, other) =>
    match condition.operator, other with
    | .between, _ => betweenMatches condition value
    | _, none => false
    | .crossAbove, some other | .crossBelow, some other =>
      match condition.right, before with
      | .metric _, some (some value', some other') =>
        crossMatches (condition.operator == .crossAbove) (value, other) (value', other')
      | _, _ => false
    | operator, some other => operatorMatches value other operator

/-- `_base_condition_matches`, once the arrays are at hand. -/
def ConditionArrays.test (condition : Condition F) (previous : Option ℕ) (index : ℕ) :
    ConditionArrays F → Bool
  | .unread => false
  | .flag asserted comparison left right =>
    match finiteAt left index, finiteAt right index with
    | some left, some right =>
      (match comparison with
        | .above => decide (right < left)
        | .below => decide (left < right)) == asserted
    | _, _ => false
  | .window asserted rule close extreme =>
    match finiteAt close index, finiteAt extreme index with
    | some close, some extreme =>
      (if rule.atLeast then decide (extreme * rule.factor ≤ close)
      else decide (close ≤ extreme * rule.factor)) == asserted
    | _, _ => false
  | .sides left right =>
    sidesMatch condition (comparisonValues condition left right index)
      (previous.map (comparisonValues condition left right))

/-- Whether the last `count` bars of a ticker all matched, bar by bar. -/
def streaks (count : ℕ) (matched : List Bool) : List Bool :=
  loopMap (fun streak (hit : Bool) =>
    let streak := if hit then streak + 1 else 0
    (streak, decide (count ≤ streak))) 0 matched

end Tests

namespace PreparedFeatureStore
variable {F : Type} [NumPy F] (S : PreparedFeatureStore F)

omit [NumPy F] in
/-- `previous_index`: the bar before, of the same ticker. -/
def previousIndex : List (Option ℕ) :=
  scatter none S.tickers (fun indices => delayed none 1 (indices.map some)) (List.range S.size)

/-- `_current_metric` -/
def currentMetric (metric : String) (index : ℕ) : Build F (Option F) := do
  return finiteAt (← S.metricSeries metric) index

/-- The array `_condition_series_value` reads. -/
def conditionSeries (metric : String) (window : Option ℕ) (aggregate : Option Aggregate) :
    Build F (List F) :=
  match window, aggregate with
  | some window, some aggregate => S.rollingMetric metric window aggregate
  | _, _ => S.metricSeries metric

/-- The arrays of `_comparison_operands`. -/
def comparisonSides (condition : Condition F) : Build F (List F × Side F) :=
  match condition.right with
  | .metric right => do
    let left ← S.metricSeries condition.left
    let right ← S.conditionSeries right condition.window condition.aggregate
    pure (left, .series right)
  | .number right => do
    let left ← S.conditionSeries condition.left condition.window condition.aggregate
    pure (left, .number (right * percentScale condition.left))
  | .band _ => do
    let left ← S.conditionSeries condition.left condition.window condition.aggregate
    pure (left, .absent)

/-- The arrays of `_base_condition_matches`, in the order it asks for them. A cross asks for its two
arrays again, and finds them in the caches. -/
def conditionArrays (condition : Condition F) : Build F (ConditionArrays F) :=
  match booleanComparison condition.left, booleanWindowRule condition.left with
  | some (left, comparison, right), _ =>
    match booleanIsAsserted condition with
    | none => pure .unread
    | some asserted => do
      let left ← S.metricSeries left
      let right ← S.metricSeries right
      pure (.flag asserted comparison left right)
  | none, some rule =>
    match booleanIsAsserted condition with
    | none => pure .unread
    | some asserted => do
      let close ← S.metricSeries "close"
      let extreme ← S.conditionSeries rule.metric rule.window rule.aggregate
      pure (.window asserted rule close extreme)
  | none, none => do
    let (left, right) ← S.comparisonSides condition
    pure (.sides left right)

/-- `_base_condition_matches` -/
def baseConditionMatches (condition : Condition F) (index : ℕ) : Build F Bool := do
  let arrays ← S.conditionArrays condition
  pure (arrays.test condition ((S.previousIndex[index]?).getD none) index)

/-- The array `_condition_matches` keeps of a condition that must hold for some bars in a row. -/
def streakMatches (condition : Condition F) (count : ℕ) (arrays : ConditionArrays F) : List Bool :=
  scatter false S.tickers (streaks count)
    ((List.range S.size).map fun index =>
      arrays.test condition ((S.previousIndex[index]?).getD none) index)

/-- `_condition_matches` -/
def conditionMatches (condition : DescribedCondition F) (index : ℕ) : Build F Bool :=
  match condition.consecutive with
  | none => S.baseConditionMatches condition.toCondition index
  | some count => do
    match (← get).condition.get? condition.dumpJson with
    | some cached => pure ((cached[index]?).getD false)
    | none =>
      let arrays ← S.conditionArrays condition.toCondition
      let cached := S.streakMatches condition.toCondition count arrays
      modify fun c => { c with condition := c.condition.insert condition.dumpJson cached }
      pure ((cached[index]?).getD false)

/-- `_condition_margin` -/
def conditionMargin (condition : Condition F) (index : ℕ) : Build F (Option F) :=
  match marginSign condition.operator with
  | none => pure none
  | some sign =>
    if (booleanComparison condition.left).isSome ∨ (booleanWindowRule (F := F) condition.left).isSome then
      pure none
    else
      match condition.right with
      | .metric _ => measure sign
      | _ => if canonicalMetric condition.left ∈ levelMetrics then pure none else measure sign
where
  measure (sign : F) : Build F (Option F) := do
    let (left, right) ← S.comparisonSides condition
    pure <|
      match comparisonValues condition left right index with
      | (some left, some right) =>
        let margin := sign * (left - right) / pyMax (NumPy.abs right) marginEpsilon
        if PyFloat.isFinite margin then some margin else none
      | _ => none

/-- The score of a cross-sectional cut, where the rule has one. -/
def fallbackScore (index : ℕ) : Option (String × F) → Build F (Option F)
  | none => pure none
  | some (metric, sign) => do
    let value ← S.currentMetric metric index
    pure (value.map fun value => sign * value)

/-- `_default_entry_score` -/
def defaultEntryScore (index : ℕ) (fallbackRank : Option (String × F))
    (entryConditions : List (DescribedCondition F)) : Build F F := do
  match ← S.fallbackScore index fallbackRank with
  | some score => pure score
  | none =>
    let margins ← entryConditions.mapM fun condition => S.conditionMargin condition.toCondition index
    pure <|
      match margins.filterMap id with
      | [] => 0
      | margin :: margins => margins.foldl pyMin margin

end PreparedFeatureStore

end QuantAgent.Features
