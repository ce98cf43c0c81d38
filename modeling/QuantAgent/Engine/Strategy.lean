import QuantAgent.Engine.Market
import QuantAgent.Lib.Trace

namespace QuantAgent
set_option autoImplicit true

inductive SignalAction where
  | buy
  | sell
  | hold
  | watch
deriving DecidableEq

structure SignalDecision where
  ticker : Ticker
  action : SignalAction
  reasons : List String
  matchingEntryRules : List String
  matchingExitRules : List String

section
variable {F : Type} [PyFloat F]

/-- A comparison with NaN on either side is false. -/
def Metric.test (r : F → F → Bool) : Metric F → Metric F → Bool
  | some a, some b => r a b
  | _, _ => false

def Metric.lt (a b : Metric F) : Bool := a.test (fun x y => decide (x < y)) b

def Metric.le (a b : Metric F) : Bool := a.test (fun x y => decide (x ≤ y)) b

def Metric.eq (a b : Metric F) : Bool := a.test (· == ·) b

def resolveMetric (name : String) (pool : Metrics F) : Except PyError (Metric F) :=
  match pool (metricAliases name), pool name with
  | some value, _ => .ok value
  | none, some value => .ok value
  | none, none => .error (.keyError ("metric '" ++ name ++ "' not found in market snapshot"))

def Operand.text : Operand F → String
  | .number x => PyFloat.text x
  | .metric name => name
  | .range xs => "[" ++ ", ".intercalate (xs.map PyFloat.text) ++ "]"

def resolveRight (right : Operand F) (pool : Metrics F) : Except PyError (Metric F) :=
  match right with
  | .number x => .ok (some x)
  | .metric name => resolveMetric name pool
  | .range _ => .error (.valueError ("right side cannot be resolved as scalar: " ++ right.text))

def compareScalar (left right : Metric F) : ConditionOperator → Except PyError Bool
  | .lt => .ok (left.lt right)
  | .lte => .ok (left.le right)
  | .gt => .ok (right.lt left)
  | .gte => .ok (right.le left)
  | .eq => .ok (left.eq right)
  | .ne => .ok (!left.eq right)
  | operator => .error (.valueError ("Unsupported scalar operator: " ++ operator.value))

def evaluateCross (rule : Condition F) (currentLeft : Metric F) (metrics : Metrics F)
    (previousMetrics : Option (Metrics F)) (before : Metric F → Metric F → Bool)
    (after : Metric F → Metric F → Bool) : Except PyError Bool :=
  match previousMetrics with
  | none => .ok false
  | some previous => do
    let currentRight ← resolveRight rule.right metrics
    let previousLeft ← resolveMetric rule.left previous
    let previousRight ← resolveRight rule.right previous
    pure (before previousLeft previousRight && after currentLeft currentRight)

def evaluateCondition (rule : Condition F) (metrics : Metrics F)
    (previousMetrics : Option (Metrics F)) : Except PyError Bool := do
  let currentLeft ← resolveMetric rule.left metrics
  match rule.operator with
  | .between =>
    match rule.right with
    | .range [low, high] => pure (Metric.le (some low) currentLeft && currentLeft.le (some high))
    | _ => throw (.valueError "not enough values to unpack")
  | .crossAbove =>
    evaluateCross rule currentLeft metrics previousMetrics Metric.le fun left right => right.lt left
  | .crossBelow =>
    evaluateCross rule currentLeft metrics previousMetrics (fun left right => right.le left) Metric.lt
  | operator => do
    let right ← resolveRight rule.right metrics
    compareScalar currentLeft right operator

def humanize (rule : Condition F) : String :=
  match rule.operator, rule.right with
  | .between, .range [low, high] =>
    rule.left ++ " between " ++ PyFloat.text low ++ " and " ++ PyFloat.text high
  | operator, right => rule.left ++ " " ++ operator.value ++ " " ++ right.text

/-- `rule.description or self._humanize(rule)` -/
def ruleText (rule : Condition F) : String :=
  match rule.description with
  | some text => if text = "" then humanize rule else text
  | none => humanize rule

def evaluateHits (metrics : Metrics F) (previousMetrics : Option (Metrics F)) :
    List (Condition F) → Except PyError (List String)
  | [] => .ok []
  | rule :: rules => do
    let hit ← evaluateCondition rule metrics previousMetrics
    let hits ← evaluateHits metrics previousMetrics rules
    pure (if hit then ruleText rule :: hits else hits)

def evaluateRules (rules : List (Condition F)) (logic : LogicMode) (metrics : Metrics F)
    (previousMetrics : Option (Metrics F)) : Except PyError (List String) := do
  let hits ← evaluateHits metrics previousMetrics rules
  match logic with
  | .all => pure (if hits.length = rules.length then hits else [])
  | .any => pure hits

def generateSignal (spec : StrategySpec F) (ticker : Ticker) (metrics : Metrics F)
    (previousMetrics : Option (Metrics F)) (hasPosition : Bool) : Except PyError SignalDecision := do
  let entryHits ← evaluateRules spec.entryRules spec.entryLogic metrics previousMetrics
  let exitHits ← evaluateRules spec.exitRules spec.exitLogic metrics previousMetrics
  if hasPosition && !exitHits.isEmpty then
    pure ⟨ticker, .sell, ["exit condition matched"], [], exitHits⟩
  else if !hasPosition && !entryHits.isEmpty then
    pure ⟨ticker, .buy, ["entry condition matched"], entryHits, []⟩
  else
    pure ⟨ticker, if hasPosition then .hold else .watch, ["no actionable rule matched"], [], []⟩

end
end QuantAgent
