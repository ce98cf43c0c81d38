import QuantAgent.Features.Template
import QuantAgent.Features.Evaluator

namespace QuantAgent.Features
set_option autoImplicit true

/-! The ranking of same-day entries in `build_signals`, up to the slots they compete for. -/

namespace Reading
variable {F : Type} [NumPy F]

/-- `x - y` -/
def sub : Reading F → Reading F → Reading F
  | value x, value y => value (x - y)
  | value x, infinite positive => if isNaN x then value x else infinite !positive
  | infinite positive, value y => if isNaN y then value y else infinite positive
  | infinite positive, infinite positive' =>
    if positive = positive' then value NumPy.nan else infinite positive

def abs : Reading F → Reading F
  | value x => value (NumPy.abs x)
  | infinite _ => infinite true

/-- `max(x, y)` -/
def max (x y : Reading F) : Reading F := if x.lt y then y else x

/-- `min(x, y)` -/
def min (x y : Reading F) : Reading F := if y.lt x then y else x

/-- `x / y` -/
def div : Reading F → Reading F → Except PyError (Reading F)
  | value x, value y => if y == 0 then .error .zeroDivisionError else .ok (value (x / y))
  | value x, infinite _ => .ok (value (if isNaN x then x else 0))
  | infinite positive, value y =>
    if y == 0 then .error .zeroDivisionError
    else .ok (if isNaN y then value y else if 0 < y then infinite positive else infinite !positive)
  | infinite _, infinite _ => .ok (value NumPy.nan)

/-- The score itself, or zero for what is no strength. -/
def strength : Reading F → F
  | value x => if -(lit (10 ^ 18)) < x ∧ x < lit (10 ^ 18) then x else 0
  | infinite _ => 0

end Reading

/-- The distance `_margin_expression` writes: `sign * (left - right) / max(abs(right), epsilon)`. -/
structure MarginExpr (F : Type) where
  sign : F
  left : ValueExpr F
  right : ValueExpr F

section Compile
variable {F : Type} [NumPy F]

/-- `_margin_expression` -/
def marginExpression (condition : Condition F) : Option (MarginExpr F) :=
  match marginSign condition.operator with
  | none => none
  | some sign =>
    if condition.universeRankPct.isSome ∨ condition.consecutive.isSome then none
    else if normalName condition.left ∈ booleanExpressions ∨
        (booleanComparison condition.left).isSome then none
    else
      match condition.right with
      | .number _ => if canonicalMetric condition.left ∈ levelMetrics then none else measure sign
      | _ => measure sign
where
  measure (sign : F) : Option (MarginExpr F) :=
    (comparisonOperands condition).map fun (left, right) =>
      ⟨sign, left, ValueExpr.scale condition.scale right⟩

/-- `compile_score_expression`; no distance at all is its `None`. -/
def compileScoreExpression (conditions : List (Condition F)) : List (MarginExpr F) :=
  conditions.filterMap marginExpression

/-- `_fallback_rank_metric` -/
def fallbackRankMetric (rankConditions : List (Condition F)) : Option (String × F) :=
  rankConditions.head?.map fun condition =>
    (condition.left,
      if condition.operator = .gt ∨ condition.operator = .gte then 1 else -1)

end Compile

/-- An entry of the day: `(ticker, close, entry_score)`. -/
structure Entry (F : Type) where
  ticker : String
  price : F
  score : F

section Scores
variable {F : Type} [NumPy F]

/-- `_num(row.get(key))` -/
def Row.num (row : Row F) (key : String) : Option F :=
  match row.value key with
  | .number x => some x
  | .bool b => some (if b then 1 else 0)
  | _ => none

namespace SignalBar
variable (bar : SignalBar F)

def margin (expr : MarginExpr F) : Eval (Reading F) := do
  let left ← bar.value expr.left
  let right ← bar.value expr.right
  raised (((left.sub right).mul expr.sign).div (right.abs.max (.value marginEpsilon)))

/-- The value of the score expression. -/
def tightest : List (MarginExpr F) → Eval (Reading F)
  | [] => .ok (.value 0)
  | first :: rest => do
    let first ← bar.margin first
    let rest ← rest.mapM bar.margin
    pure (rest.foldl Reading.min first)

/-- `entry_score` of a bar that passed the entry test. -/
def entryScore (margins : List (MarginExpr F)) : Eval F :=
  match bar.tightest margins with
  | .ok score => .ok score.strength
  | .error stop => if stop.caught then .ok 0 else .error stop

end SignalBar

/-- `entries` and `universe_metrics` of one session. -/
structure SignalDay (F : Type) where
  entries : List (Entry F)
  universeMetrics : Dict String (List (String × F))

/-- `universe_metrics.setdefault(metric, []).append((ticker, value))`, for each metric of a cut. -/
def gatherMetrics (ticker : String) (row : Row F) (cuts : List (RankFilter F))
    (universeMetrics : Dict String (List (String × F))) : Dict String (List (String × F)) :=
  cuts.foldl (fun universeMetrics cut =>
    match row.num cut.metric with
    | some value =>
      universeMetrics.insert cut.metric
        ((universeMetrics.get? cut.metric).getD [] ++ [(ticker, value)])
    | none => universeMetrics) universeMetrics

/-- One bar of a session; `inPosition` says that its ticker is held. -/
def SignalDay.add (compiled : CompiledConditions F) (margins : List (MarginExpr F)) (day : SignalDay F)
    (bar : SignalBar F) (inPosition : Bool) : Eval (SignalDay F) := do
  let entryOk ← bar.entryOk compiled
  let score ← if entryOk then bar.entryScore margins else pure 0
  pure {
    entries := if !inPosition && entryOk then
      day.entries ++ [⟨bar.row.signalTicker, bar.close, score⟩] else day.entries
    universeMetrics :=
      gatherMetrics bar.row.signalTicker bar.row compiled.rankFilters day.universeMetrics }

/-- The bars of a session, each with whether its ticker is held when the loop reaches it. -/
def signalDay (compiled : CompiledConditions F) (margins : List (MarginExpr F))
    (bars : List (SignalBar F × Bool)) : Eval (SignalDay F) :=
  bars.foldlM (fun day bar => day.add compiled margins bar.1 bar.2) ⟨[], Dict.empty⟩

/-- `rank_scores` -/
def rankScores (universeMetrics : Dict String (List (String × F))) (cuts : List (RankFilter F)) :
    Dict String F :=
  match cuts with
  | [] => Dict.empty
  | cut :: _ =>
    (Dict.index Prod.fst ((universeMetrics.get? cut.metric).getD [])).mapVal fun _ scored => scored.2

/-- `rank_sign` -/
def rankSign (cuts : List (RankFilter F)) : F :=
  match cuts with
  | [] => -1
  | cut :: _ => if cut.top then 1 else -1

/-- `rank_sign * rank_scores[t] if t in rank_scores else s` -/
def Entry.ranked (sign : F) (scores : Dict String F) (entry : Entry F) : Entry F :=
  match scores.get? entry.ticker with
  | some value => { entry with score := sign * value }
  | none => entry

/-- `scored.sort(key=lambda item: item[1], reverse=top)` -/
def sortScored (top : Bool) (scored : List (String × F)) : List (String × F) :=
  pySorted (fun a b => if top then decide (b.2 < a.2) else decide (a.2 < b.2)) scored

/-- The cross-sectional cuts, one after the other; each sorts its list in place. -/
def cutEntries (sign : F) (scores : Dict String F) : List (RankFilter F) →
    Dict String (List (String × F)) → List (Entry F) → Except PyError (List (Entry F))
  | [], _, entries => .ok entries
  | cut :: cuts, universeMetrics, entries =>
    match (universeMetrics.get? cut.metric).getD [] with
    | [] => .ok []
    | scored => do
      let sorted := sortScored cut.top scored
      let share ← PyFloat.trunc (lit sorted.length * cut.pct)
      let kept := (sorted.take (max 1 share).toNat).map Prod.fst
      cutEntries sign scores cuts (universeMetrics.insert cut.metric sorted)
        ((entries.filter fun entry => entry.ticker ∈ kept).map (Entry.ranked sign scores))

/-- The entries of a session behind the cuts. -/
def SignalDay.ranked (compiled : CompiledConditions F) (day : SignalDay F) :
    Except PyError (List (Entry F)) :=
  cutEntries (rankSign compiled.rankFilters) (rankScores day.universeMetrics compiled.rankFilters)
    compiled.rankFilters day.universeMetrics day.entries

end Scores

end QuantAgent.Features
