import QuantAgent.Features.Evaluator
import QuantAgent.Features.Template
import QuantAgent.Features.Transparency
import QuantAgent.Lib.Binary64

namespace QuantAgent.Features
set_option autoImplicit true

/-! What a condition `flag op number` is worth, on a bar of the rendered code and in the store. A
flag holds, fails, or is undecided where something it reads is missing. -/

/-- `x op r` -/
def ConditionOperator.relates [LT α] [LE α] (operator : ConditionOperator) (x r : α) : Prop :=
  match operator with
  | .lt => x < r
  | .lte => x ≤ r
  | .gt => r < x
  | .gte => r ≤ x
  | .eq => x = r
  | .ne => x ≠ r
  | .between | .crossAbove | .crossBelow => False

/-- `1 if the flag holds else 0` -/
def flagNumber (state : Option Bool) : ℚ := if state = some true then 1 else 0

/-- Where reading `flag op r` as the flag or as its negation gives what the numbers say. -/
def CollapseRight (operator : ConditionOperator) (r : ℚ) : Option Bool → Prop
  | some true =>
    match operator with
    | .eq | .ne => r = 0 ∨ r = 1
    | .gt | .lte => r ≠ 0 ∧ r < 1
    | .gte | .lt => r ≠ 0 ∧ r ≤ 1
    | .between | .crossAbove | .crossBelow => True
  | some false =>
    match operator with
    | .gt | .lte => 0 < r
    | .gte | .lt => 0 ≤ r
    | _ => True
  | none => ¬operator.relates 0 r

/-- The reading `_boolean_is_asserted` and `_flag_is_asserted` choose. -/
def asserts (operator : ConditionOperator) (r : ℚ) : Bool :=
  match operator with
  | .eq | .gte | .gt => decide (r ≠ 0)
  | _ => decide (r = 0)

/-- The operators a number may stand to the right of. -/
def ConditionOperator.numeric : ConditionOperator → Bool
  | .between | .crossAbove | .crossBelow => false
  | _ => true

/-- The chosen reading is right in the cases of the table. -/
theorem collapse_right {operator : ConditionOperator} (h : operator.numeric = true) (r : ℚ)
    (state : Option Bool) :
    ((state = some (asserts operator r)) ↔ operator.relates (flagNumber state) r) ↔
      CollapseRight operator r state := by
  rcases state with _ | _ | _
  · simp [flagNumber, CollapseRight]
  · have hfalse : flagNumber (some false) = 0 := rfl
    rw [hfalse]
    cases operator with
    | between => cases h
    | crossAbove => cases h
    | crossBelow => cases h
    | _ => grind [asserts, CollapseRight, ConditionOperator.relates]
  · have htrue : flagNumber (some true) = 1 := rfl
    rw [htrue]
    cases operator with
    | between => cases h
    | crossAbove => cases h
    | crossBelow => cases h
    | _ => grind [asserts, CollapseRight, ConditionOperator.relates]

section Compiled

/-- The names both tables of flags know. -/
def flagNames : List String := booleanExpressions ++ booleanComparisons.map Prod.fst

/-- A plain comparison of a flag with a number. -/
structure FlagCondition (condition : Condition (Flt Binary64)) (r : Binary64) : Prop where
  flag : normalName condition.left ∈ flagNames
  right : condition.right = .number (.num r)

variable {condition : Condition (Flt Binary64)}

theorem FlagCondition.numeric (h : FlagCondition condition r) : condition.operator.numeric = true := by
  have hshape := condition.right_shape
  rw [h.right] at hshape
  cases hoperator : condition.operator with
  | between => exact (hoperator ▸ hshape).elim
  | crossAbove => exact (hoperator ▸ hshape).elim
  | crossBelow => exact (hoperator ▸ hshape).elim
  | _ => rfl

theorem FlagCondition.asserted (h : FlagCondition condition r) :
    booleanIsAsserted condition = some (asserts condition.operator r.value) := by
  have hzero : ((.num r : Flt Binary64) != 0) = decide (r.value ≠ 0) := by
    change (!(r.value == 0)) = _
    by_cases hr : r.value = 0 <;> simp [hr]
  have hnot : (!decide (r.value ≠ 0)) = decide (r.value = 0) := by simp
  have hnumeric := h.numeric
  unfold booleanIsAsserted asserts
  rw [h.right]
  dsimp only
  rw [hzero]
  cases hoperator : condition.operator with
  | between => rw [hoperator] at hnumeric; cases hnumeric
  | crossAbove => rw [hoperator] at hnumeric; cases hnumeric
  | crossBelow => rw [hoperator] at hnumeric; cases hnumeric
  | eq => rfl
  | gt => rfl
  | gte => rfl
  | ne => exact congrArg some hnot
  | lt => exact congrArg some hnot
  | lte => exact congrArg some hnot

/-- What the tables of the other metrics say of a flag. -/
theorem flagNames_plain : ∀ name ∈ flagNames, percentScaled.lookup name = none ∧
    aliases.lookup name = none ∧ name ∉ currentMetrics ∧ derivedSeriesSpec name = none ∧
    movingAverageSpec name = none ∧ derivedRatios.lookup name = none ∧ catalogMetric? name = none ∧
    name ∉ ["price", "close", "open", "high", "low", "volume", "rsi"] := by
  decide +kernel

theorem FlagCondition.canonical (h : FlagCondition condition r) :
    canonicalMetric condition.left = normalName condition.left := by
  obtain ⟨hpercent, halias, -⟩ := flagNames_plain _ h.flag
  simp only [canonicalMetric, hpercent, halias, Option.getD_none]

theorem FlagCondition.rankFilter (h : FlagCondition condition r) : rankFilter condition = none := by
  obtain ⟨-, -, hcurrent, hspec, haverage, -⟩ := flagNames_plain _ h.flag
  unfold Features.rankFilter
  rw [h.canonical]
  cases condition.universeRankPct with
  | none => rfl
  | some pct => simp [hcurrent, hspec, haverage]

/-- A flag compiles to one test. -/
theorem FlagCondition.compileConditions (h : FlagCondition condition r)
    (htest : compileOne condition = some test) : ∃ warmupBars,
      compileConditions [condition] = some ⟨[test], [], warmupBars⟩ := by
  refine ⟨max 1 (max (condition.window.getD 1)
    (max (condition.consecutive.getD 1) (movingAverageWarmup condition))), ?_⟩
  rw [Features.compileConditions, if_neg (List.cons_ne_nil _ _), List.foldlM_cons, CompiledConditions.add,
    h.rankFilter, htest]
  rfl

/-- The comparison a flag of closes and levels is compiled to. -/
def levelOperator : Comparison → Bool → ConditionOperator
  | .above, true => .gt
  | .above, false => .lte
  | .below, true => .lt
  | .below, false => .gte

/-- The test of a flag, asserted or negated. -/
def flagTest (name : String) (asserted : Bool) : Option (TestExpr (Flt Binary64)) :=
  if name ∈ booleanExpressions then some (.flag name asserted)
  else (booleanComparisons.lookup name).map fun rule =>
    .levels rule.1 (levelOperator rule.2.1 asserted) rule.2.2

theorem booleanComparisons_current : ∀ rule ∈ booleanComparisons,
    rule.2.1 ∈ currentMetrics ∧ rule.2.2.2 ∈ currentMetrics := by decide

theorem FlagCondition.compileOne (h : FlagCondition condition r) :
    compileOne condition = flagTest (normalName condition.left) (asserts condition.operator r.value) ∧
      (Features.compileOne condition).isSome = true := by
  unfold Features.compileOne flagTest
  dsimp only
  rw [h.asserted]
  by_cases hexpression : normalName condition.left ∈ booleanExpressions
  · rw [if_pos hexpression, if_pos hexpression]
    exact ⟨rfl, rfl⟩
  · rw [if_neg hexpression, if_neg hexpression]
    have hname : normalName condition.left ∈ booleanComparisons.map Prod.fst :=
      (List.mem_append.mp h.flag).resolve_left hexpression
    cases hrule : booleanComparisons.lookup (normalName condition.left) with
    | none =>
      rw [List.lookup_eq_none_iff] at hrule
      obtain ⟨rule, hmem, heq⟩ := List.mem_map.mp hname
      exact absurd (hrule rule hmem) (by simp [heq])
    | some rule =>
      obtain ⟨left, comparison, right⟩ := rule
      have hcurrent := booleanComparisons_current _ (lookup_eq_some hrule)
      rw [booleanComparison, hrule]
      simp only [Option.bind_eq_bind, Option.bind_some, if_pos hcurrent, Option.map_some]
      cases comparison <;> cases asserts condition.operator r.value <;> exact ⟨rfl, rfl⟩

namespace SignalBar
variable (bar : SignalBar (Flt Binary64))

/-- The comparison of two levels, undecided where one is missing. -/
def levelState (left : Flt Binary64) (comparison : Comparison) (right : Flt Binary64) : Option Bool :=
  if isNaN left || isNaN right then none
  else
    match comparison with
    | .above => some (decide (right < left))
    | .below => some (decide (left < right))

/-- A flag on a bar of the rendered code, undecided before the warm-up, where a level is missing, or
where the history is too short for an item the expression asks for. -/
def flagState (warmupBars : ℕ) (name : String) : Option Bool :=
  if bar.hist.closes.length < warmupBars then none
  else if name ∈ booleanExpressions then (bar.flag name).toOption
  else
    match booleanComparisons.lookup name with
    | some (left, comparison, right) => levelState (bar.current left) comparison (bar.current right)
    | none => none

theorem num_not_nan (x : Binary64) : isNaN (Flt.num x : Flt Binary64) = false := by
  change (!(x.value == x.value)) = false
  rw [beq_self_eq_true]
  rfl

theorem nan_incomparable (x : Flt Binary64) : ¬(Flt.nan : Flt Binary64) < x ∧ ¬x < Flt.nan ∧
    ¬(Flt.nan : Flt Binary64) ≤ x ∧ ¬x ≤ Flt.nan := by
  cases x <;> exact ⟨id, id, id, id⟩

/-- Either reading of a level flag is a comparison that a missing level makes false. -/
theorem compare_levelOperator (left right : Flt Binary64) (comparison : Comparison) (asserted : Bool) :
    Reading.compare (.value left) (levelOperator comparison asserted) (.value right) = true ↔
      levelState left comparison right = some asserted := by
  have hle : ∀ x y : Binary64, (Flt.num x ≤ Flt.num y) ↔ ¬(Flt.num y < Flt.num x) :=
    fun x y => show x.value ≤ y.value ↔ ¬y.value < x.value from not_lt.symm
  have hnan : isNaN (Flt.nan : Flt Binary64) = true := rfl
  cases left with
  | nan =>
    have hmissing := nan_incomparable right
    cases comparison <;> cases asserted <;>
      simp [Reading.compare, levelOperator, Reading.lt, Reading.le, levelState, hnan, hmissing]
  | num x =>
    cases right with
    | nan =>
      have hmissing := nan_incomparable (.num x)
      cases comparison <;> cases asserted <;>
        simp [Reading.compare, levelOperator, Reading.lt, Reading.le, levelState, hnan, hmissing]
    | num y =>
      cases comparison <;> cases asserted <;>
        simp [Reading.compare, levelOperator, Reading.lt, Reading.le, levelState, num_not_nan, hle]

variable {bar}

theorem both_true (x : Bool) : both x (.ok true) = .ok x := by
  cases x <;> rfl

theorem entryOk_singleton {test : TestExpr (Flt Binary64)} {cuts : List (RankFilter (Flt Binary64))} :
    bar.entryOk ⟨[test], cuts, warmupBars⟩ = .ok true ↔
      ¬bar.hist.closes.length < warmupBars ∧ bar.test test = .ok true := by
  have htests : bar.tests [test] = bar.test test := by
    rw [tests]
    cases bar.test test with
    | error stop => rfl
    | ok x => exact both_true x
  unfold entryOk
  rw [htests]
  split
  · rename_i h
    exact iff_of_false nofun fun hn => hn.1 h
  · rename_i h
    rw [and_iff_right h]
    cases hresult : bar.test test with
    | ok x => rfl
    | error stop =>
      dsimp only
      split
      · exact iff_of_false nofun nofun
      · exact iff_of_false nofun nofun

/-- The compiled test of a flag matches where the flag's state is the reading that was chosen. -/
theorem entryOk_flagTest {test : TestExpr (Flt Binary64)} {cuts : List (RankFilter (Flt Binary64))}
    (h : flagTest name asserted = some test) :
    bar.entryOk ⟨[test], cuts, warmupBars⟩ = .ok true ↔ bar.flagState warmupBars name = some asserted := by
  rw [entryOk_singleton]
  unfold flagState
  by_cases hready : bar.hist.closes.length < warmupBars
  · rw [if_pos hready]
    exact iff_of_false (fun hn => hn.1 hready) nofun
  · rw [if_neg hready, and_iff_right hready]
    unfold flagTest at h
    split at h
    · rename_i hexpression
      rw [if_pos hexpression]
      cases h
      rw [SignalBar.test]
      cases bar.flag name with
      | error stop => exact iff_of_false nofun nofun
      | ok x =>
        change (Except.ok (x == asserted) : Eval Bool) = .ok true ↔ some x = some asserted
        rw [Except.ok.injEq, beq_iff_eq, Option.some.injEq]
    · rename_i hexpression
      rw [if_neg hexpression]
      obtain ⟨rule, hrule, rfl⟩ := Option.map_eq_some_iff.mp h
      rw [hrule]
      dsimp only
      rw [← compare_levelOperator, SignalBar.test, Except.ok.injEq]

end SignalBar

end Compiled

namespace PreparedFeatureStore
variable {F : Type} [NumPy F] (S : PreparedFeatureStore F)

/-- A flag of the store on a bar, undecided where a number is missing. -/
def flagState (name : String) (index : ℕ) : Build F (Option Bool) :=
  match booleanComparison name, booleanWindowRule name with
  | some (left, comparison, right), _ => do
    let left ← S.currentMetric left index
    let right ← S.currentMetric right index
    pure <|
      match left, right with
      | some left, some right =>
        match comparison with
        | .above => some (decide (right < left))
        | .below => some (decide (left < right))
      | _, _ => none
  | none, some rule => do
    let close ← S.currentMetric "close" index
    let extreme ← S.conditionSeries rule.metric rule.window rule.aggregate
    pure <|
      match close, finiteAt extreme index with
      | some close, some extreme =>
        some (if rule.atLeast then decide (extreme * rule.factor ≤ close)
          else decide (close ≤ extreme * rule.factor))
      | _, _ => none
  | none, none => pure none

theorem baseConditionMatches_levels {condition : Condition F}
    (hasserted : booleanIsAsserted condition = some asserted)
    (hrule : booleanComparison condition.left = some (left, comparison, right)) (index : ℕ) :
    S.baseConditionMatches condition index =
      (fun state => state == some asserted) <$> S.flagState condition.left index := by
  unfold baseConditionMatches conditionArrays flagState currentMetric
  rw [hasserted, hrule]
  simp only [bind_assoc, pure_bind, map_bind, map_pure]
  refine bind_congr fun left => ?_
  refine bind_congr fun right => ?_
  rw [ConditionArrays.test]
  cases finiteAt left index with
  | none => rfl
  | some x =>
    cases finiteAt right index with
    | none => rfl
    | some y => cases comparison <;> rfl

theorem baseConditionMatches_window {condition : Condition F}
    (hasserted : booleanIsAsserted condition = some asserted)
    (hcomparison : booleanComparison condition.left = none)
    (hrule : booleanWindowRule (F := F) condition.left = some rule) (index : ℕ) :
    S.baseConditionMatches condition index =
      (fun state => state == some asserted) <$> S.flagState condition.left index := by
  unfold baseConditionMatches conditionArrays flagState currentMetric
  rw [hasserted, hcomparison, hrule]
  simp only [bind_assoc, pure_bind, map_bind, map_pure]
  refine bind_congr fun close => ?_
  refine bind_congr fun extreme => ?_
  rw [ConditionArrays.test]
  cases finiteAt close index with
  | none => rfl
  | some x =>
    cases finiteAt extreme index with
    | none => rfl
    | some y => rfl

/-- The state of a flag, undecided also where it cannot be computed. -/
def flagAt (caches : FeatureCaches F) (name : String) (index : ℕ) : Option Bool :=
  ((S.flagState name index).exec caches).1.toOption.join

/-- The store has a rule for the flag; else it reads a column of that name. -/
def HasFlag (F : Type) [NumPy F] (name : String) : Prop :=
  booleanComparison name ≠ none ∨ booleanWindowRule (F := F) name ≠ none

theorem conditionMatches_flag {condition : DescribedCondition F} (hconsecutive : condition.consecutive = none)
    (hasserted : booleanIsAsserted condition.toCondition = some asserted)
    (hrule : HasFlag F condition.left) (caches : FeatureCaches F) (index : ℕ) :
    ((S.conditionMatches condition index).exec caches).1 = .ok true ↔
      S.flagAt caches condition.left index = some asserted := by
  have hbase : S.baseConditionMatches condition.toCondition index =
      (fun state => state == some asserted) <$> S.flagState condition.left index := by
    cases hcomparison : booleanComparison condition.left with
    | some rule => exact S.baseConditionMatches_levels hasserted hcomparison index
    | none =>
      cases hwindow : booleanWindowRule (F := F) condition.left with
      | some rule => exact S.baseConditionMatches_window hasserted hcomparison hwindow index
      | none => exact absurd hwindow (hrule.resolve_left (not_not.mpr hcomparison))
  unfold conditionMatches flagAt
  rw [hconsecutive]
  dsimp only
  rw [hbase, map_eq_pure_bind, StateE.exec_bind]
  rcases (S.flagState condition.left index).exec caches with ⟨error | state, caches'⟩
  · exact iff_of_false nofun nofun
  · change (Except.ok (state == some asserted) : Except PyError Bool) = .ok true ↔ state = some asserted
    rw [Except.ok.injEq, beq_iff_eq]

/-- A flag without a rule never matches where the rows have no number under its name. -/
theorem conditionMatches_column {condition : DescribedCondition (Flt Binary64)}
    {S : PreparedFeatureStore (Flt Binary64)} (h : FlagCondition condition.toCondition r)
    (hconsecutive : condition.consecutive = none) (hrule : ¬HasFlag (Flt Binary64) condition.left)
    (hwindow : condition.window = none)
    (hmissing : finiteAt (S.rowMetricSeries condition.left (normalName condition.left)) index = none) :
    ((S.conditionMatches condition index).exec .empty).1 = .ok false := by
  obtain ⟨-, -, -, hspec, -, hratio, hcatalog, hnames⟩ := flagNames_plain _ h.flag
  simp only [HasFlag, not_or, not_not] at hrule
  simp only [List.mem_cons, List.not_mem_nil, or_false, not_or] at hnames
  obtain ⟨hprice, hclose, hopen, hhigh, hlow, hvolume, hrsi⟩ := hnames
  have hcolumn : S.priceColumn (normalName condition.left) = none := by
    simp only [priceColumn, hprice, hclose, hopen, hhigh, hlow, hvolume, or_false, if_false]
  rw [← h.canonical] at hspec hratio hcatalog hrsi hcolumn hmissing
  obtain ⟨caches, hseries⟩ := exec_metricSeries_row hcolumn hrsi hratio hspec hcatalog
  have harrays : (S.conditionArrays condition.toCondition).exec .empty =
      (.ok (.sides (S.rowMetricSeries condition.left (canonicalMetric condition.left))
        (.number (.num r * percentScale condition.left))), caches) := by
    unfold conditionArrays comparisonSides conditionSeries
    rw [hrule.1, hrule.2, h.right, hwindow]
    dsimp only
    rw [bind_assoc, StateE.exec_bind_ok hseries]
    rfl
  unfold conditionMatches baseConditionMatches
  rw [hconsecutive]
  dsimp only
  rw [StateE.exec_bind_ok harrays, ConditionArrays.test, comparisonValues, hmissing]
  rfl

end PreparedFeatureStore

/-- The condition says of each bar what the comparison of the flag's number says, in the rendered code
and in the store. -/
def FlagCompared (condition : DescribedCondition (Flt Binary64)) (r : Binary64) : Prop :=
  (∃ compiled, compileConditions [condition.toCondition] = some compiled ∧
    ∀ bar : SignalBar (Flt Binary64), bar.entryOk compiled = .ok true ↔
      condition.operator.relates
        (flagNumber (bar.flagState compiled.warmupBars (normalName condition.left))) r.value) ∧
    ∀ (S : PreparedFeatureStore (Flt Binary64)) (caches : FeatureCaches (Flt Binary64)) (index : ℕ),
      ((S.conditionMatches condition index).exec caches).1 = .ok true ↔
        condition.operator.relates (flagNumber (S.flagAt caches condition.left index)) r.value

theorem aboveAverage_unranked : ∀ x ∈ (none : Option (Flt Binary64)), 0 < x ∧ x ≤ 1 := unranked

/-- `close_above_sma_20 > 0` -/
def aboveAverage : DescribedCondition (Flt Binary64) where
  left := "close_above_sma_20"
  operator := .gt
  right := .number 0
  window := none
  aggregate := none
  scale := none
  consecutive := none
  universeRankPct := none
  description := none
  left_ne := by decide
  right_shape := trivial
  window_pos := pos_of_none
  consecutive_pos := pos_of_none
  rank_pos := aboveAverage_unranked

theorem aboveAverage_flag : FlagCondition aboveAverage.toCondition 0 where
  flag := by decide +kernel
  right := rfl

/-- One bar that closes above its average. -/
def risenStore : PreparedFeatureStore (Flt Binary64) :=
  ⟨[⟨"2024-01-02", "005930", .num ⟨100⟩, .num ⟨100⟩, .num ⟨100⟩, .num ⟨100⟩, .num ⟨1000⟩, .nan,
    Dict.empty.insert "sma20" (.number (.num ⟨90⟩))⟩]⟩

end QuantAgent.Features
