import QuantAgent.Features.Evaluator
import QuantAgent.Features.Template
import QuantAgent.Features.Transparency
import QuantAgent.Features.RollingWindows
import QuantAgent.DataSource.Filings

namespace QuantAgent.Features
set_option autoImplicit true

section Streaks

theorem le_length_takeWhile {p : α → Bool} {l : List α} :
    n ≤ (l.takeWhile p).length ↔ n ≤ l.length ∧ ∀ a ∈ l.take n, p a = true := by
  induction l generalizing n with
  | nil => simp
  | cons a l ih =>
    cases n with
    | zero => simp
    | succ n =>
      rw [List.takeWhile_cons, List.take_succ_cons, List.forall_mem_cons, List.length_cons,
        Nat.succ_le_succ_iff]
      by_cases ha : p a = true
      · rw [if_pos ha, List.length_cons, Nat.succ_le_succ_iff, ih, and_iff_right ha]
      · rw [if_neg ha]
        simp [ha]

theorem streaks_causal (count : ℕ) : Causal (streaks count) := .loopMap _ _

/-- The streak after some bars is the run of matches they end in. -/
theorem streaks_state (count : ℕ) (matched : List Bool) :
    loopState (fun streak (hit : Bool) =>
      let streak := if hit then streak + 1 else 0
      (streak, decide (count ≤ streak))) 0 matched = (matched.reverse.takeWhile id).length := by
  induction matched using List.reverseRecOn with
  | nil => rfl
  | append_singleton matched hit ih =>
    rw [loopState_concat, ih, List.reverse_concat, List.takeWhile_cons]
    cases hit with
    | true => rfl
    | false => rfl

/-- The last bar has its streak when the last `count` bars are there and match. -/
theorem streaks_getLast? (hcount : 0 < count) (matched : List Bool) :
    (streaks count matched).getLast?.getD false =
      decide (count ≤ matched.length ∧ ∀ hit ∈ lastN count matched, hit = true) := by
  have hrun : ∀ matched : List Bool, (count ≤ (matched.reverse.takeWhile id).length ↔
      count ≤ matched.length ∧ ∀ hit ∈ lastN count matched, hit = true) := by
    intro matched
    rw [le_length_takeWhile, List.length_reverse, List.take_reverse]
    simp only [List.mem_reverse, id, lastN]
  rcases List.eq_nil_or_concat matched with rfl | ⟨front, hit, rfl⟩
  · simp [streaks, loopMap, hcount.ne']
  · rw [List.concat_eq_append, streaks, loopMap_concat, List.getLast?_concat, Option.getD_some,
      decide_eq_decide, ← hrun, ← streaks_state count (front ++ [hit]), loopState_concat]

end Streaks

namespace PreparedFeatureStore
variable {F : Type} [NumPy F] (S : PreparedFeatureStore F)

/-- The bar matches the condition without its `consecutive`. -/
def BareMatch (condition : Condition F) (index : ℕ) : Prop :=
  ((S.baseConditionMatches condition index).exec .empty).1 = .ok true

omit [NumPy F] in
/-- The bars of the ticker of a bar up to it. -/
def tickerPlaces (index : ℕ) : List ℕ :=
  (List.range (index + 1)).filter fun i => decide (S.tickers[i]? = S.tickers[index]?)

/-- The last `count` bars of the ticker are there and match one by one. -/
def EndsRun (condition : Condition F) (count index : ℕ) : Prop :=
  count ≤ (S.tickerPlaces index).length ∧
    ∀ i ∈ lastN count (S.tickerPlaces index), S.BareMatch condition i

variable {S}

theorem bareMatch_iff {condition : Condition F} {caches : FeatureCaches F}
    (h : (S.conditionArrays condition).exec .empty = (.ok arrays, caches)) :
    S.BareMatch condition index ↔
      arrays.test condition ((S.previousIndex[index]?).getD none) index = true := by
  unfold BareMatch baseConditionMatches
  rw [StateE.exec_bind_ok h]
  exact ⟨fun h => Except.ok.inj h, fun h => congrArg Except.ok h⟩

theorem not_bareMatch {condition : Condition F} {caches : FeatureCaches F}
    (h : (S.conditionArrays condition).exec .empty = (.error error, caches)) :
    ¬S.BareMatch condition index := by
  intro hmatch
  rw [BareMatch, baseConditionMatches, StateE.exec_bind, h] at hmatch
  cases hmatch

theorem streakMatches_getElem? (condition : Condition F) (hcount : 0 < count)
    (arrays : ConditionArrays F) (hi : index < S.size) :
    (S.streakMatches condition count arrays)[index]? =
      some (decide (count ≤ (S.tickerPlaces index).length ∧ ∀ i ∈ lastN count (S.tickerPlaces index),
        arrays.test condition ((S.previousIndex[i]?).getD none) i = true)) := by
  have hsize : S.tickers.length = S.size := List.length_map _
  have hkey : S.tickers[index]? = some (S.tickers.get ⟨index, hsize ▸ hi⟩) :=
    List.getElem?_eq_getElem (hsize ▸ hi)
  have hlen : (S.tickers.take (index + 1)).length = index + 1 := by
    rw [List.length_take, hsize]
    omega
  have hplaces : gather (S.tickers.take (index + 1)) (S.tickers.get ⟨index, hsize ▸ hi⟩)
      (List.range (index + 1)) = S.tickerPlaces index := by
    have hrange := gather_range (S.tickers.take (index + 1)) (S.tickers.get ⟨index, hsize ▸ hi⟩)
    rw [hlen] at hrange
    rw [hrange, tickerPlaces, hkey]
    apply List.filter_congr
    intro i hi
    rw [List.getElem?_take_of_lt (List.mem_range.mp hi)]
  have hrows : ∀ f : ℕ → Bool, ((List.range S.size).map f).length = S.tickers.length := fun f => by
    rw [List.length_map, List.length_range, hsize]
  have htake : (List.range S.size).take (index + 1) = List.range (index + 1) := by
    rw [List.take_range, min_eq_left hi]
  unfold streakMatches
  rw [getElem?_scatter false (streaks_causal count) (hrows _) hkey, ← List.map_take, htake, gather_map,
    hplaces, streaks_getLast? hcount, List.length_map]
  congr 2
  simp only [lastN, List.length_map, ← List.map_drop, List.forall_mem_map]

/-- A condition with `consecutive` is true of a bar that ends a run of matches, bar by bar. -/
theorem conditionMatches_consecutive {condition : DescribedCondition F}
    (hconsecutive : condition.consecutive = some count) (hi : index < S.size) :
    ((S.conditionMatches condition index).exec .empty).1 = .ok true ↔
      S.EndsRun condition.toCondition count index := by
  have hcount : 0 < count := condition.consecutive_pos count hconsecutive
  unfold conditionMatches
  rw [hconsecutive]
  dsimp only
  rw [StateE.exec_get_bind]
  rw [show FeatureCaches.empty.condition.get? condition.dumpJson = none from Dict.get?_empty]
  dsimp only
  rcases h : (S.conditionArrays condition.toCondition).exec .empty with ⟨arrays | arrays, caches⟩
  · have hlast : ¬S.EndsRun condition.toCondition count index := by
      rintro ⟨hlen, hmatch⟩
      have hne : lastN count (S.tickerPlaces index) ≠ [] := by
        rw [lastN, ne_eq, List.drop_eq_nil_iff]
        omega
      exact not_bareMatch h (hmatch _ (List.head_mem hne))
    rw [StateE.exec_bind, h]
    exact iff_of_false nofun hlast
  · rw [StateE.exec_bind_ok h, StateE.exec_modify_bind, StateE.exec_pure,
      streakMatches_getElem? _ hcount _ hi, Option.getD_some]
    simp only [EndsRun, bareMatch_iff h, Except.ok.injEq, decide_eq_true_eq]

end PreparedFeatureStore

section Compiled
variable {F : Type} [NumPy F]

theorem compileCross_ne_streak {condition : Condition F} :
    compileCross condition ≠ some (.streak metric count) := by
  intro h
  unfold compileCross at h
  cases hright : condition.right with
  | metric right =>
    rw [hright] at h
    simp only [Option.bind_eq_bind, Option.bind_eq_some_iff, Option.pure_def, Option.some.injEq,
      reduceCtorEq, and_false, exists_false] at h
  | number x =>
    rw [hright] at h
    cases h
  | band values =>
    rw [hright] at h
    cases h

/-- What the compiler turns into a streak. -/
structure StreakCondition (condition : Condition F) (metric : String) (count : ℕ) : Prop where
  consecutive : condition.consecutive = some count
  canonical : canonicalMetric condition.left = metric
  counted : metric ∈ streakMetrics
  expression : normalName condition.left ∉ booleanExpressions
  comparison : booleanComparison condition.left = none
  operator : condition.operator = .gt ∨ condition.operator = .gte

/-- No test but the one of the streak branch is a streak. -/
theorem StreakCondition.of_compileOne {condition : Condition F}
    (h : compileOne condition = some (.streak metric count)) :
    StreakCondition condition metric count := by
  unfold compileOne at h
  dsimp only at h
  split at h
  · simp only [Option.map_eq_some_iff, reduceCtorEq, and_false, exists_false] at h
  · rename_i hexpression
    split at h
    · obtain ⟨asserted, -, h⟩ := Option.bind_eq_some_iff.mp h
      split at h
      · simp only [Option.pure_def, Option.some.injEq, reduceCtorEq] at h
      · simp only [reduceCtorEq] at h
    · rename_i hcomparison
      split at h
      · rename_i count' hconsecutive
        split at h
        · rename_i hmetric
          split at h
          · rename_i hoperator
            simp only [Option.some.injEq, TestExpr.streak.injEq] at h
            obtain ⟨rfl, rfl⟩ := h
            exact ⟨hconsecutive, rfl, hmetric, hexpression, hcomparison, .inl hoperator⟩
          · rename_i hoperator
            simp only [Option.some.injEq, TestExpr.streak.injEq] at h
            obtain ⟨rfl, rfl⟩ := h
            exact ⟨hconsecutive, rfl, hmetric, hexpression, hcomparison, .inr hoperator⟩
          · simp only [reduceCtorEq] at h
        · simp only [reduceCtorEq] at h
      · split at h
        · simp only [reduceCtorEq] at h
        · split at h
          · simp only [Option.bind_eq_bind, Option.bind_eq_some_iff, Option.pure_def, Option.some.injEq,
              reduceCtorEq, and_false, exists_false] at h
          · exact absurd h compileCross_ne_streak
          · exact absurd h compileCross_ne_streak
          · simp only [Option.bind_eq_bind, Option.bind_eq_some_iff, Option.pure_def, Option.some.injEq,
              reduceCtorEq, and_false, exists_false] at h

theorem compileOne_streak {condition : Condition F} (h : StreakCondition condition metric count) :
    compileOne condition = some (.streak metric count) := by
  unfold compileOne
  dsimp only
  rw [if_neg h.expression, h.comparison, h.consecutive, h.canonical]
  dsimp only
  rw [if_pos h.counted]
  rcases h.operator with hoperator | hoperator <;> rw [hoperator]

/-- The names of the window rules are names of expressions. -/
theorem booleanWindowRule_eq_none (h : normalName name ∉ booleanExpressions) :
    booleanWindowRule (F := F) name = none := by
  unfold booleanExpressions at h
  simp only [List.mem_cons, List.not_mem_nil, or_false, not_or] at h
  simp only [booleanWindowRule, booleanWindowRules, List.lookup_cons, beq_eq_false_iff_ne.mpr h.1,
    beq_eq_false_iff_ne.mpr h.2.1, beq_eq_false_iff_ne.mpr h.2.2.1, List.lookup_nil]

/-- `{metric}_up_streak >= count` on a row. -/
def FiledStreak (row : Row F) (metric : String) (count : ℕ) : Prop :=
  match row.value (metric ++ "_up_streak") with
  | .number x => lit count ≤ x
  | .bool b => lit count ≤ (if b then 1 else 0 : F)
  | _ => False

theorem SignalBar.test_streak (bar : SignalBar F) (metric : String) (count : ℕ) :
    bar.test (.streak metric count) = .ok true ↔ FiledStreak bar.row metric count := by
  change (Except.ok (Reading.le (.value (lit count)) (bar.row.fin (metric ++ "_up_streak"))) :
    Eval Bool) = .ok true ↔ _
  unfold FiledStreak Row.fin
  rw [Except.ok.injEq]
  cases bar.row.value (metric ++ "_up_streak") with
  | none => exact iff_of_false Bool.false_ne_true id
  | bool b => exact decide_eq_true_iff
  | number x => exact decide_eq_true_iff
  | text s => exact iff_of_false Bool.false_ne_true id

/-- Evaluator and compiled test say the same of every bar of a history. -/
def StreakAgrees (condition : DescribedCondition F) (metric : String) (count : ℕ)
    (rows : List (Row F)) : Prop :=
  ∀ S, PreparedFeatureStore.ofRows rows false = .ok S → ∀ (index : ℕ) (bar : Bar F) (signal : SignalBar F),
    S.bars[index]? = some bar → signal.row = bar.row →
    (((S.conditionMatches condition index).exec .empty).1 = .ok true ↔
      signal.test (.streak metric count) = .ok true)

/-- A bar with a count of rises and no figure. -/
def countedRow (metric : String) (count : ℕ) : Row F :=
  ((((Dict.empty.insert "date" (.text "2024-01-02")).insert "ticker" (.text "005930")).insert "close"
    (.number 1)).insert (metric ++ "_up_streak") (.number (lit count)))

theorem countedRow_get? (metric : String) (count : ℕ) (key : String) :
    (countedRow (F := F) metric count).get? key =
      if metric ++ "_up_streak" = key then some (.number (lit count))
      else if "close" = key then some (.number 1)
      else if "ticker" = key then some (.text "005930")
      else if "date" = key then some (.text "2024-01-02")
      else none := by
  unfold countedRow
  simp only [Dict.get?_insert, Dict.get?_empty, eq_comm]

/-- A count has a column of its own. -/
theorem upStreak_ne (h : metric ∈ streakMetrics) :
    ∀ key ∈ ["date", "ticker", "close", "open", "high", "low", "volume", "rsi", "RSI_14"],
      metric ++ "_up_streak" ≠ key := by
  have hall : ∀ m ∈ streakMetrics,
      ∀ key ∈ ["date", "ticker", "close", "open", "high", "low", "volume", "rsi", "RSI_14"],
        m ++ "_up_streak" ≠ key := by decide +kernel
  exact hall metric h

def countedBar (metric : String) (count : ℕ) : Bar F :=
  ⟨"2024-01-02", "005930", 1, 1, 1, 1, 0, NumPy.nan, countedRow metric count⟩

/-- The store of the one bar. -/
def countedStore (metric : String) (count : ℕ) : PreparedFeatureStore F := ⟨[countedBar metric count]⟩

theorem countedRow_bar (h : metric ∈ streakMetrics) (count : ℕ) :
    (countedRow (F := F) metric count).bar = .ok (countedBar metric count) := by
  have hkey := upStreak_ne h
  simp only [List.forall_mem_cons, List.not_mem_nil, false_implies, implies_true, and_true] at hkey
  obtain ⟨hdate, hticker, hclose, hopen, hhigh, hlow, hvolume, hrsi, hrsi14⟩ := hkey
  have hself : ∀ cell : Cell F, cell.or cell = cell := fun cell => ite_self cell
  have hnone : optionalMetric (countedRow (F := F) metric count) ["rsi", "RSI_14"] = NumPy.nan := by
    simp [optionalMetric, Row.value, countedRow_get?, hrsi, hrsi14]
  have hday : ((Cell.text "2024-01-02" : Cell F).or (.text "")).str = "2024-01-02" := by
    simp [Cell.or, Cell.truthy, Cell.str]
  have hfill : zfill 6 "005930" = "005930" := by decide +kernel
  have hcode : zfill 6 ((Cell.text "005930" : Cell F).or (.text "000000")).str = "005930" := by
    simpa [Cell.or, Cell.truthy, Cell.str] using hfill
  unfold Row.bar Row.floatOrClose Row.closeCell Row.date Row.ticker Row.value
  rw [hnone]
  simp only [countedRow_get?, hdate, hticker, hclose, hopen, hhigh, hlow, hvolume, if_false, if_true,
    String.reduceEq, Option.elim_some, Option.getD_none, Option.getD_some, hself, hday, hcode]
  rfl

theorem countedRow_store (h : metric ∈ streakMetrics) (count : ℕ) :
    PreparedFeatureStore.ofRows [countedRow (F := F) metric count] false =
      .ok (countedStore metric count) := by
  have hmap : [countedRow (F := F) metric count].mapM Row.bar = .ok [countedBar metric count] := by
    rw [List.mapM_cons, countedRow_bar h]
    rfl
  have hsorted : pySorted (fun a b => dateTickerLT (a.date, a.ticker) (b.date, b.ticker))
      [countedRow (F := F) metric count] = [countedRow metric count] := rfl
  unfold PreparedFeatureStore.ofRows
  rw [if_neg Bool.false_ne_true, hsorted]
  dsimp only
  rw [hmap]
  rfl

/-- No spelling of the metric is a key of the row. -/
theorem countedRow_value (h : canonicalMetric name = metric) (hmetric : metric ∈ streakMetrics)
    (count : ℕ) : (countedRow (F := F) metric count).value name = .none ∧
      (countedRow (F := F) metric count).value metric = .none := by
  have hkeys : ∀ m ∈ streakMetrics, ∀ key ∈ [m ++ "_up_streak", "close", "ticker", "date"],
      canonicalMetric key ∉ streakMetrics ∧ m ≠ key := by decide +kernel
  have hkey := hkeys metric hmetric
  have hname : ∀ key ∈ [metric ++ "_up_streak", "close", "ticker", "date"], ¬key = name := by
    rintro key hmem rfl
    exact (hkey key hmem).1 (h ▸ hmetric)
  have hmetrics : ∀ key ∈ [metric ++ "_up_streak", "close", "ticker", "date"], ¬key = metric :=
    fun key hmem heq => (hkey key hmem).2 heq.symm
  simp only [List.forall_mem_cons, List.not_mem_nil, false_implies, implies_true, and_true]
    at hname hmetrics
  obtain ⟨hn₁, hn₂, hn₃, hn₄⟩ := hname
  obtain ⟨hm₁, hm₂, hm₃, hm₄⟩ := hmetrics
  unfold Row.value
  rw [countedRow_get?, countedRow_get?, if_neg hn₁, if_neg hn₂, if_neg hn₃, if_neg hn₄, if_neg hm₁,
    if_neg hm₂, if_neg hm₃, if_neg hm₄]
  exact ⟨rfl, rfl⟩

/-- A figure with a count is read off the rows. -/
theorem exec_metricSeries_counted (S : PreparedFeatureStore F) (h : canonicalMetric name = metric)
    (hmetric : metric ∈ streakMetrics) : ∃ caches,
      (S.metricSeries name).exec .empty = (.ok (S.rowMetricSeries name metric), caches) := by
  have htable : ∀ m ∈ streakMetrics, m ∉ ["price", "close", "open", "high", "low", "volume", "rsi"] ∧
      derivedRatios.lookup m = none ∧ derivedSeriesSpec m = none ∧ catalogMetric? m = none := by
    decide +kernel
  obtain ⟨hprices, hratio, hspec, hcatalog⟩ := htable metric hmetric
  simp only [List.mem_cons, List.not_mem_nil, or_false, not_or] at hprices
  obtain ⟨hprice, hclose, hopen, hhigh, hlow, hvolume, hrsi⟩ := hprices
  subst h
  refine PreparedFeatureStore.exec_metricSeries_row ?_ hrsi hratio hspec hcatalog
  simp only [PreparedFeatureStore.priceColumn, hprice, hclose, hopen, hhigh, hlow, hvolume, or_false,
    if_false]

theorem rollingMetricValues_singleton (hwindow : 0 < window) (aggregate : Aggregate) (x : F) :
    rollingMetricValues window aggregate [x] = [NumPy.nan] := by
  cases aggregate with
  | max => rfl
  | min => rfl
  | last => rfl
  | avg => simp [rollingMetricValues, prefixMap, windowTotal, hwindow.ne']
  | sum => simp [rollingMetricValues, prefixMap, windowTotal, hwindow.ne']

end Compiled

section Floats
variable {K : Type} [PyFloat K] [PySqrt K]

/-- The figure is missing on the one bar. -/
theorem rowMetricSeries_counted (h : canonicalMetric name = metric) (hmetric : metric ∈ streakMetrics)
    (count : ℕ) : (countedStore (F := Flt K) metric count).rowMetricSeries name
      metric = [.nan] := by
  obtain ⟨hname, hvalue⟩ := countedRow_value (F := Flt K) h hmetric count
  unfold PreparedFeatureStore.rowMetricSeries PreparedFeatureStore.column countedStore
  simp only [List.map_cons, List.map_nil, countedBar, hname, hvalue, Cell.measured, ite_self]
  rfl

theorem exec_conditionSeries_counted (h : canonicalMetric name = metric)
    (hmetric : metric ∈ streakMetrics) (count : ℕ) (hwindow : ∀ n ∈ window, 0 < n)
    (aggregate : Option Aggregate) : ∃ x caches,
      ((countedStore (F := Flt K) metric count).conditionSeries name window
        aggregate).exec .empty = (.ok x, caches) ∧ finiteAt x 0 = none := by
  obtain ⟨caches, hseries⟩ := exec_metricSeries_counted
    (countedStore (F := Flt K) metric count) h hmetric
  rw [rowMetricSeries_counted h hmetric] at hseries
  unfold PreparedFeatureStore.conditionSeries
  cases window with
  | none => exact ⟨_, caches, hseries, rfl⟩
  | some window =>
    cases aggregate with
    | none => exact ⟨_, caches, hseries, rfl⟩
    | some aggregate =>
      have hrolling : (((countedStore (F := Flt K) metric count).rollingMetric name window
          aggregate).exec .empty).1 = .ok ((countedStore (F := Flt K) metric count).byTicker
            (rollingMetricValues window aggregate) [.nan]) :=
        rollingMetric_exec Dict.get?_empty hseries
      have hvalue : (countedStore (F := Flt K) metric count).byTicker
          (rollingMetricValues window aggregate) [.nan] = [.nan] := by
        refine (scatter_singleton _ _ _ _).trans ?_
        rw [rollingMetricValues_singleton (hwindow window rfl)]
        rfl
      rcases hrun : ((countedStore (F := Flt K) metric count).rollingMetric name window aggregate).exec
        .empty with ⟨result, caches'⟩
      rw [hvalue, hrun] at hrolling
      exact ⟨[.nan], caches', Prod.ext hrolling rfl, rfl⟩

/-- The bar without the figure does not match, whatever it is compared with. -/
theorem not_bareMatch_counted {condition : Condition (Flt K)} (h : StreakCondition condition metric count) :
    ¬(countedStore (F := Flt K) metric count).BareMatch condition 0 := by
  have hsides : ∀ (left : List (Flt K)) (right : Side (Flt K)) (previous : Option ℕ), finiteAt left 0 = none →
      (ConditionArrays.sides left right).test condition previous 0 = false := by
    intro left right previous hleft
    rw [ConditionArrays.test, comparisonValues, hleft]
    rfl
  have harrays : (countedStore (F := Flt K) metric count).conditionArrays condition =
      (countedStore (F := Flt K) metric count).comparisonSides condition >>= fun sides =>
        pure (.sides sides.1 sides.2) := by
    unfold PreparedFeatureStore.conditionArrays
    rw [h.comparison, booleanWindowRule_eq_none h.expression]
  obtain ⟨x, caches, hseries, hx⟩ := exec_conditionSeries_counted (K := K) h.canonical h.counted count
    condition.window_pos condition.aggregate
  obtain ⟨caches', hplain⟩ := exec_metricSeries_counted
    (countedStore (F := Flt K) metric count) h.canonical h.counted
  rw [rowMetricSeries_counted h.canonical h.counted] at hplain
  cases hright : condition.right with
  | number r =>
    have hexec : ((countedStore (F := Flt K) metric count).conditionArrays
        condition).exec .empty = (.ok (.sides x (.number (r * percentScale condition.left))), caches) := by
      rw [harrays, PreparedFeatureStore.comparisonSides, hright]
      dsimp only
      rw [bind_assoc, StateE.exec_bind_ok hseries]
      rfl
    rw [PreparedFeatureStore.bareMatch_iff hexec, hsides _ _ _ hx]
    exact Bool.false_ne_true
  | band values =>
    have hshape := condition.right_shape
    rw [hright] at hshape
    rcases h.operator with hoperator | hoperator <;> rw [hoperator] at hshape <;> exact hshape.elim
  | metric other =>
    rcases hother : ((countedStore (F := Flt K) metric count).conditionSeries other
        condition.window condition.aggregate).exec caches' with ⟨error | right, caches''⟩
    · have hraises : ((countedStore (F := Flt K) metric count).conditionArrays condition).exec .empty =
          (.error error, caches'') := by
        rw [harrays, PreparedFeatureStore.comparisonSides, hright]
        dsimp only
        rw [bind_assoc, StateE.exec_bind_ok hplain, bind_assoc, StateE.exec_bind, hother]
      exact PreparedFeatureStore.not_bareMatch hraises
    · have hexec : ((countedStore (F := Flt K) metric count).conditionArrays
          condition).exec .empty = (.ok (.sides [.nan] (.series right)), caches'') := by
        rw [harrays, PreparedFeatureStore.comparisonSides, hright]
        dsimp only
        rw [bind_assoc, StateE.exec_bind_ok hplain, bind_assoc, StateE.exec_bind_ok hother]
        rfl
      rw [PreparedFeatureStore.bareMatch_iff hexec, hsides _ _ _ rfl]
      exact Bool.false_ne_true

end Floats

/-- A streak compiles to a count of filings and is evaluated as a count of bars: at a bar the two say
the same where the bare comparison holds of the last `count` bars just if the filed count is reached,
and no condition has that on every history. -/
theorem streak_agreement {condition : DescribedCondition (Flt Binary64)}
    (h : compileOne condition.toCondition = some (.streak metric count)) :
    (∀ (S : PreparedFeatureStore (Flt Binary64)) (index : ℕ) (bar : Bar (Flt Binary64))
      (signal : SignalBar (Flt Binary64)), S.bars[index]? = some bar → signal.row = bar.row →
      ((((S.conditionMatches condition index).exec .empty).1 = .ok true ↔
          signal.test (.streak metric count) = .ok true) ↔
        (S.EndsRun condition.toCondition count index ↔ FiledStreak bar.row metric count))) ∧
      ∃ rows, ¬StreakAgrees condition metric count rows := by
  have hstreak := StreakCondition.of_compileOne h
  constructor
  · intro S index bar signal hbar hrow
    have hi : index < S.size := (List.getElem?_eq_some_iff.mp hbar).1
    rw [PreparedFeatureStore.conditionMatches_consecutive hstreak.consecutive hi, signal.test_streak, hrow]
  · refine ⟨[countedRow metric count], fun hagrees => ?_⟩
    let signal : SignalBar (Flt Binary64) := ⟨countedRow metric count, 1, 1, 1, 1, 0, .empty⟩
    have hsame := hagrees _ (countedRow_store hstreak.counted count) 0 (countedBar metric count) signal rfl rfl
    rw [PreparedFeatureStore.conditionMatches_consecutive hstreak.consecutive Nat.zero_lt_one,
      signal.test_streak] at hsame
    have hfiled : FiledStreak (countedRow (F := Flt Binary64) metric count) metric count := by
      unfold FiledStreak Row.value
      rw [countedRow_get?, if_pos rfl]
      exact le_refl (Binary64.ofRat count).value
    obtain ⟨hlong, hmatch⟩ := hsame.mpr hfiled
    have hplaces : (countedStore (F := Flt Binary64) metric count).tickerPlaces 0 = [0] := rfl
    have hcount := condition.consecutive_pos count hstreak.consecutive
    rw [hplaces, List.length_singleton] at hlong
    obtain rfl : count = 1 := by omega
    exact not_bareMatch_counted hstreak (hmatch 0 (by rw [hplaces]; exact List.mem_singleton_self 0))

theorem soldTwice_pos : ∀ n ∈ some 2, 0 < n := by simp

theorem soldTwice_unranked : ∀ x ∈ (none : Option (Flt Binary64)), 0 < x ∧ x ≤ 1 := unranked

/-- `revenue > 0` for two in a row. -/
def soldTwice : DescribedCondition (Flt Binary64) where
  left := "revenue"
  operator := .gt
  right := .number 0
  window := none
  aggregate := none
  scale := none
  consecutive := some 2
  universeRankPct := none
  description := none
  left_ne := by decide
  right_shape := trivial
  window_pos := pos_of_none
  consecutive_pos := soldTwice_pos
  rank_pos := soldTwice_unranked

theorem soldTwice_compiled : compileOne soldTwice.toCondition = some (.streak "revenue" 2) :=
  compileOne_streak ⟨rfl, by decide +kernel, by decide +kernel, by decide +kernel, by decide +kernel, .inl rfl⟩

theorem soldTwice_agreement :
    (∀ (S : PreparedFeatureStore (Flt Binary64)) (index : ℕ) (bar : Bar (Flt Binary64))
      (signal : SignalBar (Flt Binary64)), S.bars[index]? = some bar → signal.row = bar.row →
      ((((S.conditionMatches soldTwice index).exec .empty).1 = .ok true ↔
          signal.test (.streak "revenue" 2) = .ok true) ↔
        (S.EndsRun soldTwice.toCondition 2 index ↔ FiledStreak bar.row "revenue" 2))) ∧
      ∃ rows, ¬StreakAgrees soldTwice "revenue" 2 rows :=
  streak_agreement soldTwice_compiled

theorem filingYear_mem : 1 ≤ 2024 ∧ 2024 ≤ 9999 := by decide

/-- Two bars under one filing. -/
def filedRows : List (Row (Flt Binary64)) :=
  let row := fun day => ((Dict.empty.insert "date" (.text day)).insert "ticker" (.text "005930")).insert
    "close" (.number 1)
  let filing : DataSource.FilingRecord (Flt Binary64) :=
    ⟨.text "005930", ⟨2024, 1, 1, filingYear_mem, by decide, by decide⟩, .none, .none, .none,
      .number (lit 100), .none, .none⟩
  ((DataSource.attachPointInTimeFinancials [row "2024-01-02", row "2024-01-03"]
    (DataSource.fetchFinancialTimeline [filing])).toOption).getD []

/-- The second bar ends a run of two bars, on which no figure has risen yet. -/
theorem filedRows_disagree : ¬ ∀ (condition : DescribedCondition (Flt Binary64)) (metric : String)
    (count : ℕ) (rows : List (Row (Flt Binary64))),
    compileOne condition.toCondition = some (.streak metric count) →
      StreakAgrees condition metric count rows := by
  intro h
  obtain ⟨S, hS⟩ := exists_ok (x := PreparedFeatureStore.ofRows filedRows false) (by decide +kernel)
  have hevaluated : ((PreparedFeatureStore.ofRows filedRows false).bind fun S =>
      ((S.conditionMatches soldTwice 1).exec .empty).1).toOption = some true := by decide +kernel
  have hfiled : ((PreparedFeatureStore.ofRows filedRows false).toOption.bind fun S =>
      S.bars[1]?.map fun bar => Reading.le (.value (lit 2)) (bar.row.fin ("revenue" ++ "_up_streak"))) =
        some false := by decide +kernel
  rw [hS] at hevaluated hfiled
  obtain ⟨bar, hbar, hle⟩ := Option.map_eq_some_iff.mp hfiled
  let signal : SignalBar (Flt Binary64) := ⟨bar.row, 1, 1, 1, 1, 0, .empty⟩
  have hagrees := h soldTwice "revenue" 2 filedRows soldTwice_compiled S hS 1 bar signal hbar rfl
  have htrue : ((S.conditionMatches soldTwice 1).exec .empty).1 = .ok true := by
    change ((S.conditionMatches soldTwice 1).exec .empty).1.toOption = some true at hevaluated
    cases hresult : ((S.conditionMatches soldTwice 1).exec .empty).1 with
    | error e =>
      rw [hresult] at hevaluated
      cases hevaluated
    | ok matched =>
      rw [hresult] at hevaluated
      exact congrArg Except.ok (Option.some.inj hevaluated)
  have htest : (Except.ok (Reading.le (.value (lit 2)) (bar.row.fin ("revenue" ++ "_up_streak"))) :
      Eval Bool) = .ok true := hagrees.mp htrue
  rw [hle] at htest
  cases htest

end QuantAgent.Features
