import QuantAgent.WalkForward.Metrics
import QuantAgent.Lib.SortedSet
import QuantAgent.Lib.PyExcept
import QuantAgent.Lib.Trace
import QuantAgent.Features.Store

namespace QuantAgent.WalkForward
open Features
set_option autoImplicit true

structure BacktestEquityPoint (F : Type) where
  date : String
  cumulativeReturn : F

/-- What `_official_benchmark_total_return` says of the official series. -/
structure OfficialReturn (F : Type) where
  totalReturn : Option F
  unavailableReason : Option String

structure BenchmarkContext (F : Type) where
  dailyReturns : List F
  selectionDays : ℕ
  selectionReturn : F
  totalReturn : Option F
  primaryAvailable : Bool
  primaryUnavailableReason : Option String
  auxiliaryLabel : String
  dailyReturnSessions : List String
  auxiliaryReturn : Option F

/-- The metrics an objective score is made of. -/
structure BacktestMetrics (F : Type) where
  inSampleSharpe : F
  inSampleReturn : F
  inSampleMaxDrawdown : F
  inSampleBenchmarkPeriodWinRate : Option F
  inSampleBenchmarkPeriodLossRate : Option F
  inSampleBenchmarkPeriodCount : Option ℕ

inductive SummaryValue (F : Type)
  | cell (value : Cell F)
  | mapping (entries : Dict String (Cell F))

abbrev EngineSummary (F : Type) := Dict String (SummaryValue F)

def AUXILIARY_BENCHMARK_LABEL : String := "유니버스 동일가중 프록시 — 공식 지수 아님"

def DEFAULT_FIXTURE_TICKER : String := "005930"

def MIN_OBJECTIVE_TRADES : ℕ := 5

section
variable {F : Type} [NumPy F]

def MAX_AUTOMATIC_BENCHMARK_LOSS_RATE : F := decimal 50 2

def MIN_OBJECTIVE_SHARPE : F := 0

def MAX_OBJECTIVE_DRAWDOWN : F := -decimal 50 2

def DEFAULT_COMMISSION_PCT : F := decimal 15 5

def DEFAULT_TAX_PCT : F := decimal 23 4

def DEFAULT_SLIPPAGE_PCT : F := decimal 1 3

def DEFAULT_MAX_POSITIONS_FOR_COST : F := lit 10

/-- `str(row.get("date"))` -/
def rowDate (row : Row F) : String := (row.value "date").str

def rowTicker (row : Row F) : String :=
  zfill 6 ((row.value "ticker").or (.text DEFAULT_FIXTURE_TICKER)).str

/-- `sorted({str(row.get("date")) for row in price_rows})` -/
def rowDates (rows : List (Row F)) : List String := sortedSet (rows.map rowDate)

def dailyReturnsFromBenchmarkCurve : List (BacktestEquityPoint F) → List F
  | [] => []
  | first :: points =>
    let rec go (previousEquity : F) (returns : List F) : List (BacktestEquityPoint F) → List F
      | [] => returns
      | point :: points =>
        let currentEquity := 1 + point.cumulativeReturn
        if previousEquity ≤ 0 then []
        else go currentEquity (returns ++ [currentEquity / previousEquity - 1]) points
    go (1 + first.cumulativeReturn) [] points

def calmarRatio (totalReturn maxDrawdown : F) : F :=
  let drawdown := NumPy.abs maxDrawdown
  if drawdown == 0 then 0 else totalReturn / drawdown

/-- `rows_by_ticker[ticker][date]`, if there is one. -/
def priceAt (rowsByTicker : Dict String (Dict String F)) (ticker date : String) : Option F :=
  (rowsByTicker.get? ticker).bind fun closes => closes.get? date

/-- The equal-weight basket while the dates go on. -/
structure Basket (F : Type) where
  latestPrices : Dict String F
  curve : List (BacktestEquityPoint F)

/-- One ticker of the basket on one date: its latest price and its value. -/
def stepTicker (rowsByTicker : Dict String (Dict String F)) (initialPrices : Dict String F)
    (date : String) (s : Dict String F × List F) (ticker : String) : Dict String F × List F :=
  let (latestPrices, values) := s
  let current := (priceAt rowsByTicker ticker date).getD ((latestPrices.get? ticker).getD 0)
  let initialPrice := (initialPrices.get? ticker).getD 0
  (latestPrices.insert ticker current,
    if initialPrice ≤ 0 then values else values ++ [current / initialPrice])

def stepDate (rowsByTicker : Dict String (Dict String F)) (universe_ : List String)
    (initialPrices : Dict String F) (basket : Basket F) (date : String) : Basket F :=
  let (latestPrices, values) :=
    universe_.foldl (stepTicker rowsByTicker initialPrices date) (basket.latestPrices, [])
  if values.isEmpty then { basket with latestPrices }
  else
    { latestPrices
      curve := basket.curve ++
        [⟨date, PyFloat.round METRIC_ROUND_DIGITS (pySum values / lit universe_.length - 1)⟩] }

/-- The tickers with a price on the first date. -/
def firstDayUniverse (rowsByTicker : Dict String (Dict String F)) (firstDate : String) : List String :=
  (pySorted (fun a b => decide (a < b))
    (rowsByTicker.keys.filter fun ticker => (priceAt rowsByTicker ticker firstDate).isSome)).filter
      fun ticker => (priceAt rowsByTicker ticker firstDate).any fun close => 0 < close

/-- The prices of the first date. -/
def firstDayPrices (rowsByTicker : Dict String (Dict String F)) (firstDate : String)
    (universe_ : List String) : Dict String F :=
  universe_.foldl (fun prices ticker =>
    prices.insert ticker ((priceAt rowsByTicker ticker firstDate).getD 0)) Dict.empty

/-- The curve of the prices of some dates. -/
def curveOf (rowsByTicker : Dict String (Dict String F)) : List String → List (BacktestEquityPoint F)
  | [] => []
  | firstDate :: dates =>
    let universe_ := firstDayUniverse rowsByTicker firstDate
    if universe_.isEmpty then []
    else
      let initialPrices := firstDayPrices rowsByTicker firstDate universe_
      (dates.foldl (stepDate rowsByTicker universe_ initialPrices)
        ⟨initialPrices, [⟨firstDate, 0⟩]⟩).curve

/-- The rows up to the cutoff session. -/
def selectionRows (rows : List (Row F)) (selectionDays : ℕ) : Except PyError (List (Row F)) := do
  let dates := rowDates rows
  let cutoff ← if dates.isEmpty then pure "" else dates[selectionDays - 1]?.elim (.error .indexError) .ok
  return rows.filter fun row => rowDate row ≤ cutoff

section
variable (parseFloat : String → Option F)

/-- `float(value)`, where a text is read by `parseFloat`. -/
def floatOf : Cell F → Except PyError F
  | .text s =>
    (parseFloat s).elim (.error (.valueError ("could not convert string to float: '" ++ s ++ "'"))) .ok
  | value => value.float

def finiteFloat (value : Cell F) (fieldName : String) : Except PyError F :=
  match value with
  | .bool _ => .error (.valueError (fieldName ++ " must be numeric"))
  | value => do
    let parsed ← floatOf parseFloat value
    if PyFloat.isFinite parsed then return parsed
    else .error (.valueError (fieldName ++ " must be finite"))

/-- One row of the table of closes; only a positive close enters it. -/
def addClose (rowsByTicker : Dict String (Dict String F)) (row : Row F) :
    Except PyError (Dict String (Dict String F)) := do
  let ticker := rowTicker row
  let close ← finiteFloat parseFloat (row.value "close") (ticker ++ "_close")
  return if 0 < close then rowsByTicker.upsert ticker Dict.empty (·.insert (rowDate row) close)
    else rowsByTicker

def equalWeightBenchmarkCurve (rows : List (Row F)) :
    Except PyError (List (BacktestEquityPoint F) × Option F) := do
  if rows.isEmpty then return ([], none)
  let rowsByTicker ← rows.foldlM (addClose parseFloat) Dict.empty
  if rowsByTicker.keys.isEmpty then return ([], none)
  let curve := curveOf rowsByTicker (rowDates rows)
  return (curve, curve.getLast?.map fun point => PyFloat.round METRIC_ROUND_DIGITS point.cumulativeReturn)

def buildBenchmarkContext (rows : List (Row F)) (official : OfficialReturn F) :
    Except PyError (BenchmarkContext F) := do
  let (auxiliaryCurve, _) ← equalWeightBenchmarkCurve parseFloat rows
  let selectionDays ← splitIndex F (rowDates rows).length
  let selectionIndex := min (selectionDays - 1) (auxiliaryCurve.length - 1)
  return {
    dailyReturns := dailyReturnsFromBenchmarkCurve auxiliaryCurve
    selectionDays
    selectionReturn := (auxiliaryCurve[selectionIndex]?.map (·.cumulativeReturn)).getD 0
    totalReturn := official.totalReturn
    primaryAvailable := official.totalReturn.isSome
    primaryUnavailableReason := official.unavailableReason
    auxiliaryLabel := AUXILIARY_BENCHMARK_LABEL
    dailyReturnSessions := auxiliaryCurve.tail.map (·.date)
    auxiliaryReturn := auxiliaryCurve.getLast?.map (·.cumulativeReturn) }

def summaryFloatDefault (summary : EngineSummary F) (key : String) (default : F) : F :=
  match summary.get? key with
  | none | some (.cell .none) | some (.cell (.text "")) | some (.mapping _) => default
  | some (.cell value) => (finiteFloat parseFloat value key).toOption.getD default

def coerceFloat (value : Cell F) (default : F) : F :=
  match floatOf parseFloat value with
  | .ok result => if PyFloat.isFinite result ∧ 0 ≤ result then result else default
  | .error _ => default

def turnoverCostPenalty (annualTurnover : F) (summary : EngineSummary F) : F :=
  let (commission, tax, slippage) :=
    match summary.get? "cost_model" with
    | some (.mapping costModel) =>
      (coerceFloat parseFloat (Row.value costModel "commission_pct") DEFAULT_COMMISSION_PCT,
        coerceFloat parseFloat (Row.value costModel "tax_pct") DEFAULT_TAX_PCT,
        coerceFloat parseFloat (Row.value costModel "slippage_pct") DEFAULT_SLIPPAGE_PCT)
    | _ => (DEFAULT_COMMISSION_PCT, DEFAULT_TAX_PCT, DEFAULT_SLIPPAGE_PCT)
  let roundTrip := lit 2 * commission + tax + lit 2 * slippage
  let positions :=
    match summary.get? "position_sizing" with
    | some (.mapping sizing) => coerceFloat parseFloat (Row.value sizing "max_positions") 0
    | _ => 0
  let positions := if positions ≤ 0 then DEFAULT_MAX_POSITIONS_FOR_COST else positions
  annualTurnover * roundTrip / positions

variable (pow : F → F → Except PyError F)

def annualizedReturn (totalReturn : F) (tradingDays : ℕ) : Except PyError F :=
  if tradingDays = 0 ∨ totalReturn ≤ -1 then return totalReturn
  else return (← pow (1 + totalReturn) (lit 252 / lit tradingDays)) - 1

/-- The score once the selection window and the return of the benchmark over it are known. -/
def scoreOf (metrics : BacktestMetrics F) (summary : EngineSummary F) (selectionDays : ℕ)
    (annualReturn benchmarkReturn : F) : Except PyError F := do
  let tradeCount := summaryFloatDefault parseFloat summary "selection_buy_count" 0
  let calmar := calmarRatio annualReturn metrics.inSampleMaxDrawdown
  let annualBenchmarkReturn ← annualizedReturn pow benchmarkReturn selectionDays
  let annualExcessReturn := annualReturn - annualBenchmarkReturn
  let benchmarkConsistency :=
    metrics.inSampleBenchmarkPeriodWinRate.getD 0 - metrics.inSampleBenchmarkPeriodLossRate.getD 0
  let annualTurnover := tradeCount * lit 252 / lit selectionDays
  let turnoverPenalty := turnoverCostPenalty parseFloat annualTurnover summary
  let score := decimal 35 2 * metrics.inSampleSharpe + decimal 15 2 * calmar +
    decimal 10 2 * annualReturn + lit 1 * annualExcessReturn + decimal 20 2 * benchmarkConsistency -
    decimal 5 2 * turnoverPenalty
  let score := if tradeCount < lit MIN_OBJECTIVE_TRADES then
    score - (lit MIN_OBJECTIVE_TRADES - tradeCount) * decimal 5 2 else score
  let score := if metrics.inSampleMaxDrawdown < MAX_OBJECTIVE_DRAWDOWN then
    score - NumPy.abs (metrics.inSampleMaxDrawdown - MAX_OBJECTIVE_DRAWDOWN) else score
  let score := if metrics.inSampleSharpe < MIN_OBJECTIVE_SHARPE then
    score - (MIN_OBJECTIVE_SHARPE - metrics.inSampleSharpe) * decimal 25 2 else score
  let score := if annualReturn ≤ 0 then
    score - (decimal 25 2 + NumPy.abs annualReturn * decimal 5 1) else score
  let score := if annualExcessReturn ≤ 0 then
    score - (decimal 35 2 + NumPy.abs annualExcessReturn) else score
  let score := match metrics.inSampleBenchmarkPeriodCount, metrics.inSampleBenchmarkPeriodLossRate with
    | some (_ + 1), some lossRate =>
      if MAX_AUTOMATIC_BENCHMARK_LOSS_RATE ≤ lossRate then score - (decimal 25 2 + lossRate) else score
    | _, _ => score
  return PyFloat.round METRIC_ROUND_DIGITS score

/-- The return of the benchmark over the rows up to the cutoff. -/
def recomputedBenchmarkReturn (rows : List (Row F)) (selectionDays : ℕ) : Except PyError F := do
  let selectionRows ← selectionRows rows selectionDays
  let (_, benchmarkReturn) ← equalWeightBenchmarkCurve parseFloat selectionRows
  return benchmarkReturn.getD 0

def objectiveScore (metrics : BacktestMetrics F) (summary : EngineSummary F) (rows : List (Row F))
    (context : Option (BenchmarkContext F)) : Except PyError F := do
  let selectionDays ← match context with
    | some context => pure context.selectionDays
    | none => splitIndex F (rowDates rows).length
  let annualReturn ← annualizedReturn pow metrics.inSampleReturn selectionDays
  let benchmarkReturn ← match context with
    | some context => pure context.selectionReturn
    | none => recomputedBenchmarkReturn parseFloat rows selectionDays
  scoreOf parseFloat pow metrics summary selectionDays annualReturn benchmarkReturn

end

section Table
variable {parseFloat : String → Option F} {rowsByTicker rowsByTicker' : Dict String (Dict String F)}

theorem addClose_ok {row : Row F} (h : addClose parseFloat rowsByTicker row = .ok rowsByTicker') :
    ∃ close, finiteFloat parseFloat (row.value "close") (rowTicker row ++ "_close") = .ok close ∧
      ∀ ticker date, priceAt rowsByTicker' ticker date =
        if 0 < close ∧ ticker = rowTicker row ∧ date = rowDate row then some close
        else priceAt rowsByTicker ticker date := by
  obtain ⟨close, hclose, hstore⟩ := bind_eq_ok.mp h
  refine ⟨close, hclose, ?_⟩
  intro ticker date
  cases hstore
  by_cases hpos : 0 < close
  · rw [if_pos hpos, priceAt, Dict.get?_upsert]
    by_cases hticker : ticker = rowTicker row
    · subst hticker
      rw [if_pos rfl, Option.bind_some, Dict.get?_insert]
      by_cases hdate : date = rowDate row
      · simp [hpos, hdate]
      · rw [if_neg hdate, if_neg fun h => hdate h.2.2, priceAt]
        cases rowsByTicker.get? (rowTicker row) with
        | none => rfl
        | some closes => rfl
    · rw [if_neg hticker, if_neg fun h => hticker h.2.1, priceAt]
  · rw [if_neg hpos, if_neg fun h => hpos h.1]

/-- Rows of other dates do not touch the prices of a date. -/
theorem prices_filter (p : String → Bool) {rows : List (Row F)}
    (hsame : ∀ ticker date, p date = true →
      priceAt rowsByTicker' ticker date = priceAt rowsByTicker ticker date)
    (h : rows.foldlM (addClose parseFloat) rowsByTicker = .ok table) :
    ∃ table', (rows.filter fun row => p (rowDate row)).foldlM (addClose parseFloat) rowsByTicker' =
        .ok table' ∧
      ∀ ticker date, p date = true → priceAt table' ticker date = priceAt table ticker date := by
  induction rows generalizing rowsByTicker rowsByTicker' with
  | nil =>
    cases h
    exact ⟨rowsByTicker', rfl, hsame⟩
  | cons row rows ih =>
    rw [List.foldlM_cons] at h
    obtain ⟨next, hnext, hrest⟩ := bind_eq_ok.mp h
    obtain ⟨close, hclose, hprice⟩ := addClose_ok hnext
    by_cases hkept : p (rowDate row) = true
    · obtain ⟨next', hnext'⟩ : ∃ next', addClose parseFloat rowsByTicker' row = .ok next' :=
        ⟨_, bind_eq_ok.mpr ⟨close, hclose, rfl⟩⟩
      obtain ⟨close', hclose', hprice'⟩ := addClose_ok hnext'
      obtain rfl : close = close' := Except.ok.inj (hclose.symm.trans hclose')
      rw [List.filter_cons_of_pos (p := fun row => p (rowDate row)) hkept, List.foldlM_cons, hnext']
      refine ih ?_ hrest
      intro ticker date hdate
      rw [hprice, hprice', hsame ticker date hdate]
    · rw [List.filter_cons_of_neg (p := fun row => p (rowDate row)) hkept]
      refine ih ?_ hrest
      intro ticker date hdate
      have hother : ¬(0 < close ∧ ticker = rowTicker row ∧ date = rowDate row) := by
        rintro ⟨-, -, rfl⟩
        exact hkept hdate
      rw [hprice, if_neg hother, hsame ticker date hdate]

end Table

section Prefix
variable {rowsByTicker rowsByTicker' : Dict String (Dict String F)} {universe_ : List String}
  {initialPrices : Dict String F}

theorem firstDayUniverse_congr (hsame : ∀ ticker,
    priceAt rowsByTicker' ticker firstDate = priceAt rowsByTicker ticker firstDate) :
    firstDayUniverse rowsByTicker' firstDate = firstDayUniverse rowsByTicker firstDate := by
  have hmem : ∀ (table : Dict String (Dict String F)) ticker, ticker ∈ table.keys.filter
      (fun ticker => (priceAt table ticker firstDate).isSome) ↔
        (priceAt table ticker firstDate).isSome := by
    intro table ticker
    rw [List.mem_filter, and_iff_right_iff_imp]
    intro hsome
    by_contra hnone
    rw [priceAt, Dict.get?_eq_none_iff.mpr hnone] at hsome
    cases hsome
  have hperm : (rowsByTicker'.keys.filter
      fun ticker => (priceAt rowsByTicker' ticker firstDate).isSome).Perm
        (rowsByTicker.keys.filter fun ticker => (priceAt rowsByTicker ticker firstDate).isSome) := by
    rw [List.perm_ext_iff_of_nodup (rowsByTicker'.keys_nodup.filter _) (rowsByTicker.keys_nodup.filter _)]
    intro ticker
    rw [hmem, hmem, hsame]
  have hkeys : ((rowsByTicker'.keys.filter
      fun ticker => (priceAt rowsByTicker' ticker firstDate).isSome).map id).Nodup := by
    rw [List.map_id]
    exact rowsByTicker'.keys_nodup.filter _
  have hsorted := @pySorted_congr _ _ _ (fun a b => decide (a < b)) id (fun _ _ => rfl) _ _ hkeys hperm
  rw [firstDayUniverse, firstDayUniverse, hsorted]
  apply List.filter_congr
  intro ticker _
  rw [hsame]

theorem stepDate_congr (hsame : ∀ ticker,
    priceAt rowsByTicker' ticker date = priceAt rowsByTicker ticker date) (basket : Basket F) :
    stepDate rowsByTicker' universe_ initialPrices basket date =
      stepDate rowsByTicker universe_ initialPrices basket date := by
  have hticker : stepTicker rowsByTicker' initialPrices date =
      stepTicker rowsByTicker initialPrices date := by
    funext s ticker
    rw [stepTicker, stepTicker, hsame]
  rw [stepDate, stepDate, hticker]

omit [NumPy F] in
theorem get?_foldl_insert {g : String → F} {tickers : List String} {prices : Dict String F}
    (h : ticker ∈ tickers ∨ prices.get? ticker = some (g ticker)) :
    (tickers.foldl (fun prices ticker => prices.insert ticker (g ticker)) prices).get? ticker =
      some (g ticker) := by
  induction tickers generalizing prices with
  | nil => exact h.resolve_left (List.not_mem_nil)
  | cons first tickers ih =>
    rw [List.foldl_cons]
    apply ih
    by_cases hfirst : ticker = first
    · right
      rw [hfirst, Dict.get?_insert_self]
    · rcases h with h | h
      · exact .inl ((List.mem_cons.mp h).resolve_left hfirst)
      · right
        rw [Dict.get?_insert, if_neg hfirst, h]

/-- Every ticker of the basket has cost something on its first day. -/
def Priced (universe_ : List String) (initialPrices : Dict String F) : Prop :=
  ∀ ticker ∈ universe_, ¬(initialPrices.get? ticker).getD 0 ≤ 0

/-- A return as the curve has it. -/
def CurveReturn (x : F) : Prop := ∃ y : F, x = PyFloat.round METRIC_ROUND_DIGITS (y - 1)

theorem length_values (rowsByTicker : Dict String (Dict String F)) (date : String)
    (h : Priced universe_ initialPrices) (s : Dict String F × List F) :
    (universe_.foldl (stepTicker rowsByTicker initialPrices date) s).2.length =
      s.2.length + universe_.length := by
  induction universe_ generalizing s with
  | nil => rfl
  | cons ticker tickers ih =>
    have hfirst := h ticker (List.mem_cons_self ..)
    rw [List.foldl_cons, ih fun other hother => h other (List.mem_cons_of_mem _ hother), stepTicker]
    simp only [if_neg hfirst, List.length_append, List.length_cons, List.length_nil]
    omega

/-- A date adds one point. -/
theorem stepDate_curve (rowsByTicker : Dict String (Dict String F))
    (h : Priced universe_ initialPrices) (hne : universe_ ≠ [])
    (basket : Basket F) (date : String) :
    ∃ x : F, CurveReturn x ∧
      (stepDate rowsByTicker universe_ initialPrices basket date).curve = basket.curve ++ [⟨date, x⟩] := by
  have hlength := length_values rowsByTicker date h (basket.latestPrices, [])
  have hpos := List.length_pos_iff.mpr hne
  have hvalues : (universe_.foldl (stepTicker rowsByTicker initialPrices date)
      (basket.latestPrices, [])).2.isEmpty = false := by
    rw [List.isEmpty_eq_false_iff, ← List.length_pos_iff, hlength]
    exact Nat.add_pos_right _ hpos
  refine ⟨_, ⟨pySum (universe_.foldl (stepTicker rowsByTicker initialPrices date)
    (basket.latestPrices, [])).2 / lit universe_.length, rfl⟩, ?_⟩
  simp only [stepDate, hvalues]
  rfl

theorem foldl_stepDate (rowsByTicker : Dict String (Dict String F))
    (h : Priced universe_ initialPrices) (hne : universe_ ≠ [])
    (basket : Basket F) (dates : List String) :
    ∃ points : List (BacktestEquityPoint F), points.map (·.date) = dates ∧
      (∀ point ∈ points, CurveReturn point.cumulativeReturn) ∧
      (dates.foldl (stepDate rowsByTicker universe_ initialPrices) basket).curve =
        basket.curve ++ points := by
  induction dates generalizing basket with
  | nil => exact ⟨[], rfl, nofun, (List.append_nil _).symm⟩
  | cons date dates ih =>
    obtain ⟨x, hx, hcurve⟩ := stepDate_curve rowsByTicker h hne basket date
    obtain ⟨points, hdates, hreturns, hpoints⟩ :=
      ih (stepDate rowsByTicker universe_ initialPrices basket date)
    refine ⟨⟨date, x⟩ :: points, ?_, ?_, ?_⟩
    · rw [List.map_cons, hdates]
    · intro point hpoint
      rcases List.mem_cons.mp hpoint with rfl | hpoint
      · exact hx
      · exact hreturns point hpoint
    · rw [List.foldl_cons, hpoints, hcurve, List.append_assoc, List.singleton_append]

theorem firstDayPrices_priced (rowsByTicker : Dict String (Dict String F))
    (hlaw : ∀ x : F, 0 < x → ¬x ≤ 0) (firstDate : String) :
    Priced (firstDayUniverse rowsByTicker firstDate)
      (firstDayPrices rowsByTicker firstDate (firstDayUniverse rowsByTicker firstDate)) := by
  intro ticker hticker
  have hprice := (List.mem_filter.mp hticker).2
  rw [firstDayPrices, get?_foldl_insert (.inl hticker), Option.getD_some]
  cases hfound : priceAt rowsByTicker ticker firstDate with
  | none =>
    rw [hfound] at hprice
    cases hprice
  | some price =>
    rw [hfound, Option.any_some, decide_eq_true_eq] at hprice
    exact hlaw price hprice

/-- The points of a curve are the dates, or there are none. -/
theorem curveOf_cons (hlaw : ∀ x : F, 0 < x → ¬x ≤ 0) (firstDate : String) (dates : List String) :
    firstDayUniverse rowsByTicker firstDate = [] ∧ curveOf rowsByTicker (firstDate :: dates) = [] ∨
      ∃ points : List (BacktestEquityPoint F), points.map (·.date) = dates ∧
        (∀ point ∈ points, CurveReturn point.cumulativeReturn) ∧
        curveOf rowsByTicker (firstDate :: dates) = ⟨firstDate, 0⟩ :: points := by
  by_cases hempty : firstDayUniverse rowsByTicker firstDate = []
  · refine .inl ⟨hempty, ?_⟩
    simp only [curveOf, hempty, List.isEmpty_nil, if_true]
  · right
    obtain ⟨points, hdates, hreturns, hpoints⟩ := foldl_stepDate rowsByTicker
      (firstDayPrices_priced rowsByTicker hlaw firstDate) hempty
      ⟨firstDayPrices rowsByTicker firstDate (firstDayUniverse rowsByTicker firstDate),
        [⟨firstDate, 0⟩]⟩ dates
    refine ⟨points, hdates, hreturns, ?_⟩
    simp only [curveOf, List.isEmpty_eq_false_iff.mpr hempty]
    exact hpoints

/-- The curve of the first dates is the start of the curve, whatever the later prices are. -/
theorem curveOf_take (hlaw : ∀ x : F, 0 < x → ¬x ≤ 0) (dates : List String) (k : ℕ)
    (hsame : ∀ date ∈ dates.take (k + 1), ∀ ticker,
      priceAt rowsByTicker' ticker date = priceAt rowsByTicker ticker date) :
    curveOf rowsByTicker' (dates.take (k + 1)) = (curveOf rowsByTicker dates).take (k + 1) := by
  cases dates with
  | nil => rfl
  | cons firstDate dates =>
    rw [List.take_succ_cons] at hsame ⊢
    have hfirst := hsame firstDate (List.mem_cons_self ..)
    have huniverse := firstDayUniverse_congr hfirst
    by_cases hempty : firstDayUniverse rowsByTicker firstDate = []
    · simp only [curveOf, huniverse, hempty, List.isEmpty_nil, if_true, List.take_nil]
    · have hpriced := firstDayPrices_priced rowsByTicker hlaw firstDate
      have hprices : firstDayPrices rowsByTicker' firstDate (firstDayUniverse rowsByTicker firstDate) =
          firstDayPrices rowsByTicker firstDate (firstDayUniverse rowsByTicker firstDate) := by
        simp only [firstDayPrices, hfirst]
      set start : Basket F := ⟨firstDayPrices rowsByTicker firstDate
        (firstDayUniverse rowsByTicker firstDate), [⟨firstDate, 0⟩]⟩ with hstart
      set step := stepDate rowsByTicker (firstDayUniverse rowsByTicker firstDate)
        (firstDayPrices rowsByTicker firstDate (firstDayUniverse rowsByTicker firstDate)) with hstep
      have hshort : curveOf rowsByTicker' (firstDate :: dates.take k) =
          ((dates.take k).foldl step start).curve := by
        simp only [curveOf, huniverse, hprices, List.isEmpty_eq_false_iff.mpr hempty]
        refine congrArg Basket.curve (List.foldl_ext _ _ _ ?_)
        intro basket date hdate
        exact stepDate_congr (hsame date (List.mem_cons_of_mem _ hdate)) basket
      have hlong : curveOf rowsByTicker (firstDate :: dates) =
          ((dates.drop k).foldl step ((dates.take k).foldl step start)).curve := by
        rw [← List.foldl_append, List.take_append_drop]
        simp only [curveOf, List.isEmpty_eq_false_iff.mpr hempty]
        rfl
      obtain ⟨points, hdates, -, hpoints⟩ := foldl_stepDate rowsByTicker hpriced
        hempty start (dates.take k)
      obtain ⟨later, hlater, -, happend⟩ := foldl_stepDate rowsByTicker hpriced
        hempty ((dates.take k).foldl step start) (dates.drop k)
      have hcount : ((dates.take k).foldl step start).curve.length = (dates.take k).length + 1 := by
        rw [hpoints, List.length_append, ← hdates, List.length_map, hstart]
        exact Nat.add_comm _ _
      rw [hshort, hlong, happend]
      rw [List.length_take] at hcount
      by_cases hk : k ≤ dates.length
      · rw [List.take_left' (by rw [hcount, min_eq_left hk])]
      · have hnone : later = [] := by
          rw [← List.map_eq_nil_iff, hlater, List.drop_eq_nil_of_le (not_le.mp hk).le]
        rw [hnone, List.append_nil]
        exact (List.take_of_length_le (by omega)).symm

end Prefix

/-- The empty cases of the source are those of the empty curve. -/
theorem equalWeightBenchmarkCurve_eq (parseFloat : String → Option F) (rows : List (Row F)) :
    equalWeightBenchmarkCurve parseFloat rows =
      (rows.foldlM (addClose parseFloat) Dict.empty).map fun table =>
        (curveOf table (rowDates rows), (curveOf table (rowDates rows)).getLast?.map fun point =>
          PyFloat.round METRIC_ROUND_DIGITS point.cumulativeReturn) := by
  cases rows with
  | nil => rfl
  | cons row rows =>
    rw [equalWeightBenchmarkCurve, List.isEmpty_cons]
    cases htable : (row :: rows).foldlM (addClose parseFloat) Dict.empty with
    | error e => rfl
    | ok table =>
      by_cases hkeys : table.keys = []
      · have hcurve : curveOf table (rowDates (row :: rows)) = [] := by
          cases rowDates (row :: rows) with
          | nil => rfl
          | cons firstDate dates =>
            have hempty : firstDayUniverse table firstDate = [] := by
              rw [firstDayUniverse, hkeys]
              rfl
            simp only [curveOf, hempty, List.isEmpty_nil, if_true]
        have hnone : table.keys.isEmpty = true := List.isEmpty_iff.mpr hkeys
        simp only [Except.map, bind, Except.bind, hcurve, hnone]
        rfl
      · have hsome : table.keys.isEmpty = false := List.isEmpty_eq_false_iff.mpr hkeys
        simp only [Except.map, bind, Except.bind, hsome]
        rfl

theorem rowDates_pairwise (rows : List (Row F)) : (rowDates rows).Pairwise (· < ·) :=
  sortedSet_pairwise _

theorem rows_eq_nil {rows : List (Row F)} (h : rowDates rows = []) : rows = [] := by
  rw [List.eq_nil_iff_forall_not_mem]
  intro row hrow
  have hdate : rowDate row ∈ rowDates rows := mem_sortedSet.mpr (List.mem_map_of_mem hrow)
  rw [h] at hdate
  cases hdate

theorem selectionRows_ok {rows : List (Row F)} {k : ℕ} (hcut : (rowDates rows)[k]? = some cutoff) :
    selectionRows rows (k + 1) = .ok (rows.filter fun row => rowDate row ≤ cutoff) := by
  have hne : (rowDates rows).isEmpty = false := by
    rw [List.isEmpty_eq_false_iff]
    intro hnil
    rw [hnil] at hcut
    cases hcut
  simp only [selectionRows, hne, Bool.false_eq_true, if_false, Nat.add_sub_cancel, hcut,
    Option.elim_some, ok_bind]
  rfl

theorem rowDates_filter {rows : List (Row F)} {k : ℕ} (hcut : (rowDates rows)[k]? = some cutoff) :
    rowDates (rows.filter fun row => rowDate row ≤ cutoff) = (rowDates rows).take (k + 1) := by
  rw [← filter_le_eq_take (rowDates_pairwise rows) hcut]
  apply sortedSet_eq ((rowDates_pairwise rows).filter _)
  intro date
  rw [List.mem_map, List.mem_filter, decide_eq_true_eq]
  constructor
  · rintro ⟨row, hrow, rfl⟩
    obtain ⟨hmem, hle⟩ := List.mem_filter.mp hrow
    exact ⟨mem_sortedSet.mpr (List.mem_map_of_mem hmem), of_decide_eq_true hle⟩
  · rintro ⟨hmem, hle⟩
    obtain ⟨row, hrow, rfl⟩ := List.mem_map.mp (mem_sortedSet.mp hmem)
    exact ⟨row, List.mem_filter.mpr ⟨hrow, decide_eq_true hle⟩, rfl⟩

end

section Doubles

theorem flt_pos_not_le (x : Flt Binary64) (h : 0 < x) : ¬x ≤ 0 := by
  cases x with
  | num x => exact not_le.mpr (show (0 : ℚ) < x.value from h)
  | nan => exact id

/-- A point of the curve is rounded already. -/
theorem CurveReturn.round_eq {x : Flt Binary64} (h : CurveReturn x) :
    PyFloat.round METRIC_ROUND_DIGITS x = x := by
  obtain ⟨y, rfl⟩ := h
  cases y with
  | num y => exact congrArg Flt.num (Binary64.round_round (Binary64.isDouble_ofRat _) _)
  | nan => rfl

theorem round_zero : PyFloat.round METRIC_ROUND_DIGITS (0 : Flt Binary64) = 0 := by
  rw [← Flt.whole_zero, Flt.round_whole (by decide)]

theorem splitIndex_spec (n : ℕ) :
    ∃ k, splitIndex (Flt Binary64) n = .ok (k + 1) ∧ (k = 0 ∨ k + 1 < n) := by
  obtain ⟨index, hindex, hpos, hle⟩ := splitIndex_le n
  obtain ⟨k, rfl⟩ := Nat.exists_eq_add_of_le' hpos
  exact ⟨k, hindex, by omega⟩

theorem curveReturn_round {table : Dict String (Dict String (Flt Binary64))} {dates : List String}
    (h : point ∈ curveOf table dates) :
    PyFloat.round METRIC_ROUND_DIGITS point.cumulativeReturn = point.cumulativeReturn := by
  cases dates with
  | nil => cases h
  | cons firstDate dates =>
    rcases curveOf_cons flt_pos_not_le firstDate dates with ⟨-, hcurve⟩ | ⟨points, -, hreturns, hcurve⟩
    · rw [hcurve] at h
      cases h
    · rw [hcurve] at h
      rcases List.mem_cons.mp h with rfl | h
      · exact round_zero
      · exact (hreturns point h).round_eq

theorem length_curveOf (table : Dict String (Dict String (Flt Binary64))) (dates : List String) :
    curveOf table dates = [] ∨ (curveOf table dates).length = dates.length := by
  cases dates with
  | nil => exact .inl rfl
  | cons firstDate dates =>
    rcases curveOf_cons flt_pos_not_le firstDate dates with ⟨-, hcurve⟩ | ⟨points, hdates, -, hcurve⟩
    · exact .inl hcurve
    · right
      rw [hcurve, ← hdates, List.length_cons, List.length_cons, List.length_map]

/-- The point of the whole curve at the cutoff is the last point of the curve up to it. -/
theorem selectionReturn_eq {table table' : Dict String (Dict String (Flt Binary64))}
    {dates : List String} (hk : k < dates.length)
    (hsame : ∀ date ∈ dates.take (k + 1), ∀ ticker,
      priceAt table' ticker date = priceAt table ticker date) :
    ((curveOf table dates)[min k ((curveOf table dates).length - 1)]?.map (·.cumulativeReturn)).getD 0 =
      ((curveOf table' (dates.take (k + 1))).getLast?.map fun point =>
        PyFloat.round METRIC_ROUND_DIGITS point.cumulativeReturn).getD 0 := by
  rw [curveOf_take flt_pos_not_le dates k hsame]
  rcases length_curveOf table dates with hcurve | hlength
  · rw [hcurve]
    rfl
  · obtain ⟨point, hpoint⟩ : ∃ point, (curveOf table dates)[k]? = some point :=
      ⟨_, List.getElem?_eq_getElem (hlength ▸ hk)⟩
    rw [min_eq_left (by omega), List.getLast?_take, if_neg (Nat.succ_ne_zero k), Nat.add_sub_cancel,
      hpoint, Option.some_or, Option.map_some, Option.map_some,
      curveReturn_round (List.mem_of_getElem? hpoint)]

/-- The context holds the return that the rows up to the cutoff give. -/
theorem context_return {parseFloat : String → Option (Flt Binary64)} {rows : List (Row (Flt Binary64))}
    {official : OfficialReturn (Flt Binary64)} {context : BenchmarkContext (Flt Binary64)}
    (h : buildBenchmarkContext parseFloat rows official = .ok context) :
    splitIndex (Flt Binary64) (rowDates rows).length = .ok context.selectionDays ∧
      recomputedBenchmarkReturn parseFloat rows context.selectionDays = .ok context.selectionReturn := by
  obtain ⟨k, hsplit, hk⟩ := splitIndex_spec (rowDates rows).length
  obtain ⟨⟨curve, total⟩, hcurve, h⟩ := bind_eq_ok.mp h
  rw [equalWeightBenchmarkCurve_eq] at hcurve
  cases htable : rows.foldlM (addClose parseFloat) Dict.empty with
  | error e =>
    rw [htable] at hcurve
    cases hcurve
  | ok table =>
    rw [htable] at hcurve
    cases hcurve
    simp only [hsplit] at h
    cases h
    refine ⟨hsplit, ?_⟩
    by_cases hempty : rowDates rows = []
    · rw [rows_eq_nil hempty]
      rfl
    · have hlt : k < (rowDates rows).length := by
        have hpos := List.length_pos_iff.mpr hempty
        omega
      obtain ⟨cutoff, hcutoff⟩ : ∃ cutoff, (rowDates rows)[k]? = some cutoff :=
        ⟨_, List.getElem?_eq_getElem hlt⟩
      obtain ⟨table', htable', hsame⟩ := prices_filter (fun date => decide (date ≤ cutoff))
        (fun _ _ _ => rfl) htable
      have hdates := rowDates_filter hcutoff
      have hagree : ∀ date ∈ (rowDates rows).take (k + 1), ∀ ticker,
          priceAt table' ticker date = priceAt table ticker date := by
        intro date hdate ticker
        rw [← hdates] at hdate
        obtain ⟨row, hrow, rfl⟩ := List.mem_map.mp (mem_sortedSet.mp hdate)
        exact hsame ticker _ (List.mem_filter.mp hrow).2
      have hreturn := selectionReturn_eq hlt hagree
      simp only [recomputedBenchmarkReturn, selectionRows_ok hcutoff, ok_bind,
        equalWeightBenchmarkCurve_eq, htable', hdates, Except.map, Nat.add_sub_cancel, hreturn]
      rfl

/-- The score with a benchmark built beforehand is the score that builds its own. -/
theorem objectiveScore_precomputed (parseFloat : String → Option (Flt Binary64))
    (pow : Flt Binary64 → Flt Binary64 → Except PyError (Flt Binary64))
    (metrics : BacktestMetrics (Flt Binary64)) (summary : EngineSummary (Flt Binary64))
    {rows : List (Row (Flt Binary64))} {official : OfficialReturn (Flt Binary64)}
    {context : BenchmarkContext (Flt Binary64)}
    (h : buildBenchmarkContext parseFloat rows official = .ok context) :
    objectiveScore parseFloat pow metrics summary rows (some context) =
      objectiveScore parseFloat pow metrics summary rows none := by
  obtain ⟨hdays, hreturn⟩ := context_return h
  simp only [objectiveScore, hdays, hreturn, pure_bind, ok_bind]

def closeRow (date : String) (close : ℤ) : Row (Flt Binary64) :=
  (Dict.empty.insert "date" (.text date)).insert "close" (.number (.whole close))

def twoCloses : List (Row (Flt Binary64)) := [closeRow "2024-01-02" 100, closeRow "2024-01-03" 110]

theorem twoCloses_context : ∃ context,
    buildBenchmarkContext (fun _ => none) twoCloses ⟨none, none⟩ = .ok context := by
  obtain ⟨k, hsplit, -⟩ := splitIndex_spec (rowDates twoCloses).length
  obtain ⟨table, htable⟩ : ∃ table, twoCloses.foldlM (addClose fun _ => none) Dict.empty = .ok table :=
    ⟨_, rfl⟩
  simp only [buildBenchmarkContext, equalWeightBenchmarkCurve_eq, htable, Except.map, ok_bind, hsplit]
  exact ⟨_, rfl⟩

theorem objectiveScore_precomputed_twoCloses : ∃ context,
    buildBenchmarkContext (fun _ => none) twoCloses ⟨none, none⟩ = .ok context ∧
      objectiveScore (fun _ => none) (fun x _ => .ok x) ⟨0, 0, 0, none, none, none⟩ Dict.empty twoCloses
          (some context) =
        objectiveScore (fun _ => none) (fun x _ => .ok x) ⟨0, 0, 0, none, none, none⟩ Dict.empty twoCloses
          none := by
  obtain ⟨context, h⟩ := twoCloses_context
  exact ⟨context, h, objectiveScore_precomputed _ _ _ _ h⟩

end Doubles
end QuantAgent.WalkForward
