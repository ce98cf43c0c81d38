import QuantAgent.Engine.FastPath
import QuantAgent.Engine.Solvency

namespace QuantAgent
set_option autoImplicit true

def oneShareBar (price : ℚ) (date : Date) : OhlcvBar ℚ :=
  ⟨date, "005930", price, price, price, price, 0, none⟩

theorem oneShareBar_sorted (price : ℚ) :
    [oneShareBar price 1, oneShareBar price 2].Pairwise fun a b => a.key ≤ b.key := by
  apply List.pairwise_pair.mpr
  exact (Prod.Lex.toLex_lt_toLex.mpr (.inl Nat.one_lt_two)).le

/-- Two days of one name at one price. -/
def oneShareRows (price : ℚ) : EngineRows ℚ where
  rows := [oneShareBar price 1, oneShareBar price 2]
  metricRows _ _ := none
  inputsNormalized := true
  promised _ := oneShareBar_sorted price

theorem fraction_one : 0 < (1 : ℚ) ∧ (1 : ℚ) ≤ 1 := by decide +kernel

/-- Spends all the cash on every signal. -/
def oneShareSpec (costModel : CostModel ℚ) : StrategySpec ℚ :=
  { buildSampleSpec with
    positionSizing := ⟨.fixedPercent ⟨1, fraction_one⟩, none⟩
    riskControls := ⟨⟨1, fraction_one⟩, none, none, ⟨1, fraction_one⟩⟩
    backtest :=
      { executionTiming := .nextOpen
        costModel
        executionCapacity := ⟨false, ⟨1, fraction_one⟩⟩
        corporateActions := [] }
    stopLoss_of_fixedRisk := by simp }

def buyOnFirst (date : Date) (_ : Ticker) : ℤ := if date = 1 then 1 else 0

/-- What a share costs, slippage and commission included. -/
def unitCash (costModel : CostModel ℚ) (price : ℚ) : ℚ :=
  price * (1 + costModel.slippagePct.val) * (1 + costModel.commissionPct.val)

theorem unitCash_pos (costModel : CostModel ℚ) (hprice : 0 < price) : 0 < unitCash costModel price := by
  have hslippage := costModel.slippagePct.property
  have hcommission := costModel.commissionPct.property
  unfold unitCash
  positivity

theorem buyBudget_oneShare (costModel : CostModel ℚ) {cash : ℚ} (hcash : 0 < cash) :
    buyBudget (oneShareSpec costModel).onGeneratedSignal cash 0 cash = cash := by
  unfold buyBudget
  rw [rat_pyMin, rat_pyMin, rat_pyMax]
  change min (min cash (cash * 1)) (max 0 (cash * 1 - 0)) = cash
  rw [mul_one, sub_zero, min_self, max_eq_right hcash.le, min_self]

/-- Cash for exactly one share buys one share. -/
theorem sizeBuy_oneShare {costModel : CostModel ℚ} (hprice : 0 < price) (order : PendingOrder ℚ)
    (hcosts : buyCosts costModel (oneShareBar price 2) (price * (1 + costModel.slippagePct.val)) 1 =
      .ok costs) :
    sizeBuy (oneShareSpec costModel).onGeneratedSignal 2 bars n (oneShareBar price 2)
        ⟨unitCash costModel price, Dict.empty⟩ order =
      .ok (settleBuy costModel 2 (oneShareBar price 2) (price * (1 + costModel.slippagePct.val))
        ⟨unitCash costModel price, Dict.empty⟩ order 1 1 costs) := by
  have hunit := unitCash_pos costModel hprice
  have hfloor : PyFloat.floorDiv (unitCash costModel price) (unitCash costModel price) = .ok 1 := by
    rw [rat_floorDiv, if_neg hunit.ne', div_self hunit.ne', Int.floor_one]
  have hvalue : markedValue bars OhlcvBar.open_ (Dict.empty : Dict Ticker (Position ℚ)) = 0 := rfl
  have hstrategy : ∀ (equity : ℚ) slots,
      strategyBudget (oneShareSpec costModel).onGeneratedSignal equity slots = .ok (equity * 1) :=
    fun _ _ => rfl
  have hcapacity : ∀ price, capacityQuantity (oneShareSpec costModel).onGeneratedSignal order price =
      .ok (none, none) := fun _ => rfl
  have hcost : (oneShareSpec costModel).onGeneratedSignal.backtest.costModel = costModel := rfl
  have hopen : (oneShareBar price 2).open_ = price := rfl
  have hcash : price * (1 + costModel.slippagePct.val) * (1 + costModel.commissionPct.val) =
      unitCash costModel price := rfl
  unfold sizeBuy
  simp only [hcost, hopen, hcash, hvalue, hstrategy, hcapacity, ok_bind, add_zero, mul_one]
  rw [if_neg (not_or.mpr ⟨Bool.noConfusion, not_le.mpr hunit⟩), buyBudget_oneShare costModel hunit,
    hfloor]
  simp only [ok_bind]
  change (buyCosts costModel (oneShareBar price 2) (price * (1 + costModel.slippagePct.val)) 1 >>=
    fun costs => _) = _
  rw [hcosts]
  rfl

/-- The order that day 1 leaves for day 2. -/
def oneShareOrder : PendingOrder ℚ :=
  ⟨"005930", .buy, 1, "generated BUY signal", none, none⟩

theorem execute_oneShare {costModel : CostModel ℚ} (hprice : 0 < price)
    (hbars : bars.get? "005930" = some (oneShareBar price 2))
    (hcosts : buyCosts costModel (oneShareBar price 2) (price * (1 + costModel.slippagePct.val)) 1 =
      .ok costs) :
    executePendingOrders (oneShareSpec costModel).onGeneratedSignal 2 bars
        ⟨unitCash costModel price, Dict.empty⟩ [oneShareOrder] =
      .ok (settleBuy costModel 2 (oneShareBar price 2) (price * (1 + costModel.slippagePct.val))
        ⟨unitCash costModel price, Dict.empty⟩ oneShareOrder 1 1 costs) := by
  have hreject : rejectAtOpen 2 bars oneShareOrder = none :=
    rejectAtOpen_eq_none.mpr ⟨_, hbars, rfl, not_le.mpr hprice⟩
  have heligible : eligibleOrders 2 [oneShareOrder] = [oneShareOrder] := rfl
  have hexecutable : executableOrders 2 bars [oneShareOrder] = [oneShareOrder] := by
    rw [executableOrders, heligible, List.filter_cons_of_pos (by rw [hreject]; rfl), List.filter_nil]
  have hsells : sellOrders [oneShareOrder] = [] := rfl
  have hbuys : buyOrders (Dict.empty : Dict Ticker (Position ℚ)) [oneShareOrder] = [oneShareOrder] :=
    rfl
  have hexecute : ∀ n, executeBuy (oneShareSpec costModel).onGeneratedSignal 2 bars n
      ⟨unitCash costModel price, Dict.empty⟩ oneShareOrder =
        sizeBuy (oneShareSpec costModel).onGeneratedSignal 2 bars n (oneShareBar price 2)
          ⟨unitCash costModel price, Dict.empty⟩ oneShareOrder := by
    intro n
    have hbars : bars.get? oneShareOrder.ticker = some (oneShareBar price 2) := hbars
    unfold executeBuy
    rw [hbars]
    rfl
  unfold executePendingOrders
  simp only [hexecutable, heligible, hsells, traceM, pure_bind, ok_bind, hbuys, List.filterMap_cons,
    hreject, List.filterMap_nil, List.map_nil, hexecute, sizeBuy_oneShare hprice _ hcosts]
  rfl

def oneShareMarket (price : ℚ) : MarketInputs ℚ := compactMarket (oneShareRows price)

def oneShareConfig (costModel : CostModel ℚ) (price : ℚ) : BacktestRunConfig ℚ :=
  { defaultConfig with initialCapital := unitCash costModel price, delistingGraceDays := 0 }

def oneShareBars (price : ℚ) (date : Date) : Bars ℚ :=
  Dict.empty.insert "005930" (oneShareBar price date)

theorem oneShareBars_get? (price : ℚ) (date : Date) :
    (oneShareBars price date).get? "005930" = some (oneShareBar price date) :=
  Dict.get?_insert_self ..

theorem oneShare_byDate (price : ℚ) (date : Date) (hdate : date = 1 ∨ date = 2) :
    (barsByDate (oneShareMarket price).ohlcvRows.rows).get? date = some (oneShareBars price date) := by
  rcases hdate with rfl | rfl <;> rfl

/-- The only signal of a day. -/
theorem oneShare_signals {eng : BacktestEngine ℚ}
    (heng : compactEngine (oneShareSpec costModel) (oneShareConfig costModel price)
      (oneShareMarket price) buyOnFirst = .ok eng) (hdate : date = 1 ∨ date = 2)
    (positions : Dict Ticker (Position ℚ))
    (hacted : ∀ i, actOnGenerated eng date (oneShareBar price date) positions ⟨[], []⟩ "005930" i
      (buyOnFirst date "005930") = .ok acted) :
    generateSignalsForDate eng eng.prepared date (oneShareBars price date) positions [] =
      .ok ((addRiskExit eng.spec date (oneShareBar price date) positions "005930" acted).1.orders,
        (addRiskExit eng.spec date (oneShareBar price date) positions "005930" acted).2) := by
  obtain ⟨-, -, hp, ha, -⟩ := ofPrepared_ok heng
  have hbar := oneShareBars_get? price date
  obtain ⟨i, hi, haction⟩ := (oneShareMarket price).action_at buyOnFirst
    (oneShare_byDate price date hdate) (Dict.mem_of_get? hbar)
  have hticker : generateCompactTickerSignal eng (prepareMarketData (oneShareMarket price))
      ((oneShareMarket price).sortedRows.map fun bar => buyOnFirst bar.date bar.ticker) date
        (oneShareBars price date) positions ⟨[], []⟩ "005930" =
          .ok (addRiskExit eng.spec date (oneShareBar price date) positions "005930" acted) := by
    unfold generateCompactTickerSignal
    simp only [hi, Option.elim_some, pure_bind, haction, hbar, hacted, ok_bind]
    rfl
  have hloop : signalLoop eng eng.prepared date (oneShareBars price date) positions ⟨[], []⟩ =
      .ok (addRiskExit eng.spec date (oneShareBar price date) positions "005930" acted) := by
    unfold signalLoop
    rw [hp, ha]
    change traceM _ _ ["005930"] = _
    rw [traceM, hticker, ok_bind]
    simp only [traceM, pure_bind, List.append_nil]
    rfl
  unfold generateSignalsForDate
  rw [List.map_nil, hloop]
  rfl

theorem oneShare_made {eng : BacktestEngine ℚ}
    (heng : compactEngine (oneShareSpec costModel) (oneShareConfig costModel price)
      (oneShareMarket price) buyOnFirst = .ok eng) :
    eng.spec = (oneShareSpec costModel).onGeneratedSignal ∧
      eng.config = oneShareConfig costModel price ∧ eng.generatedScores = none ∧
      ∀ date, date = 1 ∨ date = 2 →
        eng.todayBars (barsByTicker (oneShareMarket price).ohlcvRows.rows).keys date =
          some (oneShareBars price date) := by
  obtain ⟨hspec, hconfig, hp, -, hscores⟩ := ofPrepared_ok heng
  refine ⟨hspec, hconfig, hscores, fun date hdate => ?_⟩
  rw [todayBars_all _ (prepared_of_some hp), oneShare_byDate price date hdate]

/-- The first day queues the buy and trades nothing. -/
theorem oneShare_first {eng : BacktestEngine ℚ}
    (heng : compactEngine (oneShareSpec costModel) (oneShareConfig costModel price)
      (oneShareMarket price) buyOnFirst = .ok eng) :
    ∃ r, session eng (barsByTicker (oneShareMarket price).ohlcvRows.rows).keys eng.initialState 1 =
        .ok r ∧ r.1.cash = unitCash costModel price ∧ r.1.positions = Dict.empty ∧
      r.1.pendingOrders = [oneShareOrder] ∧ FeesCovered r.2 := by
  obtain ⟨hspec, hconfig, hscores, hbars⟩ := oneShare_made heng
  have hacted : ∀ i, actOnGenerated eng 1 (oneShareBar price 1) Dict.empty ⟨[], []⟩ "005930" i 1 =
      .ok (⟨[(.buy, "005930")], [oneShareOrder]⟩,
        [.audit (.submitted oneShareOrder "Queued for the next available open."),
          .signal ⟨1, "005930", .buy, "generated BUY signal", "generated BUY signal", ""⟩]) := by
    intro i
    have hscore : generatedScore eng i = .ok none := by
      unfold generatedScore
      rw [hscores]
      rfl
    unfold actOnGenerated
    rw [hscore]
    rfl
  have hsignals := oneShare_signals heng (.inl rfl) Dict.empty hacted
  have hforced : ∀ staleDays : Dict Ticker ℤ, writeOffStalePositions eng.spec eng.config 1
      (oneShareBars price 1) ⟨⟨unitCash costModel price, Dict.empty⟩, staleDays⟩ =
        .ok (⟨⟨unitCash costModel price, Dict.empty⟩, staleDays⟩, []) := fun _ => ite_self _
  have hcorporate : applyCorporateActions eng.spec 1 ⟨unitCash costModel price, Dict.empty⟩ =
      .ok (⟨unitCash costModel price, Dict.empty⟩, []) := by
    rw [hspec]
    rfl
  have hexecuted : executePendingOrders eng.spec 1 (oneShareBars price 1)
      ⟨unitCash costModel price, Dict.empty⟩ [] =
        .ok (⟨unitCash costModel price, Dict.empty⟩, []) := rfl
  have hcash : eng.initialState.cash = unitCash costModel price := by
    unfold BacktestEngine.initialState
    rw [hconfig]
    rfl
  have hpending : eng.initialState.pendingOrders = [] := rfl
  have hpositions : eng.initialState.positions = Dict.empty := rfl
  unfold session
  rw [hbars 1 (.inl rfl), hcash, hpending, hpositions]
  simp only [Option.elim_some, pure_bind, hcorporate, ok_bind, hexecuted, hforced,
    List.filter_nil, hsignals]
  refine ⟨_, rfl, rfl, rfl, rfl, fun e he => ?_⟩
  cases List.mem_singleton.mp he
  trivial

theorem settleBuy_get? : (settleBuy costModel date bar buyPrice book order requested quantity
    (costs : FillCosts ℚ)).1.positions.get? order.ticker =
      some ⟨order.ticker, quantity, date, buyPrice, PyFloat.ofInt quantity * buyPrice,
        costs.commissionCost, bar.close, order.reason⟩ := Dict.get?_insert_self ..

/-- The second day fills the buy. -/
theorem oneShare_second {eng : BacktestEngine ℚ} (hprice : 0 < price)
    (heng : compactEngine (oneShareSpec costModel) (oneShareConfig costModel price)
      (oneShareMarket price) buyOnFirst = .ok eng)
    (hcosts : buyCosts costModel (oneShareBar price 2) (price * (1 + costModel.slippagePct.val)) 1 =
      .ok costs) {s : EngineState ℚ} (hcash : s.cash = unitCash costModel price)
    (hpositions : s.positions = Dict.empty) (hpending : s.pendingOrders = [oneShareOrder]) :
    ∃ r, session eng (barsByTicker (oneShareMarket price).ohlcvRows.rows).keys s 2 = .ok r ∧
      r.1.cash = unitCash costModel price - (price * (1 + costModel.slippagePct.val) +
        costs.commissionCost) ∧ FeesCovered r.2 := by
  obtain ⟨hspec, hconfig, hscores, hbars⟩ := oneShare_made heng
  have hcorporate : applyCorporateActions eng.spec 2 ⟨unitCash costModel price, Dict.empty⟩ =
      .ok (⟨unitCash costModel price, Dict.empty⟩, []) := by
    rw [hspec]
    rfl
  have hexecuted := execute_oneShare hprice (oneShareBars_get? price 2) hcosts
  rw [← hspec] at hexecuted
  generalize hbought : settleBuy costModel 2 (oneShareBar price 2)
    (price * (1 + costModel.slippagePct.val)) ⟨unitCash costModel price, Dict.empty⟩ oneShareOrder 1 1
    costs = bought at hexecuted
  have hheld : bought.1.positions.get? "005930" = some _ := hbought ▸ settleBuy_get?
  have hmem : "005930" ∈ bought.1.positions := Dict.mem_of_get? hheld
  have hforced : writeOffStalePositions eng.spec eng.config 2 (oneShareBars price 2)
      ⟨bought.1, s.staleDays⟩ = .ok (⟨bought.1, s.staleDays⟩, []) := by
    rw [hconfig]
    rfl
  have hacted : ∀ i, actOnGenerated eng 2 (oneShareBar price 2) bought.1.positions ⟨[], []⟩ "005930"
      i 0 = .ok (⟨[], []⟩, [.signal ⟨2, "005930", .hold, "no actionable rule matched", "", ""⟩]) := by
    intro i
    unfold actOnGenerated
    rw [if_neg (by simp), if_neg (by simp), if_pos hmem]
    rfl
  have hrisk : addRiskExit eng.spec 2 (oneShareBar price 2) bought.1.positions "005930"
      (⟨[], []⟩, [.signal ⟨2, "005930", .hold, "no actionable rule matched", "", ""⟩]) =
        (⟨[], []⟩, [.signal ⟨2, "005930", .hold, "no actionable rule matched", "", ""⟩]) := by
    unfold addRiskExit
    rw [hheld, hspec]
    rfl
  have hsignals := oneShare_signals heng (.inr rfl) bought.1.positions hacted
  rw [hrisk] at hsignals
  unfold session
  rw [hbars 2 (.inr rfl), hcash, hpending, hpositions]
  simp only [Option.elim_some, pure_bind, hcorporate, ok_bind, hexecuted, hforced,
    List.filter_nil, hsignals]
  refine ⟨_, rfl, ?_, fun e he => ?_⟩
  · rw [← hbought]
    dsimp only [settleBuy]
    rw [rat_ofInt, Int.cast_one, one_mul]
  · rw [← hbought] at he
    cases List.mem_singleton.mp he
    exact nofun

/-- No run under a cost model ever owes cash, while the fees of its sales are covered. -/
def NoBorrowing (costModel : CostModel ℚ) : Prop :=
  ∀ (eng : BacktestEngine ℚ) selected s log, eng.spec.backtest.costModel = costModel →
    0 ≤ eng.config.initialCapital → eng.trace = .ok (selected, s, log) → FeesCovered log →
    NeverBorrowed eng.config.initialCapital log ∧
      ∀ point ∈ log.filterMap Entry.equity?, 0 ≤ point.cash

theorem feesCovered_silent (h : ∀ e ∈ out, Silent e) : FeesCovered out := by
  intro event he
  obtain ⟨e, hmem, haudit⟩ := List.mem_filterMap.mp he
  have hsilent := h e hmem
  cases hsilent with
  | signal => cases haudit
  | equity => cases haudit
  | submitted =>
    cases haudit
    trivial
  | declined hd =>
    cases haudit
    cases hd <;> trivial
  | expiredAtEnd =>
    cases haudit
    trivial

theorem noBorrowing_of_mode {costModel : CostModel ℚ}
    (hmode : costModel.roundingMode ≠ .halfUp ∨ costModel.commissionPct.val = 0) :
    NoBorrowing costModel := by
  rintro eng selected s log rfl h0 htrace hfees
  obtain ⟨days, hlooped, rfl⟩ := trace_looped htrace
  obtain ⟨hdays, hend⟩ := feesCovered_append.mp hfees
  have hincreasing := sessions_increasing eng selected.1
  have hsolvent := run_solvent hincreasing hmode h0 hdays hlooped.loop
  constructor
  · exact (hsolvent.silent (expireAtEnd_silent _ _)).never
  · rw [List.filterMap_append, expireAtEnd_equity, List.append_nil]
    exact run_closes hincreasing hmode h0 hdays hlooped.loop

/-- A price at which the commission of one share is half a rounding step. -/
def halfStepPrice (costModel : CostModel ℚ) : ℚ :=
  1 / (2 * costModel.commissionPct.val * 10 ^ costModel.roundingDecimals.val) /
    (1 + costModel.slippagePct.val)

theorem halfStepPrice_costs {costModel : CostModel ℚ} (hmode : costModel.roundingMode = .halfUp)
    (hcommission : 0 < costModel.commissionPct.val) :
    ∃ costs, buyCosts costModel (oneShareBar (halfStepPrice costModel) 2)
        (halfStepPrice costModel * (1 + costModel.slippagePct.val)) 1 = .ok costs ∧
      halfStepPrice costModel * (1 + costModel.slippagePct.val) * costModel.commissionPct.val <
        costs.commissionCost := by
  have hstep : (0 : ℚ) < 10 ^ costModel.roundingDecimals.val := by positivity
  have hslippage : 0 < 1 + costModel.slippagePct.val := by
    have hnonneg := costModel.slippagePct.property
    positivity
  have hvalue : halfStepPrice costModel * (1 + costModel.slippagePct.val) *
      costModel.commissionPct.val = 1 / 2 / 10 ^ costModel.roundingDecimals.val := by
    unfold halfStepPrice
    field_simp
  have hround : costDecimal costModel (1 / 2 / 10 ^ costModel.roundingDecimals.val) =
      .ok (1 / 10 ^ costModel.roundingDecimals.val) := by
    have hhalf : roundHalfUp (1 / 2) = 1 := by decide +kernel
    unfold costDecimal
    rw [hmode]
    dsimp only
    rw [rat_quantizeHalfUp, div_mul_cancel₀ _ hstep.ne', hhalf, Int.cast_one]
  obtain ⟨slippage, hslip⟩ : ∃ slippage, costDecimal costModel (PyFloat.ofInt 1 *
      (halfStepPrice costModel * (1 + costModel.slippagePct.val) - halfStepPrice costModel)) =
        .ok slippage := by
    unfold costDecimal
    rw [hmode]
    exact ⟨_, rfl⟩
  refine ⟨⟨1 / 10 ^ costModel.roundingDecimals.val, 0, slippage⟩, ?_, ?_⟩
  · have hopen : (oneShareBar (halfStepPrice costModel) 2).open_ = halfStepPrice costModel := rfl
    unfold buyCosts
    simp only [hopen, rat_ofInt, Int.cast_one, one_mul, hvalue, hround, ok_bind] at hslip ⊢
    rw [hslip]
    rfl
  · rw [hvalue]
    apply div_lt_div_of_pos_right _ hstep
    norm_num

theorem borrows_of_halfUp {costModel : CostModel ℚ} (hmode : costModel.roundingMode = .halfUp)
    (hcommission : 0 < costModel.commissionPct.val) : ¬NoBorrowing costModel := by
  intro hnone
  obtain ⟨costs, hcosts, hover⟩ := halfStepPrice_costs hmode hcommission
  have hprice : 0 < halfStepPrice costModel := by
    have hslippage := costModel.slippagePct.property
    unfold halfStepPrice
    positivity
  obtain ⟨eng, heng, hrows⟩ := compactEngine_ok (oneShareSpec costModel)
    (oneShareConfig costModel (halfStepPrice costModel)) (oneShareMarket (halfStepPrice costModel))
    buyOnFirst
  obtain ⟨hspec, hconfig, -, hbars⟩ := oneShare_made heng
  obtain ⟨-, -, hp, ha, -⟩ := ofPrepared_ok heng
  obtain ⟨⟨s₁, log₁⟩, hfirst, hcash, hpositions, hpending, hfees₁⟩ := oneShare_first heng
  obtain ⟨⟨s₂, log₂⟩, hsecond, hcash₂, hfees₂⟩ :=
    oneShare_second hprice heng hcosts hcash hpositions hpending
  have hsessions : eng.sessions
      (barsByTicker (oneShareMarket (halfStepPrice costModel)).ohlcvRows.rows).keys = [1, 2] := by
    unfold BacktestEngine.sessions
    rw [prepared_of_some hp]
    change List.filter _ [1, 2] = [1, 2]
    rw [List.filter_eq_self]
    intro date hdate
    rw [hbars date (by simpa using hdate)]
    rfl
  have hselected : eng.selectTickers =
      .ok ((barsByTicker (oneShareMarket (halfStepPrice costModel)).ohlcvRows.rows).keys, []) := by
    have hspec : eng.spec = (oneShareSpec costModel).onGeneratedSignal.withActions [] := hspec
    apply selectTickers_compact hspec hp ha
    rw [requiredMetricNames_onGeneratedSignal]
    simp
  have hstart : eng.checkRunnable = .ok () := by
    unfold BacktestEngine.checkRunnable
    rw [hrows, hspec]
    rfl
  have hloop : traceM (session eng
      (barsByTicker (oneShareMarket (halfStepPrice costModel)).ohlcvRows.rows).keys)
        eng.initialState [1, 2] = .ok (s₂, log₁ ++ (log₂ ++ [])) :=
    traceM_cons_ok.mpr ⟨s₁, log₁, log₂ ++ [], hfirst,
      traceM_cons_ok.mpr ⟨s₂, log₂, [], hsecond, rfl, rfl⟩, rfl⟩
  have htrace : ∃ r, eng.trace = .ok r ∧ FeesCovered r.2.2 ∧
      ∃ point ∈ r.2.2.filterMap Entry.equity?, point.cash < 0 := by
    unfold BacktestEngine.trace
    rw [hstart, hselected]
    simp only [ok_bind, hsessions, hloop]
    refine ⟨_, rfl, ?_, ?_⟩
    · rw [feesCovered_append, feesCovered_append, List.append_nil]
      exact ⟨⟨hfees₁, hfees₂⟩, feesCovered_silent (expireAtEnd_silent _ _)⟩
    · obtain ⟨bars, hequity⟩ := session_equity hsecond
      refine ⟨equityPoint 2 s₂.cash s₂.positions bars s₁.previousEquity, ?_, ?_⟩
      · rw [List.filterMap_append, List.filterMap_append, List.append_nil, hequity]
        exact List.mem_append_left _ (List.mem_append_right _ (List.mem_singleton.mpr rfl))
      · change s₂.cash < 0
        rw [hcash₂]
        unfold unitCash
        linarith
  obtain ⟨⟨selected, s, log⟩, hok, hfees, point, hpoint, hneg⟩ := htrace
  have h0 : 0 ≤ eng.config.initialCapital := by
    rw [hconfig]
    exact (unitCash_pos costModel hprice).le
  have hcost : eng.spec.backtest.costModel = costModel := by
    rw [hspec]
    rfl
  exact absurd ((hnone eng selected s log hcost h0 hok hfees).2 point hpoint) (not_le.mpr hneg)

instance : DecidablePred AuditEvent.FeesCovered
  | .executed _ order fill =>
    inferInstanceAs (Decidable (order.side = .sell →
      fill.commissionCost + fill.taxCost ≤ fill.quantity * fill.price))
  | .delistedWriteOff _ w => inferInstanceAs (Decidable (w.exitCost ≤ w.quantity * w.exitPrice))
  | .submitted _ _ | .expiredNextSession _ _ | .unfilledInvalidOpen _ _ _
  | .ignoredMissingPosition _ _ | .unfilledCapacity _ _ _ _ _ | .skippedMaxPositions _ _
  | .unfilled _ _ _ _ _ | .expiredNoNextSession _ _ | .corporateAction _ _ _ _ => .isTrue trivial

instance (log : List (Entry ℚ)) : Decidable (FeesCovered log) :=
  inferInstanceAs (Decidable (∀ e ∈ audits log, e.FeesCovered))

theorem nonNeg_zero : (0 : ℚ) ≤ 0 := by decide +kernel

theorem zero_lt_decimals : 0 < 11 := by decide

/-- A commission of half a percent, rounded half up to whole units. -/
def halfUpCosts : CostModel ℚ :=
  ⟨⟨1 / 200, by decide +kernel⟩, ⟨0, nonNeg_zero⟩, ⟨0, nonNeg_zero⟩, none, .halfUp, ⟨0, zero_lt_decimals⟩⟩

def halfUpRows : EngineRows ℚ where
  rows :=
    [⟨1, "005930", 100, 101, 100, 101, 1000, none⟩, ⟨2, "005930", 100, 101, 100, 101, 1000, none⟩]
  metricRows _ _ := none
  inputsNormalized := false
  promised := nofun

def halfUpEngine : BacktestEngine ℚ :=
  .ofRows (oneShareSpec halfUpCosts) { defaultConfig with initialCapital := 201 / 2 } halfUpRows
    none none

end QuantAgent
