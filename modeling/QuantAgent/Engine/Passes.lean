import QuantAgent.Engine.Backtest

namespace QuantAgent
set_option autoImplicit true

section
variable {F : Type} [PyFloat F]

/-- Audit events that close an order without a fill. -/
inductive Declined (date : Date) (order : PendingOrder F) : AuditEvent F → Prop
  | expired : Declined date order (.expiredNextSession date order)
  | invalidOpen : Declined date order (.unfilledInvalidOpen date order detail)
  | missing : Declined date order (.ignoredMissingPosition date order)
  | capacity : Declined date order (.unfilledCapacity date order reason requested detail)
  | positionCap : Declined date order (.skippedMaxPositions date order)
  | unfilled : Declined date order (.unfilled date order reason price requested)

theorem rejectAtOpen_declined {bars : Bars F} (h : rejectAtOpen date bars order = some e) :
    Declined date order e := by
  unfold rejectAtOpen at h
  split at h
  · cases h
    exact .expired
  · split at h
    · cases h
      exact .invalidOpen
    · cases h

theorem rejectAtOpen_eq_none {bars : Bars F} :
    rejectAtOpen date bars order = none ↔ ∃ bar, bars.get? order.ticker = some bar ∧
      PyFloat.isFinite bar.open_ = true ∧ ¬bar.open_ ≤ 0 := by
  unfold rejectAtOpen
  cases bars.get? order.ticker with
  | none => simp
  | some bar => simp

/-- A sell leaves the book alone or fills part of the position at the slipped open. -/
inductive SellCases (spec : StrategySpec F) (date : Date) (bars : Bars F) (book : Book F)
    (order : PendingOrder F) : Book F × List (Entry F) → Prop
  | declined : Declined date order e → SellCases spec date bars book order (book, [.audit e])
  | filled : book.positions.get? order.ticker = some position →
      bars.get? order.ticker = some bar →
      sellPrice = bar.open_ * (1 - spec.backtest.costModel.slippagePct.val) →
      0 < quantity → quantity ≤ position.quantity →
      sellCosts spec.backtest.costModel bar sellPrice quantity = .ok costs →
      SellCases spec date bars book order
        (settleSell spec.backtest.costModel date sellPrice position book order quantity costs)

theorem capQuantity_le (quantity : ℤ) (capacity : Option ℤ) :
    capQuantity quantity capacity ≤ quantity := by
  cases capacity with
  | none => exact le_refl _
  | some c => exact min_le_left _ _

theorem executeSell_cases {book : Book F} (h : executeSell spec date bars book order = .ok r) :
    SellCases spec date bars book order r := by
  unfold executeSell at h
  split at h
  · cases h
    exact .declined .missing
  · rename_i position hpos
    split at h
    · cases h
    · rename_i bar hbar
      obtain ⟨capacity, -, h⟩ := bind_ok_iff.mp h
      split at h
      · cases h
        exact .declined .capacity
      · by_cases hq : capQuantity position.quantity capacity.1 ≤ 0
        · rw [if_pos hq] at h
          cases h
          exact .declined .capacity
        · rw [if_neg hq] at h
          obtain ⟨costs, hcosts, h⟩ := bind_ok_iff.mp h
          cases h
          exact .filled hpos hbar rfl (not_le.mp hq) (capQuantity_le _ _) hcosts

/-- The share counts a buy is sized by. -/
structure BuySize (spec : StrategySpec F) (bars : Bars F) (orderCount : ℕ) (book : Book F)
    (unitCash : F) (requestedQuantity quantity : ℤ) : Prop where
  affordable : ∃ cashQuantity, PyFloat.floorDiv book.cash unitCash = .ok cashQuantity ∧
    quantity ≤ max 0 cashQuantity
  requested : quantity ≤ requestedQuantity
  pos : 0 < quantity

/-- A buy leaves the book alone or opens a position at the slipped open. -/
inductive BuyCases (spec : StrategySpec F) (date : Date) (bars : Bars F) (orderCount : ℕ)
    (book : Book F) (order : PendingOrder F) : Book F × List (Entry F) → Prop
  | declined : Declined date order e →
      BuyCases spec date bars orderCount book order (book, [.audit e])
  | filled : bars.get? order.ticker = some bar →
      buyPrice = bar.open_ * (1 + spec.backtest.costModel.slippagePct.val) →
      ¬buyPrice * (1 + spec.backtest.costModel.commissionPct.val) ≤ 0 →
      BuySize spec bars orderCount book
        (buyPrice * (1 + spec.backtest.costModel.commissionPct.val)) requestedQuantity quantity →
      buyCosts spec.backtest.costModel bar buyPrice quantity = .ok costs →
      BuyCases spec date bars orderCount book order
        (settleBuy spec.backtest.costModel date bar buyPrice book order requestedQuantity quantity
          costs)

theorem executeBuy_cases {book : Book F}
    (h : executeBuy spec date bars orderCount book order = .ok r) :
    BuyCases spec date bars orderCount book order r := by
  unfold executeBuy at h
  split at h
  · cases h
    exact .declined .positionCap
  · split at h
    · cases h
    · rename_i bar hbar
      unfold sizeBuy at h
      dsimp only at h
      split at h
      · cases h
        exact .declined .invalidOpen
      · rename_i hunit
        obtain ⟨budget, -, h⟩ := bind_ok_iff.mp h
        obtain ⟨budgetQuantity, -, h⟩ := bind_ok_iff.mp h
        obtain ⟨cashQuantity, hcash, h⟩ := bind_ok_iff.mp h
        obtain ⟨capacity, -, h⟩ := bind_ok_iff.mp h
        split at h
        · cases h
          exact .declined .capacity
        · split at h
          · cases h
            exact .declined .unfilled
          · rename_i hq
            obtain ⟨costs, hcosts, h⟩ := bind_ok_iff.mp h
            cases h
            have hle := capQuantity_le (min (max 0 budgetQuantity) (max 0 cashQuantity)) capacity.1
            refine .filled hbar rfl (fun hle => hunit (.inr hle)) ⟨⟨cashQuantity, hcash, ?_⟩, ?_,
              not_le.mp hq⟩ hcosts
            · exact hle.trans (min_le_right _ _)
            · exact hle.trans (min_le_left _ _)

/-- A corporate action is skipped or applied to the position it names. -/
inductive ActionCases (date : Date) (book : Book F) (event : CorporateActionEvent F) :
    Book F × List (Entry F) → Prop
  | skipped : ActionCases date book event (book, [])
  | applied : event.effectiveDate = date → book.positions.get? event.ticker = some position →
      applyToPosition book event.ticker position event.eventType = .ok (book', applied) →
      ActionCases date book event
        (book', [.audit (.corporateAction date event.ticker event.sourceVerified applied)])

theorem applyCorporateAction_cases {book : Book F}
    (h : applyCorporateAction date book event = .ok r) : ActionCases date book event r := by
  unfold applyCorporateAction at h
  split at h
  · cases h
    exact .skipped
  · rename_i hdate
    split at h
    · cases h
      exact .skipped
    · rename_i position hpos
      obtain ⟨⟨book', applied⟩, happ, h⟩ := bind_ok_iff.mp h
      cases h
      exact .applied (not_not.mp hdate) hpos happ

/-- What each event type does to the position it names. -/
inductive AppliedCases (book : Book F) (ticker : Ticker) (position : Position F) :
    CorporateActionType F → Book F → AppliedAction F → Prop
  | split : PyFloat.trunc (PyFloat.ofInt position.quantity * ratio.val) = .ok newQuantity →
      0 < newQuantity →
      AppliedCases book ticker position (.split ratio)
        { book with positions := book.positions.insert ticker (splitPosition position newQuantity) }
        (.split position.quantity newQuantity)
  | dividend :
      AppliedCases book ticker position (.cashDividend perShare)
        { book with cash := book.cash + PyFloat.ofInt position.quantity * perShare.val }
        (.cashDividend (PyFloat.ofInt position.quantity * perShare.val))
  | delist :
      AppliedCases book ticker position (.delist recovery)
        ⟨book.cash + PyFloat.ofInt position.quantity * recovery.val, book.positions.erase ticker⟩
        (.delistRecovery (PyFloat.ofInt position.quantity * recovery.val))

theorem applyToPosition_cases {book : Book F}
    (h : applyToPosition book ticker position kind = .ok (book', applied)) :
    AppliedCases book ticker position kind book' applied := by
  cases kind with
  | split ratio =>
    obtain ⟨newQuantity, hn, h⟩ := bind_ok_iff.mp h
    split at h
    · cases h
    · rename_i hpos
      cases h
      exact .split hn (not_le.mp hpos)
  | cashDividend perShare =>
    cases h
    exact .dividend
  | delist recovery =>
    cases h
    exact .delist

/-- A held ticker is left alone, apart from its stale-day count, or written off. -/
inductive StaleCases (spec : StrategySpec F) (config : BacktestRunConfig F) (date : Date)
    (bars : Bars F) (s : StaleBook F) (ticker : Ticker) : StaleBook F × List (Entry F) → Prop
  | counted : StaleCases spec config date bars s ticker (⟨s.book, staleDays⟩, [])
  | writtenOff : ticker ∉ bars → s.book.positions.get? ticker = some position →
      StaleCases spec config date bars s ticker
        (writeOff spec.backtest.costModel config date s ticker position)

theorem writeOffStalePosition_cases {s : StaleBook F}
    (h : writeOffStalePosition spec config date bars s ticker = .ok r) :
    StaleCases spec config date bars s ticker r := by
  unfold writeOffStalePosition at h
  split at h
  · cases h
    exact .counted
  · rename_i hbar
    dsimp only at h
    split at h
    · cases h
      exact .counted
    · split at h
      · cases h
      · rename_i position hpos
        cases h
        exact .writtenOff hbar hpos

/-- What a ticker adds to the queue: nothing, or one order with its `submitted` audit. -/
inductive QueueCases (date : Date) (positions : Dict Ticker (Position F)) (s : SignalState F)
    (ticker : Ticker) : SignalState F × List (Entry F) → Prop
  | idle : s'.orders = s.orders → out.filterMap Entry.audit? = [] →
      out.filterMap Entry.trade? = [] → out.filterMap Entry.equity? = [] →
      QueueCases date positions s ticker (s', out)
  | queued : s'.orders = s.orders ++ [order] → order.ticker = ticker → order.signalDate = date →
      (order.side = .buy ↔ ticker ∉ positions) →
      out.filterMap Entry.audit? = [.submitted order detail] →
      out.filterMap Entry.trade? = [] → out.filterMap Entry.equity? = [] →
      QueueCases date positions s ticker (s', out)

theorem queueRiskExit_cases {s : SignalState F} (hpos : ticker ∈ positions) :
    QueueCases date positions s ticker (queueRiskExit spec date bar position s ticker) := by
  unfold queueRiskExit
  split
  · exact .idle rfl rfl rfl rfl
  · exact .queued rfl rfl rfl (by simp [hpos]) rfl rfl rfl

omit [PyFloat F] in
theorem QueueCases.cons_signal (h : QueueCases date positions s ticker (s', out)) :
    QueueCases date positions s ticker (s', .signal (F := F) record :: out) := by
  cases h with
  | idle ho ha ht he => exact .idle ho ha ht he
  | queued ho htick hdate hside ha ht he => exact .queued ho htick hdate hside ha ht he

theorem generateTickerSignal_cases {positions : Dict Ticker (Position F)}
    (h : generateTickerSignal spec metricsByKey previousMetricsByKey date bars positions s ticker =
      .ok r) : QueueCases date positions s ticker r := by
  obtain ⟨metrics, -, h⟩ := bind_ok_iff.mp h
  obtain ⟨bar, -, h⟩ := bind_ok_iff.mp h
  obtain ⟨decision, -, h⟩ := bind_ok_iff.mp h
  cases h
  apply QueueCases.cons_signal
  split
  · rename_i hbuy
    exact .queued rfl rfl rfl (by simp [hbuy.2.1]) rfl rfl rfl
  · split
    · rename_i hsell
      exact .queued rfl rfl rfl (by simp [hsell.2.1]) rfl rfl rfl
    · split
      · rename_i position hpos
        split
        · exact queueRiskExit_cases (Dict.mem_of_get? hpos)
        · exact .idle rfl rfl rfl rfl
      · exact .idle rfl rfl rfl rfl

omit [PyFloat F] in
theorem queueGenerated_pending (s : SignalState F) :
    (side, ticker) ∈ (queueGenerated date bar s ticker side reason score).1.pendingTickers := by
  unfold queueGenerated
  split
  · exact List.mem_cons_self ..
  · rename_i h
    exact not_not.mp h

omit [PyFloat F] in
theorem queueGenerated_cases {s : SignalState F} (hside : side = .buy ↔ ticker ∉ positions) :
    QueueCases date positions s ticker
      ((queueGenerated date bar s ticker side reason score).1,
        (queueGenerated date bar s ticker side reason score).2 ++ [.signal record]) := by
  unfold queueGenerated
  split
  · exact .queued rfl rfl rfl hside rfl rfl rfl
  · exact .idle rfl rfl rfl rfl

theorem generateCompactTickerSignal_cases {positions : Dict Ticker (Position F)}
    (h : generateCompactTickerSignal eng prepared actions date bars positions s ticker = .ok r) :
    QueueCases date positions s ticker r := by
  obtain ⟨rowIndex, -, h⟩ := bind_ok_iff.mp h
  obtain ⟨actionValue, -, h⟩ := bind_ok_iff.mp h
  obtain ⟨bar, -, h⟩ := bind_ok_iff.mp h
  obtain ⟨acted, hacted, h⟩ := bind_ok_iff.mp h
  cases h
  unfold actOnGenerated at hacted
  unfold addRiskExit
  split at hacted
  · rename_i hbuy
    obtain ⟨score, -, hacted⟩ := bind_ok_iff.mp hacted
    cases hacted
    rw [Dict.get?_eq_none_iff.mpr hbuy.2]
    exact queueGenerated_cases (by simp [hbuy.2])
  · split at hacted
    · rename_i hsell
      cases hacted
      obtain ⟨position, hpos⟩ := Dict.mem_iff_get?.mp hsell.2
      simp only [hpos, queueGenerated_pending, not_true_eq_false, if_false]
      exact queueGenerated_cases (by simp [hsell.2])
    · cases hacted
      generalize (if ticker ∈ positions then SignalAction.hold else .watch) = action
      split
      · rename_i position hpos
        split
        · exact (queueRiskExit_cases (Dict.mem_of_get? hpos)).cons_signal
        · exact .idle rfl rfl rfl rfl
      · exact .idle rfl rfl rfl rfl

/-- The passes of one session, each with what it left and logged. -/
structure SessionPasses (eng : BacktestEngine F) (included : List Ticker) (s : EngineState F)
    (date : Date) (s' : EngineState F) (out : List (Entry F)) : Prop where
  intro ::
  passes : ∃ bars corporate executed forced generated,
    eng.todayBars included date = some bars ∧
    applyCorporateActions eng.spec date ⟨s.cash, s.positions⟩ = .ok corporate ∧
    executePendingOrders eng.spec date bars corporate.1 s.pendingOrders = .ok executed ∧
    writeOffStalePositions eng.spec eng.config date bars ⟨executed.1, s.staleDays⟩ = .ok forced ∧
    generateSignalsForDate eng eng.prepared date bars forced.1.book.positions [] =
      .ok generated ∧
    s'.cash = forced.1.book.cash ∧
    s'.positions = refreshLastPrices bars forced.1.book.positions ∧
    s'.pendingOrders = generated.1 ∧
    out = corporate.2 ++ executed.2 ++ forced.2 ++ generated.2 ++
      [.equity (equityPoint date s'.cash s'.positions bars s.previousEquity)]

theorem session_passes {eng : BacktestEngine F}
    (h : session eng included s date = .ok (s', out)) :
    SessionPasses eng included s date s' out := by
  obtain ⟨bars, hbars, h⟩ := bind_ok_iff.mp h
  obtain ⟨corporate, hcorp, h⟩ := bind_ok_iff.mp h
  obtain ⟨executed, hexec, h⟩ := bind_ok_iff.mp h
  obtain ⟨forced, hforced, h⟩ := bind_ok_iff.mp h
  obtain ⟨generated, hgen, h⟩ := bind_ok_iff.mp h
  cases h
  have hbars : eng.todayBars included date = some bars := by
    cases hb : eng.todayBars included date with
    | none =>
      rw [hb] at hbars
      cases hbars
    | some b =>
      rw [hb] at hbars
      cases hbars
      rfl
  exact ⟨bars, corporate, executed, forced, generated, hbars, hcorp, hexec, hforced, hgen, rfl, rfl,
    rfl, rfl⟩

/-- The loop of a run that returns, and what the end of the data adds to its log. -/
structure Looped (eng : BacktestEngine F) (selected : List Ticker × List ExcludedTicker)
    (s : EngineState F) (log : List (Entry F)) : Prop where
  selects : eng.selectTickers = .ok selected
  loop : traceM (session eng selected.1) eng.initialState (eng.sessions selected.1) = .ok (s, log)

theorem trace_looped {eng : BacktestEngine F} (h : eng.trace = .ok (selected, s, log)) :
    ∃ days, Looped eng selected s days ∧
      log = days ++ BacktestEngine.expireAtEnd (eng.sessions selected.1) s := by
  obtain ⟨-, -, h⟩ := bind_ok_iff.mp h
  obtain ⟨selected', hsel, h⟩ := bind_ok_iff.mp h
  obtain ⟨⟨s', days⟩, hloop, h⟩ := bind_ok_iff.mp h
  cases h
  exact ⟨days, ⟨hsel, hloop⟩, rfl⟩

/-- A run up to one of its sessions, that session, and the rest of the log. -/
theorem trace_at {eng : BacktestEngine F} (h : eng.trace = .ok (selected, final, log))
    (hsplit : eng.sessions selected.1 = past ++ date :: rest) :
    ∃ t pastLog s dayLog after,
      traceM (session eng selected.1) eng.initialState past = .ok (t, pastLog) ∧
      session eng selected.1 t date = .ok (s, dayLog) ∧ log = pastLog ++ dayLog ++ after := by
  obtain ⟨days, hlooped, rfl⟩ := trace_looped h
  have hloop := hlooped.loop
  rw [hsplit] at hloop
  obtain ⟨t, pastLog, more, hpast, hmore, rfl⟩ := traceM_append_ok.mp hloop
  obtain ⟨s, dayLog, after, hday, -, rfl⟩ := traceM_cons_ok.mp hmore
  exact ⟨t, pastLog, s, dayLog, _, hpast, hday, by simp only [List.append_assoc]; rfl⟩

theorem run_trace {eng : BacktestEngine F} (h : eng.run = .ok result) :
    ∃ selected s log, eng.trace = .ok (selected, s, log) ∧
      result.equityCurve = (log.filterMap Entry.equity?).map EquityPoint.rounded ∧
      result.trades = (log.filterMap Entry.trade?).map TradeRecord.rounded ∧
      result.signals = log.filterMap Entry.signal? ∧
      result.orderAudit = (log.filterMap Entry.audit?).map AuditEvent.record := by
  obtain ⟨⟨selected, s, log⟩, htrace, h⟩ := bind_ok_iff.mp h
  cases h
  exact ⟨selected, s, log, htrace, rfl, rfl, rfl, rfl⟩

theorem sessions_increasing (eng : BacktestEngine F) (included : List Ticker) :
    (eng.sessions included).Pairwise (· < ·) :=
  eng.prepared.dates_increasing.sublist List.filter_sublist

end
end QuantAgent
