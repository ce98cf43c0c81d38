import QuantAgent.Engine.Equivalence

namespace QuantAgent
set_option autoImplicit true

section
variable {F : Type} [PyFloat F]

/-- Signal loops that queued alike: orders and log agree without texts. -/
structure QueuedAlike (ticker : Ticker) (s t : SignalState F)
    (r q : SignalState F × List (Entry F)) : Prop where
  orders : r.1.orders.map PendingOrder.unreasoned = q.1.orders.map PendingOrder.unreasoned
  log : r.2.filterMap Entry.unreasoned? = q.2.filterMap Entry.unreasoned?
  pending₁ : ∀ k ∈ r.1.pendingTickers, k ∈ s.pendingTickers ∨ k.2 = ticker
  pending₂ : q.1.pendingTickers = t.pendingTickers

theorem riskExit_alike {position₁ position₂ : Position F} {s t : SignalState F}
    (hposition : position₁.unreasoned = position₂.unreasoned)
    (horders : s.orders.map PendingOrder.unreasoned = t.orders.map PendingOrder.unreasoned) :
    QueuedAlike ticker s t (queueRiskExit spec date bar position₁ s ticker)
      (queueRiskExit spec date bar position₂ t ticker) := by
  have hreason : riskExitReason spec position₁ bar = riskExitReason spec position₂ bar := by
    have herase : ∀ position : Position F, riskExitReason spec position.unreasoned bar =
        riskExitReason spec position bar := fun _ => rfl
    rw [← herase, hposition, herase]
  unfold queueRiskExit
  rw [hreason]
  cases riskExitReason spec position₂ bar with
  | none => exact ⟨horders, rfl, fun _ => .inl, rfl⟩
  | some reason =>
    refine ⟨?_, rfl, fun _ => .inl, rfl⟩
    simp only [SignalState.queue, List.map_append, horders]

omit [PyFloat F] in
theorem QueuedAlike.signals (h : QueuedAlike ticker s t r q) (record₁ record₂ : SignalRecord) :
    QueuedAlike ticker s t (r.1, .signal record₁ :: r.2) (q.1, .signal record₂ :: q.2) where
  orders := h.orders
  log := h.log
  pending₁ := h.pending₁
  pending₂ := h.pending₂

omit [PyFloat F] in
/-- Both paths queue one order; only the compact path notes it as pending. -/
theorem QueuedAlike.queued {s t : SignalState F} {order₁ order₂ : PendingOrder F}
    (horders : s.orders.map PendingOrder.unreasoned = t.orders.map PendingOrder.unreasoned)
    (horder : order₁.unreasoned = order₂.unreasoned) (side : Side) (detail : String)
    (record₁ record₂ : SignalRecord) :
    QueuedAlike ticker s t
      (⟨(side, ticker) :: s.pendingTickers, (s.queue order₁ detail).1.orders⟩,
        (s.queue order₁ detail).2 ++ [.signal record₁])
      ((t.queue order₂ detail).1, .signal record₂ :: (t.queue order₂ detail).2) where
  orders := by simp only [SignalState.queue, List.map_append, horders, List.map_cons, List.map_nil,
    horder]
  log := by
    have haudit : (AuditEvent.submitted order₁ detail).unreasoned =
        (AuditEvent.submitted order₂ detail).unreasoned := congrArg (AuditEvent.submitted · detail) horder
    exact congrArg (fun e => [Entry.audit e]) haudit
  pending₁ := by
    intro k hk
    rcases List.mem_cons.mp hk with rfl | hk
    · exact .inr rfl
    · exact .inl hk
  pending₂ := rfl

end

/-- The metric rows that carry the generated actions. -/
def signalRows (act : Date → Ticker → ℤ) : MetricTable ℚ := fun date ticker =>
  some fun name => if name = "generated_signal" then some (some (act date ticker : ℚ)) else none

theorem evaluateRules_generated {metrics : Metrics ℚ}
    (h : metrics "generated_signal" = some (some (action : ℚ)))
    (previousMetrics : Option (Metrics ℚ)) (value : ℚ) (text : String) (logic : LogicMode) :
    ∃ hits, evaluateRules [generatedRule value text] logic metrics previousMetrics = .ok hits ∧
      hits.isEmpty = !(action == value) := by
  have halias : metricAliases "generated_signal" = "generated_signal" := by decide
  have hresolve : resolveMetric "generated_signal" metrics = .ok (some action) := by
    unfold resolveMetric
    rw [halias, h]
  have hcondition : evaluateCondition (generatedRule value text) metrics previousMetrics =
      .ok (action == value) := by
    unfold evaluateCondition
    rw [generatedRule, hresolve]
    rfl
  have hhits : evaluateHits metrics previousMetrics [generatedRule value text] =
      .ok (if action == value then [ruleText (generatedRule value text)] else []) := by
    rw [evaluateHits, hcondition]
    rfl
  unfold evaluateRules
  rw [hhits]
  cases hv : action == value <;> cases logic <;> exact ⟨_, rfl, rfl⟩

/-- The rule path decides what the action says. -/
theorem generateSignal_generated (spec : StrategySpec ℚ) {metrics : Metrics ℚ} {action : ℤ}
    (h : metrics "generated_signal" = some (some (action : ℚ))) (ticker : Ticker)
    (previousMetrics : Option (Metrics ℚ)) (held : Bool) :
    ∃ decision, generateSignal spec.onGeneratedSignal ticker metrics previousMetrics held =
        .ok decision ∧
      (decision.action = .buy ↔ held = false ∧ action = 1) ∧
      (decision.action = .sell ↔ held = true ∧ action = -1) := by
  obtain ⟨entryHits, hentry, hbuy⟩ := evaluateRules_generated h previousMetrics
    (PyFloat.ofInt 1) "generated BUY signal" spec.entryLogic
  obtain ⟨exitHits, hexit, hsell⟩ := evaluateRules_generated h previousMetrics
    (PyFloat.ofInt (-1)) "generated SELL signal" spec.exitLogic
  have hbuy : entryHits.isEmpty = !decide (action = 1) := by
    rw [hbuy]
    congr 1
    rw [Bool.eq_iff_iff]
    simp
  have hsell : exitHits.isEmpty = !decide (action = -1) := by
    rw [hsell]
    congr 1
    rw [Bool.eq_iff_iff]
    simp
    norm_cast
  have hdecide : generateSignal spec.onGeneratedSignal ticker metrics previousMetrics held =
      if held && !exitHits.isEmpty then
        .ok ⟨ticker, .sell, ["exit condition matched"], [], exitHits⟩
      else if !held && !entryHits.isEmpty then
        .ok ⟨ticker, .buy, ["entry condition matched"], entryHits, []⟩
      else
        .ok ⟨ticker, if held then .hold else .watch, ["no actionable rule matched"], [], []⟩ := by
    unfold generateSignal StrategySpec.onGeneratedSignal
    dsimp only
    rw [hentry, hexit]
    rfl
  rw [hdecide, hbuy, hsell]
  cases held with
  | false =>
    by_cases hone : action = 1
    · refine ⟨_, if_neg (by simp) |>.trans (if_pos (by simp [hone])), ?_⟩
      simp [hone]
    · refine ⟨_, if_neg (by simp) |>.trans (if_neg (by simp [hone])), ?_⟩
      simp [hone]
  | true =>
    by_cases hminus : action = -1
    · refine ⟨_, if_pos (by simp [hminus]), ?_⟩
      simp [hminus]
    · refine ⟨_, if_neg (by simp [hminus]) |>.trans (if_neg (by simp)), ?_⟩
      simp [hminus]

/-- What one ticker needs to be traded alike: its action on both paths and nothing pending. -/
structure TickerInputs (eng₁ : BacktestEngine ℚ) (prepared₁ prepared₂ : PreparedMarketData ℚ)
    (actions : List ℤ) (act : Date → Ticker → ℤ) (date : Date) (bars : Bars ℚ) (ticker : Ticker) :
    Prop where
  index : ∃ i, prepared₁.rowIndexByKey date ticker = some i ∧ actions[i]? = some (act date ticker)
  metrics : ∃ metrics, prepared₂.metricsByKey date ticker = some metrics ∧
    metrics "generated_signal" = some (some (act date ticker : ℚ))
  bar : ∃ bar, bars.get? ticker = some bar
  unscored : eng₁.generatedScores = none

theorem TickerInputs.step {spec : StrategySpec ℚ} {eng₁ eng₂ : BacktestEngine ℚ}
    (h : TickerInputs eng₁ prepared₁ prepared₂ actions act date bars ticker)
    (hspec₁ : eng₁.spec = spec.onGeneratedSignal) (hspec₂ : eng₂.spec = spec.onGeneratedSignal)
    {book₁ book₂ : Book ℚ} (hbook : book₁.unreasoned = book₂.unreasoned)
    (hfree : ∀ side, (side, ticker) ∉ s.pendingTickers) (hempty : t.pendingTickers = [])
    (horders : s.orders.map PendingOrder.unreasoned = t.orders.map PendingOrder.unreasoned) :
    ∃ r q, generateCompactTickerSignal eng₁ prepared₁ actions date bars book₁.positions s ticker =
        .ok r ∧
      generateTickerSignal eng₂.spec prepared₂.metricsByKey prepared₂.previousMetricsByKey date bars
        book₂.positions t ticker = .ok q ∧ QueuedAlike ticker s t r q := by
  obtain ⟨i, hi, haction⟩ := h.index
  obtain ⟨metrics, hmetrics, hsignal⟩ := h.metrics
  obtain ⟨bar, hbar⟩ := h.bar
  obtain ⟨decision, hdecision, hbuy, hsell⟩ := generateSignal_generated spec hsignal ticker
    (prepared₂.previousMetricsByKey date ticker) (decide (ticker ∈ book₂.positions))
  have hmem := mem_unreasoned hbook ticker
  have hnone : ∀ side, (side, ticker) ∉ t.pendingTickers := by simp [hempty]
  have hscore : generatedScore eng₁ i = .ok none := by
    unfold generatedScore
    rw [h.unscored]
    rfl
  unfold generateCompactTickerSignal generateTickerSignal
  rw [hi, hmetrics, hspec₂]
  simp only [Option.elim_some, pure_bind, ok_bind, haction, hbar, hdecision, hspec₁]
  cases hheld₂ : book₂.positions.get? ticker with
  | none =>
    have hout₂ : ticker ∉ book₂.positions := Dict.get?_eq_none_iff.mp hheld₂
    have hout₁ : ticker ∉ book₁.positions := hmem.not.mpr hout₂
    have hheld₁ : book₁.positions.get? ticker = none := Dict.get?_eq_none_iff.mpr hout₁
    have hidle : decision.action ≠ .sell := fun hdo => by simpa [hout₂] using hsell.mp hdo
    by_cases hone : act date ticker = 1
    · have hdo : decision.action = .buy := hbuy.mpr ⟨by simp [hout₂], hone⟩
      simp only [actOnGenerated, hone, hout₁, hout₂, hscore, hdo, queueGenerated, hfree, hnone,
        addRiskExit, hheld₁, not_false_eq_true, and_self, if_true, ok_bind]
      refine ⟨_, _, rfl, rfl, ?_⟩
      apply QueuedAlike.queued horders
      rfl
    · have hdo : decision.action ≠ .buy := fun hdo => hone (hbuy.mp hdo).2
      simp only [actOnGenerated, hone, hout₁, hout₂, hdo, hidle, addRiskExit, hheld₁, false_and,
        and_false, if_false, pure_bind]
      exact ⟨_, _, rfl, rfl, horders, rfl, fun _ => .inl, rfl⟩
  | some position₂ =>
    have hin₂ : ticker ∈ book₂.positions := Dict.mem_of_get? hheld₂
    have hin₁ : ticker ∈ book₁.positions := hmem.mpr hin₂
    obtain ⟨position₁, hheld₁⟩ := Dict.mem_iff_get?.mp hin₁
    have hposition : position₁.unreasoned = position₂.unreasoned := by
      have hheld := held_unreasoned hbook ticker
      rw [hheld₁, hheld₂] at hheld
      exact Option.some.inj hheld
    have hidle : decision.action ≠ .buy := fun hdo => by simpa [hin₂] using (hbuy.mp hdo).1
    by_cases hminus : act date ticker = -1
    · have hdo : decision.action = .sell := hsell.mpr ⟨by simp [hin₂], hminus⟩
      simp only [actOnGenerated, hminus, hin₁, hin₂, hdo, queueGenerated, hfree, hnone,
        addRiskExit, hheld₁, List.mem_cons_self, not_true_eq_false, not_false_eq_true, and_self,
        and_false, false_and, if_true, if_false, pure_bind]
      refine ⟨_, _, rfl, rfl, ?_⟩
      apply QueuedAlike.queued horders
      rfl
    · have hdo : decision.action ≠ .sell := fun hdo => hminus (hsell.mp hdo).2
      simp only [actOnGenerated, hminus, hin₁, hin₂, hdo, hidle, addRiskExit, hheld₁, hnone, hfree,
        false_and, not_true_eq_false, not_false_eq_true, and_false, if_false, if_true, pure_bind]
      exact ⟨_, _, rfl, rfl, (riskExit_alike hposition horders).signals ..⟩

/-- The two signal loops of a session queue alike. -/
theorem signalLoops_alike {spec : StrategySpec ℚ} {eng₁ eng₂ : BacktestEngine ℚ}
    (hspec₁ : eng₁.spec = spec.onGeneratedSignal) (hspec₂ : eng₂.spec = spec.onGeneratedSignal)
    {book₁ book₂ : Book ℚ} (hbook : book₁.unreasoned = book₂.unreasoned) {tickers : List Ticker}
    (hinputs : ∀ ticker ∈ tickers,
      TickerInputs eng₁ prepared₁ prepared₂ actions act date bars ticker)
    (hnodup : tickers.Nodup) (hfree : ∀ ticker ∈ tickers, ∀ side, (side, ticker) ∉ s.pendingTickers)
    (hempty : t.pendingTickers = [])
    (horders : s.orders.map PendingOrder.unreasoned = t.orders.map PendingOrder.unreasoned) :
    ∃ r q, traceM (generateCompactTickerSignal eng₁ prepared₁ actions date bars book₁.positions) s
        tickers = .ok r ∧
      traceM (generateTickerSignal eng₂.spec prepared₂.metricsByKey
        prepared₂.previousMetricsByKey date bars book₂.positions) t tickers = .ok q ∧
      r.1.orders.map PendingOrder.unreasoned = q.1.orders.map PendingOrder.unreasoned ∧
      r.2.filterMap Entry.unreasoned? = q.2.filterMap Entry.unreasoned? := by
  induction tickers generalizing s t with
  | nil => exact ⟨_, _, rfl, rfl, horders, rfl⟩
  | cons ticker tickers ih =>
    obtain ⟨hfresh, hnodup⟩ := List.nodup_cons.mp hnodup
    obtain ⟨r, q, hr, hq, halike⟩ := (hinputs ticker (List.mem_cons_self ..)).step hspec₁ hspec₂
      hbook (hfree ticker (List.mem_cons_self ..)) hempty horders
    have hfree' : ∀ other ∈ tickers, ∀ side, (side, other) ∉ r.1.pendingTickers := by
      intro other hother side hmem
      rcases halike.pending₁ _ hmem with hold | hticker
      · exact hfree other (List.mem_cons_of_mem _ hother) side hold
      · exact hfresh (hticker ▸ hother)
    obtain ⟨r', q', hr', hq', horders', hlog'⟩ := ih
      (fun other hother => hinputs other (List.mem_cons_of_mem _ hother)) hnodup hfree'
      (halike.pending₂.trans hempty) halike.orders
    refine ⟨(r'.1, r.2 ++ r'.2), (q'.1, q.2 ++ q'.2), ?_, ?_, horders', ?_⟩
    · rw [traceM, hr, ok_bind, hr']
      rfl
    · rw [traceM, hq, ok_bind, hq']
      rfl
    · rw [List.filterMap_append, List.filterMap_append, halike.log, hlog']

/-- The tickers of the rows in order, from which `max_tickers` takes the first. -/
def tickersOf (rows : List (OhlcvBar F)) : List Ticker :=
  pySorted textLT (rows.map OhlcvBar.ticker).dedup

/-- The tickers the `max_tickers` cut keeps. -/
def keptTickers (maxTickers : Option ℤ) (tickers : List Ticker) : List Ticker :=
  maxTickers.elim tickers fun n => pyTake n tickers

theorem mem_tickersOf {rows : List (OhlcvBar F)} :
    ticker ∈ tickersOf rows ↔ ∃ bar ∈ rows, bar.ticker = ticker := by
  rw [tickersOf, mem_pySorted, List.mem_dedup, List.mem_map]

theorem tickersOf_pairwise (rows : List (OhlcvBar F)) : (tickersOf rows).Pairwise (· < ·) := by
  have hle : (tickersOf rows).Pairwise fun a b => id a ≤ id b := pySorted_pairwise textLT_eq _
  have hne : (tickersOf rows).Nodup :=
    (pySorted_perm textLT _).nodup_iff.mpr (List.nodup_dedup _)
  exact hle.imp₂ (fun a b hab hne => lt_of_le_of_ne hab hne) hne

theorem tickersOf_congr {rows₁ rows₂ : List (OhlcvBar F)}
    (h : ∀ ticker, (∃ bar ∈ rows₁, bar.ticker = ticker) ↔ ∃ bar ∈ rows₂, bar.ticker = ticker) :
    tickersOf rows₁ = tickersOf rows₂ := by
  have hperm : (tickersOf rows₁).Perm (tickersOf rows₂) := by
    refine (List.perm_ext_iff_of_nodup ?_ ?_).mpr fun ticker => ?_
    · exact (tickersOf_pairwise rows₁).imp ne_of_lt
    · exact (tickersOf_pairwise rows₂).imp ne_of_lt
    · rw [mem_tickersOf, mem_tickersOf, h]
  exact hperm.eq_of_pairwise (fun a b _ _ hab hba => absurd hab hba.asymm) (tickersOf_pairwise rows₁)
    (tickersOf_pairwise rows₂)

theorem cutTickers_eq (maxTickers : Option ℤ) (rows : List (OhlcvBar F)) :
    cutTickers maxTickers rows =
      rows.filter fun bar => decide (bar.ticker ∈ keptTickers maxTickers (tickersOf rows)) := by
  cases maxTickers with
  | some n => rfl
  | none =>
    refine (List.filter_eq_self.mpr fun bar hbar => ?_).symm
    exact decide_eq_true (mem_tickersOf.mpr ⟨bar, hbar, rfl⟩)

theorem keptTickers_sublist (maxTickers : Option ℤ) (tickers : List Ticker) :
    (keptTickers maxTickers tickers).Sublist tickers := by
  cases maxTickers with
  | none => exact List.Sublist.refl _
  | some n =>
    change (pyTake n tickers).Sublist tickers
    unfold pyTake
    split <;> exact List.take_sublist _ _

/-- A cut empties the rows when it keeps no ticker. -/
theorem cutTickers_eq_nil {maxTickers : Option ℤ} {rows : List (OhlcvBar F)} :
    cutTickers maxTickers rows = [] ↔ keptTickers maxTickers (tickersOf rows) = [] := by
  rw [cutTickers_eq, List.filter_eq_nil_iff]
  constructor
  · intro h
    apply List.eq_nil_iff_forall_not_mem.mpr
    intro ticker hticker
    obtain ⟨bar, hbar, rfl⟩ := mem_tickersOf.mp ((keptTickers_sublist _ _).subset hticker)
    exact h bar hbar (decide_eq_true hticker)
  · intro h bar _
    simp [h]

theorem cutTickers_eq_self {maxTickers : Option ℤ} {rows : List (OhlcvBar F)}
    (h : keptTickers maxTickers (tickersOf rows) = tickersOf rows) :
    cutTickers maxTickers rows = rows := by
  rw [cutTickers_eq, h]
  exact List.filter_eq_self.mpr fun bar hbar => decide_eq_true (mem_tickersOf.mpr ⟨bar, hbar, rfl⟩)

/-- The rows with the generated actions as their metric rows. -/
def EngineRows.signalled (input : EngineRows ℚ) (act : Date → Ticker → ℤ) : EngineRows ℚ :=
  { input with metricRows := signalRows act }

/-- The engine of the rule path. -/
def ruleEngine (spec : StrategySpec ℚ) (config : BacktestRunConfig ℚ) (input : EngineRows ℚ)
    (act : Date → Ticker → ℤ) : BacktestEngine ℚ :=
  .ofRows spec.onGeneratedSignal config (input.signalled act) none none

/-- The engine of the compact path, on data prepared from the same rows. -/
def compactEngine (spec : StrategySpec ℚ) (config : BacktestRunConfig ℚ) (m : MarketInputs ℚ)
    (act : Date → Ticker → ℤ) : Except PyError (BacktestEngine ℚ) :=
  BacktestEngine.ofPrepared spec.onGeneratedSignal config (prepareMarketData m)
    (some (m.sortedRows.map fun bar => act bar.date bar.ticker)) none

theorem requiredMetricNames_onGeneratedSignal (spec : StrategySpec ℚ) :
    requiredMetricNames spec.onGeneratedSignal = ["generated_signal"] := by
  change pySorted textLT ["generated_signal", "generated_signal"].dedup = _
  decide +kernel

theorem compactEngine_ok (spec : StrategySpec ℚ) (config : BacktestRunConfig ℚ)
    (m : MarketInputs ℚ) (act : Date → Ticker → ℤ) :
    ∃ eng, compactEngine spec config m act = .ok eng ∧
      eng.ohlcvRows = cutTickers config.maxTickers m.sortedRows := by
  unfold compactEngine BacktestEngine.ofPrepared
  rw [dif_pos, dif_pos]
  · exact ⟨_, rfl, rfl⟩
  · exact nofun
  · rintro actions ⟨⟩
    exact List.length_map _

/-- The data both paths trade on. -/
structure SamePaths (spec : StrategySpec ℚ) (config : BacktestRunConfig ℚ) (m : MarketInputs ℚ)
    (act : Date → Ticker → ℤ) (eng₁ eng₂ : BacktestEngine ℚ) (m₂ : MarketInputs ℚ) : Prop where
  compact : compactEngine spec config m act = .ok eng₁
  spec₂ : eng₂.spec = spec.onGeneratedSignal
  config₂ : eng₂.config = config
  prepared₂ : eng₂.prepared = prepareMarketData m₂
  unprepared₂ : eng₂.preparedMarketData = none
  ungenerated₂ : eng₂.generatedActions = none
  rows : m₂.ohlcvRows.rows = m.ohlcvRows.rows
  metricRows : m₂.metricRows = signalRows act

/-- A bar finds its own action at its row. -/
theorem MarketInputs.action_at (m : MarketInputs ℚ) (act : Date → Ticker → ℤ)
    (hbars : (barsByDate m.ohlcvRows.rows).get? date = some bars) (hticker : ticker ∈ bars) :
    ∃ i, (prepareMarketData m).rowIndexByKey date ticker = some i ∧
      (m.sortedRows.map fun bar => act bar.date bar.ticker)[i]? = some (act date ticker) := by
  obtain ⟨bar, hbar⟩ := Dict.mem_iff_get?.mp hticker
  obtain ⟨hmem, rfl, rfl⟩ := m.mem_sortedRows hbars hbar
  have hzip : m.sortedRows.zip (m.sortedRows.map fun b => act b.date b.ticker) =
      m.sortedRows.map fun b => (b, act b.date b.ticker) := by
    rw [List.zip, List.zipWith_map_right, List.zipWith_self]
  obtain ⟨action, haction⟩ : ∃ action,
      lastWhere (fun b : OhlcvBar ℚ => b.date = bar.date ∧ b.ticker = bar.ticker)
        (m.sortedRows.zip (m.sortedRows.map fun b => act b.date b.ticker)) = some action := by
    rw [hzip]
    exact lastWhere_isSome (List.mem_map_of_mem hmem) (by simp)
  have hvalue : action = act bar.date bar.ticker := by
    obtain ⟨b, hb, hkey⟩ := mem_of_lastWhere haction
    rw [hzip] at hb
    obtain ⟨b', -, hb'⟩ := List.mem_map.mp hb
    obtain ⟨rfl, rfl⟩ := Prod.mk.inj hb'
    obtain ⟨hdate, hticker⟩ := of_decide_eq_true hkey
    rw [hdate, hticker]
  rw [← getElem?_lastIndex _ (List.length_map _)] at haction
  obtain ⟨i, hi, haction⟩ := Option.bind_eq_some_iff.mp haction
  exact ⟨i, hi, hvalue ▸ haction⟩

theorem expireAtEnd_unreasoned (dates : List Date) {s₁ s₂ : EngineState F}
    (h : s₁.pendingOrders.map PendingOrder.unreasoned =
      s₂.pendingOrders.map PendingOrder.unreasoned) :
    (BacktestEngine.expireAtEnd dates s₁).filterMap Entry.unreasoned? =
      (BacktestEngine.expireAtEnd dates s₂).filterMap Entry.unreasoned? := by
  have hentries : ∀ (date : Date) (s : EngineState F),
      (s.pendingOrders.map fun order => Entry.audit (.expiredNoNextSession date order)).filterMap
          Entry.unreasoned? =
        (s.pendingOrders.map PendingOrder.unreasoned).map fun order =>
          .audit (.expiredNoNextSession date order) := by
    intro date s
    rw [List.filterMap_map, List.map_map]
    exact congrFun List.filterMap_eq_map s.pendingOrders
  unfold BacktestEngine.expireAtEnd
  cases dates.getLast? with
  | none => rfl
  | some date => rw [hentries, hentries, h]

namespace SamePaths
variable {spec : StrategySpec ℚ} {config : BacktestRunConfig ℚ} {m m₂ : MarketInputs ℚ}
variable {act : Date → Ticker → ℤ} {eng₁ eng₂ : BacktestEngine ℚ}

theorem made (h : SamePaths spec config m act eng₁ eng₂ m₂) :
    eng₁.spec = spec.onGeneratedSignal ∧ eng₁.config = config ∧
      eng₁.preparedMarketData = some (prepareMarketData m) ∧
      eng₁.generatedActions = some (m.sortedRows.map fun bar => act bar.date bar.ticker) ∧
      eng₁.generatedScores = none := ofPrepared_ok h.compact

theorem metrics (h : SamePaths spec config m act eng₁ eng₂ m₂) (date : Date) (ticker : Ticker) :
    ∃ metrics, m₂.metricsByKey date ticker = some metrics ∧
      metrics "generated_signal" = some (some (act date ticker : ℚ)) := by
  refine ⟨_, by unfold MarketInputs.metricsByKey; rw [h.metricRows]; rfl, ?_⟩
  rfl

theorem selected (h : SamePaths spec config m act eng₁ eng₂ m₂) :
    eng₁.selectTickers = .ok ((barsByTicker m.ohlcvRows.rows).keys, []) ∧
      eng₂.selectTickers = .ok ((barsByTicker m.ohlcvRows.rows).keys, []) := by
  obtain ⟨hspec₁, -, hp₁, ha₁, -⟩ := h.made
  constructor
  · have hspec₁ : eng₁.spec =
        spec.onGeneratedSignal.withActions spec.backtest.corporateActions := hspec₁
    apply selectTickers_compact hspec₁ hp₁ ha₁
    rw [requiredMetricNames_onGeneratedSignal]
    simp
  · rw [← h.rows]
    apply selectTickers_all m₂ h.prepared₂
    intro bar _ metrics hmetrics name hname
    obtain ⟨metrics', hmetrics', hsignal⟩ := h.metrics bar.date bar.ticker
    cases hmetrics.symm.trans hmetrics'
    have hname : name = "generated_signal" := by
      unfold BacktestEngine.requiredMetrics at hname
      rw [h.ungenerated₂, h.spec₂, requiredMetricNames_onGeneratedSignal] at hname
      simpa using hname
    rw [hname, metricPresent, hsignal]
    rfl

theorem dates (h : SamePaths spec config m act eng₁ eng₂ m₂) : m₂.dates = m.dates := by
  rw [MarketInputs.dates_eq, MarketInputs.dates_eq, h.rows]

theorem inputs (h : SamePaths spec config m act eng₁ eng₂ m₂)
    (hbars : (barsByDate m.ohlcvRows.rows).get? date = some bars) (hticker : ticker ∈ bars) :
    TickerInputs eng₁ (prepareMarketData m) (prepareMarketData m₂)
      (m.sortedRows.map fun bar => act bar.date bar.ticker) act date bars ticker where
  index := m.action_at act hbars hticker
  metrics := h.metrics date ticker
  bar := Dict.mem_iff_get?.mp hticker
  unscored := h.made.2.2.2.2

theorem signals (h : SamePaths spec config m act eng₁ eng₂ m₂)
    (hbars : (barsByDate m.ohlcvRows.rows).get? date = some bars) {book₁ book₂ : Book ℚ}
    (hbook : book₁.unreasoned = book₂.unreasoned) :
    (generateSignalsForDate eng₁ eng₁.prepared date bars book₁.positions []).map queueView =
      (generateSignalsForDate eng₂ eng₂.prepared date bars book₂.positions []).map queueView := by
  obtain ⟨hspec₁, -, hp₁, ha₁, -⟩ := h.made
  obtain ⟨r, q, hr, hq, horders, hlog⟩ := signalLoops_alike (s := ⟨[], []⟩) (t := ⟨[], []⟩) hspec₁
    h.spec₂ hbook
    (fun ticker hticker => h.inputs hbars (((mem_pySorted textLT).mp hticker : ticker ∈ bars.keys)))
    ((pySorted_perm textLT _).nodup_iff.mpr bars.keys_nodup) (fun _ _ _ => List.not_mem_nil) rfl rfl
  unfold generateSignalsForDate signalLoop
  rw [hp₁, ha₁, h.unprepared₂, h.prepared₂]
  simp only [List.map_nil]
  have hr : generateCompactSignalsForDate eng₁ (prepareMarketData m)
      (m.sortedRows.map fun bar => act bar.date bar.ticker) date bars book₁.positions ⟨[], []⟩ = .ok r := hr
  have hq : generateRuleSignalsForDate eng₂ (prepareMarketData m₂) date bars book₂.positions ⟨[], []⟩ = .ok q := hq
  rw [hr, hq]
  exact congrArg Except.ok (congrArg₂ Prod.mk horders hlog)

/-- Both runs trade the same sessions. -/
theorem sessions (h : SamePaths spec config m act eng₁ eng₂ m₂) :
    eng₁.sessions (barsByTicker m.ohlcvRows.rows).keys =
      eng₂.sessions (barsByTicker m.ohlcvRows.rows).keys := by
  have hprep₁ := prepared_of_some h.made.2.2.1
  have hbars₂ : ∀ date, eng₂.todayBars (barsByTicker m.ohlcvRows.rows).keys date =
      (barsByDate m.ohlcvRows.rows).get? date := by
    intro date
    rw [← h.rows]
    exact todayBars_all m₂ h.prepared₂ date
  unfold BacktestEngine.sessions
  simp only [todayBars_all m hprep₁, hbars₂]
  rw [hprep₁, h.prepared₂]
  exact congrArg _ h.dates.symm

theorem day (h : SamePaths spec config m act eng₁ eng₂ m₂)
    (hdate : date ∈ eng₁.sessions (barsByTicker m.ohlcvRows.rows).keys) {s₁ s₂ : EngineState ℚ}
    (hstate : s₁.unreasoned = s₂.unreasoned) :
    (session eng₁ (barsByTicker m.ohlcvRows.rows).keys s₁ date).map
        (fun r => (r.1.unreasoned, r.2.filterMap Entry.unreasoned?)) =
      (session eng₂ (barsByTicker m.ohlcvRows.rows).keys s₂ date).map
        fun r => (r.1.unreasoned, r.2.filterMap Entry.unreasoned?) := by
  have hprep₁ := prepared_of_some h.made.2.2.1
  obtain ⟨bars, hbars⟩ : ∃ bars,
      eng₁.todayBars (barsByTicker m.ohlcvRows.rows).keys date = some bars := by
    apply Option.ne_none_iff_exists'.mp
    intro hnone
    have hopen := (List.mem_filter.mp hdate).2
    rw [hnone] at hopen
    cases hopen
  have hrows : (barsByDate m.ohlcvRows.rows).get? date = some bars := by
    rw [← todayBars_all m hprep₁, hbars]
  have hbars₂ : eng₂.todayBars (barsByTicker m.ohlcvRows.rows).keys date = some bars := by
    rw [← h.rows, todayBars_all m₂ h.prepared₂, h.rows, hrows]
  refine session_congr (h.made.1.trans h.spec₂.symm) (h.made.2.1.trans h.config₂.symm) hbars hbars₂
    ?_ hstate
  intro book₁ book₂ hbook
  exact h.signals hrows hbook

theorem days (h : SamePaths spec config m act eng₁ eng₂ m₂) :
    (traceM (session eng₁ (barsByTicker m.ohlcvRows.rows).keys) eng₁.initialState
        (eng₁.sessions (barsByTicker m.ohlcvRows.rows).keys)).map
        (fun r => (r.1.unreasoned, r.2.filterMap Entry.unreasoned?)) =
      (traceM (session eng₂ (barsByTicker m.ohlcvRows.rows).keys) eng₂.initialState
        (eng₂.sessions (barsByTicker m.ohlcvRows.rows).keys)).map
        fun r => (r.1.unreasoned, r.2.filterMap Entry.unreasoned?) := by
  have hinitial : eng₁.initialState.unreasoned = eng₂.initialState.unreasoned := by
    unfold BacktestEngine.initialState
    rw [h.made.2.1, h.config₂]
  rw [← h.sessions]
  apply traceM_map_eq (Q := fun a b =>
    a = b ∧ a ∈ eng₁.sessions (barsByTicker m.ohlcvRows.rows).keys) _ hinitial
  · rintro s t date _ ⟨rfl, hdate⟩ hstate
    exact h.day hdate hstate
  · exact List.forall₂_same.mpr fun date hdate => ⟨rfl, hdate⟩

theorem trace (h : SamePaths spec config m act eng₁ eng₂ m₂)
    (hstart : eng₁.checkRunnable = eng₂.checkRunnable) :
    eng₁.trace.map (fun r => (r.2.1.unreasoned, r.2.2.filterMap Entry.unreasoned?)) =
      eng₂.trace.map fun r => (r.2.1.unreasoned, r.2.2.filterMap Entry.unreasoned?) := by
  obtain ⟨hselected₁, hselected₂⟩ := h.selected
  unfold BacktestEngine.trace
  rw [hselected₁, hselected₂, hstart]
  apply map_bind_same
  intro _
  apply map_bind_congr h.days
  rintro ⟨s₁, log₁⟩ ⟨s₂, log₂⟩ hr
  obtain ⟨hstate, hlog⟩ := Prod.mk.inj hr
  obtain ⟨-, -, hpending, -⟩ := EngineState.mk.injEq .. ▸ hstate
  apply congrArg Except.ok
  refine congrArg₂ Prod.mk hstate ?_
  rw [List.filterMap_append, List.filterMap_append, hlog, h.sessions]
  exact congrArg _ (expireAtEnd_unreasoned _ hpending)

end SamePaths

def OrderAuditRecord.unreasoned (r : OrderAuditRecord F) : OrderAuditRecord F :=
  { r with reason := "" }

/-- What a run does, apart from the texts that say why. -/
structure RunView (F : Type) where
  cash : F
  equityCurve : List (EquityPoint F)
  trades : List (TradeRecord F)
  fills : List (OrderAuditRecord F)

def BacktestResult.view (r : BacktestResult F) : RunView F where
  cash := r.summary.cash
  equityCurve := r.equityCurve
  trades := r.trades.map TradeRecord.unreasoned
  fills := (r.orderAudit.filter fun record => record.status = .executed).map
    OrderAuditRecord.unreasoned

theorem record_unreasoned (e : AuditEvent ℚ) :
    e.unreasoned.record.unreasoned = e.record.unreasoned := by
  cases e <;> rfl

theorem audits_unreasoned (log : List (Entry F)) :
    (log.filterMap Entry.unreasoned?).filterMap Entry.audit? =
      (log.filterMap Entry.audit?).map AuditEvent.unreasoned := by
  rw [List.filterMap_filterMap, List.map_filterMap]
  apply List.filterMap_congr
  intro e _
  cases e <;> rfl

theorem equity_unreasoned (log : List (Entry F)) :
    (log.filterMap Entry.unreasoned?).filterMap Entry.equity? = log.filterMap Entry.equity? := by
  rw [List.filterMap_filterMap]
  apply List.filterMap_congr
  intro e _
  cases e <;> rfl

/-- The view of a result is read off what the run did. -/
theorem run_view (eng : BacktestEngine ℚ) :
    eng.run.map BacktestResult.view = (eng.trace.map fun r =>
      (r.2.1.unreasoned, r.2.2.filterMap Entry.unreasoned?)).map fun r =>
        { cash := PyFloat.round 6 r.1.cash
          equityCurve := (r.2.filterMap Entry.equity?).map EquityPoint.rounded
          trades := (r.2.filterMap Entry.trade?).map TradeRecord.rounded
          fills := (((r.2.filterMap Entry.audit?).map AuditEvent.record).filter
            fun record => record.status = .executed).map OrderAuditRecord.unreasoned } := by
  unfold BacktestEngine.run
  cases eng.trace with
  | error e => rfl
  | ok r =>
    apply congrArg Except.ok
    obtain ⟨selected, s, log⟩ := r
    have hfills : ∀ events : List (AuditEvent ℚ), (((events.map AuditEvent.unreasoned).map
        AuditEvent.record).filter fun record => record.status = .executed).map
          OrderAuditRecord.unreasoned =
        ((events.map AuditEvent.record).filter fun record => record.status = .executed).map
          OrderAuditRecord.unreasoned := by
      intro events
      simp only [List.filter_map, List.map_map]
      congr 1
      · funext e
        exact record_unreasoned e
      · apply List.filter_congr
        intro e _
        cases e <;> rfl
    have htrades : ∀ trades : List (TradeRecord ℚ),
        (trades.map TradeRecord.rounded).map TradeRecord.unreasoned =
          (trades.map TradeRecord.unreasoned).map TradeRecord.rounded := by
      intro trades
      rw [List.map_map, List.map_map]
      rfl
    simp only [BacktestResult.view, BacktestEngine.summary, EngineState.unreasoned, equity_unreasoned,
      unreasoned_trades, audits_unreasoned, hfills, htrades]

theorem MarketInputs.rows_of_sortedRows {m : MarketInputs ℚ} (h : bar ∈ m.sortedRows) :
    bar ∈ m.ohlcvRows.rows := by
  unfold MarketInputs.sortedRows at h
  split at h
  · exact h
  · obtain ⟨date, -, hbar⟩ := List.mem_flatMap.mp h
    cases hbars : (QuantAgent.barsByDate m.ohlcvRows.rows).get? date with
    | none =>
      rw [hbars] at hbar
      cases hbar
    | some bars =>
      rw [hbars] at hbar
      have hbar : bar ∈ (bars.sortKeys textLT).values := hbar
      rw [sortKeys_bars (barsByDate_sorted _ hbars)] at hbar
      obtain ⟨e, he, rfl⟩ := List.mem_map.mp hbar
      exact (mem_rows_of_bar hbars (Dict.get?_of_entry_mem he)).1

theorem MarketInputs.tickersOf_sortedRows (m : MarketInputs ℚ) :
    tickersOf m.sortedRows = tickersOf m.ohlcvRows.rows := by
  apply tickersOf_congr
  intro ticker
  constructor
  · rintro ⟨bar, hbar, rfl⟩
    exact ⟨bar, rows_of_sortedRows hbar, rfl⟩
  · rintro ⟨bar, hbar, rfl⟩
    obtain ⟨bars, b, hbars, hb⟩ := bar_of_mem_rows hbar
    obtain ⟨hmem, -, hticker⟩ := m.mem_sortedRows hbars hb
    exact ⟨b, hmem, hticker⟩

/-- A run that is refused, or that trades every ticker, looks the same on both paths. -/
theorem compact_eq_rule {spec : StrategySpec ℚ} {config : BacktestRunConfig ℚ} {m : MarketInputs ℚ}
    {input : EngineRows ℚ} (hrows : m.ohlcvRows = input.ohlcvRows)
    (hkept : spec.backtest.executionTiming ≠ .nextOpen ∨
      keptTickers config.maxTickers (tickersOf input.ohlcvRows.rows) = [] ∨
      keptTickers config.maxTickers (tickersOf input.ohlcvRows.rows) =
        tickersOf input.ohlcvRows.rows) (act : Date → Ticker → ℤ) :
    (compactEngine spec config m act >>= BacktestEngine.run).map BacktestResult.view =
      (ruleEngine spec config input act).run.map BacktestResult.view := by
  obtain ⟨eng, heng, hcut⟩ := compactEngine_ok spec config m act
  obtain ⟨hspec, -⟩ := ofPrepared_ok heng
  have hempty : eng.ohlcvRows.isEmpty = (ruleEngine spec config input act).ohlcvRows.isEmpty := by
    rw [Bool.eq_iff_iff, List.isEmpty_iff, List.isEmpty_iff, hcut, cutTickers_eq_nil,
      m.tickersOf_sortedRows, hrows]
    exact cutTickers_eq_nil.symm
  have hstart : eng.checkRunnable = (ruleEngine spec config input act).checkRunnable := by
    unfold BacktestEngine.checkRunnable
    rw [hempty, hspec]
    rfl
  rw [heng, ok_bind, run_view, run_view]
  apply congrArg
  by_cases hall : keptTickers config.maxTickers (tickersOf input.ohlcvRows.rows) =
      tickersOf input.ohlcvRows.rows
  · have hsame : SamePaths spec config m act eng (ruleEngine spec config input act)
        ((ruleEngine spec config input act).marketInputs rfl) :=
      { compact := heng
        spec₂ := rfl
        config₂ := rfl
        prepared₂ := rfl
        unprepared₂ := rfl
        ungenerated₂ := rfl
        rows := (cutTickers_eq_self hall).trans (congrArg OhlcvRows.rows hrows.symm)
        metricRows := rfl }
    exact hsame.trace hstart
  · obtain ⟨error, herror⟩ : ∃ error, eng.checkRunnable = .error error := by
      have hspec : eng.spec.backtest = spec.backtest := by rw [hspec]; rfl
      unfold BacktestEngine.checkRunnable
      rw [hcut, hspec]
      rcases hkept with htiming | hnone | hkept
      · by_cases hempty : (cutTickers config.maxTickers m.sortedRows).isEmpty
        · exact ⟨_, if_pos hempty⟩
        · exact ⟨_, (if_neg hempty).trans (if_pos htiming)⟩
      · have hempty : cutTickers config.maxTickers m.sortedRows = [] := by
          rw [cutTickers_eq_nil, m.tickersOf_sortedRows, hrows, hnone]
        exact ⟨_, if_pos (List.isEmpty_iff.mpr hempty)⟩
      · exact absurd hkept hall
    have herror₂ := hstart.symm.trans herror
    unfold BacktestEngine.trace
    rw [herror, herror₂]
    rfl

/-- A state that trades nothing. -/
structure EngineState.Idle (s : EngineState F) : Prop where
  positions : s.positions = Dict.empty
  pendingOrders : s.pendingOrders = []

theorem idle_signals {spec : StrategySpec ℚ} {m : MarketInputs ℚ}
    (heng : compactEngine spec config m (fun _ _ => 0) = .ok eng)
    (hbars : (barsByDate m.ohlcvRows.rows).get? date = some bars) :
    ∃ log, generateSignalsForDate eng eng.prepared date bars Dict.empty [] = .ok ([], log) := by
  obtain ⟨-, -, hp, ha, -⟩ := ofPrepared_ok heng
  have hloop : ∃ r, traceM (generateCompactTickerSignal eng (prepareMarketData m)
      (m.sortedRows.map fun _ => 0) date bars Dict.empty) ⟨[], []⟩ (pySorted textLT bars.keys) =
        .ok r ∧ r.1.orders = [] := by
    refine traceM_returns (P := fun s : SignalState ℚ => s.orders = []) rfl
      fun s ticker hticker hs => ?_
    have hticker : ticker ∈ bars := (mem_pySorted textLT).mp hticker
    obtain ⟨i, hi, haction⟩ := m.action_at (fun _ _ => 0) hbars hticker
    obtain ⟨bar, hbar⟩ := Dict.mem_iff_get?.mp hticker
    have hstep : generateCompactTickerSignal eng (prepareMarketData m)
        (m.sortedRows.map fun _ => 0) date bars Dict.empty s ticker =
          .ok (s, [.signal ⟨date, ticker, .watch, "no actionable rule matched", "", ""⟩]) := by
      have haction : (m.sortedRows.map fun _ => (0 : ℤ))[i]? = some 0 := haction
      unfold generateCompactTickerSignal
      simp only [hi, Option.elim_some, pure_bind, haction, hbar]
      rfl
    exact ⟨_, hstep, hs⟩
  obtain ⟨r, hr, horders⟩ := hloop
  have hsignals : signalLoop eng eng.prepared date bars Dict.empty ⟨[], []⟩ = .ok r := by
    unfold signalLoop
    rw [hp, ha]
    exact hr
  unfold generateSignalsForDate
  rw [List.map_nil, hsignals, ok_bind, horders]
  exact ⟨_, rfl⟩

theorem idle_corporate (spec : StrategySpec ℚ) (date : Date) (cash : ℚ) :
    ∃ log, applyCorporateActions spec date ⟨cash, Dict.empty⟩ = .ok (⟨cash, Dict.empty⟩, log) := by
  have hloop : ∃ r, applyCorporateActions spec date ⟨cash, Dict.empty⟩ = .ok r ∧
      r.1 = ⟨cash, Dict.empty⟩ := by
    refine traceM_returns (P := fun book : Book ℚ => book = ⟨cash, Dict.empty⟩) rfl
      fun book event _ hbook => ⟨(book, []), ?_, hbook⟩
    unfold applyCorporateAction
    rw [hbook]
    exact ite_self _
  obtain ⟨⟨book, log⟩, hr, rfl⟩ := hloop
  exact ⟨log, hr⟩

/-- A session without actions trades nothing. -/
theorem idle_session {spec : StrategySpec ℚ} {m : MarketInputs ℚ}
    (heng : compactEngine spec config m (fun _ _ => 0) = .ok eng)
    (hdate : date ∈ eng.sessions (barsByTicker m.ohlcvRows.rows).keys) {s : EngineState ℚ}
    (hs : s.Idle) :
    ∃ r, session eng (barsByTicker m.ohlcvRows.rows).keys s date = .ok r ∧ r.1.Idle := by
  obtain ⟨-, -, hp, -, -⟩ := ofPrepared_ok heng
  obtain ⟨bars, hbars⟩ : ∃ bars,
      eng.todayBars (barsByTicker m.ohlcvRows.rows).keys date = some bars := by
    apply Option.ne_none_iff_exists'.mp
    intro hnone
    have hopen := (List.mem_filter.mp hdate).2
    rw [hnone] at hopen
    cases hopen
  have hrows : (barsByDate m.ohlcvRows.rows).get? date = some bars := by
    rw [← todayBars_all m (prepared_of_some hp), hbars]
  obtain ⟨signals, hsignals⟩ := idle_signals heng hrows
  obtain ⟨corporate, hcorporate⟩ := idle_corporate eng.spec date s.cash
  have hexecuted : executePendingOrders eng.spec date bars ⟨s.cash, Dict.empty⟩ [] =
      .ok (⟨s.cash, Dict.empty⟩, []) := rfl
  have hforced : writeOffStalePositions eng.spec eng.config date bars
      ⟨⟨s.cash, Dict.empty⟩, s.staleDays⟩ = .ok (⟨⟨s.cash, Dict.empty⟩, s.staleDays⟩, []) :=
    ite_self _
  unfold session
  rw [hbars, hs.positions, hs.pendingOrders]
  simp only [Option.elim_some, pure_bind, hcorporate, ok_bind, hexecuted, hforced,
    List.filter_nil, hsignals]
  exact ⟨_, rfl, rfl, rfl⟩

/-- A run without actions returns. -/
theorem idle_run {spec : StrategySpec ℚ} {config : BacktestRunConfig ℚ} {m : MarketInputs ℚ}
    (heng : compactEngine spec config m (fun _ _ => 0) = .ok eng)
    (hstart : eng.checkRunnable = .ok ()) :
    ∃ r, eng.run = .ok r ∧
      r.equityCurve.map EquityPoint.date = eng.sessions (barsByTicker m.ohlcvRows.rows).keys := by
  obtain ⟨hspec, -, hp, ha, -⟩ := ofPrepared_ok heng
  have hspec : eng.spec = spec.onGeneratedSignal.withActions spec.backtest.corporateActions := hspec
  have hselected : eng.selectTickers = .ok ((barsByTicker m.ohlcvRows.rows).keys, []) := by
    apply selectTickers_compact hspec hp ha
    rw [requiredMetricNames_onGeneratedSignal]
    simp
  obtain ⟨looped, hloop, -⟩ := traceM_returns (P := EngineState.Idle)
    (s := eng.initialState) ⟨rfl, rfl⟩ fun s date hdate hs => idle_session heng hdate hs
  obtain ⟨r, hr⟩ : ∃ r, eng.run = .ok r := by
    unfold BacktestEngine.run BacktestEngine.trace
    rw [hstart, hselected]
    simp only [ok_bind, hloop]
    exact ⟨_, rfl⟩
  obtain ⟨selected, hselected', hcurve⟩ := BacktestEngine.run_curve hr
  cases hselected.symm.trans hselected'
  exact ⟨r, hr, hcurve⟩

/-- A bar a day, each of another ticker. -/
def soloRows (tickers : List Ticker) : List (OhlcvBar ℚ) :=
  tickers.zipIdx.map fun e => ⟨e.2, e.1, 1, 1, 1, 1, 1, none⟩

theorem soloRows_tickers (tickers : List Ticker) :
    (soloRows tickers).map OhlcvBar.ticker = tickers := by
  rw [soloRows, List.map_map]
  exact List.zipIdx_map_fst 0 tickers

theorem soloRows_dates (tickers : List Ticker) :
    (soloRows tickers).Pairwise fun a b => a.date < b.date := by
  have hindex : (tickers.zipIdx.map Prod.snd).Pairwise (· < ·) := by
    rw [List.zipIdx_map_snd]
    exact List.pairwise_lt_range'
  exact List.pairwise_map.mpr (List.pairwise_map.mp hindex)

def soloInput (tickers : List Ticker) : EngineRows ℚ where
  rows := soloRows tickers
  metricRows _ _ := none
  inputsNormalized := true
  promised _ := (soloRows_dates tickers).imp fun h => (Prod.Lex.toLex_lt_toLex.mpr (.inl h)).le

theorem tickersOf_soloRows (rows : List (OhlcvBar F)) :
    tickersOf (soloRows (tickersOf rows)) = tickersOf rows := by
  have hsorted := tickersOf_pairwise rows
  have hnodup : (tickersOf rows).Nodup := hsorted.imp ne_of_lt
  rw [tickersOf, soloRows_tickers, hnodup.dedup]
  exact pySorted_eq_self (hsorted.imp textLT_eq_false)

theorem mem_sessions {eng : BacktestEngine ℚ} (m : MarketInputs ℚ)
    (hprepared : eng.prepared = prepareMarketData m) (hbar : bar ∈ m.ohlcvRows.rows) :
    bar.date ∈ eng.sessions (barsByTicker m.ohlcvRows.rows).keys := by
  obtain ⟨bars, b, hbars, hb⟩ := bar_of_mem_rows hbar
  apply List.mem_filter.mpr
  constructor
  · rw [hprepared]
    exact m.mem_dates.mpr ⟨bar, hbar, rfl⟩
  · rw [todayBars_all m hprepared, hbars]
    have hentry := Dict.entry_mem_of_get? hb
    simp only [Option.elim_some, Bool.not_eq_true', List.isEmpty_eq_false_iff]
    exact List.ne_nil_of_mem hentry

/-- A cut that keeps some tickers and drops others shows on the rule path alone. -/
theorem compact_ne_rule {spec : StrategySpec ℚ} {config : BacktestRunConfig ℚ}
    {tickers : List Ticker} (hsolo : tickersOf (soloRows tickers) = tickers)
    (htiming : spec.backtest.executionTiming = .nextOpen)
    (hkept : keptTickers config.maxTickers tickers ≠ [])
    (hcut : keptTickers config.maxTickers tickers ≠ tickers) :
    (compactEngine spec config (compactMarket (soloInput tickers)) (fun _ _ => 0) >>=
        BacktestEngine.run).map BacktestResult.view ≠
      (ruleEngine spec config (soloInput tickers) fun _ _ => 0).run.map BacktestResult.view := by
  intro hsame
  obtain ⟨eng, heng, hrows⟩ := compactEngine_ok spec config (compactMarket (soloInput tickers)) fun _ _ => 0
  obtain ⟨hspec, -, hp, -⟩ := ofPrepared_ok heng
  have hstart : eng.checkRunnable = .ok () := by
    have htimed : eng.spec.backtest.executionTiming = .nextOpen := by
      rw [hspec]
      exact htiming
    have hopen : eng.ohlcvRows ≠ [] := by
      rw [hrows, ne_eq, cutTickers_eq_nil, (compactMarket (soloInput tickers)).tickersOf_sortedRows]
      exact fun hnone => hkept (hsolo ▸ hnone)
    unfold BacktestEngine.checkRunnable
    rw [if_neg (by simpa using hopen), htimed]
    rfl
  obtain ⟨r₁, hr₁, hcurve₁⟩ := idle_run heng hstart
  rw [heng, ok_bind, hr₁] at hsame
  obtain ⟨r₂, hr₂, hview⟩ := map_ok_iff.mp hsame.symm
  obtain ⟨selected, -, hcurve₂⟩ := BacktestEngine.run_curve hr₂
  have hcurves : r₂.equityCurve = r₁.equityCurve := congrArg RunView.equityCurve hview
  obtain ⟨ticker, hticker, hdropped⟩ : ∃ ticker ∈ tickers,
      ticker ∉ keptTickers config.maxTickers tickers := by
    by_contra hall
    push Not at hall
    have hnodup : tickers.Nodup := hsolo ▸ (tickersOf_pairwise (soloRows tickers)).imp ne_of_lt
    exact hcut ((keptTickers_sublist _ _).eq_of_length_le (List.subperm_of_subset hnodup hall).length_le)
  obtain ⟨bar, hbar, rfl⟩ := mem_tickersOf.mp (hsolo.symm ▸ hticker)
  -- The dropped ticker's day is a session of the compact path only.
  have hmem : bar.date ∈ eng.sessions (barsByTicker (soloRows tickers)).keys :=
    mem_sessions (compactMarket (soloInput tickers)) (prepared_of_some hp) hbar
  have hday : bar.date ∈ (ruleEngine spec config (soloInput tickers) fun _ _ => 0).sessions
      selected.1 := by
    rw [← hcurve₂, hcurves, hcurve₁]
    exact hmem
  obtain ⟨bar', hbar', hdate⟩ := ((ruleEngine spec config (soloInput tickers)
    fun _ _ => 0).marketInputs rfl).mem_dates.mp (List.mem_filter.mp hday).1
  have hcutRows : bar' ∈ cutTickers config.maxTickers (soloRows tickers) := hbar'
  rw [cutTickers_eq, hsolo] at hcutRows
  obtain ⟨hbar', hkeep⟩ := List.mem_filter.mp hcutRows
  have hdates : ((soloRows tickers).map OhlcvBar.date).Nodup :=
    (List.pairwise_map.mpr (soloRows_dates tickers)).imp ne_of_lt
  cases List.inj_on_of_nodup_map hdates hbar' hbar hdate
  exact hdropped (of_decide_eq_true hkeep)

/-- Two names, of which `max_tickers` keeps the first. -/
def pairRows : EngineRows ℚ where
  rows :=
    [⟨1, "000660", 100, 100, 100, 100, 1000, some 1000000⟩,
      ⟨1, "005930", 100, 100, 100, 100, 1000, some 1000000⟩,
      ⟨2, "000660", 100, 100, 100, 100, 1000, some 1000000⟩,
      ⟨2, "005930", 100, 100, 100, 100, 1000, some 1000000⟩]
  metricRows _ _ := none
  inputsNormalized := false
  promised := nofun

end QuantAgent
