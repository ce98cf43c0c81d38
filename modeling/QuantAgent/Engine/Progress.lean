import QuantAgent.Engine.RulePath
import QuantAgent.Lib.NumPy
import QuantAgent.Lib.Returns

namespace QuantAgent
set_option autoImplicit true

section
variable {F : Type} [PyFloat F]

/-- A list stands where the evaluator reads one: in `between`, or in a cross with no bar before. -/
def RuleShaped (rule : Condition F) (hasPrevious : Prop) : Prop :=
  ∀ xs, rule.right = .range xs → rule.operator = .between ∨
    (rule.operator = .crossAbove ∨ rule.operator = .crossBelow) ∧ ¬hasPrevious

omit [PyFloat F] in
theorem resolveMetric_returns {pool : Metrics F} (h : metricPresent name pool = true) :
    Returns (resolveMetric name pool) := by
  unfold resolveMetric
  unfold metricPresent at h
  split
  · exact .ok _
  · exact .ok _
  · rename_i halias hname
    rw [halias, hname] at h
    cases h

/-- The metrics a rule names are all present. -/
def RulePresent (rule : Condition F) (metrics : Metrics F) : Prop :=
  ∀ name ∈ conditionMetricNames rule, metricPresent name metrics = true

theorem RulePresent.left {rule : Condition F} (h : RulePresent rule metrics) :
    Returns (resolveMetric rule.left metrics) := by
  apply resolveMetric_returns
  apply h
  unfold conditionMetricNames
  split <;> simp

/-- Apart from `between`, the right side resolves unless it is a list. -/
theorem RulePresent.right {rule : Condition F} (h : RulePresent rule metrics)
    (hbetween : rule.operator ≠ .between) :
    Returns (resolveRight rule.right metrics) ↔ ∀ xs, rule.right ≠ .range xs := by
  unfold resolveRight
  cases hright : rule.right with
  | number x => simp
  | metric name =>
    have hname : name ∈ conditionMetricNames rule := by
      unfold conditionMetricNames
      split
      · contradiction
      · rename_i heq _
        rw [hright] at heq
        cases heq
        simp
      · rename_i hno
        exact absurd hright (hno name)
    simp [resolveMetric_returns (h name hname)]
  | range xs => simp

theorem compareScalar_returns (left right : Metric F) (hbetween : operator ≠ .between)
    (habove : operator ≠ .crossAbove) (hbelow : operator ≠ .crossBelow) :
    Returns (compareScalar left right operator) := by
  cases operator with
  | between => contradiction
  | crossAbove => contradiction
  | crossBelow => contradiction
  | _ => exact .ok _

theorem evaluateCross_returns {rule : Condition F} {previousMetrics : Option (Metrics F)}
    (hbetween : rule.operator ≠ .between) (hpresent : RulePresent rule metrics)
    (hprevious : ∀ previous ∈ previousMetrics, RulePresent rule previous)
    (currentLeft : Metric F) (before after : Metric F → Metric F → Bool) :
    Returns (evaluateCross rule currentLeft metrics previousMetrics before after) ↔
      ∀ xs, rule.right = .range xs → ¬previousMetrics.isSome = true := by
  unfold evaluateCross
  cases previousMetrics with
  | none => simp
  | some previous =>
    obtain ⟨previousLeft, hleft⟩ := (hprevious previous rfl).left
    have hright := hpresent.right hbetween
    have hright' := (hprevious previous rfl).right hbetween
    dsimp only
    rw [returns_bind, hleft]
    simp only [ok_bind, Option.isSome_some, not_true_eq_false, imp_false]
    constructor
    · rintro ⟨currentRight, hcurrent, -⟩
      exact hright.mp ⟨_, hcurrent⟩
    · intro hshape
      obtain ⟨currentRight, hcurrent⟩ := hright.mpr hshape
      exact ⟨currentRight, hcurrent, (returns_bind_of fun _ => .ok _).mpr (hright'.mpr hshape)⟩

theorem evaluateCondition_returns {rule : Condition F} {previousMetrics : Option (Metrics F)}
    (hpresent : RulePresent rule metrics)
    (hprevious : ∀ previous ∈ previousMetrics, RulePresent rule previous) :
    Returns (evaluateCondition rule metrics previousMetrics) ↔
      RuleShaped rule (previousMetrics.isSome = true) := by
  obtain ⟨currentLeft, hleft⟩ := hpresent.left
  have hscalar : rule.operator ≠ .between → rule.operator ≠ .crossAbove →
      rule.operator ≠ .crossBelow → (Returns (resolveRight rule.right metrics >>= fun right =>
        compareScalar currentLeft right rule.operator) ↔ ∀ xs, rule.right ≠ .range xs) := by
    intro hbetween habove hbelow
    rw [returns_bind_of fun right => compareScalar_returns currentLeft right hbetween habove hbelow]
    exact hpresent.right hbetween
  unfold evaluateCondition RuleShaped
  rw [hleft, ok_bind]
  cases hop : rule.operator with
  | between =>
    obtain ⟨low, high, hright, -⟩ := rule.between_range hop
    simp [hright]
  | crossAbove =>
    rw [evaluateCross_returns (by simp [hop]) hpresent hprevious]
    simp
  | crossBelow =>
    rw [evaluateCross_returns (by simp [hop]) hpresent hprevious]
    simp
  | _ =>
    rw [hop] at hscalar
    refine (hscalar (by decide) (by decide) (by decide)).trans ?_
    simp

theorem evaluateHits_returns (metrics : Metrics F) (previousMetrics : Option (Metrics F))
    (rules : List (Condition F)) : Returns (evaluateHits metrics previousMetrics rules) ↔
      ∀ rule ∈ rules, Returns (evaluateCondition rule metrics previousMetrics) := by
  induction rules with
  | nil => simp [evaluateHits]
  | cons rule rules ih =>
    rw [evaluateHits, returns_bind, List.forall_mem_cons]
    constructor
    · rintro ⟨hit, hhit, hrest⟩
      exact ⟨⟨hit, hhit⟩, ih.mp ((returns_bind_of fun _ => .ok _).mp hrest)⟩
    · rintro ⟨⟨hit, hhit⟩, hrest⟩
      exact ⟨hit, hhit, (returns_bind_of fun _ => .ok _).mpr (ih.mpr hrest)⟩

theorem evaluateRules_returns (rules : List (Condition F)) (logic : LogicMode)
    (metrics : Metrics F) (previousMetrics : Option (Metrics F)) :
    Returns (evaluateRules rules logic metrics previousMetrics) ↔
      ∀ rule ∈ rules, Returns (evaluateCondition rule metrics previousMetrics) := by
  unfold evaluateRules
  rw [returns_bind_of, evaluateHits_returns]
  intro hits
  cases logic <;> exact .ok _

/-- A signal is decided when both rule lists can be evaluated. -/
theorem generateSignal_returns (spec : StrategySpec F) (ticker : Ticker) (metrics : Metrics F)
    (previousMetrics : Option (Metrics F)) (hasPosition : Bool) :
    Returns (generateSignal spec ticker metrics previousMetrics hasPosition) ↔
      ∀ rule ∈ spec.entryRules ++ spec.exitRules,
        Returns (evaluateCondition rule metrics previousMetrics) := by
  have hdecides : ∀ entryHits exitHits : List String, Returns (ε := PyError)
      (if hasPosition && !exitHits.isEmpty then
        pure (SignalDecision.mk ticker .sell ["exit condition matched"] [] exitHits)
      else if !hasPosition && !entryHits.isEmpty then
        pure ⟨ticker, .buy, ["entry condition matched"], entryHits, []⟩
      else
        pure ⟨ticker, if hasPosition then .hold else .watch, ["no actionable rule matched"], [],
          []⟩) := by
    intro entryHits exitHits
    split
    · exact .ok _
    · split <;> exact .ok _
  unfold generateSignal
  rw [returns_bind, List.forall_mem_append]
  constructor
  · rintro ⟨entryHits, hentry, hexit⟩
    exact ⟨(evaluateRules_returns ..).mp ⟨_, hentry⟩,
      (evaluateRules_returns ..).mp ((returns_bind_of (hdecides entryHits)).mp hexit)⟩
  · rintro ⟨hentry, hexit⟩
    obtain ⟨entryHits, hentry⟩ := (evaluateRules_returns _ spec.entryLogic _ _).mpr hentry
    exact ⟨entryHits, hentry,
      (returns_bind_of (hdecides entryHits)).mpr ((evaluateRules_returns ..).mpr hexit)⟩

theorem rulePresent_of_required {spec : StrategySpec F}
    (h : ∀ name ∈ requiredMetricNames spec, metricPresent name metrics = true)
    (hrule : rule ∈ spec.entryRules ++ spec.exitRules) : RulePresent rule metrics := by
  intro name hname
  apply h
  unfold requiredMetricNames
  rw [mem_pySorted, List.mem_dedup]
  exact List.mem_flatMap.mpr ⟨rule, hrule, hname⟩

/-- The ticker has a bar before its last one of the date. -/
def EarlierBar (rows : List (OhlcvBar F)) (date : Date) (ticker : Ticker) : Prop :=
  1 < (rowsUpTo date (rows.filter fun bar => bar.ticker = ticker)).length

namespace MarketInputs

omit [PyFloat F] in
theorem loopState_previous (metrics : Date → Option (Metrics F)) (bars : List (OhlcvBar F)) :
    loopState (previousStep metrics) none bars = bars.getLast?.bind fun bar => metrics bar.date := by
  induction bars using List.reverseRecOn with
  | nil => rfl
  | append_singleton bars bar _ => simp [previousStep]

omit [PyFloat F] in
theorem lastWhere_previous (metrics : Date → Option (Metrics F)) (bars : List (OhlcvBar F))
    {p : OhlcvBar F → Bool} (hp : p bar = true) :
    lastWhere p ((bars ++ [bar]).zip (loopMap (previousStep metrics) none (bars ++ [bar]))) =
      some (bars.getLast?.bind fun earlier => metrics earlier.date) := by
  rw [loopMap_concat, List.zip_append (length_loopMap _ _ _).symm, lastWhere_append]
  have hlast : lastWhere p [(bar, (previousStep metrics (loopState (previousStep metrics) none bars)
      bar).2)] = some (loopState (previousStep metrics) none bars) := by
    simp [lastWhere, hp, previousStep]
  rw [List.zip_cons_cons, List.zip_nil_right, hlast, loopState_previous]
  rfl

variable (m : MarketInputs F)

theorem mem_tickerBars : bar ∈ m.tickerBars ticker ↔ bar ∈ m.ohlcvRows.rows ∧ bar.ticker = ticker := by
  rw [tickerBars_eq, List.mem_filter, decide_eq_true_eq]

theorem metrics_of_tickerBars (h : bar ∈ m.tickerBars ticker) :
    ∃ metrics, m.metricsByKey bar.date ticker = some metrics := by
  obtain ⟨hrow, rfl⟩ := m.mem_tickerBars.mp h
  exact m.metricsByKey_isSome hrow

/-- The metrics before a bar are those of another bar of its ticker. -/
theorem previousMetrics_of_bar (h : m.previousMetricsByKey date ticker = some previous) :
    ∃ bar ∈ m.tickerBars ticker, m.metricsByKey bar.date ticker = some previous := by
  unfold previousMetricsByKey at h
  dsimp only at h
  rw [orderedBars_tickerBars] at h
  obtain ⟨bar, hmem, -⟩ := mem_of_lastWhere (Option.join_eq_some_iff.mp h)
  rcases List.mem_cons.mp (List.of_mem_zip hmem).2 with hnone | hsome
  · cases hnone
  · obtain ⟨earlier, hearlier, hmetrics⟩ := List.mem_map.mp hsome
    exact ⟨earlier, hearlier, hmetrics⟩

/-- The bars of a ticker up to the date of one of them end on that date. -/
theorem tickerBars_upTo_last (hbar : bar ∈ m.tickerBars ticker) :
    ∃ before last, rowsUpTo bar.date (m.tickerBars ticker) = before ++ [last] ∧
      last.date = bar.date := by
  have hmem : bar ∈ rowsUpTo bar.date (m.tickerBars ticker) := by
    simp [rowsUpTo, hbar]
  obtain ⟨before, last, hsplit⟩ := List.eq_nil_or_concat' _ |>.resolve_left
    (List.ne_nil_of_mem hmem)
  refine ⟨before, last, hsplit, le_antisymm ?_ ?_⟩
  · have hlast : last ∈ rowsUpTo bar.date (m.tickerBars ticker) := by simp [hsplit]
    exact of_decide_eq_true (List.mem_filter.mp hlast).2
  · have hsorted := (m.tickerBars_sorted ticker).sublist
      (List.filter_sublist (p := fun b => decide (b.date ≤ bar.date)))
    change (rowsUpTo bar.date (m.tickerBars ticker)).Pairwise _ at hsorted
    rw [hsplit] at hmem hsorted
    rcases List.mem_append.mp hmem with hearly | hlast
    · exact (List.pairwise_append.mp hsorted).2.2 bar hearly last (List.mem_singleton_self _)
    · exact (List.mem_singleton.mp hlast ▸ le_refl bar.date)

/-- A bar has metrics before it when its ticker has a bar before it. -/
theorem previousMetrics_isSome (hbar : bar ∈ m.ohlcvRows.rows) :
    (m.previousMetricsByKey bar.date bar.ticker).isSome = true ↔
      EarlierBar m.ohlcvRows.rows bar.date bar.ticker := by
  obtain ⟨before, last, hsplit, hlast⟩ := m.tickerBars_upTo_last (m.mem_tickerBars.mpr ⟨hbar, rfl⟩)
  have hprevious : m.previousMetricsByKey bar.date bar.ticker =
      before.getLast?.bind fun earlier => m.metricsByKey earlier.date bar.ticker := by
    have hcausal := (Causal.loopMap (previousStep fun date => m.metricsByKey date bar.ticker)
      none).at_date (m.tickerBars_sorted bar.ticker) (le_refl bar.date)
    rw [← zip_previous, hsplit, lastWhere_previous _ _ (decide_eq_true hlast)] at hcausal
    unfold previousMetricsByKey
    dsimp only
    rw [orderedBars_tickerBars, hcausal]
    rfl
  rw [hprevious, EarlierBar, ← tickerBars_eq, hsplit]
  cases hearlier : before.getLast? with
  | none => simp [List.getLast?_eq_none_iff.mp hearlier]
  | some earlier =>
    have hmem : earlier ∈ before := List.mem_of_getLast? hearlier
    have hticker : earlier ∈ m.tickerBars bar.ticker :=
      (List.mem_filter.mp (hsplit ▸ List.mem_append_left _ hmem : earlier ∈ rowsUpTo _ _)).1
    obtain ⟨metrics, hmetrics⟩ := m.metrics_of_tickerBars hticker
    have hlength := List.length_pos_of_mem hmem
    simp only [Option.bind_some, hmetrics, Option.isSome_some, List.length_append,
      List.length_singleton, true_iff]
    omega

theorem prepared_barsByTicker (h : (prepareMarketData m).barsByTicker.get? ticker = some bars) :
    bars = m.tickerBars ticker := by
  change (Dict.mapVal _ _).get? ticker = some bars at h
  rw [Dict.get?_mapVal] at h
  obtain ⟨old, hold, rfl⟩ := Option.map_eq_some_iff.mp h
  have hbars : m.tickerBars ticker = old := by
    unfold tickerBars
    rw [hold]
    rfl
  rw [← hbars, orderedBars_tickerBars]

end MarketInputs

omit [PyFloat F] in
theorem firstMissing_returns {metricsByKey : MetricTable F} {bars : List (OhlcvBar F)}
    (h : ∀ bar ∈ bars, ∃ metrics, metricsByKey bar.date ticker = some metrics) :
    Returns (BacktestEngine.firstMissing metricsByKey required ticker bars) := by
  induction bars with
  | nil => exact .ok _
  | cons bar bars ih =>
    obtain ⟨metrics, hmetrics⟩ := h bar (List.mem_cons_self ..)
    rw [BacktestEngine.firstMissing, hmetrics]
    simp only [Option.elim_some, pure_bind]
    split
    · exact ih fun later hlater => h later (List.mem_cons_of_mem _ hlater)
    · exact .ok _

omit [PyFloat F] in
/-- A ticker that misses nothing has the required metrics at each of its bars. -/
theorem firstMissing_present {metricsByKey : MetricTable F} {bars : List (OhlcvBar F)}
    (h : BacktestEngine.firstMissing metricsByKey required ticker bars = .ok none)
    (hbar : bar ∈ bars) (hmetrics : metricsByKey bar.date ticker = some metrics) :
    ∀ name ∈ required, metricPresent name metrics = true := by
  induction bars with
  | nil => cases hbar
  | cons first bars ih =>
    obtain ⟨row, hrow, h⟩ := bind_ok_iff.mp h
    dsimp only at h
    split at h
    · rename_i hmissing
      rcases List.mem_cons.mp hbar with rfl | hlater
      · rw [hmetrics] at hrow
        cases hrow
        intro name hname
        have hkept := (List.filter_eq_nil_iff.mp hmissing) name hname
        simpa using hkept
      · exact ih h hlater
    · cases h

section
variable {eng : BacktestEngine F} (m : MarketInputs F)
  (hprepared : eng.prepared = prepareMarketData m)
include hprepared

theorem selectTickers_returns : Returns eng.selectTickers := by
  have hsteps : ∀ included, ∀ e ∈ eng.prepared.barsByTicker.entries, True →
      ∃ r, eng.selectTicker included e = .ok r ∧ True := by
    rintro included ⟨ticker, bars⟩ he -
    have hget := Dict.get?_of_entry_mem he
    rw [hprepared] at hget
    have hmetrics : ∀ bar ∈ bars, ∃ metrics,
        eng.prepared.metricsByKey bar.date ticker = some metrics := by
      rw [hprepared, m.prepared_barsByTicker hget]
      exact fun bar => m.metrics_of_tickerBars
    have hscan : Returns (BacktestEngine.firstMissing eng.prepared.metricsByKey
        eng.requiredMetrics ticker bars) := firstMissing_returns hmetrics
    obtain ⟨missing, hmissing⟩ := hscan
    unfold BacktestEngine.selectTicker
    rw [hmissing]
    cases missing with
    | none => exact ⟨_, rfl, trivial⟩
    | some excluded => exact ⟨_, rfl, trivial⟩
  obtain ⟨r, hr, -⟩ := traceM_returns trivial hsteps
  exact ⟨r, hr⟩

/-- A selected ticker has the required metrics at each of its bars. -/
theorem selectTickers_present (h : eng.selectTickers = .ok selected)
    (hticker : ticker ∈ selected.1) (hbar : bar ∈ m.tickerBars ticker)
    (hmetrics : m.metricsByKey bar.date ticker = some metrics) :
    ∀ name ∈ eng.requiredMetrics, metricPresent name metrics = true := by
  have hnone : ∀ ticker ∈ selected.1, ∃ bars,
      eng.prepared.barsByTicker.get? ticker = some bars ∧
        BacktestEngine.firstMissing eng.prepared.metricsByKey eng.requiredMetrics ticker bars =
          .ok none := by
    refine traceM_state (P := fun included => ∀ ticker ∈ included, ∃ bars,
      eng.prepared.barsByTicker.get? ticker = some bars ∧
        BacktestEngine.firstMissing eng.prepared.metricsByKey eng.requiredMetrics ticker bars =
          .ok none) h nofun ?_
    rintro included ⟨name, bars⟩ included' out he hincluded hstep
    obtain ⟨missing, hmissing, hstep⟩ := bind_ok_iff.mp hstep
    cases missing with
    | none =>
      cases hstep
      intro ticker hticker
      rcases List.mem_append.mp hticker with hold | hnew
      · exact hincluded ticker hold
      · cases List.mem_singleton.mp hnew
        exact ⟨bars, Dict.get?_of_entry_mem he, hmissing⟩
    | some excluded =>
      cases hstep
      exact hincluded
  obtain ⟨bars, hget, hmissing⟩ := hnone ticker hticker
  rw [hprepared] at hget hmissing
  rw [m.prepared_barsByTicker hget] at hmissing
  exact firstMissing_present hmissing hbar hmetrics

end

/-- The bars of a session belong to selected tickers and to the rows. -/
theorem todayBars_mem {eng : BacktestEngine F} (m : MarketInputs F)
    (hprepared : eng.prepared = prepareMarketData m)
    (h : eng.todayBars included date = some bars) (hbar : bars.get? ticker = some bar) :
    ticker ∈ included ∧ bar ∈ m.ohlcvRows.rows ∧ bar.date = date ∧ bar.ticker = ticker := by
  obtain ⟨all, hall, rfl⟩ := Option.map_eq_some_iff.mp h
  rw [hprepared, m.prepared_barsByDate] at hall
  rw [Dict.get?_filter] at hbar
  obtain ⟨hbar, hincluded⟩ := Option.filter_eq_some_iff.mp hbar
  exact ⟨of_decide_eq_true hincluded, mem_rows_of_bar hall hbar⟩

/-- Every rule of the strategy is one the evaluator can read for the tickers of a session. -/
def RulesShaped (spec : StrategySpec F) (rows : List (OhlcvBar F)) (date : Date) (bars : Bars F) :
    Prop :=
  ∀ ticker ∈ bars, ∀ rule ∈ spec.entryRules ++ spec.exitRules,
    RuleShaped rule (EarlierBar rows date ticker)

theorem generateTickerSignal_returns {positions : Dict Ticker (Position F)} {s : SignalState F}
    (hmetrics : metricsByKey date ticker = some metrics) (hbar : bars.get? ticker = some bar) :
    Returns (generateTickerSignal spec metricsByKey previousMetricsByKey date bars positions s
      ticker) ↔ ∀ rule ∈ spec.entryRules ++ spec.exitRules,
        Returns (evaluateCondition rule metrics (previousMetricsByKey date ticker)) := by
  unfold generateTickerSignal
  rw [hmetrics, hbar]
  simp only [Option.elim_some, pure_bind]
  exact (returns_bind_of fun decision => .ok _).trans (generateSignal_returns ..)

/-- The signal pass of a session returns when the rules can be read. -/
theorem generateSignalsForDate_returns {eng : BacktestEngine F} (m : MarketInputs F)
    (hprepared : eng.prepared = prepareMarketData m) (hgenerated : eng.generatedActions = none)
    (hselected : eng.selectTickers = .ok selected)
    (hbars : eng.todayBars selected.1 date = some bars) (positions : Dict Ticker (Position F))
    (pendingOrders : List (PendingOrder F)) :
    Returns (generateSignalsForDate eng eng.prepared date bars positions pendingOrders) ↔
      RulesShaped eng.spec m.ohlcvRows.rows date bars := by
  have hrequired : eng.requiredMetrics = requiredMetricNames eng.spec := by
    simp [BacktestEngine.requiredMetrics, hgenerated]
  have hloop : ∀ s, signalLoop eng eng.prepared date bars positions s =
      generateRuleSignalsForDate eng eng.prepared date bars positions s := by
    intro s
    unfold signalLoop
    rw [hgenerated]
    cases eng.preparedMarketData <;> rfl
  have hticker : ∀ s, ∀ ticker ∈ pySorted textLT bars.keys,
      (Returns (generateTickerSignal eng.spec eng.prepared.metricsByKey
        eng.prepared.previousMetricsByKey date bars positions s ticker) ↔
        ∀ rule ∈ eng.spec.entryRules ++ eng.spec.exitRules,
          RuleShaped rule (EarlierBar m.ohlcvRows.rows date ticker)) := by
    intro s ticker hmem
    obtain ⟨bar, hbar⟩ := Dict.mem_iff_get?.mp ((mem_pySorted _).mp hmem : ticker ∈ bars)
    obtain ⟨hincluded, hrow, rfl, rfl⟩ := todayBars_mem m hprepared hbars hbar
    obtain ⟨metrics, hmetrics⟩ := m.metricsByKey_isSome hrow
    have hpresent : ∀ row ∈ m.tickerBars bar.ticker, ∀ metrics,
        m.metricsByKey row.date bar.ticker = some metrics →
        ∀ rule ∈ eng.spec.entryRules ++ eng.spec.exitRules, RulePresent rule metrics := by
      intro row hrow metrics hmetrics rule hrule
      refine rulePresent_of_required (fun name hname => ?_) hrule
      exact selectTickers_present m hprepared hselected hincluded hrow hmetrics name
        (hrequired ▸ hname)
    rw [hprepared]
    refine (generateTickerSignal_returns hmetrics hbar).trans (forall₂_congr fun rule hrule => ?_)
    change Returns (evaluateCondition rule metrics (m.previousMetricsByKey bar.date bar.ticker)) ↔ _
    rw [evaluateCondition_returns
      (hpresent bar (m.mem_tickerBars.mpr ⟨hrow, rfl⟩) metrics hmetrics rule hrule),
      m.previousMetrics_isSome hrow]
    intro previous hprevious
    obtain ⟨earlier, hearlier, hmetrics⟩ := m.previousMetrics_of_bar hprevious
    exact hpresent earlier hearlier previous hmetrics rule hrule
  unfold generateSignalsForDate
  refine (returns_bind_of fun _ => .ok _).trans ?_
  rw [hloop]
  unfold generateRuleSignalsForDate RulesShaped
  rw [traceM_returns_all hticker]
  refine forall_congr' fun ticker => ?_
  rw [mem_pySorted]
  rfl

/-- The write-off pass looks only at tickers that are still held. -/
theorem writeOffStalePositions_returns (spec : StrategySpec F) (config : BacktestRunConfig F)
    (date : Date) (bars : Bars F) (s : StaleBook F) :
    Returns (writeOffStalePositions spec config date bars s) := by
  have hstep : ∀ t : StaleBook F, ∀ ticker ∈ t.book.positions,
      Returns (writeOffStalePosition spec config date bars t ticker) := by
    intro t ticker hheld
    obtain ⟨position, hposition⟩ := Dict.mem_iff_get?.mp hheld
    unfold writeOffStalePosition
    split
    · exact .ok _
    · dsimp only
      split
      · exact .ok _
      · rw [hposition]
        exact .ok _
  unfold writeOffStalePositions
  split
  · exact .ok _
  · refine (traceM_returns_iff (p := fun _ _ => True) ?_).mpr fun _ _ _ _ _ _ _ => trivial
    intro done ticker rest t out hsplit hdone
    refine iff_true_intro (hstep t ticker ?_)
    have hkept : ∀ ticker, ticker ∉ done → ticker ∈ s.book.positions → ticker ∈ t.book.positions := by
      have hrun := traceM_run (I := fun done _ (t : StaleBook F) => ∀ ticker, ticker ∉ done →
        ticker ∈ s.book.positions → ticker ∈ t.book.positions) (d := []) (l := []) hdone
        (fun _ _ hheld => hheld) ?_
      · exact hrun
      · intro done rest log t name t' o _ ht hst other hother hheld
        rw [List.mem_append, List.mem_singleton, not_or] at hother
        have hheld := ht other hother.1 hheld
        cases writeOffStalePosition_cases hst with
        | counted => exact hheld
        | writtenOff => exact Dict.mem_erase.mpr ⟨hother.2, hheld⟩
    have hnodup : (done ++ ticker :: rest).Nodup := hsplit ▸ s.book.positions.keys_nodup
    have hnew : ticker ∉ done := fun hmem =>
      (List.nodup_append.mp hnodup).2.2 _ hmem _ (List.mem_cons_self ..) rfl
    have hmem : ticker ∈ s.book.positions.keys := by simp [hsplit]
    exact hkept ticker hnew hmem

end

/-- A float that is a number. -/
theorem flt_isFinite {x : Flt ℚ} : PyFloat.isFinite x = true ↔ ∃ q, x = .num q := by
  cases x with
  | num q => exact ⟨fun _ => ⟨q, rfl⟩, fun _ => rfl⟩
  | nan => exact ⟨nofun, nofun⟩

theorem NonNeg.num (x : NonNeg (Flt ℚ)) : ∃ q, x.val = .num q ∧ 0 ≤ q := by
  obtain ⟨x, hx⟩ := x
  cases x with
  | num q => exact ⟨q, rfl, hx⟩
  | nan => cases hx

theorem Positive.num (x : Positive (Flt ℚ)) : ∃ q, x.val = .num q ∧ 0 < q := by
  obtain ⟨x, hx⟩ := x
  cases x with
  | num q => exact ⟨q, rfl, hx⟩
  | nan => cases hx

theorem Fraction.num (x : Fraction (Flt ℚ)) : ∃ q, x.val = .num q ∧ 0 < q := by
  obtain ⟨x, hx⟩ := x
  cases x with
  | num q => exact ⟨q, rfl, hx.1⟩
  | nan => cases hx.1

/-- `int` of a number is no whole share exactly below one. -/
theorem trunc_nonpos (q : ℚ) : (if 0 ≤ q then ⌊q⌋ else ⌈q⌉) ≤ 0 ↔ ¬1 ≤ q := by
  split
  · rw [Int.floor_le_iff, not_le, Int.cast_zero, zero_add]
  · rename_i h
    rw [Int.ceil_le]
    constructor
    · intro _
      linarith
    · intro _
      simpa using (not_le.mp h).le

/-- A split that reaches a held name leaves it a whole share. -/
def SplitWhole (date : Date) (book : Book (Flt ℚ)) (event : CorporateActionEvent (Flt ℚ)) : Prop :=
  event.effectiveDate = date → ∀ position, book.positions.get? event.ticker = some position →
    ∀ splitRatio, event.eventType = .split splitRatio →
      1 ≤ PyFloat.ofInt position.quantity * splitRatio.val

theorem applyCorporateAction_returns (date : Date) (book : Book (Flt ℚ))
    (event : CorporateActionEvent (Flt ℚ)) :
    Returns (applyCorporateAction date book event) ↔ SplitWhole date book event := by
  unfold applyCorporateAction SplitWhole
  by_cases hdate : event.effectiveDate = date
  · rw [if_neg (not_not.mpr hdate)]
    cases hposition : book.positions.get? event.ticker with
    | none => simp
    | some position =>
      refine (returns_bind_of fun _ => .ok _).trans ?_
      cases hkind : event.eventType with
      | split splitRatio =>
        obtain ⟨ratio, hratio, -⟩ := splitRatio.num
        have hwhole : 1 ≤ PyFloat.ofInt position.quantity * splitRatio.val ↔
            1 ≤ (position.quantity : ℚ) * ratio := by
          rw [hratio]
          rfl
        have htrunc : PyFloat.trunc (PyFloat.ofInt position.quantity * splitRatio.val) =
            Except.ok (if 0 ≤ (position.quantity : ℚ) * ratio then ⌊(position.quantity : ℚ) * ratio⌋
              else ⌈(position.quantity : ℚ) * ratio⌉) := by
          rw [hratio]
          rfl
        unfold applyToPosition
        dsimp only
        rw [htrunc, ok_bind]
        by_cases hnone : (if 0 ≤ (position.quantity : ℚ) * ratio then
            ⌊(position.quantity : ℚ) * ratio⌋ else ⌈(position.quantity : ℚ) * ratio⌉) ≤ 0
        · rw [if_pos hnone]
          simp [hdate, hwhole, (trunc_nonpos _).mp hnone]
        · rw [if_neg hnone]
          simp [hdate, hwhole, not_not.mp ((trunc_nonpos _).not.mp hnone)]
      | cashDividend perShare => simp [applyToPosition]
      | delist recovery => simp [applyToPosition]
  · rw [if_pos hdate]
    simp [hdate]

theorem costDecimal_returns (cost : CostModel (Flt ℚ)) (q : ℚ) :
    Returns (costDecimal cost (.num q)) := by
  unfold costDecimal
  cases cost.roundingMode <;> exact .ok _

/-- An order whose share capacity is worked out from its notional. -/
def CapacityAsked (spec : StrategySpec (Flt ℚ)) (order : PendingOrder (Flt ℚ)) : Prop :=
  spec.backtest.executionCapacity.enabled = true ∧ ∃ rawNotional,
    order.priorRawNotional = some rawNotional ∧ PyFloat.isFinite rawNotional = true ∧
      ¬rawNotional ≤ 0

theorem flt_floorDiv_returns (x : Flt ℚ) {u : ℚ} (hu : u ≠ 0) :
    Returns (PyFloat.floorDiv x (.num u)) ↔ PyFloat.isFinite x = true := by
  cases x with
  | num q =>
    have hdiv : PyFloat.floorDiv (Flt.num q) (.num u) = Except.ok ⌊q / u⌋ := if_neg hu
    rw [hdiv]
    exact iff_of_true (.ok _) rfl
  | nan => exact iff_of_false nofun nofun

theorem capacityQuantity_returns (spec : StrategySpec (Flt ℚ)) (order : PendingOrder (Flt ℚ))
    (price : ℚ) :
    Returns (capacityQuantity spec order (.num price)) ↔ (CapacityAsked spec order → price ≠ 0) := by
  unfold capacityQuantity CapacityAsked
  dsimp only
  cases henabled : spec.backtest.executionCapacity.enabled with
  | false => simp
  | true =>
    rw [if_neg (by decide)]
    cases hnotional : order.priorRawNotional with
    | none => simp
    | some rawNotional =>
      dsimp only
      split
      · rename_i hnan
        simp [hnan]
      · rename_i hnumber
        split
        · rename_i hzero
          simp [hzero]
        · rename_i hpos
          obtain ⟨notional, rfl⟩ := flt_isFinite.mp (Bool.not_eq_false _ ▸ hnumber)
          obtain ⟨rate, hrate, -⟩ :=
            spec.backtest.executionCapacity.maxParticipationRate.num
          refine (returns_bind_of fun _ => .ok _).trans ?_
          rw [hrate]
          by_cases hprice : price = 0
          · subst hprice
            refine iff_of_false nofun fun h => ?_
            exact h ⟨rfl, _, rfl, rfl, hpos⟩ rfl
          · exact iff_of_true ((flt_floorDiv_returns _ hprice).mpr rfl) fun _ => hprice

/-- A held name whose sale is capped by capacity is not sold at a price of zero. -/
def SellPriced (spec : StrategySpec (Flt ℚ)) (book : Book (Flt ℚ)) (order : PendingOrder (Flt ℚ)) :
    Prop :=
  order.ticker ∈ book.positions → CapacityAsked spec order →
    spec.backtest.costModel.slippagePct.val ≠ 1

theorem sellCosts_returns (cost : CostModel (Flt ℚ)) {bar : OhlcvBar (Flt ℚ)} {opened : ℚ}
    (hopen : bar.open_ = .num opened) (price : ℚ) (quantity : ℤ) :
    Returns (sellCosts cost bar (.num price) quantity) := by
  obtain ⟨commissionPct, hcommission, -⟩ := cost.commissionPct.num
  obtain ⟨taxPct, htax, -⟩ := cost.taxPct.num
  obtain ⟨commission, hcommission'⟩ := costDecimal_returns cost (quantity * price * commissionPct)
  obtain ⟨tax, htax'⟩ := costDecimal_returns cost (quantity * price * taxPct)
  obtain ⟨slippage, hslippage⟩ := costDecimal_returns cost (quantity * (opened - price))
  unfold sellCosts
  rw [hcommission, htax, hopen]
  refine returns_bind.mpr ⟨commission, hcommission', ?_⟩
  refine returns_bind.mpr ⟨tax, htax', ?_⟩
  exact returns_bind.mpr ⟨slippage, hslippage, .ok _⟩

theorem executeSell_returns {bars : Bars (Flt ℚ)} (hbar : bars.get? order.ticker = some bar)
    (hopen : bar.open_ = .num opened) (hpos : 0 < opened) (spec : StrategySpec (Flt ℚ))
    (date : Date) (book : Book (Flt ℚ)) :
    Returns (executeSell spec date bars book order) ↔ SellPriced spec book order := by
  obtain ⟨slippage, hslippage, -⟩ := spec.backtest.costModel.slippagePct.num
  have hprice : bar.open_ * (1 - spec.backtest.costModel.slippagePct.val) =
      .num (opened * (1 - slippage)) := by
    rw [hopen, hslippage]
    rfl
  have hzero : opened * (1 - slippage) = 0 ↔ spec.backtest.costModel.slippagePct.val = 1 := by
    rw [mul_eq_zero, or_iff_right hpos.ne', sub_eq_zero, hslippage]
    exact ⟨fun h => congrArg Flt.num h.symm, fun h => (Flt.num.inj h).symm⟩
  unfold executeSell SellPriced
  cases hheld : book.positions.get? order.ticker with
  | none => simp [Dict.get?_eq_none_iff.mp hheld]
  | some position =>
    rw [hbar]
    dsimp only
    rw [hprice]
    refine (returns_bind_of ?_).trans ?_
    · rintro ⟨capacity, reason⟩
      cases reason with
      | some reason => exact .ok _
      | none =>
        dsimp only
        split
        · exact .ok _
        · exact (returns_bind_of fun _ => .ok _).mpr (sellCosts_returns _ hopen _ _)
    · rw [capacityQuantity_returns, ne_eq, hzero]
      simp [Dict.mem_of_get? hheld]

theorem flt_add_isFinite {x y : Flt ℚ} :
    PyFloat.isFinite (x + y) = true ↔ PyFloat.isFinite x = true ∧ PyFloat.isFinite y = true := by
  cases x with
  | num p =>
    cases y with
    | num q => exact iff_of_true rfl ⟨rfl, rfl⟩
    | nan => exact iff_of_false nofun fun h => nomatch h.2
  | nan => exact iff_of_false nofun fun h => nomatch h.1

/-- A sum is a number when all that is added is. -/
theorem flt_pySum_isFinite (xs : List (Flt ℚ)) :
    PyFloat.isFinite (pySum xs) = true ↔ ∀ x ∈ xs, PyFloat.isFinite x = true := by
  have hfold : ∀ (xs : List (Flt ℚ)) (a : Flt ℚ), PyFloat.isFinite (xs.foldl (· + ·) a) = true ↔
      PyFloat.isFinite a = true ∧ ∀ x ∈ xs, PyFloat.isFinite x = true := by
    intro xs
    induction xs with
    | nil => simp
    | cons x xs ih =>
      intro a
      rw [List.foldl_cons, ih, flt_add_isFinite, List.forall_mem_cons, and_assoc]
  rw [pySum, hfold]
  exact and_iff_right rfl

/-- The cash and today's mark of every held name are numbers. -/
def Marked (bars : Bars (Flt ℚ)) (book : Book (Flt ℚ)) : Prop :=
  PyFloat.isFinite book.cash = true ∧ ∀ ticker position,
    book.positions.get? ticker = some position →
      PyFloat.isFinite ((bars.get? ticker).elim position.lastPrice OhlcvBar.open_) = true

theorem marked_iff (bars : Bars (Flt ℚ)) (book : Book (Flt ℚ)) :
    PyFloat.isFinite (book.cash + markedValue bars OhlcvBar.open_ book.positions) = true ↔
      Marked bars book := by
  have hscaled : ∀ (n : ℤ) (x : Flt ℚ),
      PyFloat.isFinite (PyFloat.ofInt n * x) = true ↔ PyFloat.isFinite x = true := by
    rintro n (q | _)
    · exact Iff.rfl
    · exact Iff.rfl
  rw [flt_add_isFinite, markedValue, flt_pySum_isFinite, List.forall_mem_map]
  refine and_congr_right fun _ => ?_
  constructor
  · intro h ticker position hposition
    exact (hscaled _ _).mp (h _ (Dict.entry_mem_of_get? hposition))
  · rintro h ⟨ticker, position⟩ he
    exact (hscaled _ _).mpr (h ticker position (Dict.get?_of_entry_mem he))

/-- A strategy budget is worked out, and is a number when the equity is. -/
theorem strategyBudget_returns (spec : StrategySpec (Flt ℚ)) (currentEquity : Flt ℚ) {slots : ℤ}
    (hslots : 1 ≤ slots) : ∃ budget, strategyBudget spec currentEquity slots = .ok budget ∧
      (currentEquity = .nan → budget = .nan) ∧
      (PyFloat.isFinite currentEquity = true → PyFloat.isFinite budget = true) := by
  have hdiv : ∀ (x : Flt ℚ) {q : ℚ}, q ≠ 0 →
      (x = .nan → x / .num q = .nan) ∧ (PyFloat.isFinite x = true → PyFloat.isFinite (x / .num q) = true) := by
    rintro (p | _) q hq
    · refine ⟨nofun, fun _ => ?_⟩
      have hquot : Flt.num p / Flt.num q = Flt.num (p / q) := if_neg (by simpa using hq)
      rw [hquot]
      rfl
    · exact ⟨fun _ => rfl, nofun⟩
  have hmul : ∀ (x : Flt ℚ) (q : ℚ),
      (x = .nan → x * .num q = .nan) ∧ (PyFloat.isFinite x = true → PyFloat.isFinite (x * .num q) = true) := by
    rintro (p | _) q
    · exact ⟨nofun, fun _ => rfl⟩
    · exact ⟨fun _ => rfl, nofun⟩
  unfold strategyBudget
  cases hmethod : spec.positionSizing.method with
  | equalWeight =>
    have hne : (slots : ℚ) ≠ 0 := by
      have hpos : 0 < slots := hslots
      exact_mod_cast hpos.ne'
    exact ⟨_, rfl, hdiv currentEquity hne⟩
  | fixedPercent fixedPercent =>
    obtain ⟨percent, hpercent, -⟩ := fixedPercent.num
    exact ⟨_, rfl, hpercent ▸ hmul currentEquity percent⟩
  | fixedRisk riskPerPosition =>
    obtain ⟨risk, hrisk, -⟩ := riskPerPosition.num
    cases hstop : spec.riskControls.stopLossPct with
    | none => exact absurd hstop (spec.stopLoss_of_fixedRisk _ hmethod)
    | some stopLossPct =>
      obtain ⟨stop, hstop, hpos⟩ := stopLossPct.num
      refine ⟨_, rfl, ?_⟩
      rw [hrisk, hstop]
      have hproduct := hmul currentEquity risk
      have hquotient := hdiv (currentEquity * .num risk) hpos.ne'
      exact ⟨fun h => hquotient.1 (hproduct.1 h), fun h => hquotient.2 (hproduct.2 h)⟩

theorem buyBudget_isFinite (spec : StrategySpec (Flt ℚ)) {currentEquity budget : Flt ℚ}
    {positionsValue : Flt ℚ} (hnan : currentEquity = .nan → budget = .nan)
    (hnum : PyFloat.isFinite currentEquity = true → PyFloat.isFinite budget = true ∧
      PyFloat.isFinite positionsValue = true) :
    PyFloat.isFinite (buyBudget spec currentEquity positionsValue budget) = true ↔
      PyFloat.isFinite currentEquity = true := by
  have hmin : ∀ {x y : Flt ℚ}, PyFloat.isFinite x = true → PyFloat.isFinite y = true →
      PyFloat.isFinite (pyMin x y) = true := by
    intro x y hx hy
    unfold pyMin
    split <;> assumption
  have hmax : ∀ {x y : Flt ℚ}, PyFloat.isFinite x = true → PyFloat.isFinite y = true →
      PyFloat.isFinite (pyMax x y) = true := by
    intro x y hx hy
    unfold pyMax
    split <;> assumption
  have hminnan : ∀ x : Flt ℚ, pyMin .nan x = .nan := by
    rintro (q | _) <;> rfl
  obtain ⟨single, hsingle, -⟩ := spec.riskControls.maxSinglePositionPct.num
  obtain ⟨gross, hgross, -⟩ := spec.riskControls.maxGrossExposurePct.num
  unfold buyBudget
  rw [hsingle, hgross]
  cases currentEquity with
  | num equity =>
    obtain ⟨hbudget, hvalue⟩ := hnum rfl
    obtain ⟨value, rfl⟩ := flt_isFinite.mp hvalue
    exact iff_of_true (hmin (hmin hbudget rfl) (hmax rfl rfl)) rfl
  | nan => rw [hnan rfl, hminnan, hminnan]

/-- A buy that is sized has numbers to size it by. -/
def BuyMarked (spec : StrategySpec (Flt ℚ)) (bars : Bars (Flt ℚ)) (book : Book (Flt ℚ)) : Prop :=
  (∀ maxPositions, spec.positionSizing.maxPositions = some maxPositions →
    book.positions.size < maxPositions) → Marked bars book

theorem buyCosts_returns (cost : CostModel (Flt ℚ)) {bar : OhlcvBar (Flt ℚ)} {opened : ℚ}
    (hopen : bar.open_ = .num opened) (price : ℚ) (quantity : ℤ) :
    Returns (buyCosts cost bar (.num price) quantity) := by
  obtain ⟨commissionPct, hcommission, -⟩ := cost.commissionPct.num
  obtain ⟨commission, hcommission'⟩ := costDecimal_returns cost (quantity * price * commissionPct)
  obtain ⟨slippage, hslippage⟩ := costDecimal_returns cost (quantity * (price - opened))
  unfold buyCosts
  rw [hcommission, hopen]
  refine returns_bind.mpr ⟨commission, hcommission', ?_⟩
  exact returns_bind.mpr ⟨slippage, hslippage, .ok _⟩

theorem one_le_slots (spec : StrategySpec (Flt ℚ)) (n : ℤ) :
    1 ≤ (match spec.positionSizing.maxPositions with
      | some maxPositions => (maxPositions : ℤ)
      | none => max 1 n) := by
  cases spec.positionSizing.maxPositions with
  | some maxPositions =>
    have hone : 1 ≤ (maxPositions : ℕ) := maxPositions.pos
    exact Int.ofNat_le.mpr hone
  | none => exact le_max_left _ _

theorem sizeBuy_returns {bar : OhlcvBar (Flt ℚ)} (hopen : bar.open_ = .num opened)
    (hpos : 0 < opened) (spec : StrategySpec (Flt ℚ)) (date : Date) (bars : Bars (Flt ℚ))
    (orderCount : ℕ) (book : Book (Flt ℚ)) (order : PendingOrder (Flt ℚ)) :
    Returns (sizeBuy spec date bars orderCount bar book order) ↔ Marked bars book := by
  obtain ⟨slippage, hslippage, hslip⟩ := spec.backtest.costModel.slippagePct.num
  obtain ⟨commission, hcommission, hcomm⟩ := spec.backtest.costModel.commissionPct.num
  have hbuy : bar.open_ * (1 + spec.backtest.costModel.slippagePct.val) =
      .num (opened * (1 + slippage)) := by
    rw [hopen, hslippage]
    rfl
  have hunit : Flt.num (opened * (1 + slippage)) *
      (1 + spec.backtest.costModel.commissionPct.val) =
        .num (opened * (1 + slippage) * (1 + commission)) := by
    rw [hcommission]
    rfl
  have hprice : 0 < opened * (1 + slippage) := mul_pos hpos (by linarith)
  have hcash : 0 < opened * (1 + slippage) * (1 + commission) := mul_pos hprice (by linarith)
  have hvalid : ¬(PyFloat.isFinite (Flt.num (opened * (1 + slippage) * (1 + commission))) = false ∨
      Flt.num (opened * (1 + slippage) * (1 + commission)) ≤ 0) := by
    rintro (hnan | hle)
    · cases hnan
    · exact not_le.mpr hcash hle
  unfold sizeBuy
  dsimp only
  rw [hbuy, hunit, if_neg hvalid, ← marked_iff]
  obtain ⟨budget, hbudget, hnan, hnum⟩ := strategyBudget_returns spec
    (book.cash + markedValue bars OhlcvBar.open_ book.positions)
    (one_le_slots spec ((book.positions.size : ℤ) + orderCount))
  have hsized := buyBudget_isFinite spec hnan fun hequity =>
    ⟨hnum hequity, (flt_add_isFinite.mp hequity).2⟩
  constructor
  · intro h
    obtain ⟨budget', hbudget', h⟩ := returns_bind.mp h
    cases hbudget.symm.trans hbudget'
    obtain ⟨budgetQuantity, hquantity, -⟩ := returns_bind.mp h
    exact hsized.mp ((flt_floorDiv_returns _ hcash.ne').mp ⟨_, hquantity⟩)
  · intro hequity
    obtain ⟨budgetQuantity, hquantity⟩ :=
      (flt_floorDiv_returns _ hcash.ne').mpr (hsized.mpr hequity)
    obtain ⟨affordable, haffordable⟩ :=
      (flt_floorDiv_returns _ hcash.ne').mpr (flt_add_isFinite.mp hequity).1
    obtain ⟨⟨capacity, reason⟩, hcapacity⟩ :=
      (capacityQuantity_returns spec order _).mpr fun _ => hprice.ne'
    refine returns_bind.mpr ⟨budget, hbudget, ?_⟩
    rw [hquantity, ok_bind, haffordable, ok_bind, hcapacity, ok_bind]
    cases reason with
    | some reason => exact .ok _
    | none =>
      dsimp only
      split
      · exact .ok _
      · exact (returns_bind_of fun _ => .ok _).mpr (buyCosts_returns _ hopen _ _)

theorem executeBuy_returns {bars : Bars (Flt ℚ)} (hbar : bars.get? order.ticker = some bar)
    (hopen : bar.open_ = .num opened) (hpos : 0 < opened) (spec : StrategySpec (Flt ℚ))
    (date : Date) (orderCount : ℕ) (book : Book (Flt ℚ)) :
    Returns (executeBuy spec date bars orderCount book order) ↔ BuyMarked spec bars book := by
  unfold executeBuy BuyMarked
  cases hmax : spec.positionSizing.maxPositions with
  | none =>
    rw [hbar]
    simp [sizeBuy_returns hopen hpos]
  | some maxPositions =>
    rw [hbar, Option.elim_some]
    by_cases hfull : (maxPositions : ℕ) ≤ book.positions.size
    · simp [hfull, not_lt.mpr hfull]
    · simp [hfull, not_le.mp hfull, sizeBuy_returns hopen hpos]

/-- An open whose sells are priced and whose buys are sized by numbers. -/
structure OrdersFillable (spec : StrategySpec (Flt ℚ)) (date : Date) (bars : Bars (Flt ℚ))
    (book : Book (Flt ℚ)) (executable : List (PendingOrder (Flt ℚ))) : Prop where
  sells : AllReached (executeSell spec date bars) (SellPriced spec) book (sellOrders executable)
  buys : ∀ sold log, traceM (executeSell spec date bars) book (sellOrders executable) =
    .ok (sold, log) →
      AllReached (executeBuy spec date bars (buyOrders sold.positions executable).length)
        (fun book _ => BuyMarked spec bars book) sold (buyOrders sold.positions executable)

theorem executable_bar {bars : Bars (Flt ℚ)} (h : order ∈ executableOrders date bars pendingOrders) :
    ∃ bar opened, bars.get? order.ticker = some bar ∧ bar.open_ = .num opened ∧ 0 < opened := by
  have hopen := Option.isNone_iff_eq_none.mp (List.mem_filter.mp h).2
  obtain ⟨bar, hbar, hfinite, hpos⟩ := rejectAtOpen_eq_none.mp hopen
  obtain ⟨opened, hopened⟩ := flt_isFinite.mp hfinite
  rw [hopened] at hpos
  exact ⟨bar, opened, hbar, hopened, not_le.mp hpos⟩

theorem executePendingOrders_returns (spec : StrategySpec (Flt ℚ)) (date : Date)
    (bars : Bars (Flt ℚ)) (book : Book (Flt ℚ)) (pendingOrders : List (PendingOrder (Flt ℚ))) :
    Returns (executePendingOrders spec date bars book pendingOrders) ↔
      OrdersFillable spec date bars book (executableOrders date bars pendingOrders) := by
  have hsell : Returns (traceM (executeSell spec date bars) book
      (sellOrders (executableOrders date bars pendingOrders))) ↔
        AllReached (executeSell spec date bars) (SellPriced spec) book
          (sellOrders (executableOrders date bars pendingOrders)) := by
    refine traceM_returns_iff (.of_forall fun book order horder => ?_)
    obtain ⟨bar, opened, hbar, hopen, hpos⟩ := executable_bar (List.mem_filter.mp horder).1
    exact executeSell_returns hbar hopen hpos spec date book
  have hbuy : ∀ (n : ℕ) (sold : Book (Flt ℚ)), Returns (traceM (executeBuy spec date bars n) sold
      (buyOrders sold.positions (executableOrders date bars pendingOrders))) ↔
        AllReached (executeBuy spec date bars n) (fun book _ => BuyMarked spec bars book) sold
          (buyOrders sold.positions (executableOrders date bars pendingOrders)) := by
    intro n sold
    refine traceM_returns_iff (.of_forall fun book order horder => ?_)
    have hmem := (mem_pySorted _).mp horder
    obtain ⟨bar, opened, hbar, hopen, hpos⟩ := executable_bar (List.mem_filter.mp hmem).1
    exact executeBuy_returns hbar hopen hpos spec date n book
  unfold executePendingOrders
  dsimp only
  constructor
  · intro h
    obtain ⟨⟨sold, log⟩, hsold, h⟩ := returns_bind.mp h
    refine ⟨hsell.mp ⟨_, hsold⟩, fun sold' log' hsold' => ?_⟩
    cases hsold.symm.trans hsold'
    exact (hbuy _ sold).mp ((returns_bind_of fun _ => .ok _).mp h)
  · intro h
    obtain ⟨⟨sold, log⟩, hsold⟩ := hsell.mpr h.sells
    refine returns_bind.mpr ⟨_, hsold, (returns_bind_of fun _ => .ok _).mpr ?_⟩
    exact (hbuy _ sold).mpr (h.buys sold log hsold)

/-- A session none of whose passes raises, told from the state it starts in. -/
structure SessionRuns (eng : BacktestEngine (Flt ℚ)) (included : List Ticker)
    (s : EngineState (Flt ℚ)) (date : Date) : Prop where
  splits : AllReached (applyCorporateAction date) (SplitWhole date) ⟨s.cash, s.positions⟩
    eng.spec.backtest.corporateActions
  fills : ∀ bars book log, eng.todayBars included date = some bars →
    applyCorporateActions eng.spec date ⟨s.cash, s.positions⟩ = .ok (book, log) →
      OrdersFillable eng.spec date bars book (executableOrders date bars s.pendingOrders)
  rules : ∀ bars, eng.todayBars included date = some bars →
    RulesShaped eng.spec eng.ohlcvRows date bars

theorem applyCorporateActions_returns (spec : StrategySpec (Flt ℚ)) (date : Date)
    (book : Book (Flt ℚ)) : Returns (applyCorporateActions spec date book) ↔
      AllReached (applyCorporateAction date) (SplitWhole date) book
        spec.backtest.corporateActions :=
  traceM_returns_iff (.of_forall fun book event _ => applyCorporateAction_returns date book event)

theorem session_returns {eng : BacktestEngine (Flt ℚ)} (m : MarketInputs (Flt ℚ))
    (hprepared : eng.prepared = prepareMarketData m) (hrows : m.ohlcvRows.rows = eng.ohlcvRows)
    (hgenerated : eng.generatedActions = none) (hselected : eng.selectTickers = .ok selected)
    (hdate : date ∈ eng.sessions selected.1) (s : EngineState (Flt ℚ)) :
    Returns (session eng selected.1 s date) ↔ SessionRuns eng selected.1 s date := by
  obtain ⟨bars, hbars⟩ : ∃ bars, eng.todayBars selected.1 date = some bars := by
    have hsome := (List.mem_filter.mp hdate).2
    cases h : eng.todayBars selected.1 date with
    | none =>
      rw [h] at hsome
      cases hsome
    | some bars => exact ⟨bars, rfl⟩
  have hsignals := fun positions pendingOrders => generateSignalsForDate_returns m hprepared
    hgenerated hselected hbars positions pendingOrders
  rw [hrows] at hsignals
  unfold session
  rw [hbars]
  simp only [Option.elim_some, pure_bind]
  constructor
  · intro h
    obtain ⟨⟨book, log⟩, hcorporate, h⟩ := returns_bind.mp h
    obtain ⟨executed, hexecuted, h⟩ := returns_bind.mp h
    obtain ⟨forced, -, h⟩ := returns_bind.mp h
    refine ⟨(applyCorporateActions_returns ..).mp ⟨_, hcorporate⟩, ?_, ?_⟩
    · intro bars' book' log' hbars' hcorporate'
      cases hbars.symm.trans hbars'
      cases hcorporate.symm.trans hcorporate'
      exact (executePendingOrders_returns ..).mp ⟨_, hexecuted⟩
    · intro bars' hbars'
      cases hbars.symm.trans hbars'
      exact (hsignals _ _).mp ((returns_bind_of fun _ => .ok _).mp h)
  · intro h
    obtain ⟨⟨book, log⟩, hcorporate⟩ := (applyCorporateActions_returns ..).mpr h.splits
    obtain ⟨executed, hexecuted⟩ :=
      (executePendingOrders_returns ..).mpr (h.fills bars book log hbars hcorporate)
    obtain ⟨forced, hforced⟩ := writeOffStalePositions_returns eng.spec eng.config date bars
      ⟨executed.1, s.staleDays⟩
    refine returns_bind.mpr ⟨_, hcorporate, returns_bind.mpr ⟨_, hexecuted, ?_⟩⟩
    refine returns_bind.mpr ⟨_, hforced, (returns_bind_of fun _ => .ok _).mpr ?_⟩
    exact (hsignals _ _).mpr (h.rules bars hbars)

namespace BacktestEngine

/-- A backtest with rows and an execution timing the engine has, whose sessions all run. -/
structure Runs (eng : BacktestEngine (Flt ℚ)) : Prop where
  rows : eng.ohlcvRows ≠ []
  timing : eng.spec.backtest.executionTiming = .nextOpen
  sessions : ∀ selected, eng.selectTickers = .ok selected →
    AllReached (session eng selected.1) (SessionRuns eng selected.1) eng.initialState
      (eng.sessions selected.1)

theorem checkRunnable_returns (eng : BacktestEngine (Flt ℚ)) : Returns eng.checkRunnable ↔
    eng.ohlcvRows ≠ [] ∧ eng.spec.backtest.executionTiming = .nextOpen := by
  unfold checkRunnable
  cases hrows : eng.ohlcvRows with
  | nil => simp
  | cons bar bars =>
    by_cases htiming : eng.spec.backtest.executionTiming = .nextOpen <;> simp [htiming]

end BacktestEngine

theorem listOperand_shaped : ConditionOperator.lt = .between →
    ∃ low high, Operand.range [Flt.num (1 : ℚ), .num 2] = .range [low, high] ∧ ¬high < low := by
  rintro ⟨⟩

theorem fraction_one_listOperand : 0 < (Flt.num 1 : Flt ℚ) ∧ (Flt.num 1 : Flt ℚ) ≤ 1 := by
  decide +kernel

theorem fraction_stopLoss_listOperand :
    0 < (Flt.num (2 / 25) : Flt ℚ) ∧ (Flt.num (2 / 25) : Flt ℚ) ≤ 1 := by decide +kernel

theorem fraction_position_listOperand :
    0 < (Flt.num (1 / 5) : Flt ℚ) ∧ (Flt.num (1 / 5) : Flt ℚ) ≤ 1 := by decide +kernel

theorem fraction_participation_listOperand :
    0 < (Flt.num (1 / 100) : Flt ℚ) ∧ (Flt.num (1 / 100) : Flt ℚ) ≤ 1 := by decide +kernel

theorem commission_nonneg_listOperand : 0 ≤ (Flt.num (3 / 20000) : Flt ℚ) := by decide +kernel

theorem tax_nonneg_listOperand : 0 ≤ (Flt.num (23 / 10000) : Flt ℚ) := by decide +kernel

theorem slippage_nonneg_listOperand : 0 ≤ (Flt.num (1 / 1000) : Flt ℚ) := by decide +kernel

theorem ten_pos_positions : 0 < 10 := by decide

theorem six_lt_decimals : 6 < 11 := by decide

/-- The defaults of `StrategySpec` with the entry rule `close < [1, 2]`, which its model accepts. -/
def listOperandSpec : StrategySpec (Flt ℚ) where
  entryRules := [⟨"close", .lt, .range [.num 1, .num 2], none, listOperand_shaped⟩]
  entryLogic := .all
  exitRules := []
  exitLogic := .any
  positionSizing := ⟨.equalWeight, some ⟨10, ten_pos_positions⟩⟩
  riskControls :=
    { maxGrossExposurePct := ⟨.num 1, fraction_one_listOperand⟩
      stopLossPct := some ⟨.num (2 / 25), fraction_stopLoss_listOperand⟩
      takeProfitPct := none
      maxSinglePositionPct := ⟨.num (1 / 5), fraction_position_listOperand⟩ }
  backtest :=
    { executionTiming := .nextOpen
      costModel := ⟨⟨.num (3 / 20000), commission_nonneg_listOperand⟩,
        ⟨.num (23 / 10000), tax_nonneg_listOperand⟩,
        ⟨.num (1 / 1000), slippage_nonneg_listOperand⟩, none, .none, ⟨6, six_lt_decimals⟩⟩
      executionCapacity := ⟨true, ⟨.num (1 / 100), fraction_participation_listOperand⟩⟩
      corporateActions := [] }
  entryRules_ne_nil := by simp
  stopLoss_of_fixedRisk := by simp

/-- One day of one ticker. -/
def oneDayRows : EngineRows (Flt ℚ) where
  rows := [⟨1, "005930", .num 10, .num 12, .num 9, .num 11, .num 100, some (.num 1000)⟩]
  metricRows := fun _ _ => none
  inputsNormalized := false
  promised := nofun

end QuantAgent
